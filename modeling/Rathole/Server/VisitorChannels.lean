import Rathole.Server.Interleaving

/-!
# One channel for a user and an address?

A visitor's handshake ends by dropping what stands under its digest and
putting its own handle there. The digest hashes the address as the visitor
has written it, while the checks before it parse the address. Of one address
there are many spellings (`0.0.0.0:8080` and `0.0.0.0:08080`), and the entry
of another spelling stays where it is.
-/

namespace Rathole.Server

open Runs

section

/-- The channel of the visitor `v`, in the registry. -/
def VisitorEntry (s : State) (d : Digest) (k : Nonce) (h : Handle)
    (v : Visitor) : Prop :=
  s.controlChannels.Entry d k h ∧ Finished s h.owner (.visitorEstablished v)

/-- The visitors are one user and want one socket address. -/
def SameSeat (v v' : Visitor) : Prop :=
  v.userName = v'.userName ∧
    ∃ addr, SocketAddr.parse v.auth.bindAddr = some addr ∧
      SocketAddr.parse v'.auth.bindAddr = some addr

/-- Each user has at most one visitor channel for each socket address. -/
def OneChannel (s : State) : Prop :=
  ∀ d k h v d' k' h' v', VisitorEntry s d k h v → VisitorEntry s d' k' h' v' →
    SameSeat v v' → d = d' ∧ k = k' ∧ h = h'

/-- By this step the handshake of `c` puts the channel of `v` there. -/
def Registers (s : State) (a : Action) (c : ConnId) (v : Visitor) : Prop :=
  a = .conn c .proceed ∧ s.channelsWritable = true ∧
    ∃ conn, s.conns.lookup c = some conn ∧ conn.pc = .lockVisitor v

variable (digest : Bytes → Digest)

/-- The step leaves one channel for each user and address; if it registers a
channel, that is the one that is there. -/
def KeepsOneChannel (s : State) (a : Action) : Prop :=
  ∀ t, step digest s a = some t → OneChannel t ∧
    ∀ c v, Registers s a c v →
      (∃ d k h, VisitorEntry t d k h v ∧ h.owner = c) ∧
      ∀ d k h v', VisitorEntry s d k h v' → SameSeat v' v →
        ¬ t.controlChannels.Entry d k h

/-- Whatever is registered is spelt as the channel it replaces is, and the
session nonce that was drawn for it is in use nowhere else. -/
def SpeltAlike (s : State) (a : Action) : Prop :=
  ∀ c v, Registers s a c v →
    (∀ d k h v', VisitorEntry s d k h v' → SameSeat v' v →
      d = visitorDigest digest v) ∧
    ∀ d h, s.controlChannels.Entry d v.sessionNonce h →
      d = visitorDigest digest v

variable {digest} {s t : State} {a : Action} {c : ConnId} {v : Visitor}

/-! ## What a registration does -/

/-- The handle that a visitor's handshake makes. -/
def visitorHandle (s : State) (c : ConnId) (v : Visitor) : Handle :=
  ⟨c, visitorService v, s.config.heartbeatInterval⟩

theorem Registers.enabled (digest : Bytes → Digest)
    (hreg : Registers s a c v) : ∃ t, step digest s a = some t := by
  obtain ⟨rfl, hlock, conn, hconn, hpc⟩ := hreg
  simp only [step, hconn, localStep, proceed, hpc, if_pos hlock]
  exact ⟨_, rfl⟩

theorem Registers.step_eq (hreg : Registers s a c v)
    (hstep : step digest s a = some t) :
    Finished t c (.visitorEstablished v) ∧
    t.controlChannels =
      ((s.drop (visitorDigest digest v) (.handshake c)).install
        (visitorDigest digest v) v.sessionNonce
        (visitorHandle s c v)).controlChannels := by
  obtain ⟨rfl, hlock, conn, hconn, hpc⟩ := hreg
  simp only [step, hconn, localStep, proceed, hpc, if_pos hlock] at hstep
  cases hstep
  exact ⟨⟨_, lookup_setConn_self, rfl⟩, rfl⟩

/-- What stands under another digest stays. -/
theorem Registers.entry_other (hreg : Registers s a c v)
    (hstep : step digest s a = some t) {d : Digest} {k : Nonce} {h : Handle}
    (he : s.controlChannels.Entry d k h) (hd : d ≠ visitorDigest digest v) :
    t.controlChannels.Entry d k h := by
  rw [(hreg.step_eq hstep).2]
  apply entry_install_of_entry
  exact MultiMap.entry_remove1.mpr ⟨he, hd⟩

/-- If the session nonce is in use nowhere else, the channel is there. -/
theorem Registers.entry_self (hreg : Registers s a c v)
    (hstep : step digest s a = some t)
    (hnonce : ∀ d h, s.controlChannels.Entry d v.sessionNonce h →
      d = visitorDigest digest v) :
    t.controlChannels.Entry (visitorDigest digest v) v.sessionNonce
      (visitorHandle s c v) := by
  rw [(hreg.step_eq hstep).2]
  have hdigest : ∀ k h, ¬ (s.drop (visitorDigest digest v)
      (.handshake c)).controlChannels.Entry (visitorDigest digest v) k h :=
    fun k h he => (MultiMap.entry_remove1.mp he).2 rfl
  have hkey : ∀ d h, ¬ (s.drop (visitorDigest digest v)
      (.handshake c)).controlChannels.Entry d v.sessionNonce h := by
    intro d h he
    obtain ⟨hold, hne⟩ := MultiMap.entry_remove1.mp he
    exact hne (hnonce d h hold)
  exact (entry_install hdigest hkey).mpr (Or.inr ⟨rfl, rfl, rfl⟩)

/-- A visitor's channel after a step was there before, or is registered by
the step, under the visitor's own digest. -/
theorem visitorEntry_of_step (hs : EntriesEstablished digest s)
    (hstep : step digest s a = some t) {d : Digest} {k : Nonce} {h : Handle}
    (he : VisitorEntry t d k h v) :
    VisitorEntry s d k h v ∨
      (Registers s a h.owner v ∧ d = visitorDigest digest v) := by
  obtain ⟨hentry, hfin⟩ := he
  rcases entry_of_step hstep hentry with hold | hi
  · left
    obtain ⟨o, ho, -⟩ := hs d k h hold
    rw [(ho.step hstep).unique hfin] at ho
    exact ⟨hold, ho⟩
  · right
    cases hi with
    | control ha hconn hpc hfin' => cases hfin.unique hfin'
    | visitor ha hlock hconn hpc hfin' hx =>
        cases hfin.unique hfin'
        exact ⟨⟨ha, hlock, _, hconn, hpc⟩, (Prod.mk.inj hx).1⟩

theorem SameSeat.symm {v' : Visitor} (h : SameSeat v v') : SameSeat v' v := by
  obtain ⟨huser, addr, hv, hv'⟩ := h
  exact ⟨huser.symm, addr, hv', hv⟩

theorem Registers.unique {c' : ConnId} {v' : Visitor}
    (hreg : Registers s a c v) (hreg' : Registers s a c' v') :
    c = c' ∧ v = v' := by
  obtain ⟨rfl, -, conn, hconn, hpc⟩ := hreg
  obtain ⟨ha, -, conn', hconn', hpc'⟩ := hreg'
  cases ha
  cases hconn.symm.trans hconn'
  rw [hpc] at hpc'
  cases hpc'
  exact ⟨rfl, rfl⟩

/-! ## One step -/

theorem OneChannel.step (h : OneChannel s) (hs : EntriesEstablished digest s)
    (hspelt : SpeltAlike digest s a)
    (hstep : Server.step digest s a = some t) : OneChannel t := by
  -- two entries under one digest are one
  have hsame : ∀ {d d' k k' h h'}, t.controlChannels.Entry d k h →
      t.controlChannels.Entry d' k' h' → d = d' → d = d' ∧ k = k' ∧ h = h' := by
    rintro d d' k k' h h' he he' rfl
    exact ⟨rfl, he.unique1 he'⟩
  intro d k x v d' k' x' v' he he' hseat
  rcases visitorEntry_of_step hs hstep he with hold | ⟨hreg, hd⟩
  · rcases visitorEntry_of_step hs hstep he' with hold' | ⟨hreg', hd'⟩
    · exact h d k x v d' k' x' v' hold hold' hseat
    · have hd := (hspelt _ v' hreg').1 d k x v hold hseat
      exact hsame he.1 he'.1 (hd.trans hd'.symm)
  · rcases visitorEntry_of_step hs hstep he' with hold' | ⟨hreg', hd'⟩
    · have hd' := (hspelt _ v hreg).1 d' k' x' v' hold' hseat.symm
      exact hsame he.1 he'.1 (hd.trans hd'.symm)
    · obtain ⟨-, rfl⟩ := hreg.unique hreg'
      exact hsame he.1 he'.1 (hd.trans hd'.symm)

theorem keepsOneChannel_of_speltAlike (h : OneChannel s)
    (hs : EntriesEstablished digest s) (hspelt : SpeltAlike digest s a) :
    KeepsOneChannel digest s a := by
  intro t hstep
  refine ⟨h.step hs hspelt hstep, ?_⟩
  intro c v hreg
  obtain ⟨hfin, -⟩ := hreg.step_eq hstep
  have hnew := hreg.entry_self hstep (hspelt c v hreg).2
  refine ⟨⟨_, _, _, ⟨hnew, hfin⟩, rfl⟩, ?_⟩
  intro d k x v' he hseat hleft
  have hd := (hspelt c v hreg).1 d k x v' he hseat
  subst hd
  obtain ⟨rfl, rfl⟩ := hleft.unique1 hnew
  -- the owner of an old entry has finished, the new one's was at the lock
  obtain ⟨conn, hconn, hpc⟩ := he.2
  obtain ⟨-, -, conn', hconn', hpc'⟩ := hreg
  cases hconn.symm.trans hconn'
  rw [hpc] at hpc'
  cases hpc'

theorem speltAlike_of_keepsOneChannel (hs : EntriesEstablished digest s)
    (hkeeps : KeepsOneChannel digest s a) : SpeltAlike digest s a := by
  intro c v hreg
  obtain ⟨t, hstep⟩ := hreg.enabled digest
  obtain ⟨⟨d, k, h, hnew, howner⟩, hgone⟩ := (hkeeps t hstep).2 c v hreg
  constructor
  · intro d' k' h' v' he hseat
    by_contra hd
    exact hgone d' k' h' v' he hseat (hreg.entry_other hstep he.1 hd)
  · intro d' h' he
    by_contra hd
    have hleft := hreg.entry_other hstep he hd
    rcases entry_of_step hstep hnew.1 with hold | hi
    · -- nobody who is still at the lock has an entry
      obtain ⟨o, ⟨conn, hconn, hpc⟩, -⟩ := hs d k h hold
      obtain ⟨-, -, conn', hconn', hpc'⟩ := hreg
      rw [howner] at hconn
      cases hconn.symm.trans hconn'
      rw [hpc] at hpc'
      cases hpc'
    · cases hi with
      | control ha hconn hpc hfin => cases hfin.unique hnew.2
      | visitor ha hlock hconn hpc hfin hx =>
          cases hfin.unique hnew.2
          rw [Prod.mk.injEq, Prod.mk.injEq] at hx
          obtain ⟨rfl, rfl, -⟩ := hx
          exact hd (hleft.unique2 hnew.1).1

theorem oneChannel_init (config : ServerConfig) :
    OneChannel (init digest config) :=
  fun _ _ _ _ _ _ _ _ he => absurd he.1 MultiMap.not_entry_new

/-! ## Runs -/

/-- **Each user has one channel for each address, and the latest**, exactly in
the runs in which nobody registers an address that is registered in another
spelling, or draws a session nonce that is in use. -/
theorem one_visitor_channel_iff (digest : Bytes → Digest)
    (config : ServerConfig) (as : List Action) :
    Meets (step digest) (KeepsOneChannel digest) (init digest config) as ↔
      Meets (step digest) (SpeltAlike digest) (init digest config) as := by
  refine meets_congr (I := fun s => EntriesEstablished digest s ∧ OneChannel s)
    ?_ ?_ ?_
  · rintro s a ⟨hs, hone⟩
    exact ⟨speltAlike_of_keepsOneChannel hs,
      keepsOneChannel_of_speltAlike hone hs⟩
  · rintro s a t ⟨hs, -⟩ hkeeps hstep
    exact ⟨hs.step hstep, (hkeeps t hstep).1⟩
  · exact ⟨entriesEstablished_init config, oneChannel_init config⟩

end

/-- SHA-256 on what `sampleDigest` has, and on the identity of a visitor that
writes its port with a zero in front. -/
def spellingDigest (data : Bytes) : Digest :=
  if data = utf8 "alice:visitor:0.0.0.0:08080" then
    #v[204, 20, 130, 5, 21, 158, 55, 16, 91, 214, 123, 191, 205, 232, 24, 31,
      219, 189, 196, 246, 128, 13, 146, 147, 27, 180, 252, 163, 24, 234, 3, 39]
  else sampleDigest data

/-- A visitor of `alice` for the address, on the connection `c`. -/
def visit (c : ConnId) (bindAddr : String) (sessionNonce : Nonce) :
    List Action :=
  [.accept c, .conn c (.receive (.hello (.visitorHello 1 zeros)) ones),
    .conn c .proceed,
    .conn c (.receive (.visitorAuth
      ⟨sampleDigest (challenge (some "alice-token") ones), bindAddr, .tcp⟩)
      sessionNonce),
    .conn c .proceed, .conn c .proceed, .conn c .proceed]

/-- The same user has two channels for the same address. -/
theorem two_spellings : ∃ s v v' d d' k k' h h',
    Run (step spellingDigest) (init spellingDigest sampleConfig)
      (visit 0 "0.0.0.0:8080" zeros ++ visit 1 "0.0.0.0:08080" ones) s ∧
    VisitorEntry s d k h v ∧ VisitorEntry s d' k' h' v' ∧ SameSeat v v' ∧
    h.owner = 0 ∧ h'.owner = 1 := by
  refine ⟨_, _, _, _, _, _, _, _, _, rfl, ⟨⟨0, rfl⟩, _, rfl, rfl⟩,
    ⟨⟨1, rfl⟩, _, rfl, rfl⟩, ⟨rfl, ?_⟩, rfl, rfl⟩
  exact ⟨.v4 #v[0, 0, 0, 0] 8080, by decide, by decide⟩

end Rathole.Server
