import Rathole.Server.Interleaving

/-!
# Is an issued session key usable?

A peer that has been told its session key opens data channels with it. The
server finds the session exactly if its handshake has come to its end and no
other handshake has since dropped its entry without putting its own there.
A control channel's handshake tells the peer while it holds the lock, so no
data channel can be looked up before its entry is there. A visitor's
handshake tells the peer first and asks for the lock afterwards.
-/

namespace Rathole.Server

open Runs

section

variable (digest : Bytes → Digest)

/-- The peer of `c` has read the confirmation of the key, or a command. -/
def Told (s : State) (c : ConnId) (key : Nonce) : Prop :=
  ∃ conn x, s.conns.lookup c = some conn ∧ conn.session = some x ∧
    x.key = key ∧ (x.confirmed = true ∨ x.commanded = true)

/-- The entry of `c` has been replaced by the entry of another handshake,
removed by a hot reload or cleared by the shutdown. -/
def Ended (s : State) (c : ConnId) : Prop :=
  (c, .reload) ∈ s.dropped ∨ (c, .clear) ∈ s.dropped ∨
    ∃ c' x, (c, .handshake c') ∈ s.dropped ∧ Established digest s c' x

/-- The action processes a `DataChannelHello` with the key. -/
def LooksUp (s : State) (a : Action) (stream : ConnId) (key : Nonce) : Prop :=
  a = .conn stream .proceed ∧ s.channelsReadable = true ∧
    ∃ conn, s.conns.lookup stream = some conn ∧ conn.pc = .lockData key

/-- The lookup finds the session of every peer that has been told the key and
whose session has not ended; the stream goes on to that session's handle. -/
def KeyUsable (s : State) (a : Action) : Prop :=
  ∀ stream key c, LooksUp s a stream key → Told s c key → ¬ Ended digest s c →
    (∃ handle, s.controlChannels.get2 key = some handle ∧ handle.owner = c) ∧
    ∀ t, step digest s a = some t →
      ∃ conn, t.conns.lookup stream = some conn ∧ conn.pc = .handOver key c

/-- The handshake of every peer that has been told the key, and whose session
has not ended, has come to its end, and no other handshake has dropped its
entry. -/
def InstalledAndKept (s : State) (a : Action) : Prop :=
  ∀ stream key c, LooksUp s a stream key → Told s c key → ¬ Ended digest s c →
    (∃ x, Established digest s c x) ∧ ∀ c', (c, .handshake c') ∉ s.dropped

/-- The key that is offered by this step is no other connection's key. -/
def FreshKeys (s : State) (a : Action) : Prop :=
  ∀ c conn key, a = .conn c .proceed → s.conns.lookup c = some conn →
    conn.pc.issues = some key →
      ∀ c' conn', s.conns.lookup c' = some conn' → conn'.key ≠ some key

/-- The invariant of runs with fresh keys. -/
structure KeysInv (s : State) : Prop where
  entries : EntriesEstablished digest s
  kept : ∀ d k h, s.controlChannels.Entry d k h →
    ∀ cause, (h.owner, cause) ∉ s.dropped
  found : ∀ c d k service, Established digest s c (d, k, service) →
    (∀ cause, (c, cause) ∉ s.dropped) →
      ∃ h, s.controlChannels.Entry d k h ∧ h.owner = c
  recorded : ∀ c cause, (c, cause) ∈ s.dropped → ∃ x, Established digest s c x
  offers : ∀ c conn k, s.conns.lookup c = some conn →
    conn.pc.offers = some k → conn.key = some k
  distinct : ∀ c c' conn conn' k, s.conns.lookup c = some conn →
    s.conns.lookup c' = some conn' → conn.key = some k →
      conn'.key = some k → c = c'
  alone : ∀ c c' conn conn', s.conns.lookup c = some conn →
    s.conns.lookup c' = some conn' → conn.pc.writesChannels = true →
      conn'.pc.writesChannels = true → c = c'
  vacant : ∀ c conn d k service, s.conns.lookup c = some conn →
    conn.pc = .sendAck d k service →
      ∀ k' h, ¬ s.controlChannels.Entry d k' h

variable {digest} {s t : State} {a : Action}

theorem Established.offers {c : ConnId} {d : Digest} {k : Nonce}
    {service : ServerServiceConfig} (hest : Established digest s c (d, k, service)) :
    ∃ conn, s.conns.lookup c = some conn ∧ conn.pc.offers = some k := by
  obtain ⟨o, ⟨conn, hconn, hpc⟩, hx⟩ := hest
  refine ⟨conn, hconn, ?_⟩
  rw [hpc]
  cases o with
  | controlEstablished d' k' service' =>
      cases hx
      rfl
  | visitorEstablished v =>
      have hx := Option.some.inj hx
      rw [Prod.mk.injEq, Prod.mk.injEq] at hx
      rw [← hx.2.1]
      rfl
  | handedOver key owner => cases hx
  | warned message => cases hx
  | bailed message => cases hx
  | aborted => cases hx

theorem not_writes_of_writable (hlock : s.channelsWritable = true) {c : ConnId}
    {conn : Conn} (hconn : s.conns.lookup c = some conn) :
    conn.pc.writesChannels = false :=
  channelsReadable_iff.mp (channelsReadable_of_writable hlock) c conn hconn

/-! ## Connections -/

theorem KeysInv.offers_step (hs : KeysInv digest s)
    (hstep : step digest s a = some t) {c : ConnId} {conn : Conn} {k : Nonce}
    (hconn : t.conns.lookup c = some conn) (hk : conn.pc.offers = some k) :
    conn.key = some k := by
  rcases lookup_of_step hstep hconn with
    hold | ⟨-, -, rfl⟩ | ⟨l, conn₀, e, -, hconn₀, hlocal, -⟩
  · exact hs.offers c conn k hold hk
  · cases hk
  · cases shape_localStep hlocal with
    | quiet hquiet =>
        rcases hquiet.offers k hk with ⟨hbefore, hkey⟩ | hkey
        · rw [hkey]
          exact hs.offers c conn₀ k hconn₀ hbefore
        · exact hkey
    | drop hlock hpc => exact hk
    | install hpc hpc' hkey =>
        rw [hpc'] at hk
        rw [hkey]
        exact hs.offers c conn₀ k hconn₀ (by rw [hpc]; exact hk)
    | replace hlock hpc hpc' hkey =>
        rw [hpc'] at hk
        rw [hkey]
        exact hs.offers c conn₀ k hconn₀ (by rw [hpc]; exact hk)
    | hand hpc hpc' hkey =>
        rw [hpc'] at hk
        cases hk

/-- A key after a step is the connection's old one, or a fresh one. -/
theorem key_of_step (hstep : step digest s a = some t) (hfresh : FreshKeys s a)
    {c : ConnId} {conn : Conn} {k : Nonce} (hconn : t.conns.lookup c = some conn)
    (hk : conn.key = some k) :
    (∃ conn₀, s.conns.lookup c = some conn₀ ∧ conn₀.key = some k) ∨
      (a = .conn c .proceed ∧
        ∀ c' conn', s.conns.lookup c' = some conn' → conn'.key ≠ some k) := by
  rcases lookup_of_step hstep hconn with
    hold | ⟨-, -, rfl⟩ | ⟨l, conn₀, e, rfl, hconn₀, hlocal, -⟩
  · exact Or.inl ⟨conn, hold, hk⟩
  · cases hk
  · cases shape_localStep hlocal with
    | quiet hquiet =>
        rcases hquiet.key with hkey | ⟨rfl, hkey⟩
        · exact Or.inl ⟨conn₀, hconn₀, hkey ▸ hk⟩
        · exact Or.inr ⟨rfl, hfresh c conn₀ k rfl hconn₀ (hkey ▸ hk)⟩
    | drop hlock hpc =>
        exact Or.inr ⟨rfl, hfresh c conn₀ k rfl hconn₀ (by rw [hpc]; exact hk)⟩
    | install hpc hpc' hkey => exact Or.inl ⟨conn₀, hconn₀, hkey ▸ hk⟩
    | replace hlock hpc hpc' hkey => exact Or.inl ⟨conn₀, hconn₀, hkey ▸ hk⟩
    | hand hpc hpc' hkey => exact Or.inl ⟨conn₀, hconn₀, hkey ▸ hk⟩

theorem KeysInv.distinct_step (hs : KeysInv digest s)
    (hstep : step digest s a = some t) (hfresh : FreshKeys s a)
    {c c' : ConnId} {conn conn' : Conn} {k : Nonce}
    (hconn : t.conns.lookup c = some conn)
    (hconn' : t.conns.lookup c' = some conn') (hk : conn.key = some k)
    (hk' : conn'.key = some k) : c = c' := by
  rcases key_of_step hstep hfresh hconn hk with ⟨u, hu, huk⟩ | ⟨ha, hnew⟩
  · rcases key_of_step hstep hfresh hconn' hk' with ⟨u', hu', huk'⟩ | ⟨-, hnew'⟩
    · exact hs.distinct c c' u u' k hu hu' huk huk'
    · exact absurd huk (hnew' c u hu)
  · rcases key_of_step hstep hfresh hconn' hk' with ⟨u', hu', huk'⟩ | ⟨ha', -⟩
    · exact absurd huk' (hnew c' u' hu')
    · cases ha.symm.trans ha'
      rfl

/-- A connection that holds the write guard after a step held it before, or
has just got it: then nobody else had it. -/
theorem writes_of_step (hstep : step digest s a = some t) {c : ConnId}
    {conn : Conn} (hconn : t.conns.lookup c = some conn)
    (hw : conn.pc.writesChannels = true) :
    (∃ conn₀, s.conns.lookup c = some conn₀ ∧ conn₀.pc = conn.pc) ∨
      (a = .conn c .proceed ∧ s.channelsWritable = true ∧
        ∃ d k service, conn.pc = .sendAck d k service ∧
          t.controlChannels = (s.drop d (.handshake c)).controlChannels) := by
  rcases lookup_of_step hstep hconn with
    hold | ⟨-, -, rfl⟩ | ⟨l, conn₀, e, rfl, hconn₀, hlocal, rfl⟩
  · exact Or.inl ⟨conn, hold, rfl⟩
  · cases hw
  · cases shape_localStep hlocal with
    | quiet hquiet => exact Or.inl ⟨conn₀, hconn₀, (hquiet.writes hw).symm⟩
    | drop hlock hpc => exact Or.inr ⟨rfl, hlock, _, _, _, rfl, rfl⟩
    | install hpc hpc' hkey =>
        rw [hpc'] at hw
        cases hw
    | replace hlock hpc hpc' hkey =>
        rw [hpc'] at hw
        cases hw
    | hand hpc hpc' hkey =>
        rw [hpc'] at hw
        cases hw

/-- At most one connection holds the write guard. -/
def GuardAlone (s : State) : Prop :=
  ∀ c c' conn conn', s.conns.lookup c = some conn →
    s.conns.lookup c' = some conn' → conn.pc.writesChannels = true →
      conn'.pc.writesChannels = true → c = c'

theorem GuardAlone.step (h : GuardAlone s) (hstep : step digest s a = some t) :
    GuardAlone t := by
  intro c c' conn conn' hconn hconn' hw hw'
  rcases writes_of_step hstep hconn hw with ⟨u, hu, hpc⟩ | ⟨ha, hlock, -⟩
  · rcases writes_of_step hstep hconn' hw' with ⟨u', hu', hpc'⟩ | ⟨-, hlock, -⟩
    · exact h c c' u u' hu hu' (hpc ▸ hw) (hpc' ▸ hw')
    · rw [← hpc, not_writes_of_writable hlock hu] at hw
      cases hw
  · rcases writes_of_step hstep hconn' hw' with ⟨u', hu', hpc'⟩ | ⟨ha', -⟩
    · rw [← hpc', not_writes_of_writable hlock hu'] at hw'
      cases hw'
    · cases ha.symm.trans ha'
      rfl

/-! ## Entries -/

/-- While a handshake holds the write guard, nobody installs but itself. -/
theorem KeysInv.vacant_step (hs : KeysInv digest s)
    (hstep : step digest s a = some t) {c : ConnId} {conn : Conn} {d : Digest}
    {k : Nonce} {service : ServerServiceConfig}
    (hconn : t.conns.lookup c = some conn) (hpc : conn.pc = .sendAck d k service)
    {k' : Nonce} {h : Handle} : ¬ t.controlChannels.Entry d k' h := by
  intro he
  have hw : conn.pc.writesChannels = true := by
    rw [hpc]
    rfl
  rcases writes_of_step hstep hconn hw with
    ⟨u, hu, hupc⟩ | ⟨-, -, d', k₁, service', hpc', hchannels⟩
  · have huw : u.pc.writesChannels = true := hupc ▸ hw
    rcases entry_of_step hstep he with hold | hi
    · exact hs.vacant c u d k service hu (hupc.trans hpc) k' h hold
    · cases hi with
      | control ha hconn₀ hpc₀ hfin =>
          -- the owner of the new entry holds the guard, so it is `c` itself
          have howner : h.owner = c :=
            hs.alone h.owner c _ u hconn₀ hu (by rw [hpc₀]; rfl) huw
          obtain ⟨conn₁, hconn₁, hpc₁⟩ := hfin
          rw [howner, hconn] at hconn₁
          cases hconn₁
          rw [hpc] at hpc₁
          cases hpc₁
      | visitor ha hlock hconn₀ hpc₀ hfin hx =>
          rw [not_writes_of_writable hlock hu] at huw
          cases huw
  · rw [hchannels] at he
    rw [hpc] at hpc'
    cases hpc'
    exact (MultiMap.entry_remove1.mp he).2 rfl

theorem KeysInv.kept_step (hs : KeysInv digest s)
    (hstep : step digest s a = some t) {d : Digest} {k : Nonce} {h : Handle}
    (he : t.controlChannels.Entry d k h) (cause : Cause) :
    (h.owner, cause) ∉ t.dropped := by
  intro hx
  rcases entry_of_step hstep he with hold | hi
  · rcases dropped_of_step hstep hx with hx | ⟨d', k', h', he', howner, hnew⟩
    · exact hs.kept d k h hold cause hx
    · -- one owner has one entry, and it is one of those that are dropped
      have hest := hs.entries d k h hold
      have hest' := hs.entries d' k' h' he'
      have howner : h.owner = h'.owner := howner
      rw [← howner] at hest'
      have heq := hest.unique hest'
      rw [Prod.mk.injEq, Prod.mk.injEq] at heq
      obtain ⟨rfl, rfl, -⟩ := heq
      obtain ⟨o, ho, -⟩ := hest
      exact (hnew _ h he).not_finished ho
  · rcases dropped_of_step hstep hx with hx | ⟨d', k', h', he', howner, -⟩
    · obtain ⟨x, o, ho, -⟩ := hs.recorded _ _ hx
      exact hi.not_finished ho
    · have howner : h.owner = h'.owner := howner
      obtain ⟨o, ho, -⟩ := hs.entries d' k' h' he'
      rw [← howner] at ho
      exact hi.not_finished ho

/-- A session is an old one, or its handshake ends with this step and tries
to insert its handle. -/
theorem established_of_step (hstep : step digest s a = some t) {c : ConnId}
    {d : Digest} {k : Nonce} {service : ServerServiceConfig}
    (hest : Established digest t c (d, k, service)) :
    Established digest s c (d, k, service) ∨
    (∃ conn h, s.conns.lookup c = some conn ∧ h.owner = c ∧
      conn.pc = .sendAck d k service ∧
      t.controlChannels = (s.install d k h).controlChannels) ∨
    ∃ conn v h, s.conns.lookup c = some conn ∧ h.owner = c ∧
      conn.pc = .lockVisitor v ∧ k = v.sessionNonce ∧
      t.controlChannels =
        ((s.drop d (.handshake c)).install d k h).controlChannels := by
  obtain ⟨o, ⟨conn, hconn, hpc⟩, hx⟩ := hest
  rcases lookup_of_step hstep hconn with
    hold | ⟨-, -, rfl⟩ | ⟨l, conn₀, e, rfl, hconn₀, hlocal, rfl⟩
  · exact Or.inl ⟨o, ⟨conn, hold, hpc⟩, hx⟩
  · cases hpc
  · cases shape_localStep hlocal with
    | quiet hquiet =>
        have hsame := hquiet.established (by rw [hpc, hx]; rfl)
        exact Or.inl ⟨o, ⟨conn₀, hconn₀, hsame.symm.trans hpc⟩, hx⟩
    | drop hlock hpc₀ => cases hpc
    | install hpc₀ hpc' hkey =>
        rw [hpc'] at hpc
        cases hpc
        cases hx
        exact Or.inr (Or.inl ⟨conn₀, _, hconn₀, rfl, hpc₀, rfl⟩)
    | replace hlock hpc₀ hpc' hkey =>
        rw [hpc'] at hpc
        cases hpc
        cases hx
        exact Or.inr (Or.inr ⟨conn₀, _, _, hconn₀, rfl, hpc₀, rfl, rfl⟩)
    | hand hpc₀ hpc' hkey =>
        rw [hpc'] at hpc
        cases hpc
        cases hx

/-- A key that is offered by a handshake in progress is under no entry. -/
theorem KeysInv.not_entry_of_offers (hs : KeysInv digest s) {c : ConnId}
    {conn : Conn} {k : Nonce} (hconn : s.conns.lookup c = some conn)
    (hk : conn.pc.offers = some k) (hfin : ∀ o, conn.pc ≠ .finished o)
    {d : Digest} {h : Handle} : ¬ s.controlChannels.Entry d k h := by
  intro he
  have hest := hs.entries d k h he
  obtain ⟨conn', hconn', hk'⟩ := hest.offers
  obtain ⟨o, ⟨conn₁, hconn₁, hpc₁⟩, -⟩ := hest
  have howner : h.owner = c := hs.distinct h.owner c conn' conn k hconn' hconn
    (hs.offers _ conn' k hconn' hk') (hs.offers c conn k hconn hk)
  rw [howner, hconn] at hconn₁
  cases hconn₁
  exact hfin o hpc₁

theorem KeysInv.found_step (hs : KeysInv digest s)
    (hstep : step digest s a = some t) {c : ConnId} {d : Digest} {k : Nonce}
    {service : ServerServiceConfig}
    (hest : Established digest t c (d, k, service))
    (hkept : ∀ cause, (c, cause) ∉ t.dropped) :
    ∃ h, t.controlChannels.Entry d k h ∧ h.owner = c := by
  rcases established_of_step hstep hest with hold |
    ⟨conn, h, hconn, howner, hpc, hchannels⟩ |
    ⟨conn, v, h, hconn, howner, hpc, hk, hchannels⟩
  · obtain ⟨h, he, rfl⟩ := hs.found c d k service hold
      (fun cause hx => hkept cause (dropped_step hstep hx))
    rcases entry_step hstep he with he | ⟨cause, hx⟩
    · exact ⟨h, he, rfl⟩
    · exact absurd hx (hkept cause)
  · refine ⟨h, ?_, howner⟩
    rw [hchannels]
    refine (entry_install ?_ ?_).mpr (Or.inr ⟨rfl, rfl, rfl⟩)
    · intro k' h'
      exact hs.vacant c conn d k service hconn hpc k' h'
    · intro d' h'
      exact hs.not_entry_of_offers hconn (by rw [hpc]; rfl)
        (fun o ho => by rw [hpc] at ho; cases ho)
  · refine ⟨h, ?_, howner⟩
    rw [hchannels]
    refine (entry_install ?_ ?_).mpr (Or.inr ⟨rfl, rfl, rfl⟩)
    · intro k' h' he
      exact (MultiMap.entry_remove1.mp he).2 rfl
    · intro d' h' he
      exact hs.not_entry_of_offers hconn (by rw [hpc, hk]; rfl)
        (fun o ho => by rw [hpc] at ho; cases ho)
        (MultiMap.entry_remove1.mp he).1

theorem KeysInv.init (config : ServerConfig) :
    KeysInv digest (init digest config) where
  entries := entriesEstablished_init config
  kept _ _ _ he := absurd he MultiMap.not_entry_new
  found _ _ _ _ hest := by
    obtain ⟨o, ⟨conn, hconn, -⟩, -⟩ := hest
    cases hconn
  recorded _ _ hx := by cases hx
  offers _ _ _ hconn := by cases hconn
  distinct _ _ _ _ _ hconn := by cases hconn
  alone _ _ _ _ hconn := by cases hconn
  vacant _ _ _ _ _ hconn := by cases hconn

theorem KeysInv.step (hs : KeysInv digest s) (hfresh : FreshKeys s a)
    (hstep : Server.step digest s a = some t) : KeysInv digest t where
  entries := hs.entries.step hstep
  kept _ _ _ he := hs.kept_step hstep he
  found _ _ _ _ hest hkept := hs.found_step hstep hest hkept
  recorded := by
    intro c cause hx
    rcases dropped_of_step hstep hx with hx | ⟨d, k, h, he, rfl, -⟩
    · obtain ⟨x, hest⟩ := hs.recorded c cause hx
      exact ⟨x, hest.step hstep⟩
    · exact ⟨_, (hs.entries d k h he).step hstep⟩
  offers _ _ _ hconn hk := hs.offers_step hstep hconn hk
  distinct _ _ _ _ _ hconn hconn' hk hk' :=
    hs.distinct_step hstep hfresh hconn hconn' hk hk'
  alone := GuardAlone.step hs.alone hstep
  vacant _ _ _ _ _ hconn hpc _ _ := hs.vacant_step hstep hconn hpc

/-! ## Lookups -/

/-- A handle that is found is the one the stream is handed over to. -/
theorem step_of_looksUp {stream : ConnId} {key : Nonce} {h : Handle}
    (hlook : LooksUp s a stream key)
    (hget : s.controlChannels.get2 key = some h)
    (hstep : Server.step digest s a = some t) :
    ∃ conn, t.conns.lookup stream = some conn ∧
      conn.pc = .handOver key h.owner := by
  obtain ⟨rfl, hread, ⟨pc, trace, session⟩, hconn, rfl⟩ := hlook
  simp only [Server.step, hconn, localStep, proceed, hread, hget, if_true,
    Option.map_some, Option.some.injEq] at hstep
  subst hstep
  exact ⟨_, lookup_setConn_self, rfl⟩

theorem told_key {c : ConnId} {key : Nonce} (htold : Told s c key) :
    ∃ conn, s.conns.lookup c = some conn ∧ conn.key = some key := by
  obtain ⟨conn, x, hconn, hx, rfl, -⟩ := htold
  exact ⟨conn, hconn, by simp [Conn.key, hx]⟩

theorem KeysInv.usable_iff (hs : KeysInv digest s) :
    KeyUsable digest s a ↔ InstalledAndKept digest s a := by
  constructor
  · intro huse stream key c hlook htold hended
    obtain ⟨⟨h, hget, rfl⟩, -⟩ := huse stream key c hlook htold hended
    obtain ⟨d, he⟩ := MultiMap.get2_eq_some.mp hget
    exact ⟨⟨_, hs.entries d key h he⟩, fun c' => hs.kept d key h he _⟩
  · intro hinst stream key c hlook htold hended
    obtain ⟨⟨⟨d, k, service⟩, hest⟩, hkept⟩ := hinst stream key c hlook htold hended
    have hall : ∀ cause, (c, cause) ∉ s.dropped := by
      intro cause hx
      cases cause with
      | handshake c' => exact hkept c' hx
      | reload => exact hended (Or.inl hx)
      | clear => exact hended (Or.inr (Or.inl hx))
    -- the session's key is the one the peer was told
    obtain ⟨conn, hconn, hk⟩ := hest.offers
    obtain ⟨conn', hconn', hkey⟩ := told_key htold
    cases hconn.symm.trans hconn'
    have hkk := (hs.offers c conn k hconn hk).symm.trans hkey
    cases hkk
    obtain ⟨h, he, rfl⟩ := hs.found c d key service hest hall
    have hget := MultiMap.get2_eq_some.mpr ⟨d, he⟩
    exact ⟨⟨h, hget, rfl⟩, fun t hstep => step_of_looksUp hlook hget hstep⟩

end

/-- **An issued session key is usable** exactly in the runs whose data
channels come after the end of their session's handshake and not after an
entry was dropped by a handshake that failed. -/
theorem session_keys_usable_iff (digest : Bytes → Digest)
    (config : ServerConfig) (actions : List Action)
    (hfresh : Meets (step digest) FreshKeys (init digest config) actions) :
    Meets (step digest) (KeyUsable digest) (init digest config) actions ↔
      Meets (step digest) (InstalledAndKept digest) (init digest config)
        actions := by
  refine meets_congr_on (I := KeysInv digest) ?_ ?_ (KeysInv.init config) hfresh
  · intro s a hs _
    exact hs.usable_iff
  · intro s a t hs ha _ hstep
    exact hs.step ha hstep

/-- A check of `InstalledAndKept`: whoever has the key that is looked up has
an established session that nobody has dropped. -/
def keyInstalled (digest : Bytes → Digest) (s : State) : Action → Bool
  | .conn stream .proceed =>
      match s.conns.lookup stream with
      | some ⟨.lockData key, _, _⟩ => s.conns.entries.all (fun e =>
          decide (e.2.key ≠ some key) ||
            ((e.2.pc.established digest).isSome &&
              s.dropped.all (fun x => decide (x.1 ≠ e.1))))
      | _ => true
  | _ => true

/-- A check of `FreshKeys`. -/
def keyFresh (s : State) : Action → Bool
  | .conn c .proceed =>
      match s.conns.lookup c with
      | some conn => conn.pc.issues = none ||
          s.conns.entries.all (fun e => decide (e.2.key ≠ conn.pc.issues))
      | none => true
  | _ => true

theorem freshKeys_of_keyFresh {s : State} {a : Action}
    (h : keyFresh s a = true) : FreshKeys s a := by
  rintro c conn key rfl hconn hissues c' conn' hconn'
  simp only [keyFresh, hconn, hissues, reduceCtorEq, decide_false,
    Bool.false_or, List.all_eq_true, decide_eq_true_eq] at h
  exact h ⟨c', conn'⟩ (HashMap.mem_entries_iff.mpr hconn')

theorem installedAndKept_of_keyInstalled {digest : Bytes → Digest} {s : State}
    {a : Action} (h : keyInstalled digest s a = true) :
    InstalledAndKept digest s a := by
  rintro stream key c ⟨rfl, -, ⟨pc, trace, session⟩, hstream, rfl⟩ htold -
  obtain ⟨conn, hconn, hkey⟩ := told_key htold
  simp only [keyInstalled, hstream, List.all_eq_true] at h
  have hc := h ⟨c, conn⟩ (HashMap.mem_entries_iff.mpr hconn)
  simp only [hkey, ne_eq, not_true_eq_false, decide_false, Bool.false_or,
    Bool.and_eq_true, List.all_eq_true, decide_eq_true_eq] at hc
  obtain ⟨hsome, hall⟩ := hc
  obtain ⟨x, hx⟩ := Option.isSome_iff_exists.mp hsome
  refine ⟨⟨x, ?_⟩, fun c' hdropped => hall _ hdropped rfl⟩
  cases hpc : conn.pc with
  | finished o => exact ⟨o, ⟨conn, hconn, hpc⟩, hpc ▸ hx⟩
  | _ =>
      rw [hpc] at hx
      cases hx

/-- The control channel is confirmed, then a data channel comes. -/
def dataAfterAck : List Action :=
  askForWeb ++ registerWeb ++
    [.conn 0 .confirm, .accept 1,
      .conn 1 (.receive (.hello (.dataChannelHello 1 webKey)) zeros),
      .conn 1 .proceed]

theorem session_keys_usable_iff_dataAfterAck :
    Meets (step sampleDigest) (KeyUsable sampleDigest)
      (init sampleDigest sampleConfig) dataAfterAck := by
  refine (session_keys_usable_iff sampleDigest sampleConfig dataAfterAck ?_).mpr ?_
  · exact Meets.mono (fun s a h => freshKeys_of_keyFresh h)
      (show Meets (step sampleDigest) (fun s a => keyFresh s a = true)
        (init sampleDigest sampleConfig) dataAfterAck by decide)
  · exact Meets.mono (fun s a h => installedAndKept_of_keyInstalled h)
      (show Meets (step sampleDigest)
        (fun s a => keyInstalled sampleDigest s a = true)
        (init sampleDigest sampleConfig) dataAfterAck by decide)

/-- The session key the server draws for the visitor. -/
def visitorKey : Nonce := Vector.replicate 32 2

/-- A visitor is told its session key, and its data channel is faster than
its handshake, which has yet to ask for the lock. -/
def dataBeforeInstall : List Action :=
  [.accept 0, .conn 0 (.receive (.hello (.visitorHello 1 zeros)) ones),
    .conn 0 .proceed,
    .conn 0 (.receive (.visitorAuth
      ⟨sampleDigest (challenge (some "alice-token") ones), "0.0.0.0:8080", .tcp⟩)
      visitorKey),
    .conn 0 .proceed, .conn 0 .proceed, .conn 0 .confirm, .accept 1,
    .conn 1 (.receive (.hello (.dataChannelHello 1 visitorKey)) zeros)]

theorem visitor_key_rejected : ∃ s t,
    Run (step sampleDigest) (init sampleDigest sampleConfig)
      dataBeforeInstall s ∧
    Meets (step sampleDigest) FreshKeys (init sampleDigest sampleConfig)
      dataBeforeInstall ∧
    Told s 0 visitorKey ∧ ¬ Ended sampleDigest s 0 ∧
    LooksUp s (.conn 1 .proceed) 1 visitorKey ∧
    step sampleDigest s (.conn 1 .proceed) = some t ∧
    Finished t 1 (.warned "Data channel has incorrect nonce") := by
  have hfresh : Meets (step sampleDigest) FreshKeys
      (init sampleDigest sampleConfig) dataBeforeInstall :=
    Meets.mono (fun s a h => freshKeys_of_keyFresh h)
      (show Meets (step sampleDigest) (fun s a => keyFresh s a = true)
        (init sampleDigest sampleConfig) dataBeforeInstall by decide)
  refine ⟨_, _, rfl, hfresh, ⟨_, _, rfl, rfl, rfl, .inl rfl⟩, ?_,
    ⟨rfl, rfl, _, rfl, rfl⟩, rfl, _, rfl, rfl⟩
  rintro (hx | hx | ⟨c, x, hx, -⟩)
  · cases hx
  · cases hx
  · cases hx

end Rathole.Server
