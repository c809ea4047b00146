import Rathole.Client.Forwarders

/-!
# Waiting in a circle

The main loop sends into a forwarder's queue with the reader lock in its hand,
and a forwarder that has left its loop asks for the writer lock with its queue
still open. If the queue is full, the two wait for each other. There is a
second circle: for a visitor that has an entry, the guard of the first look
into the map is alive when the main loop asks for the second one, and a
forwarder that has asked for the writer lock in between is before it in the
queue of the lock. `no_circular_wait` shows that there is no third.
-/

namespace Rathole.UdpForward

open Runs

/-- The forwarder still has its receiver, and its queue takes nothing. -/
def State.Full (s : State) (f : Nat) : Prop :=
  ∃ fw, s.forwarders[f]? = some fw ∧ fw.pc ≠ .finished ∧
    udpSendqSize ≤ fw.inbound.length

/-- A task waits for another: at the lock, or for room in its queue. -/
inductive State.WaitsFor (s : State) : Task → Task → Prop
  | lock {x y : Task} (h : s.lock.WaitsFor x y) : s.WaitsFor x y
  | queue {p : UdpTraffic} {f : Nat} (hmain : s.main = .send p f)
      (hfull : s.Full f) : s.WaitsFor .main (.forwarder f)

def State.CircularWait (s : State) : Prop :=
  ∃ x, Relation.TransGen s.WaitsFor x x

/-- The main loop does not wait for its second guard with the first one in
hand, nor for a forwarder that waits for the lock. -/
structure State.Untangled (s : State) : Prop where
  reread : ∀ p, s.main = .lockSend p true → s.lock.waits .main = false
  send : ∀ p f, s.main = .send p f → s.Full f →
    s.lock.waits (.forwarder f) = false

/-! ## Who has which guards -/

/-- The guards the main loop has or has asked for. -/
def MainPc.Claims : MainPc → List Access → Prop
  | .read, c => c = []
  | .lockRead _, c => c = [.read]
  | .lockWrite _, c => c = [.write]
  | .connect _, c => c = [.write]
  | .lockSend _ true, c => c = [.read, .read]
  | .lockSend _ false, c => c = [.read]
  | .send _ _, c => c = [.read] ∨ c = [.read, .read]
  | .returned, c => c = []

/-- A forwarder asks for the lock when it has left its loop. -/
def forwarderClaims (fws : List Forwarder) (f : Nat) : List Access :=
  match fws[f]? with
  | some fw => if fw.pc = .lock then [.write] else []
  | none => []

structure Guards (s : State) : Prop where
  main : s.main.Claims (s.lock.claims .main)
  forwarder : ∀ f, s.lock.claims (.forwarder f) = forwarderClaims s.forwarders f
  single : s.lock.Single
  granted : ((∃ p, s.main = .connect p) ∨ ∃ p f, s.main = .send p f) →
    s.lock.waits .main = false
  kept : ∀ p, s.main = .lockSend p true → (.main, .read) ∈ s.lock.holders

section

variable {s t : State} {a : Action}

theorem Guards.claims (h : Guards s) {pc : MainPc} (hmain : s.main = pc) :
    pc.Claims (s.lock.claims .main) := by
  rw [← hmain]
  exact h.main

theorem forwarderClaims_set {fws : List Forwarder} {f : Nat}
    {fw fw' : Forwarder} (hfw : fws[f]? = some fw) (g : Nat) :
    forwarderClaims (fws.set f fw') g =
      if g = f then (if fw'.pc = .lock then [.write] else [])
      else forwarderClaims fws g := by
  have hlt : f < fws.length := (List.getElem?_eq_some_iff.mp hfw).1
  unfold forwarderClaims
  by_cases h : g = f
  · subst h
    rw [List.getElem?_set_self hlt, if_pos rfl]
  · rw [List.getElem?_set_ne (Ne.symm h), if_neg h]

/-- Nothing changes at the lock if a forwarder moves on in its loop. -/
theorem forwarderClaims_inner {fws : List Forwarder} {f : Nat}
    {fw fw' : Forwarder} (hfw : fws[f]? = some fw)
    (h : fw'.pc = .lock ↔ fw.pc = .lock) (g : Nat) :
    forwarderClaims (fws.set f fw') g = forwarderClaims fws g := by
  rw [forwarderClaims_set hfw]
  split
  · rename_i hg
    subst hg
    unfold forwarderClaims
    rw [hfw]
    simp only [h]
  · rfl

/-- The main loop drops what it has. -/
theorem Guards.drop (h : Guards s) (hfws : t.forwarders = s.forwarders)
    (hlock : t.lock = s.lock.dropAll .main)
    (hmain : t.main = .read ∨ t.main = .returned) : Guards t := by
  refine ⟨?_, ?_, ?_, ?_, ?_⟩
  · rw [hlock, RwLock.claims_dropAll, if_pos rfl]
    rcases hmain with hmain | hmain <;> (rw [hmain]; exact rfl)
  · intro f
    rw [hlock, hfws, RwLock.claims_dropAll, if_neg nofun]
    exact h.forwarder f
  · rw [hlock]
    exact h.single.dropAll .main
  · rintro (⟨p, hp⟩ | ⟨p, f, hp⟩) <;>
      (rcases hmain with hmain | hmain <;> (rw [hmain] at hp; cases hp))
  · intro p hp
    rcases hmain with hmain | hmain <;> (rw [hmain] at hp; cases hp)

/-- The main loop drops what it has and asks for a guard. -/
theorem Guards.dropRequest (h : Guards s)
    (hfws : ∀ f, forwarderClaims t.forwarders f =
      forwarderClaims s.forwarders f) {b : Access}
    (hlock : t.lock = (s.lock.dropAll .main).request .main b)
    (hmain : t.main.Claims [b])
    (hpc : (∃ p, t.main = .lockWrite p) ∨ ∃ p, t.main = .lockSend p false) :
    Guards t := by
  have hnil : (s.lock.dropAll .main).claims .main = [] := by
    rw [RwLock.claims_dropAll, if_pos rfl]
  refine ⟨?_, ?_, ?_, ?_, ?_⟩
  · rw [hlock, RwLock.claims_request, hnil, if_pos rfl]
    exact hmain
  · intro f
    rw [hlock, hfws, RwLock.claims_request, if_neg nofun, List.append_nil,
      RwLock.claims_dropAll, if_neg nofun]
    exact h.forwarder f
  · rw [hlock]
    exact (h.single.dropAll .main).request b
      (RwLock.not_waits_of_claims_nil hnil)
  · rintro (⟨p, hp⟩ | ⟨p, f, hp⟩) <;>
      (rcases hpc with ⟨q, hq⟩ | ⟨q, hq⟩ <;> (rw [hq] at hp; cases hp))
  · intro p hp
    rcases hpc with ⟨q, hq⟩ | ⟨q, hq⟩ <;> (rw [hq] at hp; cases hp)

/-- The main loop asks for a reader lock on top of what it has. -/
theorem Guards.request (h : Guards s) (hfws : t.forwarders = s.forwarders)
    (hlock : t.lock = s.lock.request .main .read)
    (hwaits : s.lock.waits .main = false)
    (hmain : t.main.Claims (s.lock.claims .main ++ [.read]))
    (hpc : (∃ p, t.main = .lockRead p) ∨
      (∃ p, t.main = .lockSend p true) ∧ (.main, .read) ∈ s.lock.holders) :
    Guards t := by
  refine ⟨?_, ?_, ?_, ?_, ?_⟩
  · rw [hlock, RwLock.claims_request, if_pos rfl]
    exact hmain
  · intro f
    rw [hlock, hfws, RwLock.claims_request, if_neg nofun, List.append_nil]
    exact h.forwarder f
  · rw [hlock]
    exact h.single.request .read hwaits
  · rintro (⟨p, hp⟩ | ⟨p, f, hp⟩) <;>
      (rcases hpc with ⟨q, hq⟩ | ⟨⟨q, hq⟩, -⟩ <;> (rw [hq] at hp; cases hp))
  · intro p hp
    rcases hpc with ⟨q, hq⟩ | ⟨-, hheld⟩
    · rw [hq] at hp
      cases hp
    · rw [hlock]
      exact RwLock.mem_holders_request hheld

/-- A forwarder does something that the main loop does not see. -/
theorem Guards.of_forwarder (h : Guards s) (hmain : t.main = s.main)
    (hclaims : t.lock.claims .main = s.lock.claims .main)
    (hfws : ∀ f, t.lock.claims (.forwarder f) = forwarderClaims t.forwarders f)
    (hsingle : t.lock.Single)
    (hwaits : s.lock.waits .main = false → t.lock.waits .main = false)
    (hheld : (.main, .read) ∈ s.lock.holders →
      (.main, .read) ∈ t.lock.holders) : Guards t := by
  refine ⟨?_, hfws, hsingle, ?_, ?_⟩
  · rw [hmain, hclaims]
    exact h.main
  · rw [hmain]
    exact fun hpc => hwaits (h.granted hpc)
  · rw [hmain]
    exact fun p hp => hheld (h.kept p hp)

theorem Guards.connected (h : Guards s) (p : UdpTraffic) (ok : Bool) :
    Guards (connected s p ok) := by
  cases ok with
  | false =>
      exact h.dropRequest (fun _ => rfl) rfl rfl (Or.inr ⟨p, rfl⟩)
  | true =>
      refine h.dropRequest ?_ rfl rfl (Or.inr ⟨p, rfl⟩)
      -- the new forwarder is in its loop
      intro f
      show forwarderClaims (s.forwarders ++ [_]) f = _
      unfold forwarderClaims
      by_cases hlt : f < s.forwarders.length
      · rw [List.getElem?_append_left hlt]
      · have hge := Nat.le_of_not_lt hlt
        rw [List.getElem?_append_right hge, List.getElem?_eq_none hge,
          List.getElem?_singleton]
        by_cases hzero : f - s.forwarders.length = 0
        · rw [if_pos hzero]
          rfl
        · rw [if_neg hzero]

theorem claims_of_select (h : Guards s) {f : Nat} {fw : Forwarder}
    (hfw : s.forwarders[f]? = some fw) (hpc : fw.pc = .select) :
    s.lock.claims (.forwarder f) = [] := by
  rw [h.forwarder f]
  unfold forwarderClaims
  rw [hfw]
  simp [hpc]

theorem Guards.leave (h : Guards s) {f : Nat} {fw : Forwarder}
    (hfw : s.forwarders[f]? = some fw) (hpc : fw.pc = .select) :
    Guards (s.leave f fw) := by
  have hnil := claims_of_select h hfw hpc
  refine h.of_forwarder rfl ?_ ?_ ?_ ?_ RwLock.mem_holders_request
  · show (s.lock.request _ _).claims .main = _
    rw [RwLock.claims_request, if_neg nofun, List.append_nil]
  · intro g
    show (s.lock.request _ _).claims _ = forwarderClaims (List.set _ _ _) g
    rw [RwLock.claims_request, forwarderClaims_set hfw]
    by_cases hg : g = f
    · subst hg
      simp [hnil]
    · simp [hg, h.forwarder g]
  · exact h.single.request .write (RwLock.not_waits_of_claims_nil hnil)
  · exact RwLock.not_waits_request nofun

theorem Guards.remove (h : Guards s) {f : Nat} {fw : Forwarder}
    (hfw : s.forwarders[f]? = some fw) (hmain : t.main = s.main)
    (hfws : t.forwarders = s.forwarders.set f { fw with pc := .finished })
    (hlock : t.lock = s.lock.dropAll (.forwarder f)) : Guards t := by
  refine h.of_forwarder hmain ?_ ?_ ?_ ?_ ?_
  · rw [hlock, RwLock.claims_dropAll, if_neg nofun]
  · intro g
    rw [hlock, hfws, RwLock.claims_dropAll, forwarderClaims_set hfw]
    by_cases hg : g = f
    · subst hg
      simp
    · simp [hg, h.forwarder g]
  · rw [hlock]
    exact h.single.dropAll _
  · rw [hlock]
    exact RwLock.not_waits_dropAll
  · rw [hlock]
    exact fun hheld => RwLock.mem_holders_dropAll hheld nofun

theorem guards_init : Guards init where
  main := rfl
  forwarder f := rfl
  single := RwLock.single_new
  granted := by rintro (⟨p, hp⟩ | ⟨p, f, hp⟩) <;> cases hp
  kept p hp := by cases hp

theorem guards_step (h : Guards s) (hs : step s a = some t) : Guards t := by
  cases shape_step hs with
  | packet hmain =>
      have hclaims : s.lock.claims .main = [] := h.claims hmain
      refine h.request rfl rfl (RwLock.not_waits_of_claims_nil hclaims) ?_
        (Or.inl ⟨_, rfl⟩)
      rw [hclaims]
      rfl
  | returned ha => exact h.drop rfl rfl (Or.inr rfl)
  | found hmain hgot hentry =>
      have hclaims : s.lock.claims .main = [.read] := h.claims hmain
      have hheld : (.main, .read) ∈ s.lock.holders :=
        RwLock.mem_holders_of_not_waits hgot (by simp [hclaims])
      refine h.request rfl rfl hgot ?_ (Or.inr ⟨⟨_, rfl⟩, hheld⟩)
      rw [hclaims]
      rfl
  | missing hmain hgot hentry =>
      exact h.dropRequest (fun _ => rfl) rfl rfl (Or.inl ⟨_, rfl⟩)
  | locked hmain hgot =>
      have hclaims : s.lock.claims .main = [.write] := h.claims hmain
      exact ⟨hclaims, h.forwarder, h.single, fun _ => hgot, nofun⟩
  | connected hmain => exact h.connected _ _
  | chosen hmain hgot hentry =>
      rename_i p kept f
      have hclaims : s.lock.claims .main = [.read] ∨
          s.lock.claims .main = [.read, .read] := by
        cases kept with
        | false => exact Or.inl (h.claims hmain)
        | true => exact Or.inr (h.claims hmain)
      exact ⟨hclaims, h.forwarder, h.single, fun _ => hgot, nofun⟩
  | skipped hmain => exact h.drop rfl rfl (Or.inl rfl)
  | pushed hmain hfw hlive =>
      rename_i p f fw
      refine (h.of_forwarder (t := s.setForwarder f { fw with
        inbound := fw.inbound ++ [p.data] }) rfl rfl ?_ h.single (fun hw => hw)
        (fun hh => hh)).drop rfl rfl (Or.inl rfl)
      intro g
      refine (h.forwarder g).trans (forwarderClaims_inner hfw ?_ g).symm
      exact Iff.rfl
  | inner hfw hlock hlive haddr hqueue hlock' he hend =>
      refine h.of_forwarder rfl rfl ?_ h.single (fun hw => hw) (fun hh => hh)
      intro g
      refine (h.forwarder g).trans (forwarderClaims_inner hfw ?_ g).symm
      exact iff_of_false hlock' hlock
  | leave hfw hpc he hclosed => exact h.leave hfw hpc
  | remove hfw hpc hgot => exact h.remove hfw rfl rfl rfl
  | written => exact ⟨h.main, h.forwarder, h.single, h.granted, h.kept⟩

/-! ## The two circles, and no other -/

/-- What a forwarder waits for is the writer lock. -/
theorem Guards.write_of_waiting (h : Guards s) {f : Nat} {b : Access}
    (hb : (.forwarder f, b) ∈ s.lock.waiting) : b = .write := by
  have hmem := RwLock.mem_claims.mpr (Or.inr hb)
  rw [h.forwarder f] at hmem
  unfold forwarderClaims at hmem
  split at hmem
  · split at hmem
    · exact List.mem_singleton.mp hmem
    · cases hmem
  · cases hmem

/-- A forwarder that waits for the lock waits for whoever reads. -/
theorem Guards.waitsFor_reader (h : Guards s) {f : Nat} {x : Task}
    (hwaits : s.lock.waits (.forwarder f) = true)
    (hx : (x, .read) ∈ s.lock.holders) : s.WaitsFor (.forwarder f) x := by
  obtain ⟨b, hb⟩ := RwLock.waits_iff.mp hwaits
  obtain rfl := h.write_of_waiting hb
  obtain ⟨before, after, hqueue⟩ := List.append_of_mem hb
  exact .lock ⟨before, .write, after, hqueue,
    Or.inr ⟨.read, hx, Or.inl rfl⟩⟩

theorem Guards.reads_of_send (h : Guards s) {p : UdpTraffic} {f : Nat}
    (hmain : s.main = .send p f) : (.main, .read) ∈ s.lock.holders := by
  refine RwLock.mem_holders_of_not_waits (h.granted (Or.inr ⟨p, f, hmain⟩)) ?_
  have hclaims : s.lock.claims .main = [.read] ∨
      s.lock.claims .main = [.read, .read] := h.claims hmain
  rcases hclaims with hclaims | hclaims <;> simp [hclaims]

theorem circularWait_of_send (h : Guards s) {p : UdpTraffic} {f : Nat}
    (hmain : s.main = .send p f) (hfull : s.Full f)
    (hwaits : s.lock.waits (.forwarder f) = true) : s.CircularWait :=
  ⟨.main, .head (.queue hmain hfull)
    (.single (h.waitsFor_reader hwaits (h.reads_of_send hmain)))⟩

theorem circularWait_of_reread (h : Guards s) {p : UdpTraffic}
    (hmain : s.main = .lockSend p true)
    (hwaits : s.lock.waits .main = true) : s.CircularWait := by
  have hheld := h.kept p hmain
  have hclaims : s.lock.claims .main = [.read, .read] := h.claims hmain
  obtain ⟨b, hb⟩ := RwLock.waits_iff.mp hwaits
  have hread : b = .read := by
    have hmem := RwLock.mem_claims.mpr (Or.inr hb)
    rw [hclaims] at hmem
    simpa using hmem
  subst hread
  -- the first in the queue is a writer, since the lock is held by readers
  obtain ⟨w, ws, hqueue⟩ :=
    List.exists_cons_of_ne_nil (List.ne_nil_of_mem hb)
  have hblocked := s.lock.settled w (by rw [hqueue]; rfl)
  obtain ⟨x, b⟩ := w
  have hwrite : b = .write := by
    cases b with
    | read =>
        rw [RwLock.admits_read hheld] at hblocked
        cases hblocked
    | write => rfl
  subst hwrite
  have hx : (x, .write) ∈ s.lock.waiting := by
    rw [hqueue]
    exact List.mem_cons_self
  cases x with
  | main =>
      have hmem := RwLock.mem_claims.mpr (Or.inr hx)
      rw [hclaims] at hmem
      simp at hmem
  | forwarder f =>
      have hback : s.WaitsFor (.forwarder f) .main :=
        h.waitsFor_reader (RwLock.waits_iff.mpr ⟨_, hx⟩) hheld
      -- and the main loop is behind it
      rw [hqueue, List.mem_cons] at hb
      rcases hb with hb | hb
      · cases hb
      · obtain ⟨before, after, hws⟩ := List.append_of_mem hb
        have hahead : s.WaitsFor .main (.forwarder f) := by
          refine .lock ⟨(.forwarder f, .write) :: before, .read, after, ?_,
            Or.inl ⟨.write, List.mem_cons_self⟩⟩
          rw [hqueue, hws]
          rfl
        exact ⟨.main, .head hahead (.single hback)⟩

/-- Whoever waits has nothing. -/
theorem State.Untangled.apart (hu : s.Untangled) (h : Guards s) {x : Task}
    (hwaits : s.lock.waits x = true) (b : Access) : (x, b) ∉ s.lock.holders := by
  cases x with
  | forwarder f =>
      have hclaims : s.lock.claims (.forwarder f) = [.write] := by
        obtain ⟨c, hc⟩ := RwLock.waits_iff.mp hwaits
        have hmem := RwLock.mem_claims.mpr (Or.inr hc)
        rw [h.forwarder f] at hmem ⊢
        unfold forwarderClaims at hmem ⊢
        split at hmem
        · split at hmem
          · rename_i hpc
            exact if_pos hpc
          · cases hmem
        · cases hmem
      exact RwLock.not_holds_of_waits hclaims hwaits b
  | main =>
      have hgot : s.lock.waits .main ≠ false := by simp [hwaits]
      cases hmain : s.main with
      | read =>
          exact absurd (RwLock.not_waits_of_claims_nil (h.claims hmain)) hgot
      | lockRead p => exact RwLock.not_holds_of_waits (h.claims hmain) hwaits b
      | lockWrite p => exact RwLock.not_holds_of_waits (h.claims hmain) hwaits b
      | connect p => exact absurd (h.granted (Or.inl ⟨p, hmain⟩)) hgot
      | lockSend p kept =>
          cases kept with
          | false => exact RwLock.not_holds_of_waits (h.claims hmain) hwaits b
          | true => exact absurd (hu.reread p hmain) hgot
      | send p f => exact absurd (h.granted (Or.inr ⟨p, f, hmain⟩)) hgot
      | returned =>
          exact absurd (RwLock.not_waits_of_claims_nil (h.claims hmain)) hgot

/-- Waiting goes down: from the end of the queue to its front, from there to
the main loop that sends, and from there to a forwarder in its loop. -/
def State.rank (s : State) (x : Task) : Nat :=
  if s.lock.waits x then s.lock.place x + 2
  else if x = .main then 1 else 0

theorem State.Untangled.rank_lt (hu : s.Untangled) (h : Guards s) {x y : Task}
    (hxy : s.WaitsFor x y) : s.rank y < s.rank x := by
  cases hxy with
  | lock hlock =>
      have hx := hlock.waits
      unfold State.rank
      rw [if_pos hx]
      rcases hlock.before h.single with ⟨hy, hlt⟩ | ⟨b, hb⟩
      · rw [if_pos hy]
        omega
      · have hy : ¬ s.lock.waits y = true := fun hy => hu.apart h hy b hb
        rw [if_neg hy]
        split <;> omega
  | queue hmain hfull =>
      rename_i p f
      unfold State.rank
      rw [h.granted (Or.inr ⟨p, f, hmain⟩), hu.send p f hmain hfull]
      simp

theorem circularWait_iff (h : Guards s) : s.CircularWait ↔ ¬ s.Untangled := by
  constructor
  · rintro ⟨x, hcycle⟩ hu
    have hlt : ∀ y, Relation.TransGen s.WaitsFor x y → s.rank y < s.rank x := by
      intro y hy
      induction hy with
      | single hxy => exact hu.rank_lt h hxy
      | tail _ hyz ih => exact Nat.lt_trans (hu.rank_lt h hyz) ih
    exact Nat.lt_irrefl _ (hlt x hcycle)
  · intro hu
    by_contra hfree
    refine hu ⟨?_, ?_⟩
    · intro p hmain
      rw [Bool.eq_false_iff]
      exact fun hwaits => hfree (circularWait_of_reread h hmain hwaits)
    · intro p f hmain hfull
      rw [Bool.eq_false_iff]
      exact fun hwaits => hfree (circularWait_of_send h hmain hfull hwaits)

/-! ## The steps that close a circle -/

/-- The main loop asks for its second guard, with the first one in hand, only
when no forwarder waits for the lock; it does not start to send into the full
queue of a forwarder that waits for the lock; and no forwarder leaves its loop
while the main loop waits for room in its queue. -/
structure StaysApart (s : State) (a : Action) : Prop where
  reread : ∀ p f, a = .main → s.main = .lockRead p →
    s.lock.waits .main = false → s.portMap.lookup p.fromAddr = some f →
    ∀ g, s.lock.waits (.forwarder g) = false
  send : ∀ p kept f, a = .main → s.main = .lockSend p kept →
    s.lock.waits .main = false → s.portMap.lookup p.fromAddr = some f →
    s.Full f → s.lock.waits (.forwarder f) = false
  leave : ∀ p f fw, (a = .forwarder f .recvError ∨ a = .forwarder f .timeout) →
    s.forwarders[f]? = some fw → fw.pc = .select → s.main = .send p f →
    ¬ s.Full f

/-- A step of the main loop that does not find an entry. -/
theorem staysApart_main (hread : ∀ p f, s.main = .lockRead p →
      s.portMap.lookup p.fromAddr ≠ some f)
    (hsend : ∀ p kept f, s.main = .lockSend p kept →
      s.portMap.lookup p.fromAddr ≠ some f) : StaysApart s .main where
  reread p f _ hmain _ hentry := absurd hentry (hread p f hmain)
  send p kept f _ hmain _ hentry := absurd hentry (hsend p kept f hmain)
  leave p f fw ha := by rcases ha with ha | ha <;> cases ha

/-- A step that is not one of the three. -/
theorem staysApart_other (hmain : a ≠ .main)
    (hleave : ∀ f, a ≠ .forwarder f .recvError ∧ a ≠ .forwarder f .timeout) :
    StaysApart s a := by
  refine ⟨fun _ _ ha => absurd ha hmain, fun _ _ _ ha => absurd ha hmain, ?_⟩
  rintro _ f _ (ha | ha)
  · exact absurd ha (hleave f).1
  · exact absurd ha (hleave f).2

/-- Asking again is harmless exactly if nobody waits. -/
theorem not_waits_reread (h : Guards s) {p : UdpTraffic}
    (hmain : s.main = .lockRead p) (hgot : s.lock.waits .main = false) :
    (s.lock.request .main .read).waits .main = false ↔
      ∀ g, s.lock.waits (.forwarder g) = false := by
  constructor
  · intro hreq g
    rw [Bool.eq_false_iff]
    intro hwaits
    obtain ⟨b, hb⟩ := RwLock.waits_iff.mp hwaits
    obtain ⟨-, hqueue⟩ :=
      RwLock.request_of_queue (List.ne_nil_of_mem hb) .main .read
    rw [Bool.eq_false_iff] at hreq
    refine hreq (RwLock.waits_iff.mpr ⟨.read, ?_⟩)
    rw [hqueue]
    simp
  · intro hnone
    have hempty : s.lock.waiting = [] := by
      rw [List.eq_nil_iff_forall_not_mem]
      rintro ⟨x, b⟩ hx
      have hwaits := RwLock.waits_iff.mpr ⟨b, hx⟩
      cases x with
      | main =>
          rw [hgot] at hwaits
          cases hwaits
      | forwarder g =>
          rw [hnone g] at hwaits
          cases hwaits
    have hheld : (.main, .read) ∈ s.lock.holders := by
      have hclaims : s.lock.claims .main = [.read] := h.claims hmain
      exact RwLock.mem_holders_of_not_waits hgot (by simp [hclaims])
    unfold RwLock.waits
    rw [RwLock.request_of_no_queue hempty, if_pos (RwLock.admits_read hheld)]
    rfl

/-- A forwarder that asks for the lock while the main loop sends waits. -/
theorem waits_leave (h : Guards s) {p : UdpTraffic} {f g : Nat}
    (hmain : s.main = .send p g) (hnil : s.lock.claims (.forwarder f) = []) :
    (s.lock.request (.forwarder f) .write).waits (.forwarder f) = true := by
  by_contra hwaits
  rw [Bool.not_eq_true] at hwaits
  have hclaims : (s.lock.request (.forwarder f) .write).claims
      (.forwarder f) = [.write] := by
    rw [RwLock.claims_request, hnil, if_pos rfl]
    rfl
  have hwrite := RwLock.mem_holders_of_not_waits hwaits
    (show .write ∈ _ by rw [hclaims]; exact List.mem_singleton.mpr rfl)
  exact RwLock.not_writes_of_reads
    (RwLock.mem_holders_request (h.reads_of_send hmain)) hwrite

/-- A queue is full after the step of a forwarder only if it was before. -/
theorem full_of_set {f g : Nat} {fw fw' : Forwarder}
    (hfw : s.forwarders[f]? = some fw)
    (hfws : t.forwarders = s.forwarders.set f fw')
    (hlive : fw'.pc ≠ .finished → fw.pc ≠ .finished)
    (hqueue : fw'.inbound.length ≤ fw.inbound.length) (h : t.Full g) :
    s.Full g := by
  obtain ⟨gw, hgw, hpc, hfull⟩ := h
  rw [hfws, getElem?_set_forwarder hfw] at hgw
  rcases hgw with ⟨rfl, rfl⟩ | ⟨-, hgw⟩
  · exact ⟨fw, hfw, hlive hpc, Nat.le_trans hfull hqueue⟩
  · exact ⟨gw, hgw, hpc, hfull⟩

/-- The main loop is neither at its second guard nor sending. -/
theorem untangled_of_main (hreread : ∀ p, s.main ≠ .lockSend p true)
    (hsend : ∀ p f, s.main ≠ .send p f) : s.Untangled :=
  ⟨fun p hp => absurd hp (hreread p), fun p f hp => absurd hp (hsend p f)⟩

theorem untangled_leave (hu : s.Untangled) (h : Guards s) {f : Nat} {e : Event}
    {fw : Forwarder} (hfw : s.forwarders[f]? = some fw) (hpc : fw.pc = .select)
    (he : e.breaks = true) (hclosed : e = .closed → fw.inbound = []) :
    (s.leave f fw).Untangled ↔ StaysApart s (.forwarder f e) := by
  have hnil := claims_of_select h hfw hpc
  constructor
  · intro hu'
    refine ⟨nofun, nofun, ?_⟩
    rintro p g gw ha hgw - hmain ⟨gw', hgw', hlive, hfull⟩
    obtain rfl : g = f := by rcases ha with ha | ha <;> cases ha <;> rfl
    obtain rfl := Option.some.inj (hfw.symm.trans hgw)
    obtain rfl := Option.some.inj (hfw.symm.trans hgw')
    have hfull' : (s.leave g fw).Full g :=
      ⟨{ fw with pc := .lock },
        (getElem?_set_forwarder hfw).mpr (Or.inl ⟨rfl, rfl⟩), nofun, hfull⟩
    have hwaits : (s.leave g fw).lock.waits (.forwarder g) = false :=
      hu'.send p g hmain hfull'
    rw [show (s.leave g fw).lock.waits (.forwarder g) = true from
      waits_leave h hmain hnil] at hwaits
    cases hwaits
  · intro hapart
    refine ⟨?_, ?_⟩
    · intro p hmain
      exact RwLock.not_waits_request nofun (hu.reread p hmain)
    · intro p g hmain hfull
      have hfull' : s.Full g := by
        refine full_of_set hfw rfl ?_ ?_ hfull
        · simp [hpc]
        · exact Nat.le_refl _
      by_cases hg : g = f
      · subst hg
        -- of the three ways out of the loop, one needs an empty queue
        cases e with
        | closed =>
            obtain ⟨gw, hgw, -, hlen⟩ := hfull'
            obtain rfl := Option.some.inj (hfw.symm.trans hgw)
            rw [hclosed rfl] at hlen
            cases hlen
        | recvError =>
            exact absurd hfull' (hapart.leave p g fw (Or.inl rfl) hfw hpc hmain)
        | timeout =>
            exact absurd hfull' (hapart.leave p g fw (Or.inr rfl) hfw hpc hmain)
        | _ => cases he
      · exact RwLock.not_waits_request (by simpa using hg)
          (hu.send p g hmain hfull')

theorem untangled_found (h : Guards s) {p : UdpTraffic} {f : Nat}
    (hmain : s.main = .lockRead p) (hgot : s.lock.waits .main = false)
    (hentry : s.portMap.lookup p.fromAddr = some f)
    (ht : t.main = .lockSend p true)
    (hlock : t.lock = s.lock.request .main .read) :
    t.Untangled ↔ StaysApart s .main := by
  constructor
  · intro hu'
    have hwaits := hu'.reread p ht
    rw [hlock, not_waits_reread h hmain hgot] at hwaits
    refine ⟨fun _ _ _ _ _ _ => hwaits, ?_, ?_⟩
    · intro q kept g _ hq
      rw [hmain] at hq
      cases hq
    · rintro q g gw (ha | ha) <;> cases ha
  · intro hapart
    refine ⟨?_, ?_⟩
    · intro q _
      rw [hlock, not_waits_reread h hmain hgot]
      exact hapart.reread p f rfl hmain hgot hentry
    · intro q g hq
      rw [ht] at hq
      cases hq

theorem untangled_chosen {p : UdpTraffic} {kept : Bool} {f : Nat}
    (hmain : s.main = .lockSend p kept) (hgot : s.lock.waits .main = false)
    (hentry : s.portMap.lookup p.fromAddr = some f) :
    State.Untangled { s with main := .send p f } ↔ StaysApart s .main := by
  constructor
  · intro hu'
    refine ⟨?_, ?_, ?_⟩
    · intro q g _ hq
      rw [hmain] at hq
      cases hq
    · intro q kept' g _ hq _ hg hfull
      rw [hmain] at hq
      cases hq
      obtain rfl := Option.some.inj (hentry.symm.trans hg)
      exact hu'.send _ _ rfl hfull
    · rintro q g gw (ha | ha) <;> cases ha
  · intro hapart
    refine ⟨nofun, ?_⟩
    intro q g hq hfull
    cases hq
    exact hapart.send p kept f rfl hmain hgot hentry hfull

/-- **Step lemma.** -/
theorem untangled_step (hu : s.Untangled) (h : Guards s)
    (hs : step s a = some t) : t.Untangled ↔ StaysApart s a := by
  cases shape_step hs with
  | packet =>
      exact iff_of_true (untangled_of_main nofun nofun)
        (staysApart_other nofun (fun _ => ⟨nofun, nofun⟩))
  | returned ha =>
      refine iff_of_true (untangled_of_main nofun nofun) ?_
      rcases ha with rfl | ⟨rfl, -⟩ <;>
        exact staysApart_other nofun (fun _ => ⟨nofun, nofun⟩)
  | found hmain hgot hentry => exact untangled_found h hmain hgot hentry rfl rfl
  | missing hmain hgot hentry =>
      refine iff_of_true (untangled_of_main nofun nofun) (staysApart_main ?_ ?_)
      · intro q g hq hg
        rw [hmain] at hq
        cases hq
        rw [hentry] at hg
        cases hg
      · intro q kept g hq
        rw [hmain] at hq
        cases hq
  | locked hmain hgot =>
      refine iff_of_true (untangled_of_main nofun nofun) ?_
      apply staysApart_main
      all_goals
        rw [hmain]
        exact nofun
  | connected hmain =>
      rename_i p ok
      refine iff_of_true ?_ (staysApart_other nofun (fun _ => ⟨nofun, nofun⟩))
      cases ok <;> exact untangled_of_main nofun nofun
  | chosen hmain hgot hentry => exact untangled_chosen hmain hgot hentry
  | skipped hmain =>
      refine iff_of_true (untangled_of_main nofun nofun) (staysApart_main ?_ ?_)
      · intro q g hq
        rcases hmain with ⟨kept, hmain, -⟩ | ⟨f, hmain⟩ <;>
          (rw [hmain] at hq; cases hq)
      · intro q kept g hq hg
        rcases hmain with ⟨kept', hmain, hnone⟩ | ⟨f, hmain⟩
        · rw [hmain] at hq
          cases hq
          rw [hnone] at hg
          cases hg
        · rw [hmain] at hq
          cases hq
  | pushed hmain hfw hlive =>
      refine iff_of_true (untangled_of_main nofun nofun) ?_
      apply staysApart_main
      all_goals
        rw [hmain]
        exact nofun
  | inner hfw hlock hlive haddr hqueue hlock' he hend =>
      refine iff_of_true ⟨hu.reread, ?_⟩ ?_
      · intro p g hmain hfull
        exact hu.send p g hmain
          (full_of_set hfw rfl (fun _ => hlive) hqueue hfull)
      · refine staysApart_other nofun (fun g => ⟨?_, ?_⟩) <;>
          (rintro ⟨⟩; cases he)
  | leave hfw hpc he hclosed => exact untangled_leave hu h hfw hpc he hclosed
  | remove hfw hpc hgot =>
      refine iff_of_true ⟨?_, ?_⟩
        (staysApart_other nofun (fun _ => ⟨nofun, nofun⟩))
      · intro p hmain
        exact RwLock.not_waits_dropAll (hu.reread p hmain)
      · intro p g hmain hfull
        refine RwLock.not_waits_dropAll (hu.send p g hmain ?_)
        refine full_of_set hfw rfl ?_ ?_ hfull
        · simp [hpc]
        · exact Nat.le_refl _
  | written =>
      exact iff_of_true ⟨hu.reread, hu.send⟩
        (staysApart_other nofun (fun _ => ⟨nofun, nofun⟩))

/-- The step does not lead to a circle. -/
def KeepsUntangled (s : State) (a : Action) : Prop :=
  ∀ t, step s a = some t → ¬ t.CircularWait

theorem keepsUntangled_iff (hu : s.Untangled) (h : Guards s) :
    KeepsUntangled s a ↔ StaysApart s a := by
  cases hs : step s a with
  | some t =>
      rw [← untangled_step hu h hs]
      have hiff := circularWait_iff (guards_step h hs)
      constructor
      · intro hkeep
        by_contra hne
        exact hkeep t hs (hiff.mpr hne)
      · intro hut t' ht'
        obtain rfl := Option.some.inj (hs.symm.trans ht')
        exact fun hc => hiff.mp hc hut
  | none =>
      -- the steps of `StaysApart` are possible when they are at issue
      refine iff_of_true (fun t ht => ?_) ⟨?_, ?_, ?_⟩
      · rw [hs] at ht
        cases ht
      · rintro p f rfl hmain hgot hentry
        simp [step, mainStep, hmain, hgot, hentry] at hs
      · rintro p kept f rfl hmain hgot hentry
        simp [step, mainStep, hmain, hgot, hentry] at hs
      · rintro p f fw (rfl | rfl) hfw hpc <;>
          simp [step, hfw, forwarderStep, hpc] at hs

end

theorem untangled_init : init.Untangled := untangled_of_main nofun nofun

/-- **No circular wait.** In a run of the data channel and its forwarders no
state has tasks that wait for each other in a circle exactly if every step
stays apart; then, in particular, the main loop never holds the lock for a
full queue whose forwarder waits for the lock. -/
theorem no_circular_wait (as : List Action) :
    (Meets step KeepsUntangled init as ↔ Meets step StaysApart init as) ∧
    (Meets step StaysApart init as → ∀ s, Run step init as s →
      ¬ s.CircularWait ∧
        ∀ p f, s.main = .send p f → s.Full f →
          (.main, .read) ∈ s.lock.holders ∧
            s.lock.waits (.forwarder f) = false) := by
  have hinit : init.Untangled ∧ Guards init := ⟨untangled_init, guards_init⟩
  constructor
  · refine meets_congr (I := fun s => s.Untangled ∧ Guards s) ?_ ?_ hinit
    · exact fun s a hs => keepsUntangled_iff hs.1 hs.2
    · intro s a t hs hkeep ht
      have hguards := guards_step hs.2 ht
      refine ⟨?_, hguards⟩
      by_contra hne
      exact hkeep t ht ((circularWait_iff hguards).mpr hne)
  · intro hmeets s hrun
    obtain ⟨hu, h⟩ : s.Untangled ∧ Guards s :=
      run_preserves_of_meets (I := fun s => s.Untangled ∧ Guards s)
        (fun s a t hs ha ht =>
          ⟨(untangled_step hs.1 hs.2 ht).mpr ha, guards_step hs.2 ht⟩)
        hinit hmeets hrun
    refine ⟨fun hc => (circularWait_iff h).mp hc hu, ?_⟩
    intro p f hmain hfull
    exact ⟨h.reads_of_send hmain, hu.send p f hmain hfull⟩

/-! ## A full queue, and a timeout at the wrong moment -/

/-- Forwarder 0 has `n` datagrams in its queue and does not get to them. -/
def flooded (n : Nat) : State where
  main := .read
  portMap := AList.singleton visitor 0
  lock := RwLock.new
  forwarders := [⟨visitor, List.replicate n [1], .select⟩]
  outbound := []
  outboundClosed := false

/-- One more packet of the visitor, up to the send. -/
def nextPacket : List Action := [.packet ⟨visitor, [1]⟩, .main, .main]

theorem run_nextPacket (n : Nat) : ∃ s, Run step (flooded n) nextPacket s ∧
    s.main = .send ⟨visitor, [1]⟩ 0 ∧
    s.forwarders = (flooded n).forwarders ∧
    s.lock.holders = [(.main, .read), (.main, .read)] ∧
    s.lock.waiting = [] ∧
    (n < udpSendqSize → step s .main = some (flooded (n + 1))) := by
  refine ⟨_, rfl, rfl, rfl, rfl, rfl, ?_⟩
  intro hn
  have hreplicate : List.replicate n [1] ++ [[1]] =
      List.replicate (n + 1) ([1] : Bytes) := List.replicate_succ'.symm
  show (if (List.replicate n ([1] : Bytes)).length < udpSendqSize then _
    else none) = _
  rw [if_pos (by rwa [List.length_replicate])]
  show some _ = some _
  unfold flooded
  rw [← hreplicate]
  rfl

theorem run_flooded (n : Nat) (hn : n < udpSendqSize) :
    ∃ as, Run step init as (flooded (n + 1)) := by
  induction n with
  | zero => exact ⟨firstPacket, rfl⟩
  | succ n ih =>
      obtain ⟨as, hrun⟩ := ih (Nat.lt_of_succ_lt hn)
      obtain ⟨s, hnext, -, -, -, -, hpush⟩ := run_nextPacket (n + 1)
      exact ⟨as ++ (nextPacket ++ [.main]), run_append.mpr ⟨_, hrun,
        run_snoc.mpr ⟨s, hnext, hpush hn⟩⟩⟩

theorem step_recvError {s : State} {f : Nat} {fw : Forwarder}
    (hfw : s.forwarders[f]? = some fw) (hpc : fw.pc = .select) :
    step s (.forwarder f .recvError) = some (s.leave f fw) := by
  simp [step, hfw, forwarderStep, hpc]

/-- Forwarder 0 has sent its datagram to the service and waits. -/
def idleForwarder : List Action :=
  firstPacket ++ [.forwarder 0 .recv, .forwarder 0 (.sent true)]

/-- With 1024 datagrams in its queue the socket of forwarder 0 reports an
error: the forwarder waits for the main loop, and the main loop for it. And
with nothing in its queue it times out just when the main loop has its first
guard. -/
theorem main_and_forwarder_wait :
    (∃ as s p, Run step init as s ∧ s.main = .send p 0 ∧ s.Full 0 ∧
      (.main, .read) ∈ s.lock.holders ∧
      s.lock.waits (.forwarder 0) = true ∧ s.CircularWait) ∧
    ∃ s, Run step init (idleForwarder ++ [.packet ⟨visitor, [2]⟩,
      .forwarder 0 .timeout, .main]) s ∧ s.CircularWait := by
  constructor
  · obtain ⟨as, hrun⟩ := run_flooded 1023 (by decide)
    obtain ⟨s, hnext, hmain, hfws, hholders, hqueue, -⟩ := run_nextPacket 1024
    have hfw : s.forwarders[0]? =
        some ⟨visitor, List.replicate 1024 [1], .select⟩ := by
      rw [hfws]
      rfl
    have hstep := step_recvError hfw rfl
    have hall : Run step init (as ++ (nextPacket ++ [.forwarder 0 .recvError]))
        _ := run_append.mpr ⟨_, hrun, run_snoc.mpr ⟨s, hnext, hstep⟩⟩
    have hguards := run_preserves (fun _ _ _ h hs => guards_step h hs)
      guards_init hall
    have hfull : (s.leave 0 ⟨visitor, List.replicate 1024 [1],
        .select⟩).Full 0 := by
      refine ⟨⟨visitor, List.replicate 1024 [1], .lock⟩, ?_, nofun, ?_⟩
      · exact (getElem?_set_forwarder hfw).mpr (Or.inl ⟨rfl, rfl⟩)
      · rw [List.length_replicate]
        exact Nat.le_refl _
    have hwaits : (s.leave 0 ⟨visitor, List.replicate 1024 [1],
        .select⟩).lock.waits (.forwarder 0) = true := by
      refine RwLock.waits_iff.mpr ⟨.write, ?_⟩
      show _ ∈ (s.lock.request _ _).waiting
      rw [RwLock.request_of_no_queue hqueue, hholders]
      exact List.mem_singleton.mpr rfl
    exact ⟨_, _, _, hall, hmain, hfull, hguards.reads_of_send hmain, hwaits,
      circularWait_of_send hguards hmain hfull hwaits⟩
  · have hrun : ∃ s, Run step init (idleForwarder ++ [.packet ⟨visitor, [2]⟩,
        .forwarder 0 .timeout, .main]) s ∧
        s.main = .lockSend ⟨visitor, [2]⟩ true ∧
        s.lock.waits .main = true := ⟨_, rfl, rfl, rfl⟩
    obtain ⟨s, hrun, hmain, hwaits⟩ := hrun
    have hguards := run_preserves (fun _ _ _ h hs => guards_step h hs)
      guards_init hrun
    exact ⟨s, hrun, circularWait_of_reread hguards hmain hwaits⟩

end Rathole.UdpForward
