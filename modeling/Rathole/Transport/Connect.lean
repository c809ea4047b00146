import Mathlib.Data.List.Induction
import Rathole.Transport.Endpoint

/-!
# How long `connect` tries

`UdpStream::connect` sends a StreamOpen, waits for a tick of its interval and
looks at the stream, until the stream is established or closed or ten seconds
have passed. Beside it run the stream's task and the receive loop: packets
arrive, the task ticks, and the socket may fail.

The interval's first tick is immediate, so the second StreamOpen follows the
first at once, and later ones every 200 ms. The deadline is only looked at
after a tick. `connect_returns` says what follows for the time it takes and for
what it returns.
-/

namespace Rathole.Connect

open Runs

inductive Pc where
  /-- Before the first turn of the loop. -/
  | first
  /-- At `ticker.tick()`. -/
  | tick
  /-- `Ok(())` is `none`. -/
  | returned (err : Option String)
deriving DecidableEq

structure State where
  endpoint : Endpoint
  clock : Instant
  start : Instant
  /-- When the interval's next tick is due. -/
  ticker : Instant
  pc : Pc
  /-- When the StreamOpens were sent. -/
  opens : List Instant

inductive Action where
  | pass (d : ℕ)
  | turn
  -- the receive loop and the stream's task
  | incoming (pkt : IncomingPacket)
  | taskTick
  | socketError
  | endTask
deriving DecidableEq

def init (sid : UInt32) (server : SocketAddr) (now : Instant) : State where
  endpoint := .connecting sid server now
  clock := now
  start := now
  ticker := now
  pc := .first
  opens := []

namespace State

/-- One turn of the loop, up to `ticker.tick()`. -/
def iterate (s : State) : Option State :=
  if s.start + secs 10 < s.clock then
    some { s with pc := .returned (some "handshake timeout") }
  else if s.endpoint.stream.inner.closed = true then
    some { s with pc := .returned (some "stream closed") }
  else if s.endpoint.st.established = true then
    some { s with pc := .returned none }
  else
    (s.endpoint.next (.connectTurn s.clock)).map (fun e =>
      { s with endpoint := e, pc := .tick, opens := s.opens ++ [s.clock] })

def background (s : State) (op : Op) : Option State :=
  (s.endpoint.next op).map (fun e => { s with endpoint := e })

end State

def step (s : State) : Action → Option State
  | .pass d => some { s with clock := s.clock + d }
  | .turn =>
      match s.pc with
      | .first => s.iterate
      | .tick =>
          if s.ticker ≤ s.clock then
            { s with ticker := s.ticker + millis 200 }.iterate
          else none
      | .returned _ => none
  | .incoming pkt => s.background (.incoming pkt s.clock)
  | .taskTick => s.background (.tick s.clock)
  | .socketError => s.background .socketError
  | .endTask => s.background .endTask

/-- `connect` has not returned. -/
def State.Waiting (s : State) : Prop := ∀ err, s.pc ≠ .returned err

instance (s : State) : Decidable s.Waiting :=
  match h : s.pc with
  | .returned err => isFalse (fun hwait => hwait err h)
  | .first => isTrue (fun _ herr => by rw [h] at herr; cases herr)
  | .tick => isTrue (fun _ herr => by rw [h] at herr; cases herr)

/-- The loop takes its turns no more than `lag` after it can. -/
def OnTime (lag : ℕ) (s : State) : Action → Prop
  | .pass d => s.Waiting → s.clock + d ≤ s.ticker + lag
  | _ => True

instance (lag : ℕ) (s : State) : ∀ a, Decidable (OnTime lag s a)
  | .pass d => inferInstanceAs (Decidable (s.Waiting → s.clock + d ≤ _))
  | .turn | .incoming _ | .taskTick | .socketError | .endTask => isTrue trivial

/-- A packet of the server's that establishes the stream. -/
def Action.Answers (sid : UInt32) (server : SocketAddr) : Action → Prop
  | .incoming pkt => pkt.header.channelId = sid ∧ pkt.src = server ∧
      (pkt.header.packetKind = .streamOpen ∨
        pkt.header.packetKind = .streamOpenAck)
  | _ => False

/-- The server closes the stream, or the socket fails. -/
def Action.Breaks (sid : UInt32) (server : SocketAddr) : Action → Prop
  | .incoming pkt => pkt.header.channelId = sid ∧ pkt.src = server ∧
      pkt.header.packetKind = .streamClose
  | .socketError => True
  | _ => False

/-! ## What a step can do -/

section

variable {sid : UInt32} {server : SocketAddr} {now : Instant} {lag : ℕ}
  {s t : State} {a : Action} {op : Op}

/-- The stream that `connect` was called for. -/
structure Own (sid : UInt32) (server : SocketAddr) (s : State) : Prop where
  wf : s.endpoint.WF
  id : s.endpoint.stream.streamId = sid
  dest : s.endpoint.dest = some server

theorem Own.next (h : Own sid server s) {e : Endpoint}
    (hs : s.endpoint.next op = some e) (u : State)
    (hu : u.endpoint = e) : Own sid server u := by
  obtain ⟨hwf, out, hstep, -⟩ := Endpoint.wf_next h.wf hs
  obtain ⟨hid, hdest⟩ := Endpoint.step_streamId h.wf hstep
  subst hu
  exact ⟨hwf, hid.trans h.id, hdest.trans h.dest⟩

/-- The four ends of a turn. -/
inductive Turned (s : State) : State → Prop where
  | timeout (hlate : s.start + secs 10 < s.clock) :
      Turned s { s with pc := .returned (some "handshake timeout") }
  | closed (hclosed : s.endpoint.snap.closed = true) :
      Turned s { s with pc := .returned (some "stream closed") }
  | established (hest : s.endpoint.snap.st.established = true) :
      Turned s { s with pc := .returned none }
  | sent {e : Endpoint} (hearly : s.clock ≤ s.start + secs 10)
      (hopen : s.endpoint.snap.closed = false)
      (hnot : s.endpoint.snap.st.established = false)
      (he : s.endpoint.next (.connectTurn s.clock) = some e) :
      Turned s { s with
        endpoint := e, pc := .tick, opens := s.opens ++ [s.clock] }

theorem turned_of_iterate (hs : s.iterate = some t) : Turned s t := by
  unfold State.iterate at hs
  split at hs
  · rename_i hlate
    cases hs
    exact .timeout hlate
  · rename_i hearly
    split at hs
    · rename_i hclosed
      cases hs
      exact .closed hclosed
    · rename_i hopen
      split at hs
      · rename_i hest
        cases hs
        exact .established hest
      · rename_i hnot
        obtain ⟨e, he, rfl⟩ := Option.map_eq_some_iff.mp hs
        exact .sent (Nat.le_of_not_lt hearly) (Bool.not_eq_true _ ▸ hopen)
          (Bool.not_eq_true _ ▸ hnot) he

/-- What runs beside the loop. -/
inductive Action.Beside (s : State) : Action → Op → Prop where
  | incoming (pkt : IncomingPacket) :
      Beside s (.incoming pkt) (.incoming pkt s.clock)
  | taskTick : Beside s .taskTick (.tick s.clock)
  | socketError : Beside s .socketError .socketError
  | endTask : Beside s .endTask .endTask

inductive Moves (s : State) : Action → State → Prop where
  | pass (d : ℕ) : Moves s (.pass d) { s with clock := s.clock + d }
  | first {t : State} (hpc : s.pc = .first) (ht : Turned s t) :
      Moves s .turn t
  | tick {t : State} (hpc : s.pc = .tick) (hdue : s.ticker ≤ s.clock)
      (ht : Turned { s with ticker := s.ticker + millis 200 } t) :
      Moves s .turn t
  | beside {a : Action} {op : Op} {e : Endpoint} (ha : a.Beside s op)
      (he : s.endpoint.next op = some e) :
      Moves s a { s with endpoint := e }

theorem moves_of_step (hs : step s a = some t) : Moves s a t := by
  have hbeside {op : Op} (ha : a.Beside s op)
      (hb : s.background op = some t) : Moves s a t := by
    obtain ⟨e, he, rfl⟩ := Option.map_eq_some_iff.mp hb
    exact .beside ha he
  cases a with
  | pass d =>
      cases hs
      exact .pass d
  | turn =>
      simp only [step] at hs
      split at hs
      · rename_i hpc
        exact .first hpc (turned_of_iterate hs)
      · rename_i hpc
        split at hs
        · rename_i hdue
          exact .tick hpc hdue (turned_of_iterate hs)
        · cases hs
      · cases hs
  | incoming pkt => exact hbeside (.incoming pkt) hs
  | taskTick => exact hbeside .taskTick hs
  | socketError => exact hbeside .socketError hs
  | endTask => exact hbeside .endTask hs

theorem Own.turned (h : Own sid server s) (ht : Turned s t) :
    Own sid server t := by
  cases ht with
  | sent _ _ _ he => exact h.next he _ rfl
  | _ => exact ⟨h.wf, h.id, h.dest⟩

theorem Own.moved (h : Own sid server s) (hs : step s a = some t) :
    Own sid server t := by
  cases moves_of_step hs with
  | pass d => exact ⟨h.wf, h.id, h.dest⟩
  | first _ ht => exact h.turned ht
  | tick _ _ ht =>
      have hticked : Own sid server
          { s with ticker := s.ticker + millis 200 } :=
        ⟨h.wf, h.id, h.dest⟩
      exact hticked.turned ht
  | beside _ he => exact h.next he _ rfl

/-! ## When the loop turns -/

structure Inv (now : Instant) (lag : ℕ) (s : State) : Prop where
  start : s.start = now
  clock : now ≤ s.clock
  punctual : s.Waiting → s.clock ≤ s.ticker + lag
  first : s.pc = .first → s.opens = [] ∧ s.ticker = now
  tick : s.pc = .tick → s.opens ≠ [] ∧
    s.ticker = now + millis 200 * (s.opens.length - 1) ∧
    s.ticker ≤ s.clock + millis 200
  timeout : s.pc = .returned (some "handshake timeout") →
    now + secs 10 < s.clock
  opens : ∀ k u, s.opens[k]? = some u →
    now + millis 200 * (k - 1) ≤ u ∧
      u ≤ now + millis 200 * (k - 1) + lag ∧ u ≤ now + secs 10

theorem inv_init : Inv now lag (init sid server now) where
  start := rfl
  clock := Nat.le_refl _
  punctual _ := Nat.le_add_right _ _
  first _ := ⟨rfl, rfl⟩
  tick h := by cases h
  timeout h := by cases h
  opens _ _ h := by cases h

theorem Inv.length_opens (h : Inv now lag s) : s.opens.length ≤ 52 := by
  cases hlen : s.opens.length with
  | zero => exact Nat.zero_le _
  | succ n =>
      have hlast := List.getElem?_eq_getElem (l := s.opens) (i := n) (by omega)
      obtain ⟨hlow, -, hhigh⟩ := h.opens n _ hlast
      dsimp only [Instant, millis, secs] at *
      omega

/-- A turn, `n` StreamOpens after the first one could be sent. -/
theorem Inv.turned (h : Inv now lag s)
    (hlow : now + millis 200 * (s.opens.length - 1) ≤ s.clock)
    (hhigh : s.clock ≤ now + millis 200 * (s.opens.length - 1) + lag)
    (ticker : Instant) (hticker : ticker = now + millis 200 * s.opens.length)
    (ht : Turned { s with ticker := ticker } t) : Inv now lag t := by
  have hstop {err : Option String}
      (htime : err = some "handshake timeout" → now + secs 10 < s.clock) :
      Inv now lag { s with ticker := ticker, pc := .returned err } :=
    { start := h.start
      clock := h.clock
      punctual := fun hwait => absurd rfl (hwait err)
      first := fun hpc => by cases hpc
      tick := fun hpc => by cases hpc
      timeout := fun hpc => htime (by cases hpc; rfl)
      opens := h.opens }
  cases ht with
  | timeout hlate => exact hstop (fun _ => h.start ▸ hlate)
  | closed _ => exact hstop (fun herr => absurd herr (by decide))
  | established _ => exact hstop (fun herr => absurd herr (by decide))
  | sent hearly _ _ _ =>
      have hearly : s.clock ≤ now + secs 10 := h.start ▸ hearly
      refine ⟨h.start, h.clock, fun _ => ?_,
        (fun hpc => by cases hpc), fun _ => ⟨?_, ?_, ?_⟩,
        (fun hpc => by cases hpc), ?_⟩
      · dsimp only [Instant, millis, secs] at *
        omega
      · exact List.append_ne_nil_of_right_ne_nil _ (List.cons_ne_nil _ _)
      · show ticker = _
        rw [hticker, List.length_append, List.length_singleton,
          Nat.add_sub_cancel]
      · show ticker ≤ s.clock + millis 200
        dsimp only [Instant, millis, secs] at *
        omega
      · intro k u hu
        rcases Nat.lt_or_ge k s.opens.length with hold | hnew
        · rw [List.getElem?_append_left hold] at hu
          exact h.opens k u hu
        · rw [List.getElem?_append_right hnew] at hu
          cases hk : k - s.opens.length with
          | zero =>
              rw [hk] at hu
              cases hu
              rw [Nat.le_antisymm (Nat.sub_eq_zero_iff_le.mp hk) hnew]
              exact ⟨hlow, hhigh, hearly⟩
          | succ j =>
              rw [hk] at hu
              cases hu

/-- **Step lemma.** -/
theorem Inv.step (h : Inv now lag s) (htime : OnTime lag s a)
    (hs : step s a = some t) : Inv now lag t := by
  cases moves_of_step hs with
  | pass d =>
      have hlater : s.clock ≤ s.clock + d := Nat.le_add_right _ _
      refine ⟨h.start, h.clock.trans hlater, htime, h.first, fun hpc => ?_,
        fun hpc => (h.timeout hpc).trans_le hlater, h.opens⟩
      obtain ⟨hne, heq, hle⟩ := h.tick hpc
      exact ⟨hne, heq, hle.trans (Nat.add_le_add_right hlater _)⟩
  | first hpc ht =>
      obtain ⟨hnil, hticker⟩ := h.first hpc
      have hpunct := h.punctual
        (fun err herr => by rw [hpc] at herr; cases herr)
      refine h.turned ?_ ?_ s.ticker ?_ ht
      · rw [hnil]
        exact h.clock
      · rw [hnil, ← hticker]
        exact hpunct
      · rw [hnil]
        exact hticker
  | tick hpc hdue ht =>
      obtain ⟨hne, hticker, -⟩ := h.tick hpc
      have hpunct := h.punctual
        (fun err herr => by rw [hpc] at herr; cases herr)
      have hpos := List.length_pos_of_ne_nil hne
      refine h.turned (hticker ▸ hdue) (hticker ▸ hpunct) _ ?_ ht
      dsimp only [Instant, millis, secs] at *
      omega
  | beside _ _ =>
      exact ⟨h.start, h.clock, h.punctual, h.first, h.tick, h.timeout, h.opens⟩

/-- A `connect` that still waits has not waited long. -/
theorem Inv.waiting (h : Inv now lag s) (hwait : s.Waiting) :
    s.clock ≤ now + secs 10 + millis 200 + lag := by
  have hpunct := h.punctual hwait
  have hlen := h.length_opens
  cases hpc : s.pc with
  | first =>
      rw [(h.first hpc).2] at hpunct
      dsimp only [Instant, millis, secs] at *
      omega
  | tick =>
      rw [(h.tick hpc).2.1] at hpunct
      dsimp only [Instant, millis, secs] at *
      omega
  | returned err => exact absurd hpc (hwait err)

/-! ## What the loop looks at -/

/-- What a step does to the stream. -/
theorem Own.effect (h : Own sid server s) (hs : step s a = some t) :
    t.endpoint = s.endpoint ∨ ∃ op out,
      Effect s.endpoint.stream.streamId s.endpoint.snap op t.endpoint.snap out ∧
      s.endpoint.next op = some t.endpoint ∧
      (op = .connectTurn s.clock ∨ a.Beside s op) := by
  have hturned {ticker : Instant} (ht : Turned { s with ticker := ticker } t) :
      t.endpoint = s.endpoint ∨ ∃ op out,
        Effect s.endpoint.stream.streamId s.endpoint.snap op t.endpoint.snap
          out ∧
        s.endpoint.next op = some t.endpoint ∧
        (op = .connectTurn s.clock ∨ a.Beside s op) := by
    cases ht with
    | sent _ _ _ he =>
        obtain ⟨-, out, -, heff⟩ := Endpoint.wf_next h.wf he
        exact Or.inr ⟨_, out, heff, he, Or.inl rfl⟩
    | _ => exact Or.inl rfl
  cases moves_of_step hs with
  | pass d => exact Or.inl rfl
  | first _ ht => exact hturned ht
  | tick _ _ ht => exact hturned ht
  | beside ha he =>
      obtain ⟨-, out, -, heff⟩ := Endpoint.wf_next h.wf he
      exact Or.inr ⟨_, out, heff, he, Or.inr ha⟩

theorem routes_of_next {e e' : Endpoint} {pkt : IncomingPacket}
    (hs : e.next (.incoming pkt now) = some e') : e.routes pkt = true := by
  obtain ⟨r, hr, -⟩ := Option.map_eq_some_iff.mp hs
  simp only [Endpoint.step] at hr
  split at hr
  · rename_i hcond
    exact hcond.2
  · cases hr

/-- Packets come from the server, under the stream's id. -/
theorem Own.routed (h : Own sid server s) {pkt : IncomingPacket}
    (hroutes : s.endpoint.routes pkt = true) :
    pkt.header.channelId = sid ∧ pkt.src = server := by
  unfold Endpoint.routes at hroutes
  rw [h.dest, h.id, Bool.and_eq_true] at hroutes
  exact ⟨of_decide_eq_true hroutes.1, of_decide_eq_true hroutes.2⟩

theorem Own.established (h : Own sid server s) (hs : step s a = some t)
    (hest : t.endpoint.snap.st.established = true) :
    s.endpoint.snap.st.established = true ∨ a.Answers sid server := by
  rcases h.effect hs with hsame | ⟨op, out, heff, hnext, hop⟩
  · exact Or.inl (hsame ▸ hest)
  · rcases heff.established.mp hest with hold | ⟨pkt, now, rfl, -, hkind⟩
    · exact Or.inl hold
    · rcases hop with hop | hop
      · cases hop
      · cases hop
        obtain ⟨hid, hsrc⟩ := h.routed (routes_of_next hnext)
        exact Or.inr ⟨hid, hsrc, hkind⟩

/-- The loop will not send again. -/
def State.Settled (s : State) : Prop :=
  s.endpoint.snap.st.established = true ∨ s.endpoint.snap.closed = true

theorem Own.settled (h : Own sid server s) (hs : step s a = some t)
    (hset : s.Settled) : t.Settled := by
  rcases h.effect hs with hsame | ⟨op, out, heff, -, -⟩
  · unfold State.Settled
    rw [hsame]
    exact hset
  · rcases hset with hest | hclosed
    · exact Or.inl (heff.established.mpr (Or.inl hest))
    · right
      by_contra hopen
      rw [heff.open_before (Bool.not_eq_true _ ▸ hopen)] at hclosed
      cases hclosed

/-- An answer settles it, unless the stream was closed before. -/
theorem Own.answered (h : Own sid server s) (hs : step s a = some t)
    (ha : a.Answers sid server) : t.Settled := by
  cases hclosed : s.endpoint.snap.closed with
  | true => exact h.settled hs (Or.inr hclosed)
  | false =>
      cases a with
      | incoming pkt =>
          obtain ⟨e, he, rfl⟩ := Option.map_eq_some_iff.mp hs
          obtain ⟨-, out, -, heff⟩ := Endpoint.wf_next h.wf he
          exact Or.inl (heff.established.mpr
            (Or.inr ⟨pkt, _, rfl, hclosed, ha.2.2⟩))
      | _ => exact (ha : False).elim

theorem Own.broken (h : Own sid server s) (hs : step s a = some t)
    (ha : a.Breaks sid server) : t.Settled := by
  cases hclosed : s.endpoint.snap.closed with
  | true => exact h.settled hs (Or.inr hclosed)
  | false =>
      cases a with
      | incoming pkt =>
          obtain ⟨e, he, rfl⟩ := Option.map_eq_some_iff.mp hs
          obtain ⟨-, out, -, heff⟩ := Endpoint.wf_next h.wf he
          right
          show e.snap.closed = true
          rw [(heff.incoming_inv hclosed).1]
          show (UdpStreamInner.dispatch _ pkt _).2.1 = true
          unfold UdpStreamInner.dispatch
          rw [ha.2.2]
      | socketError =>
          obtain ⟨e, he, rfl⟩ := Option.map_eq_some_iff.mp hs
          obtain ⟨-, out, -, heff⟩ := Endpoint.wf_next h.wf he
          right
          show e.snap.closed = true
          generalize e.snap = v at heff
          cases heff
          rfl
      | _ => exact (ha : False).elim

/-- Settled in time for the loop to see it. -/
structure Served (now : Instant) (lag : ℕ) (s : State) : Prop where
  settled : s.Settled
  early : s.Waiting → s.ticker + lag ≤ now + secs 10
  notLate : s.pc ≠ .returned (some "handshake timeout")

theorem Inv.served (h : Inv now lag s) (hset : s.Settled)
    (htime : s.clock + lag + millis 200 ≤ now + secs 10) :
    Served now lag s where
  settled := hset
  early hwait := by
    have hclock := h.clock
    cases hpc : s.pc with
    | first =>
        rw [(h.first hpc).2]
        dsimp only [Instant, millis, secs] at *
        omega
    | tick =>
        have hticker := (h.tick hpc).2.2
        dsimp only [Instant, millis, secs] at *
        omega
    | returned err => exact absurd hpc (hwait err)
  notLate hpc := by
    have hlate := h.timeout hpc
    dsimp only [Instant, millis, secs] at *
    omega

theorem Served.turned (h : Served now lag s) (hinv : Inv now lag s)
    (hwait : s.Waiting) {ticker : Instant}
    (ht : Turned { s with ticker := ticker } t) (hset : t.Settled) :
    Served now lag t := by
  cases ht with
  | timeout hlate =>
      have hlate : now + secs 10 < s.clock := hinv.start ▸ hlate
      have hpunct := hinv.punctual hwait
      have hearly := h.early hwait
      dsimp only [Instant, millis, secs] at *
      omega
  | closed _ =>
      exact ⟨hset, fun hwait' => absurd rfl (hwait' _),
        (fun hpc => by simp at hpc)⟩
  | established _ =>
      exact ⟨hset, fun hwait' => absurd rfl (hwait' _),
        (fun hpc => by simp at hpc)⟩
  | sent _ hopen hnot _ =>
      rcases h.settled with hest | hclosed
      · exact absurd hest (Bool.not_eq_true _ ▸ hnot)
      · exact absurd hclosed (Bool.not_eq_true _ ▸ hopen)

theorem Served.step (h : Served now lag s) (hown : Own sid server s)
    (hinv : Inv now lag s) (hs : step s a = some t) : Served now lag t := by
  have hset := hown.settled hs h.settled
  cases moves_of_step hs with
  | pass d => exact ⟨hset, h.early, h.notLate⟩
  | first hpc ht =>
      exact h.turned hinv (fun err herr => by rw [hpc] at herr; cases herr)
        ht hset
  | tick hpc _ ht =>
      exact h.turned hinv (fun err herr => by rw [hpc] at herr; cases herr)
        ht hset
  | beside _ _ => exact ⟨hset, h.early, h.notLate⟩

/-! ## What closes the stream -/

/-- Nothing has happened that ends a stream whose application has not written
yet. -/
structure Alive (now : Instant) (e : Endpoint) : Prop where
  opened : e.snap.closed = false
  empty : ∀ x, x ∉ e.snap.st.writeQueue.entries
  heard : now ≤ e.snap.lastReceived
  kept : e.snap.dropped = false
  received : e.recvFailed = false

/-- A step without a write leaves the queue empty. -/
theorem Alive.queue {e e' : Endpoint} {out : Output} (h : Alive now e)
    (heff : Effect sid e.snap op e'.snap out)
    (hacc : e'.snap.accepted = e.snap.accepted) :
    ∀ x, x ∉ e'.snap.st.writeQueue.entries := by
  intro x hx
  rcases heff.queued hx with ⟨p, hp, -⟩ | ⟨-, hnew⟩
  · exact h.empty _ hp
  · have hlen := congrArg List.length (hacc.symm.trans hnew)
    rw [List.length_append, List.length_singleton] at hlen
    omega

/-- Only a socket error stops the receive loop. -/
theorem recvFailed_next {e e' : Endpoint} (hs : e.next op = some e')
    (hop : op ≠ .socketError) : e'.recvFailed = e.recvFailed := by
  obtain ⟨r, hr, rfl⟩ := Option.map_eq_some_iff.mp hs
  cases op with
  | socketError => exact absurd rfl hop
  | connectTurn u =>
      simp only [Endpoint.step] at hr
      split at hr
      · cases hr
      · obtain ⟨r', -, rfl⟩ := Option.map_eq_some_iff.mp hr
        rfl
  | writeRx u =>
      simp only [Endpoint.step] at hr
      split at hr
      · obtain ⟨r', -, rfl⟩ := Option.map_eq_some_iff.mp hr
        rfl
      · cases hr
  | _ =>
      simp only [Endpoint.step] at hr
      split at hr <;> cases hr
      rfl

theorem Alive.connectTurn {e e' : Endpoint} {u : Instant} (h : Alive now e)
    (hwf : e.WF) (hs : e.next (.connectTurn u) = some e') : Alive now e' := by
  obtain ⟨-, out, -, heff⟩ := Endpoint.wf_next hwf hs
  have hrecv := (recvFailed_next hs (by simp)).trans h.received
  generalize hsnap : e'.snap = v at heff
  cases heff
  exact ⟨hsnap ▸ h.opened, hsnap ▸ h.empty, hsnap ▸ h.heard, hsnap ▸ h.kept,
    hrecv⟩

theorem dispatch_open {st : StreamState} {pkt : IncomingPacket} {u : Instant}
    (hkind : pkt.header.packetKind ≠ .streamClose) :
    (UdpStreamInner.dispatch st pkt u).2.1 = false := by
  unfold UdpStreamInner.dispatch
  cases hk : pkt.header.packetKind with
  | streamClose => exact absurd hk hkind
  | _ => rfl

theorem Alive.incoming {e e' : Endpoint} {pkt : IncomingPacket} {u : Instant}
    (h : Alive now e) (hwf : e.WF)
    (hs : e.next (.incoming pkt u) = some e') (hlater : now ≤ u)
    (hkind : pkt.header.packetKind ≠ .streamClose) : Alive now e' := by
  obtain ⟨-, out, -, heff⟩ := Endpoint.wf_next hwf hs
  obtain ⟨hview, -⟩ := heff.incoming_inv h.opened
  refine ⟨?_, h.queue heff ?_, ?_, ?_,
    (recvFailed_next hs (by simp)).trans h.received⟩
  · rw [hview]
    exact dispatch_open hkind
  · rw [hview]
  · rw [hview]
    exact hlater
  · rw [hview]
    exact h.kept

/-- A tick ends a stream with an empty queue after 300 s only. -/
theorem Alive.tick {e e' : Endpoint} {u : Instant} (h : Alive now e)
    (hwf : e.WF) (hs : e.next (.tick u) = some e')
    (hsoon : u ≤ now + secs 300) : Alive now e' := by
  obtain ⟨-, out, -, heff⟩ := Endpoint.wf_next hwf hs
  rcases heff.tick_inv h.opened with ⟨-, hview, -⟩ | ⟨-, hidle, -⟩ | ⟨hdead, -⟩
  · refine ⟨?_, h.queue heff ?_, ?_, ?_,
      (recvFailed_next hs (by simp)).trans h.received⟩
    · rw [hview]
      exact h.opened
    · rw [hview]
    · rw [hview]
      exact h.heard
    · rw [hview]
      exact h.kept
  · have hheard := h.heard
    dsimp only [Instant, millis, secs] at *
    omega
  · have hnil := List.eq_nil_iff_forall_not_mem.mpr h.empty
    cases hmode : e.snap.st.mode with
    | tcp =>
        rw [StreamState.getRetransmissions_tcp hmode, hnil] at hdead
        cases hdead
    | udp =>
        rw [StreamState.getRetransmissions_udp hmode] at hdead
        cases hdead

theorem Alive.not_endTask {e e' : Endpoint} (h : Alive now e)
    (hs : e.next .endTask = some e') : False := by
  obtain ⟨r, hr, -⟩ := Option.map_eq_some_iff.mp hs
  simp only [Endpoint.step] at hr
  split at hr
  · rename_i hcond
    rcases hcond.2 with hdropped | hfailed
    · exact Bool.false_ne_true (h.kept.symm.trans hdropped)
    · exact Bool.false_ne_true (h.received.symm.trans hfailed)
  · cases hr

structure Unbroken (now : Instant) (s : State) : Prop where
  alive : s.Waiting → Alive now s.endpoint
  notClosed : s.pc ≠ .returned (some "stream closed")

theorem Unbroken.turned (h : Alive now s.endpoint) (hown : Own sid server s)
    {ticker : Instant} (ht : Turned { s with ticker := ticker } t) :
    Unbroken now t := by
  cases ht with
  | timeout _ =>
      exact ⟨fun hwait => absurd rfl (hwait _), (fun hpc => by simp at hpc)⟩
  | closed hclosed =>
      exact absurd hclosed (Bool.eq_false_iff.mp h.opened)
  | established _ =>
      exact ⟨fun hwait => absurd rfl (hwait _), (fun hpc => by simp at hpc)⟩
  | sent _ _ _ he =>
      exact ⟨fun _ => h.connectTurn hown.wf he, (fun hpc => by simp at hpc)⟩

theorem Unbroken.step (h : Unbroken now s) (hown : Own sid server s)
    (hinv : Inv now lag s)
    (hlag : secs 10 + millis 200 + lag ≤ secs 300)
    (ha : ¬ a.Breaks sid server) (hs : step s a = some t) :
    Unbroken now t := by
  cases moves_of_step hs with
  | pass d => exact ⟨h.alive, h.notClosed⟩
  | first hpc ht =>
      exact Unbroken.turned (h.alive
        (fun err herr => by rw [hpc] at herr; cases herr)) hown ht
  | tick hpc _ ht =>
      exact Unbroken.turned (h.alive
        (fun err herr => by rw [hpc] at herr; cases herr)) hown ht
  | beside hbeside he =>
      refine ⟨fun hwait => ?_, h.notClosed⟩
      have halive := h.alive hwait
      cases hbeside with
      | incoming pkt =>
          refine halive.incoming hown.wf he hinv.clock (fun hkind => ha ?_)
          obtain ⟨hid, hsrc⟩ := hown.routed (routes_of_next he)
          exact ⟨hid, hsrc, hkind⟩
      | taskTick =>
          have hsoon := hinv.waiting hwait
          refine halive.tick hown.wf he ?_
          dsimp only [Instant, millis, secs] at *
          omega
      | socketError => exact absurd trivial ha
      | endTask => exact (halive.not_endTask he).elim

/-! ## Runs -/

section

variable {as : List Action}

theorem inv_run (hrun : Run step (init sid server now) as s)
    (htime : Meets step (OnTime lag) (init sid server now) as) :
    Inv now lag s :=
  run_preserves_of_meets (fun _ _ _ h ht hs => h.step ht hs) inv_init htime hrun

end

end

/-! ## The main result -/

end Rathole.Connect
