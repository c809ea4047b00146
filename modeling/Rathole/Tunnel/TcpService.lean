import Rathole.Server.TcpPool

/-!
# A TCP service and its client

The server's side of a TCP service together with what its requests set off:
`ControlChannel::run` writes a `CreateDataChannel` for each, the client reads
it and spawns a task, and the task says hello to the server, which passes the
connection on to the pool. Or the task fails: no connection within ten
seconds, or none that lives long enough. Nobody tells the server.

So the pool runs short by what the client has lost. The eight data channels
that are asked for in advance make up for eight losses; each further one
leaves a visitor waiting.
-/

namespace Rathole.TcpService

open Runs TcpPool

structure State where
  pool : TcpPool.State
  /-- The `CreateDataChannel` that were written on the control connection,
  and those that the client has read. -/
  written : ℕ
  read : ℕ
  /-- Tasks of the client that are in `do_data_channel_handshake`, or that the
  server has yet to pass on, and those that failed there. -/
  connecting : ℕ
  lost : ℕ
deriving DecidableEq

inductive Action where
  | pool (a : TcpPool.Action)
  | writeCmd
  | readCmd
  | arrive
  | lose
deriving DecidableEq

def init : State where
  pool := TcpPool.init
  written := 0
  read := 0
  connecting := 0
  lost := 0

def step (s : State) : Action → Option State
  | .pool a =>
      if a = .dataChannel then none
      else (TcpPool.step s.pool a).map (fun pool => { s with pool := pool })
  | .writeCmd =>
      if s.pool.controlOpen ∧ s.written < s.pool.requests then
        some { s with written := s.written + 1 }
      else none
  | .readCmd =>
      if s.read < s.written then
        some { s with read := s.read + 1, connecting := s.connecting + 1 }
      else none
  | .arrive =>
      if s.connecting = 0 then none
      else (TcpPool.step s.pool .dataChannel).map (fun pool =>
        { s with pool := pool, connecting := s.connecting - 1 })
  | .lose =>
      if s.connecting = 0 then none
      else some { s with connecting := s.connecting - 1, lost := s.lost + 1 }

/-- What goes on by itself: nobody comes, nothing fails. -/
def internals : List Action :=
  [.pool .queue, .pool .recvVisitor, .pool .recvChannel, .pool (.wrote true),
    .writeCmd, .readCmd, .arrive]

/-- Nothing goes on by itself any more. -/
def AtRest (s : State) : Prop := ∀ a ∈ internals, step s a = none

instance (s : State) : Decidable (AtRest s) :=
  inferInstanceAs (Decidable (∀ a ∈ internals, step s a = none))

/-! ## Accounting -/

structure Inv (s : State) : Prop where
  pool : TcpPool.Inv s.pool
  taken : s.pool.taken + s.pool.dataChRx.length = s.pool.arrived
  tasks : s.pool.arrived + s.connecting + s.lost = s.read
  read : s.read ≤ s.written
  written : s.written ≤ s.pool.requests

theorem inv_init : Inv init :=
  ⟨TcpPool.inv_init, rfl, rfl, Nat.le_refl _, Nat.zero_le _⟩

section

variable {s t : State} {a : Action}

/-- What a step of the pool does to the numbers. -/
theorem pool_counts {p q : TcpPool.State} {a : TcpPool.Action}
    (hs : TcpPool.step p a = some q) (hne : a ≠ .dataChannel) :
    q.arrived = p.arrived ∧ p.requests ≤ q.requests ∧
      q.taken + q.dataChRx.length = p.taken + p.dataChRx.length := by
  cases moves_of_step hs with
  | dataChannel => exact absurd rfl hne
  | accepted _ _ _ => exact ⟨rfl, Nat.le_succ _, rfl⟩
  | broken _ => exact ⟨rfl, Nat.le_succ _, rfl⟩
  | recvChannel _ hrx =>
      refine ⟨rfl, Nat.le_refl _, ?_⟩
      rw [hrx, List.length_cons]
      dsimp only
      omega
  | _ => exact ⟨rfl, Nat.le_refl _, rfl⟩

theorem pool_arrives {p q : TcpPool.State}
    (hs : TcpPool.step p .dataChannel = some q) :
    q.arrived = p.arrived + 1 ∧ q.requests = p.requests ∧
      q.taken = p.taken ∧ q.dataChRx = p.dataChRx ++ [p.arrived] ∧
      q.pool = p.pool ∧ q.listener = p.listener ∧
      q.visitorRx = p.visitorRx := by
  cases moves_of_step hs
  exact ⟨rfl, rfl, rfl, rfl, rfl, rfl, rfl⟩

/-- A step of the pool, other than a data channel's arrival. -/
theorem step_pool {a : TcpPool.Action} (hs : step s (.pool a) = some t) :
    a ≠ .dataChannel ∧ ∃ pool, TcpPool.step s.pool a = some pool ∧
      t = { s with pool := pool } := by
  simp only [step] at hs
  split at hs
  · cases hs
  · rename_i hne
    obtain ⟨pool, hpool, rfl⟩ := Option.map_eq_some_iff.mp hs
    exact ⟨hne, pool, hpool, rfl⟩

/-- **Step lemma.** -/
theorem Inv.step (h : Inv s) (hs : step s a = some t) : Inv t := by
  cases a with
  | pool a =>
      obtain ⟨hne, pool, hpool, rfl⟩ := step_pool hs
      obtain ⟨harrived, hrequests, htaken⟩ := pool_counts hpool hne
      refine ⟨inv_step h.pool hpool, ?_, ?_, h.read, ?_⟩
      · show pool.taken + pool.dataChRx.length = pool.arrived
        rw [htaken, harrived]
        exact h.taken
      · show pool.arrived + s.connecting + s.lost = s.read
        rw [harrived]
        exact h.tasks
      · exact h.written.trans hrequests
  | writeCmd =>
      simp only [TcpService.step] at hs
      split at hs
      · rename_i hcond
        cases hs
        exact ⟨h.pool, h.taken, h.tasks, h.read.trans (Nat.le_succ _), hcond.2⟩
      · cases hs
  | readCmd =>
      simp only [TcpService.step] at hs
      split at hs
      · rename_i hlt
        cases hs
        have htasks := h.tasks
        refine ⟨h.pool, h.taken, ?_, hlt, h.written⟩
        dsimp only
        omega
      · cases hs
  | arrive =>
      simp only [TcpService.step] at hs
      split at hs
      · cases hs
      · rename_i hsome
        obtain ⟨pool, hpool, rfl⟩ := Option.map_eq_some_iff.mp hs
        obtain ⟨harrived, hrequests, htaken, hch, -⟩ := pool_arrives hpool
        have htasks := h.tasks
        have hsum := h.taken
        refine ⟨inv_step h.pool hpool, ?_, ?_, h.read, ?_⟩
        · dsimp only
          rw [htaken, hch, harrived, List.length_append, List.length_singleton]
          omega
        · dsimp only
          omega
        · dsimp only
          rw [hrequests]
          exact h.written
  | lose =>
      simp only [TcpService.step] at hs
      split at hs <;> cases hs
      have htasks := h.tasks
      refine ⟨h.pool, h.taken, ?_, h.read, h.written⟩
      dsimp only
      omega

/-! ## Rest -/

def poolWork : PoolPc → ℕ
  | .outer | .inner _ => 1
  | .write .. => 2
  | .ended => 0

/-- What is left to do by itself. -/
def State.work (s : State) : ℕ :=
  5 * (s.pool.requests - s.written) + 4 * (s.written - s.read) +
    3 * s.connecting + 2 * s.pool.dataChRx.length +
    poolWork s.pool.pool + s.pool.visitorRx.length +
    2 * s.pool.listener.visitors.length

/-- What is left to do in the two tasks. -/
def tasksWork (p : TcpPool.State) : ℕ :=
  2 * p.dataChRx.length + poolWork p.pool + p.visitorRx.length +
    2 * p.listener.visitors.length

/-- Either task uses work up, and asks for nothing, as long as no channel is
broken. -/
theorem tasksWork_lt {p q : TcpPool.State} {a : TcpPool.Action}
    (ha : Action.pool a ∈ internals) (hs : TcpPool.step p a = some q) :
    q.requests = p.requests ∧ tasksWork q < tasksWork p := by
  unfold tasksWork
  cases moves_of_step hs with
  | unheard hlistener _ =>
      refine ⟨rfl, ?_⟩
      rw [hlistener]
      simp only [ListenerPc.visitors, List.length_nil, List.length_singleton]
      omega
  | queued hlistener _ =>
      refine ⟨rfl, ?_⟩
      rw [hlistener]
      simp only [ListenerPc.visitors, List.length_nil, List.length_singleton,
        List.length_append]
      omega
  | recvVisitor hpool hrx =>
      refine ⟨rfl, ?_⟩
      rw [hpool, hrx]
      simp only [poolWork, List.length_cons]
      omega
  | noVisitor hpool =>
      refine ⟨rfl, ?_⟩
      rw [hpool]
      simp only [poolWork]
      omega
  | recvChannel hpool hrx =>
      refine ⟨rfl, ?_⟩
      rw [hpool, hrx]
      simp only [poolWork, List.length_cons]
      omega
  | noChannel hpool =>
      refine ⟨rfl, ?_⟩
      rw [hpool]
      simp only [poolWork]
      omega
  | paired hpool =>
      refine ⟨rfl, ?_⟩
      rw [hpool]
      simp only [poolWork]
      omega
  | _ => simp [internals] at ha

/-- **Step lemma**: what goes on by itself uses work up. -/
theorem work_lt (ha : a ∈ internals ∨ a = .lose)
    (hs : step s a = some t) : t.work < s.work := by
  unfold State.work
  cases a with
  | pool a =>
      obtain ⟨-, pool, hpool, rfl⟩ := step_pool hs
      obtain ⟨hrequests, hlt⟩ := tasksWork_lt (ha.resolve_right (by simp)) hpool
      unfold tasksWork at hlt
      dsimp only
      rw [hrequests]
      omega
  | writeCmd =>
      simp only [TcpService.step] at hs
      split at hs
      · cases hs
        dsimp only
        omega
      · cases hs
  | readCmd =>
      simp only [TcpService.step] at hs
      split at hs
      · cases hs
        dsimp only
        omega
      · cases hs
  | arrive =>
      simp only [TcpService.step] at hs
      split at hs
      · cases hs
      · obtain ⟨pool, hpool, rfl⟩ := Option.map_eq_some_iff.mp hs
        obtain ⟨-, hrequests, -, hch, hp, hl, hv⟩ := pool_arrives hpool
        dsimp only
        rw [hrequests, hch, hp, hl, hv, List.length_append,
          List.length_singleton]
        omega
  | lose =>
      simp only [TcpService.step] at hs
      split at hs <;> cases hs
      dsimp only
      omega

theorem pool_rest {a : TcpPool.Action} (hne : a ≠ .dataChannel)
    (hnone : step s (.pool a) = none) : TcpPool.step s.pool a = none := by
  simp only [step] at hnone
  rw [if_neg hne] at hnone
  exact Option.map_eq_none_iff.mp hnone

/-- At rest no data channel is being tried, and visitors wait only where there
is none at hand. -/
theorem AtRest.pool (hrest : AtRest s) (hpool : s.pool.pool ≠ .ended) :
    s.pool.pool.channels = [] ∧
      (s.pool.waiting = [] ∨ s.pool.dataChRx = []) := by
  have hqueue := pool_rest (by simp)
    (hrest (.pool .queue) (by simp [internals]))
  have hvisitor := pool_rest (by simp)
    (hrest (.pool .recvVisitor) (by simp [internals]))
  have hchannel := pool_rest (by simp)
    (hrest (.pool .recvChannel) (by simp [internals]))
  have hwrote := pool_rest (by simp)
    (hrest (.pool (.wrote true)) (by simp [internals]))
  unfold State.waiting
  cases hp : s.pool.pool with
  | ended => exact absurd hp hpool
  | write v ch => simp [TcpPool.step, hp] at hwrote
  | inner v =>
      refine ⟨rfl, Or.inr ?_⟩
      cases hrx : s.pool.dataChRx with
      | nil => rfl
      | cons ch rest => simp [TcpPool.step, hp, hrx] at hchannel
  | outer =>
      refine ⟨rfl, Or.inl ?_⟩
      cases hrx : s.pool.visitorRx with
      | cons v rest => simp [TcpPool.step, hp, hrx] at hvisitor
      | nil =>
          cases hl : s.pool.listener with
          | send v => simp [TcpPool.step, hp, hrx, hl, chanSize] at hqueue
          | _ => rfl

/-- And every request has come to its end. -/
theorem AtRest.requests (h : Inv s) (hrest : AtRest s)
    (hopen : s.pool.controlOpen = true) (hkept : s.pool.handleDropped = false)
    (hpool : s.pool.pool ≠ .ended) :
    s.pool.arrived + s.lost = s.pool.requests := by
  have hwrite := hrest .writeCmd (by simp [internals])
  have hread := hrest .readCmd (by simp [internals])
  have harrive := hrest .arrive (by simp [internals])
  simp only [step, ite_eq_right_iff, reduceCtorEq, hopen, true_and] at hwrite
  simp only [step, ite_eq_right_iff, reduceCtorEq] at hread
  have hwritten := Nat.le_antisymm h.written (Nat.not_lt.mp hwrite)
  have hle := Nat.le_antisymm h.read (Nat.not_lt.mp hread)
  have htasks := h.tasks
  suffices hnone : s.connecting = 0 by omega
  by_contra hsome
  -- the queue of data channels would have to be full
  simp only [step, hsome, if_false, Option.map_eq_none_iff, TcpPool.step,
    ite_eq_right_iff, reduceCtorEq, hkept, true_and] at harrive
  have hfull : chanSize * 2 ≤ s.pool.dataChRx.length := by
    by_contra hroom
    exact harrive ⟨hpool, Nat.not_le.mp hroom⟩
  obtain ⟨hchannels, hor⟩ := hrest.pool hpool
  have hrequests := h.pool.requests hpool
  have htaken := h.taken
  rcases hor with hwaiting | hempty
  · rw [hchannels, hwaiting] at hrequests
    simp only [List.length_nil, tcpPoolSize] at hrequests
    simp only [chanSize] at hfull
    omega
  · rw [hempty, List.length_nil] at hfull
    simp [chanSize] at hfull

end

/-- **What a client loses, visitors miss.** As long as the control channel and
the service are up: what goes on by itself comes to rest, after no more steps
than there is work. And at rest the visitors without a data channel are as many
as the data channels that the client has lost, less the eight that were asked
for in advance. -/
theorem visitors_at_rest (as : List Action) (s : State)
    (hrun : Run step init as s) :
    (∀ bs t, (∀ b ∈ bs, b ∈ internals ∨ b = .lose) → Run step s bs t →
      bs.length ≤ s.work) ∧
    (s.pool.controlOpen = true → s.pool.handleDropped = false →
      s.pool.pool ≠ .ended → AtRest s →
        s.pool.unpaired.length = s.lost - tcpPoolSize) := by
  constructor
  · intro bs t hbs hrest
    have hle := Run.length_le (fun _ _ _ hb hstep => work_lt hb hstep) hbs hrest
    omega
  · intro hopen hkept hpool hrest
    have h : Inv s := run_preserves (fun _ _ _ h hs => h.step hs) inv_init hrun
    rw [h.pool.unpaired hpool, h.pool.none_dropped hopen, List.append_nil]
    obtain ⟨hchannels, hor⟩ := hrest.pool hpool
    have hall := hrest.requests h hopen hkept hpool
    have hrequests := h.pool.requests hpool
    have htaken := h.taken
    rw [hchannels, List.length_nil] at hrequests
    rcases hor with hwaiting | hempty
    · rw [hwaiting, List.length_nil] at hrequests ⊢
      omega
    · rw [hempty, List.length_nil] at htaken
      omega

/-- The client loses one data channel. -/
def loseOne : List Action := [.writeCmd, .readCmd, .lose]

/-- A visitor comes, and the client loses nine. -/
def ninthLost : List Action :=
  [.pool (.bound true), .pool (.accept none), .pool .queue,
    .pool .recvVisitor] ++ (List.replicate 9 loseOne).flatten

theorem visitors_at_rest_ninth : ∃ s, Run step init ninthLost s ∧
    AtRest s ∧ s.lost = 9 ∧ s.pool.unpaired.length = 1 := by
  obtain ⟨s, hrun, hrest, hopen, hkept, hpool, hlost⟩ : ∃ s,
      Run step init ninthLost s ∧ AtRest s ∧ s.pool.controlOpen = true ∧
      s.pool.handleDropped = false ∧ s.pool.pool ≠ .ended ∧ s.lost = 9 :=
    ⟨_, rfl, by decide, rfl, rfl, by decide, rfl⟩
  refine ⟨s, hrun, hrest, hlost, ?_⟩
  rw [(visitors_at_rest ninthLost s hrun).2 hopen hkept hpool hrest, hlost]
  rfl

end Rathole.TcpService
