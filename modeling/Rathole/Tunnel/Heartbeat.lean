import Rathole.Lib.Runs
import Rathole.Protocol
import Rathole.Transport.Reliability

/-!
# Heartbeats

An established control channel, with its time. The server's
`ControlChannel::run` waits in a `select!` for requests and sleeps the
heartbeat interval beside; whatever comes first is written as a command, and
the sleep starts anew. The client waits for commands and sleeps the heartbeat
timeout beside; a command starts the sleep anew, and the end of it ends the
session.

The two numbers come from two configuration files, and nothing compares them.
`never_times_out_iff` says what they have to satisfy.
-/

namespace Rathole.Heartbeat

open Runs

inductive ServerPc where
  /-- At the `select!`, entered at `since`. -/
  | select (since : Instant)
  /-- Out of it, with a command to write. -/
  | write (cmd : ControlChannelCmd) (since : Instant)
  | ended
deriving DecidableEq

inductive ClientPc where
  /-- The last word of the handshake is not read yet. -/
  | handshake
  | select (since : Instant)
  | ended (err : Option String)
deriving DecidableEq

structure State where
  clock : Instant
  /-- What waits in `data_ch_req_rx`. -/
  requests : ℕ
  server : ServerPc
  /-- The commands that were written and not yet read, oldest first, with the
  times at which they were written. -/
  wire : List (ControlChannelCmd × Instant)
  client : ClientPc
  /-- Data channels that the client has spawned. -/
  spawned : ℕ
deriving DecidableEq

inductive Action where
  | pass (d : ℕ)
  | request
  /-- The branches of the server's `select!`. -/
  | recv
  | sleep
  | stop
  | wrote (ok : Bool)
  /-- The client's loop starts. -/
  | start
  /-- The branches of the client's `select!`. -/
  | read
  | readError (err : String)
  | timeout
  | shutdown
deriving DecidableEq

/-- The server's task starts when the last word of the handshake is
written. -/
def init : State where
  clock := 0
  requests := 0
  server := .select 0
  wire := []
  client := .handshake
  spawned := 0

section

variable (heartbeatInterval heartbeatTimeout : UInt64)

def step (s : State) : Action → Option State
  | .pass d => some { s with clock := s.clock + d }
  | .request => some { s with requests := s.requests + 1 }
  | .recv =>
      match s.server with
      | .select since =>
          if 0 < s.requests then
            some { s with
              requests := s.requests - 1
              server := .write .createDataChannel since }
          else none
      | _ => none
  | .sleep =>
      match s.server with
      | .select since =>
          if heartbeatInterval ≠ 0 ∧
              since + secs heartbeatInterval.toNat ≤ s.clock then
            some { s with server := .write .heartBeat since }
          else none
      | _ => none
  | .stop => some { s with server := .ended }
  | .wrote ok =>
      match s.server with
      | .write cmd _ =>
          if ok then
            some { s with
              server := .select s.clock
              wire := s.wire ++ [(cmd, s.clock)] }
          else some { s with server := .ended }
      | _ => none
  | .start =>
      if s.client = .handshake then some { s with client := .select s.clock }
      else none
  | .read =>
      match s.client, s.wire with
      | .select _, (cmd, _) :: rest =>
          some { s with
            client := .select s.clock
            wire := rest
            spawned := match cmd with
              | .createDataChannel => s.spawned + 1
              | .heartBeat => s.spawned }
      | _, _ => none
  | .readError err =>
      match s.client with
      | .select _ => some { s with client := .ended (some err) }
      | _ => none
  | .timeout =>
      match s.client with
      | .select since =>
          if heartbeatTimeout ≠ 0 ∧
              since + secs heartbeatTimeout.toNat ≤ s.clock then
            some { s with client := .ended (some "Heartbeat timed out") }
          else none
      | _ => none
  | .shutdown =>
      match s.client with
      | .select _ => some { s with client := .ended none }
      | _ => none

end

/-- When the server's loop has last come round. -/
def ServerPc.since? : ServerPc → Option Instant
  | .select since => some since
  | .write _ since => some since
  | .ended => none

/-- The connection fails with another error than this one. -/
def OtherError (err : String) : Prop := err ≠ "Heartbeat timed out"

/-- Everybody is on time and the server goes on: with heartbeats its loop comes
round no more than `lag` after the interval, and what is written is read within
`delay`. -/
def OnTime (heartbeatInterval : UInt64) (lag delay : ℕ) (s : State) :
    Action → Prop
  | .pass d =>
      (∀ since, s.server.since? = some since → heartbeatInterval ≠ 0 →
        s.clock + d ≤ since + secs heartbeatInterval.toNat + lag) ∧
      ∀ x ∈ s.wire, s.clock + d ≤ x.2 + delay
  | .stop => False
  | .wrote ok => ok = true
  | .readError err => OtherError err
  | _ => True

/-! ## Heartbeats that suffice -/

section

variable {heartbeatInterval heartbeatTimeout : UInt64} {lag delay : ℕ}
  {s t : State} {a : Action}

/-- What holds in every state while everybody is on time. -/
structure Inv (heartbeatInterval : UInt64) (lag delay : ℕ) (s : State) :
    Prop where
  server : ∃ since, s.server.since? = some since ∧ since ≤ s.clock ∧
    s.clock ≤ since + secs heartbeatInterval.toNat + lag ∧
    (s.wire = [] → ∀ start, s.client = .select start → since ≤ start)
  wire : ∀ x ∈ s.wire, x.2 ≤ s.clock ∧ s.clock ≤ x.2 + delay
  /-- The next command was written in time. -/
  next : ∀ start x rest, s.client = .select start → s.wire = x :: rest →
    x.2 ≤ start + secs heartbeatInterval.toNat + lag
  start : ∀ start, s.client = .select start → start ≤ s.clock

theorem inv_init : Inv heartbeatInterval lag delay init where
  server := ⟨0, rfl, Nat.le_refl _, Nat.zero_le _, fun _ _ h => by cases h⟩
  wire _ hx := by cases hx
  next _ _ _ h := by cases h
  start _ h := by cases h

/-- The client has waited no longer than this. -/
theorem Inv.waited (h : Inv heartbeatInterval lag delay s) {start : Instant}
    (hc : s.client = .select start) :
    s.clock ≤ start + secs heartbeatInterval.toNat + lag + delay := by
  obtain ⟨since, -, -, hround, hnone⟩ := h.server
  cases hw : s.wire with
  | nil =>
      have hsince := hnone hw start hc
      dsimp only [Instant] at *
      omega
  | cons x rest =>
      have hnext := h.next start x rest hc hw
      have hx := (h.wire x (by rw [hw]; exact List.mem_cons_self)).2
      dsimp only [Instant] at *
      omega

/-- A client that has ended asks for nothing. -/
theorem Inv.ended (h : Inv heartbeatInterval lag delay s)
    (err : Option String) :
    Inv heartbeatInterval lag delay { s with client := .ended err } where
  server := by
    obtain ⟨since, hsince, hpast, hround, -⟩ := h.server
    exact ⟨since, hsince, hpast, hround, fun _ _ hc => by cases hc⟩
  wire := h.wire
  next _ _ _ hc := by cases hc
  start _ hc := by cases hc

theorem Inv.pass (h : Inv heartbeatInterval lag delay s)
    (hinterval : heartbeatInterval ≠ 0) {d : ℕ}
    (htime : OnTime heartbeatInterval lag delay s (.pass d)) :
    Inv heartbeatInterval lag delay { s with clock := s.clock + d } := by
  obtain ⟨since, hsince, hpast, -, hnone⟩ := h.server
  refine ⟨⟨since, hsince, ?_, htime.1 since hsince hinterval, hnone⟩,
    fun x hx => ⟨?_, htime.2 x hx⟩, h.next, fun start hc => ?_⟩
  · exact Nat.le_add_right_of_le hpast
  · exact Nat.le_add_right_of_le (h.wire x hx).1
  · exact Nat.le_add_right_of_le (h.start start hc)

/-- The server gets on with the same turn of its loop. -/
theorem Inv.serving (h : Inv heartbeatInterval lag delay s) {server : ServerPc}
    (hsame : server.since? = s.server.since?) (requests : ℕ) :
    Inv heartbeatInterval lag delay
      { s with requests := requests, server := server } where
  server := by
    obtain ⟨since, hsince, hpast, hround, hnone⟩ := h.server
    exact ⟨since, hsame.trans hsince, hpast, hround, hnone⟩
  wire := h.wire
  next := h.next
  start := h.start

/-- The server comes round, with a command written. -/
theorem Inv.wrote (h : Inv heartbeatInterval lag delay s)
    (cmd : ControlChannelCmd) : Inv heartbeatInterval lag delay
      { s with
        server := .select s.clock
        wire := s.wire ++ [(cmd, s.clock)] } := by
  obtain ⟨since, -, -, hround, hnone⟩ := h.server
  refine ⟨⟨s.clock, rfl, Nat.le_refl _, ?_, ?_⟩, ?_, ?_, h.start⟩
  · dsimp only [Instant] at *
    omega
  · intro hnil
    simp at hnil
  · intro x hx
    rcases List.mem_append.mp hx with hold | hnew
    · exact h.wire x hold
    · cases List.mem_singleton.mp hnew
      exact ⟨Nat.le_refl _, Nat.le_add_right _ _⟩
  · intro start x rest hc hwire
    cases hw : s.wire with
    | nil =>
        rw [hw] at hwire
        cases hwire
        have hstart := hnone hw start hc
        dsimp only [Instant] at *
        omega
    | cons y tail =>
        rw [hw] at hwire
        cases hwire
        exact h.next start x tail hc hw

/-- The client begins to wait, and leaves `wire` unread. -/
theorem Inv.select (h : Inv heartbeatInterval lag delay s)
    {wire : List (ControlChannelCmd × Instant)}
    (hsub : ∀ x ∈ wire, x ∈ s.wire) (spawned : ℕ) :
    Inv heartbeatInterval lag delay
      { s with
        client := .select s.clock, wire := wire, spawned := spawned } := by
  obtain ⟨since, hsince, hpast, hround, -⟩ := h.server
  refine ⟨⟨since, hsince, hpast, hround, fun _ start hc => ?_⟩,
    fun x hx => h.wire x (hsub x hx), fun start x tail hc hw => ?_,
    fun start hc => ?_⟩
  · cases hc
    exact hpast
  · cases hc
    have hw : wire = x :: tail := hw
    have hx := (h.wire x (hsub x (hw ▸ List.mem_cons_self))).1
    dsimp only [Instant] at *
    omega
  · cases hc
    exact Nat.le_refl _

/-- **Step lemma.** -/
theorem Inv.step (h : Inv heartbeatInterval lag delay s)
    (hinterval : heartbeatInterval ≠ 0)
    (htime : OnTime heartbeatInterval lag delay s a)
    (hs : step heartbeatInterval heartbeatTimeout s a = some t) :
    Inv heartbeatInterval lag delay t := by
  cases a with
  | pass d =>
      cases hs
      exact h.pass hinterval htime
  | request =>
      cases hs
      exact h.serving rfl _
  | recv =>
      simp only [Heartbeat.step] at hs
      split at hs
      · rename_i hserver
        split at hs <;> cases hs
        exact h.serving (by rw [hserver]; rfl) _
      · cases hs
  | sleep =>
      simp only [Heartbeat.step] at hs
      split at hs
      · rename_i hserver
        split at hs <;> cases hs
        exact h.serving (by rw [hserver]; rfl) s.requests
      · cases hs
  | stop => exact absurd htime id
  | wrote ok =>
      cases htime
      simp only [Heartbeat.step] at hs
      split at hs
      · cases hs
        exact h.wrote _
      · cases hs
  | start =>
      simp only [Heartbeat.step] at hs
      split at hs <;> cases hs
      exact h.select (fun _ hx => hx) s.spawned
  | read =>
      simp only [Heartbeat.step] at hs
      split at hs
      · rename_i hwire
        cases hs
        exact h.select (fun x hx => hwire ▸ List.mem_cons_of_mem _ hx) _
      · cases hs
  | readError err =>
      simp only [Heartbeat.step] at hs
      split at hs <;> cases hs
      exact h.ended _
  | timeout =>
      simp only [Heartbeat.step] at hs
      split at hs
      · split at hs <;> cases hs
        exact h.ended _
      · cases hs
  | shutdown =>
      simp only [Heartbeat.step] at hs
      split at hs <;> cases hs
      exact h.ended _

/-- A client runs into its timeout by itself. -/
theorem timed_out_of_step (hs : step heartbeatInterval heartbeatTimeout s a =
      some t) (hc : t.client = .ended (some "Heartbeat timed out")) :
    s.client = .ended (some "Heartbeat timed out") ∨
      a = .readError "Heartbeat timed out" ∨
      ∃ start, s.client = .select start ∧ heartbeatTimeout ≠ 0 ∧
        start + secs heartbeatTimeout.toNat ≤ s.clock := by
  cases a with
  | timeout =>
      simp only [step] at hs
      split at hs
      · rename_i start hclient
        split at hs <;> cases hs
        rename_i hfired
        exact Or.inr (Or.inr ⟨start, hclient, hfired⟩)
      · cases hs
  | readError err =>
      simp only [step] at hs
      split at hs <;> cases hs
      cases hc
      exact Or.inr (Or.inl rfl)
  | start =>
      simp only [step] at hs
      split at hs <;> cases hs
      cases hc
  | read =>
      simp only [step] at hs
      split at hs <;> cases hs
      cases hc
  | shutdown =>
      simp only [step] at hs
      split at hs <;> cases hs
      cases hc
  | sleep =>
      simp only [step] at hs
      split at hs
      · split at hs <;> cases hs
        exact Or.inl hc
      · cases hs
  | recv =>
      simp only [step] at hs
      split at hs
      · split at hs <;> cases hs
        exact Or.inl hc
      · cases hs
  | wrote ok =>
      simp only [step] at hs
      split at hs
      · split at hs <;> cases hs <;> exact Or.inl hc
      · cases hs
  | _ =>
      cases hs
      exact Or.inl hc

/-- Nobody whose timeout cannot fire runs into it. -/
theorem alive_step (htime : OnTime heartbeatInterval lag delay s a)
    (hnone : ∀ start, s.client = .select start → heartbeatTimeout ≠ 0 →
      s.clock < start + secs heartbeatTimeout.toNat)
    (halive : s.client ≠ .ended (some "Heartbeat timed out"))
    (hs : step heartbeatInterval heartbeatTimeout s a = some t) :
    t.client ≠ .ended (some "Heartbeat timed out") := by
  intro hc
  rcases timed_out_of_step hs hc with h | rfl | ⟨start, hclient, hne, hfired⟩
  · exact halive h
  · exact htime rfl
  · exact absurd hfired (Nat.not_le.mpr (hnone start hclient hne))

/-! ## Heartbeats that do not -/

/-- A run on time. -/
def Punctual (heartbeatInterval heartbeatTimeout : UInt64) (lag delay : ℕ)
    (s : State) (as : List Action) (t : State) : Prop :=
  Run (step heartbeatInterval heartbeatTimeout) s as t ∧
    Meets (step heartbeatInterval heartbeatTimeout)
      (OnTime heartbeatInterval lag delay) s as

theorem Punctual.cons {u : State} {as : List Action}
    (hs : step heartbeatInterval heartbeatTimeout s a = some u)
    (htime : OnTime heartbeatInterval lag delay s a)
    (h : Punctual heartbeatInterval heartbeatTimeout lag delay u as t) :
    Punctual heartbeatInterval heartbeatTimeout lag delay s (a :: as) t := by
  refine ⟨run_cons.mpr ⟨u, hs, h.1⟩, htime, fun v hv => ?_⟩
  cases hs.symm.trans hv
  exact h.2

theorem Punctual.one (hs : step heartbeatInterval heartbeatTimeout s a = some t)
    (htime : OnTime heartbeatInterval lag delay s a) :
    Punctual heartbeatInterval heartbeatTimeout lag delay s [a] t :=
  .cons hs htime ⟨run_nil.mpr rfl, trivial⟩

theorem Punctual.append {u : State} {as bs : List Action}
    (h : Punctual heartbeatInterval heartbeatTimeout lag delay s as t)
    (h' : Punctual heartbeatInterval heartbeatTimeout lag delay t bs u) :
    Punctual heartbeatInterval heartbeatTimeout lag delay s (as ++ bs) u :=
  ⟨run_append.mpr ⟨t, h.1, h'.1⟩, meets_append h.1 |>.mpr ⟨h.2, h'.2⟩⟩

theorem punctual_pass (d : ℕ)
    (hserver : ∀ since, s.server.since? = some since → heartbeatInterval ≠ 0 →
      s.clock + d ≤ since + secs heartbeatInterval.toNat + lag)
    (hwire : ∀ x ∈ s.wire, s.clock + d ≤ x.2 + delay) :
    Punctual heartbeatInterval heartbeatTimeout lag delay s [.pass d]
      { s with clock := s.clock + d } :=
  .one rfl ⟨hserver, hwire⟩

/-- One more turn of the server, as late as can be. -/
theorem punctual_turn (hinterval : heartbeatInterval ≠ 0)
    (hserver : s.server = .select s.clock)
    (hwire : ∀ x ∈ s.wire,
      s.clock + (secs heartbeatInterval.toNat + lag) ≤ x.2 + delay) :
    Punctual heartbeatInterval heartbeatTimeout lag delay s
      [.pass (secs heartbeatInterval.toNat + lag), .sleep, .wrote true]
      { s with
        clock := s.clock + (secs heartbeatInterval.toNat + lag)
        server := .select (s.clock + (secs heartbeatInterval.toNat + lag))
        wire := s.wire ++ [(.heartBeat,
          s.clock + (secs heartbeatInterval.toNat + lag))] } := by
  obtain ⟨clock, requests, server, wire, client, spawned⟩ := s
  dsimp only at hserver hwire
  subst hserver
  refine .cons rfl ⟨?_, hwire⟩ (.cons (if_pos ⟨hinterval, ?_⟩) trivial
    (.one rfl rfl))
  · rintro since hsince -
    cases hsince
    exact (Nat.add_assoc _ _ _).ge
  · exact Nat.add_le_add_left (Nat.le_add_right _ _) _

/-- Time passes while the client waits for what is on its way. -/
theorem punctual_linger (lag delay : ℕ) (hinterval : heartbeatInterval ≠ 0)
    (target : Instant)
    (hserver : s.server = .select s.clock) (hle : s.clock ≤ target)
    (hdelay : target ≤ s.clock + delay)
    (hwire : ∀ x ∈ s.wire, target ≤ x.2 + delay) :
    ∃ as t, Punctual heartbeatInterval heartbeatTimeout lag delay s as t ∧
      t.clock = target ∧ t.client = s.client := by
  have hpos : 0 < secs heartbeatInterval.toNat := by
    have hne : heartbeatInterval.toNat ≠ 0 := fun h =>
      hinterval (UInt64.toNat_inj.mp h)
    unfold secs
    omega
  induction hn : target - s.clock using Nat.strongRecOn generalizing s with
  | ind n ih =>
      by_cases hnear : target ≤
          s.clock + (secs heartbeatInterval.toNat + lag)
      · obtain ⟨d, rfl⟩ := Nat.exists_eq_add_of_le hle
        refine ⟨_, _, punctual_pass d ?_ hwire, rfl, rfl⟩
        intro since hsince _
        rw [hserver] at hsince
        cases hsince
        exact hnear.trans (Nat.add_assoc _ _ _).ge
      · -- the server comes round once more before
        have hturn : Punctual heartbeatInterval heartbeatTimeout lag delay s _ _
            := punctual_turn hinterval hserver (fun x hx => by
          have hx := hwire x hx
          dsimp only [Instant] at *
          omega)
        have hle : s.clock + (secs heartbeatInterval.toNat + lag) ≤ target :=
          Nat.le_of_not_le hnear
        have hless : target - (s.clock + (secs heartbeatInterval.toNat + lag)) <
            n := by
          dsimp only [Instant] at *
          omega
        obtain ⟨as, t, hrest, hclock, hclient⟩ := ih _ hless (s := { s with
          clock := s.clock + (secs heartbeatInterval.toNat + lag)
          server := .select (s.clock + (secs heartbeatInterval.toNat + lag))
          wire := s.wire ++ [(.heartBeat,
            s.clock + (secs heartbeatInterval.toNat + lag))] }) rfl hle
          (by
            dsimp only [Instant] at *
            omega)
          (fun x hx => by
            rcases List.mem_append.mp hx with hold | hnew
            · exact hwire x hold
            · cases List.mem_singleton.mp hnew
              dsimp only [Instant] at *
              omega) rfl
        exact ⟨_, t, hturn.append hrest, hclock, hclient⟩

end

/-- **The two numbers.** However the requests come and however the tasks are
scheduled, a client whose server is up and whose messages are on time never
runs into its heartbeat timeout: this holds if and only if the client has none,
or the server sends heartbeats and the timeout is longer than their interval,
the lag of the server's loop and the delay of a message together. -/
theorem never_times_out_iff (heartbeatInterval heartbeatTimeout : UInt64)
    (lag delay : ℕ) :
    (∀ as s, Run (step heartbeatInterval heartbeatTimeout) init as s →
      Meets (step heartbeatInterval heartbeatTimeout)
        (OnTime heartbeatInterval lag delay) init as →
      s.client ≠ .ended (some "Heartbeat timed out")) ↔
    heartbeatTimeout = 0 ∨ (heartbeatInterval ≠ 0 ∧
      secs heartbeatInterval.toNat + lag + delay <
        secs heartbeatTimeout.toNat) := by
  constructor
  · intro hnever
    by_contra hshort
    obtain ⟨htimeout, hshort⟩ := not_or.mp hshort
    suffices hlate : ∃ as s, Punctual heartbeatInterval heartbeatTimeout lag
        delay init as s ∧ s.client = .select 0 ∧
        s.clock = secs heartbeatTimeout.toNat by
      obtain ⟨as, s, hrun, hclient, hclock⟩ := hlate
      have hlast : step heartbeatInterval heartbeatTimeout s .timeout =
          some { s with client := .ended (some "Heartbeat timed out") } := by
        simp only [step, hclient]
        exact if_pos ⟨htimeout, by rw [hclock, Nat.zero_add]⟩
      have hall := hrun.append (.one hlast trivial)
      exact hnever _ _ hall.1 hall.2 rfl
    have hstart : Punctual heartbeatInterval heartbeatTimeout lag delay init
        [.start] { init with client := .select 0 } := .one rfl trivial
    by_cases hinterval : heartbeatInterval = 0
    · -- an idle server is silent
      refine ⟨_, _, hstart.append (punctual_pass (secs heartbeatTimeout.toNat)
        ?_ ?_), rfl, Nat.zero_add _⟩
      · exact fun _ _ h => absurd hinterval h
      · exact fun x hx => by cases hx
    · have hshort : secs heartbeatTimeout.toNat ≤
          secs heartbeatInterval.toNat + lag + delay := by
        by_contra hlong
        exact hshort ⟨hinterval, Nat.not_le.mp hlong⟩
      by_cases hearly : secs heartbeatTimeout.toNat ≤
          secs heartbeatInterval.toNat + lag
      · refine ⟨_, _, hstart.append (punctual_pass
          (secs heartbeatTimeout.toNat) ?_ ?_), rfl, Nat.zero_add _⟩
        · rintro since hsince -
          cases hsince
          dsimp only [init, Instant] at *
          omega
        · exact fun x hx => by cases hx
      · -- the first heartbeat is written too late and takes too long
        have hturn : Punctual heartbeatInterval heartbeatTimeout lag delay
            { init with client := .select 0 } _ _ :=
          punctual_turn hinterval rfl (fun x hx => by cases hx)
        obtain ⟨as, t, hrest, hclock, hclient⟩ := punctual_linger lag delay
          hinterval (secs heartbeatTimeout.toNat) (s := { init with
            clock := 0 + (secs heartbeatInterval.toNat + lag)
            server := .select (0 + (secs heartbeatInterval.toNat + lag))
            wire := [(.heartBeat, 0 + (secs heartbeatInterval.toNat + lag))]
            client := .select 0 }) rfl (by dsimp only [Instant] at *; omega)
          (by dsimp only [Instant] at *; omega)
          (fun x hx => by
            cases List.mem_singleton.mp hx
            dsimp only [Instant] at *
            omega)
        exact ⟨_, t, (hstart.append hturn).append hrest, hclient, hclock⟩
  · rintro (rfl | ⟨hinterval, hlong⟩) as s hrun htime
    · exact run_preserves_of_meets
        (fun _ _ _ h hC hs => alive_step hC (fun _ _ h => absurd rfl h) h hs)
        (fun h => by cases h) htime hrun
    · refine (run_preserves_of_meets (I := fun s =>
        Inv heartbeatInterval lag delay s ∧
          s.client ≠ .ended (some "Heartbeat timed out"))
        (fun s _ _ h hC hs => ⟨h.1.step hinterval hC hs,
          alive_step hC (fun start hc _ => ?_) h.2 hs⟩)
        ⟨inv_init, fun h => by cases h⟩ htime hrun).2
      have hwaited := h.1.waited hc
      dsimp only [Instant] at *
      omega

end Rathole.Heartbeat
