import Rathole.Lib.Runs
import Rathole.Server.HotReload

/-!
# The task behind a client's handle

`ControlChannelHandle::new` spawns a task that runs `ControlChannel::run`, or
`VisitorControlChannel::run` in visitor mode, until a run ends without an
error. A run resolves the server's address, connects, says hello, shakes hands
and then waits for commands; after a failed one the task sleeps and tries
again.

Dropping the handle, or `shutdown`, leaves a signal. The task looks at it while
it waits for commands, and once after a failed run. Nothing looks at it from
there to the next handshake: a task that is dropped before it says hello, or
while it sleeps, says hello once more (`silent_iff`).
-/

namespace Rathole.ControlTask

open Runs

/-- What the task finds in `shutdown_rx`. -/
inductive Signal where
  /-- The sender is dropped. -/
  | closed
  /-- `shutdown` has sent a value. -/
  | sent
deriving DecidableEq

inductive Pc where
  | resolve
  | connect
  /-- Connected; the hello is next. -/
  | hello
  /-- Waits for the hello of the server, or for the challenge. -/
  | nonce
  | auth (nonce : Digest)
  | ack (nonce : Digest)
  /-- The session key, in visitor mode. -/
  | key
  /-- At the `select!` of the loop. -/
  | forward (sessionKey : Digest)
  /-- The run has returned an error, with its context. -/
  | failed (err : String)
  | sleep
  | ended
deriving DecidableEq

structure State where
  pc : Pc
  signal : Option Signal
  /-- What was written to a control connection, oldest first. -/
  sent : List PacketMessage
  /-- The data channels that were spawned, by session key. -/
  dataChannels : List Digest
deriving DecidableEq

/-- Where the task waits for somebody else, what came of it: a value, or the
error. -/
inductive Action where
  | resolved (res : Except String Unit)
  | connected (res : Except String Unit)
  /-- The hello is written; `pad` is random. -/
  | hello (pad : Digest) (res : Except String Unit)
  | auth (res : Except String Unit)
  | read (res : Except String PacketMessage)
  /-- `conn.read_exact(&mut challenge_nonce)`. -/
  | challenge (res : Except String Digest)
  | heartbeatTimeout
  /-- The branch of the `select!` that waits for `shutdown_rx`. -/
  | shutdown
  /-- `shutdown_rx.try_recv()` after a failed run. -/
  | tryRecv
  | slept
  /-- The handle is dropped or shut down. -/
  | signal (g : Signal)

def init : State where
  pc := .resolve
  signal := none
  sent := []
  dataChannels := []

def isVisitorMode (service : ClientServiceConfig) : Bool :=
  service.remoteBindAddr.isSome

/-- What the loop adds to an error. -/
def runContext (service : ClientServiceConfig) : String :=
  if isVisitorMode service then "Failed to run the visitor channel"
  else "Failed to run the control channel"

namespace State

variable (s : State)

def send (m : PacketMessage) : State := { s with sent := s.sent ++ [m] }

def fail (service : ClientServiceConfig) (err : String) : State :=
  { s with pc := .failed (runContext service ++ ": " ++ err) }

/-- Go on at `pc`, or fail. -/
def proceed (service : ClientServiceConfig) (pc : Pc) :
    Except String Unit → State
  | .ok () => { s with pc := pc }
  | .error e => s.fail service e

end State

section

variable (digest : Bytes → Digest) (service : ClientServiceConfig)

def helloSend (pad : Digest) : Hello :=
  if isVisitorMode service then .visitorHello currentProtoVersion pad
  else
    .controlChannelHello currentProtoVersion
      (serviceDigest digest service.user service.name)

/-- Token and nonce under the digest: the session key of a control channel,
the answer to the challenge in visitor mode. -/
def tokenDigest (nonce : Digest) : Digest :=
  digest (utf8 (service.token.getD "") ++ nonce.toList)

def authSend (nonce : Digest) : PacketMessage :=
  if isVisitorMode service then
    .visitorAuth
      { tokenDigest := tokenDigest digest service nonce
        bindAddr := service.remoteBindAddr.getD ""
        serviceType := service.serviceType }
  else .auth (tokenDigest digest service nonce)

/-- `read_hello` of a control channel. -/
def readNonce (m : PacketMessage) : Except String Digest :=
  match readHello m with
  | .ok (.controlChannelHello _ d) => .ok d
  | .ok _ => .error "Unexpected type of hello"
  | .error e => .error e

/-- The ack; a visitor channel goes on to the session key. -/
def readAcked (nonce : Digest) (m : PacketMessage) : Except String Pc :=
  if isVisitorMode service then
    match readVisitorAck m with
    | .ok .ok => .ok .key
    | .ok .authFailed => .error
        ("Visitor authentication failed for service " ++ service.name)
    | .ok .portDenied => .error
        ("Server denied port for service " ++ service.name ++ ": " ++
          service.remoteBindAddr.getD "")
    | .ok .bindError => .error
        ("Server failed to bind address for service " ++ service.name ++ ": " ++
          service.remoteBindAddr.getD "")
    | .error e => .error e
  else
    match readAck m with
    | .ok .ok => .ok (.forward (tokenDigest digest service nonce))
    | .ok v => .error
        ("Authentication failed: " ++ service.name ++ ": " ++ v.display)
    | .error e => .error e

/-- A message, or the failure to read one, where the run waits for it. -/
def stepRead (s : State) (res : Except String PacketMessage) : Option State :=
  match s.pc with
  | .nonce =>
      if isVisitorMode service then none
      else
        match res.bind readNonce with
        | .ok d => some { s with pc := .auth d }
        | .error e => some (s.fail service e)
  | .ack nonce =>
      match res.bind (readAcked digest service nonce) with
      | .ok pc => some { s with pc := pc }
      | .error e => some (s.fail service e)
  | .key =>
      match res.bind readAuth with
      | .ok key => some { s with pc := .forward key }
      | .error e => some (s.fail service ("Failed to read session key: " ++ e))
  | .forward key =>
      match res.bind readControlCmd with
      | .ok .createDataChannel =>
          some { s with dataChannels := s.dataChannels ++ [key] }
      | .ok .heartBeat => some s
      | .error e => some (s.fail service e)
  | _ => none

variable (remoteAddr : String) (heartbeatTimeout : UInt64)

def step (s : State) : Action → Option State
  | .resolved res =>
      if s.pc = .resolve then some (s.proceed service .connect res) else none
  | .connected res =>
      if s.pc = .connect then
        some (s.proceed service .hello (res.mapError
          (fun e => "Failed to connect to " ++ remoteAddr ++ ": " ++ e)))
      else none
  | .hello pad res =>
      if s.pc = .hello then
        some ((s.send (.hello (helloSend digest service pad))).proceed service
          .nonce res)
      else none
  | .auth res =>
      match s.pc with
      | .auth nonce =>
          some ((s.send (authSend digest service nonce)).proceed service
            (.ack nonce) res)
      | _ => none
  | .read res => stepRead digest service s res
  | .challenge res =>
      if s.pc = .nonce ∧ isVisitorMode service = true then
        match res with
        | .ok d => some { s with pc := .auth d }
        | .error e =>
            some (s.fail service ("Failed to read challenge nonce: " ++ e))
      else none
  | .heartbeatTimeout =>
      match s.pc with
      | .forward _ =>
          if heartbeatTimeout ≠ 0 then
            some (s.fail service "Heartbeat timed out")
          else none
      | _ => none
  | .shutdown =>
      match s.pc with
      | .forward _ =>
          if s.signal.isSome then some { s with pc := .ended } else none
      | _ => none
  | .tryRecv =>
      match s.pc with
      | .failed _ =>
          -- the backoff has no end
          some { s with pc := if s.signal.isSome then .ended else .sleep }
      | _ => none
  | .slept =>
      if s.pc = .sleep then some { s with pc := .resolve } else none
  | .signal g =>
      if s.signal = none then some { s with signal := some g } else none

end

/-! ## What a step can do -/

/-- Past the hello of the run it is in, or of the last one. -/
def Pc.pastHello : Pc → Bool
  | .resolve | .connect | .hello | .sleep => false
  | _ => true

def isHello : PacketMessage → Bool
  | .hello _ => true
  | _ => false

/-- The hellos the task has sent. -/
def State.hellos (s : State) : List PacketMessage := s.sent.filter isHello

section

variable {digest : Bytes → Digest} {service : ClientServiceConfig}
  {remoteAddr : String} {heartbeatTimeout : UInt64} {s t : State} {a : Action}

@[simp]
theorem proceed_signal (pc : Pc) (res : Except String Unit) :
    (s.proceed service pc res).signal = s.signal := by
  cases res <;> rfl

@[simp]
theorem proceed_sent (pc : Pc) (res : Except String Unit) :
    (s.proceed service pc res).sent = s.sent := by
  cases res <;> rfl

theorem pastHello_proceed {pc : Pc} (hpc : pc.pastHello = true)
    (res : Except String Unit) :
    (s.proceed service pc res).pc.pastHello = true := by
  cases res with
  | ok => exact hpc
  | error e => rfl

theorem hellos_auth (nonce : Digest) :
    (s.send (authSend digest service nonce)).hellos = s.hellos := by
  have hno : isHello (authSend digest service nonce) = false := by
    unfold authSend
    split <;> rfl
  simp [State.hellos, State.send, hno]

/-- What a step does to the signal and the hellos; `Quiet` is what matters
after the signal. -/
structure Quiet (s t : State) : Prop where
  signal : t.signal = s.signal
  hellos : t.hellos = s.hellos
  pastHello : s.pc.pastHello = true → s.signal.isSome = true →
    t.pc.pastHello = true

theorem quiet_fail (err : String) : Quiet s (s.fail service err) :=
  ⟨rfl, rfl, fun _ _ => rfl⟩

theorem pastHello_readAcked {nonce : Digest} {res : Except String PacketMessage}
    {pc : Pc} (h : res.bind (readAcked digest service nonce) = .ok pc) :
    pc.pastHello = true := by
  cases res with
  | error e => cases h
  | ok m =>
      change readAcked digest service nonce m = .ok pc at h
      unfold readAcked at h
      split at h
      · split at h <;> cases h
        rfl
      · split at h <;> cases h
        rfl

theorem quiet_read {res : Except String PacketMessage}
    (h : stepRead digest service s res = some t) : Quiet s t := by
  unfold stepRead at h
  split at h
  · split at h
    · cases h
    · split at h
      · cases h
        exact ⟨rfl, rfl, fun _ _ => rfl⟩
      · cases h
        exact quiet_fail _
  · rename_i nonce hpc
    split at h
    · rename_i pc hres
      cases h
      exact ⟨rfl, rfl, fun _ _ => pastHello_readAcked hres⟩
    · cases h
      exact quiet_fail _
  · split at h
    · cases h
      exact ⟨rfl, rfl, fun _ _ => rfl⟩
    · cases h
      exact quiet_fail _
  · rename_i key hpc
    split at h
    · cases h
      exact ⟨rfl, rfl, fun hpast _ => hpast⟩
    · cases h
      exact ⟨rfl, rfl, fun hpast _ => hpast⟩
    · cases h
      exact quiet_fail _
  · cases h

/-- **Inversion**: a step says hello, leaves the signal, or is quiet. -/
theorem step_cases
    (h : step digest service remoteAddr heartbeatTimeout s a = some t) :
    (s.pc = .hello ∧ t.signal = s.signal) ∨
      (∃ g, a = .signal g ∧ t = { s with signal := some g }) ∨ Quiet s t := by
  cases a with
  | resolved res =>
      simp only [step] at h
      split at h
      · rename_i hpc
        cases h
        refine Or.inr (Or.inr ⟨by simp, by simp [State.hellos], ?_⟩)
        intro hpast _
        rw [hpc] at hpast
        cases hpast
      · cases h
  | connected res =>
      simp only [step] at h
      split at h
      · rename_i hpc
        cases h
        refine Or.inr (Or.inr ⟨by simp, by simp [State.hellos], ?_⟩)
        intro hpast _
        rw [hpc] at hpast
        cases hpast
      · cases h
  | hello pad res =>
      simp only [step] at h
      split at h
      · rename_i hpc
        cases h
        exact Or.inl ⟨hpc, by simp [State.send]⟩
      · cases h
  | auth res =>
      simp only [step] at h
      split at h
      · rename_i nonce hpc
        cases h
        refine Or.inr (Or.inr ⟨by simp [State.send], ?_, ?_⟩)
        · unfold State.hellos
          rw [proceed_sent]
          exact hellos_auth nonce
        · exact fun _ _ => pastHello_proceed rfl res
      · cases h
  | read res => exact Or.inr (Or.inr (quiet_read h))
  | challenge res =>
      simp only [step] at h
      split at h
      · split at h
        · cases h
          exact Or.inr (Or.inr ⟨rfl, rfl, fun _ _ => rfl⟩)
        · cases h
          exact Or.inr (Or.inr (quiet_fail _))
      · cases h
  | heartbeatTimeout =>
      simp only [step] at h
      split at h
      · split at h
        · cases h
          exact Or.inr (Or.inr (quiet_fail _))
        · cases h
      · cases h
  | shutdown =>
      simp only [step] at h
      split at h
      · split at h
        · cases h
          exact Or.inr (Or.inr ⟨rfl, rfl, fun _ _ => rfl⟩)
        · cases h
      · cases h
  | tryRecv =>
      simp only [step] at h
      split at h
      · cases h
        refine Or.inr (Or.inr ⟨rfl, rfl, fun _ hsome => ?_⟩)
        simp only [hsome, if_true]
        rfl
      · cases h
  | slept =>
      simp only [step] at h
      split at h
      · rename_i hpc
        cases h
        refine Or.inr (Or.inr ⟨rfl, rfl, fun hpast _ => ?_⟩)
        rw [hpc] at hpast
        cases hpast
      · cases h
  | signal g =>
      simp only [step] at h
      split at h
      · cases h
        exact Or.inr (Or.inl ⟨g, rfl, rfl⟩)
      · cases h

/-! ## After the signal -/

/-- **Step lemma**: a task past its hello that has been signalled stays so. -/
theorem silent_step {hellos : List PacketMessage}
    (h : s.signal.isSome = true ∧ s.pc.pastHello = true ∧ s.hellos = hellos)
    (hs : step digest service remoteAddr heartbeatTimeout s a = some t) :
    t.signal.isSome = true ∧ t.pc.pastHello = true ∧ t.hellos = hellos := by
  obtain ⟨hsome, hpast, rfl⟩ := h
  rcases step_cases hs with ⟨hpc, -⟩ | ⟨g, -, rfl⟩ | hquiet
  · rw [hpc] at hpast
    cases hpast
  · exact ⟨rfl, hpast, rfl⟩
  · refine ⟨?_, hquiet.pastHello hpast hsome, hquiet.hellos⟩
    rw [hquiet.signal]
    exact hsome

/-- Without a signal there is none to find. -/
theorem signal_none {as : List Action}
    (hrun : Run (step digest service remoteAddr heartbeatTimeout) init as s)
    (hheld : ∀ g, .signal g ∉ as) : s.signal = none := by
  have hmeets : Meets (step digest service remoteAddr heartbeatTimeout)
      (fun _ a => ∀ g, a ≠ .signal g) init as := by
    refine meets_of_mem ?_ init
    rintro a ha g rfl
    exact hheld g ha
  refine run_preserves_of_meets (I := fun s => s.signal = none) ?_ rfl hmeets
    hrun
  intro s a t hnone hother hs
  rcases step_cases hs with ⟨-, hsignal⟩ | ⟨g, rfl, -⟩ | hquiet
  · rw [hsignal, hnone]
  · exact absurd rfl (hother g)
  · rw [hquiet.signal, hnone]

/-- The way to the next hello, if nothing fails. -/
def nextHello : Pc → List Action
  | .sleep => [.slept, .resolved (.ok ()), .connected (.ok ()),
      .hello (.replicate 32 0) (.ok ())]
  | .resolve => [.resolved (.ok ()), .connected (.ok ()),
      .hello (.replicate 32 0) (.ok ())]
  | .connect => [.connected (.ok ()), .hello (.replicate 32 0) (.ok ())]
  | .hello => [.hello (.replicate 32 0) (.ok ())]
  | _ => []

variable (digest service remoteAddr heartbeatTimeout) in
/-- A task that has not said hello gets there, signal or no signal. -/
theorem run_nextHello (hpc : s.pc.pastHello = false) :
    ∃ t m, Run (step digest service remoteAddr heartbeatTimeout) s
      (nextHello s.pc) t ∧ t.hellos = s.hellos ++ [m] := by
  obtain ⟨pc, signal, sent, dataChannels⟩ := s
  refine ⟨⟨.nonce, signal, sent ++
      [.hello (helloSend digest service (.replicate 32 0))], dataChannels⟩,
    .hello (helloSend digest service (.replicate 32 0)), ?_, ?_⟩
  · cases pc with
    | resolve => rfl
    | connect => rfl
    | hello => rfl
    | sleep => rfl
    | _ => cases hpc
  · exact List.filter_append _ _

end

/-- **A removed service stays silent** exactly if its task is past its hello
when the handle is dropped or shut down, or has come back from a failed run and
not gone to sleep yet: whatever the task does after that moment, it sends no
hello. A task that sleeps, or is on its way to its hello, can still send one. -/
theorem silent_iff (digest : Bytes → Digest) (service : ClientServiceConfig)
    (remoteAddr : String) (heartbeatTimeout : UInt64) (before : List Action)
    (s : State)
    (hrun : Run (step digest service remoteAddr heartbeatTimeout) init before s)
    (hheld : ∀ g, .signal g ∉ before) (g : Signal) :
    (∀ after t, Run (step digest service remoteAddr heartbeatTimeout) s
      (.signal g :: after) t → t.hellos = s.hellos) ↔
    s.pc.pastHello = true := by
  have hnone := signal_none hrun hheld
  have hsignal : step digest service remoteAddr heartbeatTimeout s (.signal g) =
      some { s with signal := some g } := if_pos hnone
  constructor
  · intro hsilent
    by_contra hpast
    rw [Bool.not_eq_true] at hpast
    obtain ⟨t, m, hnext, hhellos⟩ := run_nextHello digest service remoteAddr
      heartbeatTimeout (s := { s with signal := some g }) hpast
    have heq := hsilent _ t (run_cons.mpr ⟨_, hsignal, hnext⟩)
    rw [hhellos] at heq
    exact List.cons_ne_nil m [] (List.append_right_eq_self.mp heq)
  · intro hpast after t hafter
    obtain ⟨u, hu, hrest⟩ := run_cons.mp hafter
    rw [hsignal] at hu
    cases hu
    have hsilent := run_preserves
      (I := fun t => t.signal.isSome = true ∧ t.pc.pastHello = true ∧
        t.hellos = s.hellos)
      (fun _ _ _ h hs => silent_step h hs) ⟨rfl, hpast, rfl⟩ hrest
    exact hsilent.2.2

/-- SHA-256 of `default:web`. -/
def webDigest : Digest :=
  #v[0xc7, 0x8e, 0x57, 0xaa, 0x1f, 0x5f, 0x78, 0x4e,
    0x29, 0x6a, 0xdd, 0x16, 0xb4, 0x73, 0xfe, 0xde,
    0xf7, 0x86, 0x72, 0xb0, 0x84, 0x11, 0x94, 0xea,
    0x54, 0xad, 0x05, 0xf4, 0x82, 0xb1, 0x22, 0x14]

def web : ClientServiceConfig where
  serviceType := .tcp
  name := "web"
  localAddr := "127.0.0.1:80"
  preferIpv6 := false
  user := none
  token := none
  nodelay := none
  retryInterval := some 1
  remoteBindAddr := none
  proxyProtocol := none

/-- The same service in visitor mode. -/
def webVisitor : ClientServiceConfig :=
  { web with remoteBindAddr := some "0.0.0.0:8080" }

/-- The handle is dropped while the task waits for the server's hello. -/
theorem silent_iff_shaking_hands :
    ∃ s, Run (step (fun _ => webDigest) web "server:2333" 40) init
      (nextHello .resolve) s ∧
    s.hellos = [.hello (.controlChannelHello 1 webDigest)] ∧
    ∀ after t, Run (step (fun _ => webDigest) web "server:2333" 40) s
      (.signal .closed :: after) t → t.hellos = s.hellos := by
  refine ⟨_, rfl, rfl, ?_⟩
  exact (silent_iff (fun _ => webDigest) web "server:2333" 40
    (nextHello .resolve) _ rfl (by simp [nextHello]) .closed).mpr rfl

/-- The server is not there, and the task sleeps. -/
def unreachable : List Action :=
  [.resolved (.ok ()), .connected (.error "Connection refused"), .tryRecv]

/-- The service is deleted while its task sleeps. After that it says hello, as
a control channel and in visitor mode. -/
theorem deleted_service_says_hello :
    (∃ s t, Run (step (fun _ => webDigest) web "server:2333" 40) init
        unreachable s ∧ s.hellos = [] ∧
      Run (step (fun _ => webDigest) web "server:2333" 40) s
        (.signal .closed :: nextHello .sleep) t ∧
      t.hellos = [.hello (.controlChannelHello 1 webDigest)]) ∧
    (∃ s t, Run (step (fun _ => webDigest) webVisitor "server:2333" 40) init
        unreachable s ∧ s.hellos = [] ∧
      Run (step (fun _ => webDigest) webVisitor "server:2333" 40) s
        (.signal .closed :: nextHello .sleep) t ∧
      t.hellos = [.hello (.visitorHello 1 (.replicate 32 0))]) :=
  ⟨⟨_, _, rfl, rfl, rfl, rfl⟩, ⟨_, _, rfl, rfl, rfl, rfl⟩⟩

end Rathole.ControlTask
