import Rathole.ConfigWatcher
import Rathole.Lib.Runs

/-!
# The supervisor loop (`lib.rs`)

`run` receives the changes the config watcher finds. A `General` change stops
the running instance and starts one with the new configuration; every other
change is passed on to the instance.

The instances run beside the loop, so an instance may end at any time, and the
accept loop of a server hands copies of the shutdown receiver to its connection
tasks. Both are actions of their own here. What an instance does is left open,
up to what `run_instance` decides by itself: with a configuration that does not
say what to run as it panics, and the profiles of the program have
`panic = "abort"`.
-/

namespace Rathole

/-- The two flags that choose the mode. -/
structure Cli where
  server : Bool
  client : Bool

inductive RunMode where
  | server | client | undetermine
deriving DecidableEq

def determineRunMode (config : Config) (args : Cli) : RunMode :=
  if args.client && args.server then .undetermine
  else if args.client then .client
  else if args.server then .server
  else if config.client.isSome && config.server.isNone then .client
  else if config.server.isSome && config.client.isNone then .server
  else .undetermine

/-- What `run_instance` comes to. -/
inductive InstanceExit where
  | ok
  | error (msg : String)
  | panicked
deriving DecidableEq

def missingClient : String :=
  "Try to run as a client, but the configuration is missing. Please add the `[client]` block"

def missingServer : String :=
  "Try to run as a server, but the configuration is missing. Please add the `[server]` block"

/-- The ways in which `run_instance` can end. A client or a server returns what
it likes; the panic of `run_instance` itself is the only one there is. -/
def mayExit (config : Config) (args : Cli) (exit : InstanceExit) : Bool :=
  match determineRunMode config args with
  | .undetermine => decide (exit = .panicked)
  | .client => config.client.isSome && decide (exit ≠ .panicked) ||
      decide (exit = .error missingClient)
  | .server => config.server.isSome && decide (exit ≠ .panicked) ||
      decide (exit = .error missingServer)

/-- An instance with the receiver of its update channel. -/
structure Instance where
  config : Config
  /-- What has been sent into its update channel. -/
  updates : List ConfigChange
  /-- `none` while it runs. -/
  exit : Option InstanceExit

inductive RunError where
  /-- `shutdown_tx.send` found no receiver. -/
  | sendFailed
  | instanceFailed (msg : String)
  /-- The process is gone. -/
  | aborted

structure Supervisor where
  args : Cli
  /-- Every instance started, oldest first. -/
  instances : List Instance
  /-- Connection tasks that hold a receiver of the shutdown channel. -/
  connections : ℕ
  /-- The instance of the join handle, and the one whose update channel the
  sender feeds. -/
  lastInstance : Option (ℕ × ℕ)
  /-- How `run` has ended. -/
  result : Option (Except RunError Unit)

namespace Supervisor

def init (args : Cli) : Supervisor := ⟨args, [], 0, none, none⟩

/-- Spawn an instance with an update channel of its own. -/
def start (s : Supervisor) (config : Config) : Supervisor :=
  { s with
    instances := s.instances ++ [⟨config, [], none⟩]
    lastInstance := some (s.instances.length, s.instances.length) }

/-- The shutdown channel has a receiver: `send` fails without one. -/
def listening (s : Supervisor) : Bool :=
  decide (0 < s.connections) || s.instances.any (fun inst => inst.exit.isNone)

/-- The instance `i` ends; a panic takes the process with it. -/
def setExit (s : Supervisor) (i : ℕ) (inst : Instance) (exit : InstanceExit) :
    Supervisor :=
  { s with
    instances := s.instances.set i { inst with exit := some exit }
    result := if exit = .panicked then some (.error .aborted) else s.result }

/-- `i.await`: how an instance has ended, or `exit` if it still runs. -/
def awaitInstance (s : Supervisor) (i : ℕ) (exit : InstanceExit) :
    Option (Supervisor × InstanceExit) :=
  match s.instances[i]? with
  | none => none
  | some inst =>
      match inst.exit with
      | some r => some (s, r)
      | none =>
          if mayExit inst.config s.args exit then
            some (s.setExit i inst exit, exit)
          else none

/-- `i.await??`: an error of the instance ends the loop. -/
def afterEnd (s : Supervisor) (config : Config) :
    InstanceExit → Supervisor
  | .ok => s.start config
  | .error msg => { s with result := some (.error (.instanceFailed msg)) }
  | .panicked => { s with result := some (.error .aborted) }

/-- The `General` branch, where a running instance ends with `exit`. -/
def restart (s : Supervisor) (config : Config) (exit : InstanceExit) :
    Option Supervisor :=
  match s.lastInstance with
  | none => some (s.start config)
  | some (i, _) =>
      if s.listening then
        (s.awaitInstance i exit).map (fun r => r.1.afterEnd config r.2)
      else some { s with result := some (.error .sendFailed) }

/-- Every other change: a full update channel makes the loop wait, one without
a receiver drops the change. -/
def sendUpdate (s : Supervisor) (ev : ConfigChange) : Supervisor :=
  match s.lastInstance with
  | none => s
  | some (_, tx) =>
      match s.instances[tx]? with
      | none => s
      | some inst =>
          if inst.exit.isNone then
            let inst' := { inst with updates := inst.updates ++ [ev] }
            { s with instances := s.instances.set tx inst' }
          else s

/-- What can happen next. -/
inductive Action where
  /-- The loop receives a change; an instance it waits for ends with `exit`. -/
  | recv (ev : ConfigChange) (exit : InstanceExit)
  /-- The config watcher is gone. -/
  | recvNone
  /-- An instance ends by itself. -/
  | exits (i : ℕ) (exit : InstanceExit)
  | connected
  | disconnected

def step (s : Supervisor) (a : Action) : Option Supervisor :=
  if s.result.isSome then none
  else
    match a with
    | .recv (.general config) exit => s.restart config exit
    | .recv ev _ => some (s.sendUpdate ev)
    | .recvNone => some { s with result := some (.ok ()) }
    | .exits i exit =>
        match s.instances[i]? with
        | none => none
        | some inst =>
            if inst.exit.isNone && mayExit inst.config s.args exit then
              some (s.setExit i inst exit)
            else none
    | .connected =>
        if s.instances.any (fun inst => inst.exit.isNone) then
          some { s with connections := s.connections + 1 }
        else none
    | .disconnected =>
        if 0 < s.connections then
          some { s with connections := s.connections - 1 }
        else none

/-! ## Between two `General` changes -/

/-- The loop goes on with the instance it has. -/
def Action.keepsInstance : Action → Prop
  | .recv (.general _) _ => False
  | .recvNone => False
  | _ => True

/-- The changes received while the instance `i` runs. -/
def delivered (i : ℕ) : List Action → List ConfigChange
  | [] => []
  | .recv ev _ :: rest => ev :: delivered i rest
  | .exits j _ :: rest => if j = i then [] else delivered i rest
  | _ :: rest => delivered i rest

section Steps

variable {s t : Supervisor} {i : ℕ} {inst : Instance}

theorem result_of_step {a : Action} (hs : s.step a = some t) :
    s.result.isSome ≠ true := by
  unfold step at hs
  split at hs
  · cases hs
  · assumption

/-- The instance `i` has not ended. -/
def Running (s : Supervisor) (i : ℕ) : Prop :=
  ∃ inst, s.instances[i]? = some inst ∧ inst.exit = none

theorem Running.of_set {j k : ℕ} {inst' : Instance} (hj : t.Running j)
    (hinst : s.instances[k]? = some inst)
    (ht : t.instances = s.instances.set k inst')
    (hexit : inst'.exit = none → inst.exit = none) : s.Running j := by
  obtain ⟨x, hx, hruns⟩ := hj
  rw [ht, List.getElem?_set] at hx
  split at hx
  · rename_i hkj
    subst hkj
    split at hx
    · cases hx
      exact ⟨inst, hinst, hexit hruns⟩
    · cases hx
  · exact ⟨x, hx, hruns⟩

theorem Running.of_setExit {j k : ℕ} {exit : InstanceExit}
    (hinst : s.instances[k]? = some inst)
    (hj : (s.setExit k inst exit).Running j) : s.Running j ∧ j ≠ k := by
  refine ⟨hj.of_set hinst rfl nofun, ?_⟩
  rintro rfl
  obtain ⟨x, hx, hruns⟩ := hj
  have hlt := (List.getElem?_eq_some_iff.mp hinst).1
  cases (List.getElem?_set_self hlt).symm.trans hx
  cases hruns

theorem Running.of_start {u : Supervisor} {config : Config} {j : ℕ}
    (hj : (u.start config).Running j) :
    u.Running j ∨ j = u.instances.length := by
  obtain ⟨x, hx, hruns⟩ := hj
  have hlt := (List.getElem?_eq_some_iff.mp hx).1
  have hlen : (u.start config).instances.length = u.instances.length + 1 :=
    List.length_append
  by_cases hold : j < u.instances.length
  · exact Or.inl ⟨x, (List.getElem?_append_left hold).symm.trans hx, hruns⟩
  · exact Or.inr (by omega)

/-- The instance `i` is the current one and the only one that may still run,
and its configuration says what to run as. -/
structure Current (s : Supervisor) (i : ℕ) (inst : Instance) : Prop where
  result : s.result = none
  last : s.lastInstance = some (i, i)
  started : s.instances[i]? = some inst
  alone : ∀ j, s.Running j → j = i
  mode : determineRunMode inst.config s.args ≠ .undetermine

/-- A service change goes to the instance whose sender the loop holds. -/
theorem Current.service {ev : ConfigChange} {exit : InstanceExit}
    (h : s.Current i inst) (hev : (Action.recv ev exit).keepsInstance)
    (hs : s.step (.recv ev exit) = some t) :
    t.Current i { inst with
      updates := if inst.exit.isNone then inst.updates ++ [ev]
        else inst.updates } := by
  have ht : s.sendUpdate ev = t := by
    have hnone := result_of_step hs
    unfold step at hs
    rw [if_neg hnone] at hs
    cases ev with
    | general config => exact absurd hev id
    | serverChange change => exact Option.some.inj hs
    | clientChange change => exact Option.some.inj hs
  subst ht
  unfold sendUpdate
  rw [h.last]
  dsimp only
  rw [h.started]
  dsimp only
  split
  · have hlt := (List.getElem?_eq_some_iff.mp h.started).1
    exact ⟨h.result, rfl, List.getElem?_set_self hlt,
      fun j hj => h.alone j (hj.of_set h.started rfl id), h.mode⟩
  · exact ⟨h.result, h.last, h.started, h.alone, h.mode⟩

/-- The only way in which `run_instance` panics. -/
theorem mayExit_panicked {config : Config} {args : Cli}
    (h : mayExit config args .panicked = true) :
    determineRunMode config args = .undetermine := by
  unfold mayExit at h
  split at h
  · assumption
  · simp at h
  · simp at h

/-- The end of an instance is recorded with it. -/
theorem Current.exits {j : ℕ} {exit : InstanceExit} (h : s.Current i inst)
    (hs : s.step (.exits j exit) = some t) :
    inst.exit = none ∧ j = i ∧ t.Current i { inst with exit := some exit } := by
  have hnone := result_of_step hs
  unfold step at hs
  rw [if_neg hnone] at hs
  dsimp only at hs
  split at hs
  · cases hs
  · rename_i inst' hinst'
    split at hs
    · rename_i hcond
      cases hs
      rw [Bool.and_eq_true, Option.isNone_iff_eq_none] at hcond
      obtain rfl : j = i := h.alone j ⟨inst', hinst', hcond.1⟩
      cases h.started.symm.trans hinst'
      have hlt := (List.getElem?_eq_some_iff.mp hinst').1
      refine ⟨hcond.1, rfl, ?_, h.last, List.getElem?_set_self hlt,
        fun k hk => h.alone k (hk.of_setExit hinst').1, h.mode⟩
      refine (if_neg ?_).trans h.result
      rintro rfl
      exact h.mode (mayExit_panicked hcond.2)
    · cases hs

theorem Current.connection {a : Action}
    (ha : a = .connected ∨ a = .disconnected) (h : s.Current i inst)
    (hs : s.step a = some t) : t.Current i inst := by
  have hnone := result_of_step hs
  unfold step at hs
  rw [if_neg hnone] at hs
  rcases ha with rfl | rfl
  · dsimp only at hs
    split at hs
    · cases hs
      exact ⟨h.result, h.last, h.started, h.alone, h.mode⟩
    · cases hs
  · dsimp only at hs
    split at hs
    · cases hs
      exact ⟨h.result, h.last, h.started, h.alone, h.mode⟩
    · cases hs

/-- **Run lemma**: until the next `General` change the loop goes on and keeps
its instance, whose channel gets every change received while it runs. -/
theorem run_delivered (later : List Action)
    (hkeep : ∀ b ∈ later, b.keepsInstance) (h : s.Current i inst)
    (hrun : Runs.Run step s later t) :
    ∃ r, t.Current i ⟨inst.config, inst.updates ++
      (if inst.exit.isNone then delivered i later else []), r⟩ := by
  induction later generalizing s inst with
  | nil =>
      have hst := Runs.run_nil.mp hrun
      subst hst
      refine ⟨inst.exit, ?_⟩
      simpa [delivered] using h
  | cons b later ih =>
      obtain ⟨u, hs, hrun'⟩ := Runs.run_cons.mp hrun
      have hb : b.keepsInstance := hkeep b List.mem_cons_self
      have hkeep' : ∀ b ∈ later, b.keepsInstance :=
        fun b hb => hkeep b (List.mem_cons_of_mem _ hb)
      cases b with
      | recv ev exit =>
          obtain ⟨r, hr⟩ := ih hkeep' (h.service hb hs) hrun'
          refine ⟨r, ?_⟩
          cases hexit : inst.exit with
          | none => simpa [delivered, hexit] using hr
          | some x => simpa [hexit] using hr
      | recvNone => exact absurd hb id
      | exits j exit =>
          obtain ⟨-, hji, hcurrent⟩ := h.exits hs
          obtain ⟨r, hr⟩ := ih hkeep' hcurrent hrun'
          refine ⟨r, ?_⟩
          simpa [delivered, hji] using hr
      | connected => exact ih hkeep' (h.connection (Or.inl rfl) hs) hrun'
      | disconnected => exact ih hkeep' (h.connection (Or.inr rfl) hs) hrun'

end Steps

/-! ## A `General` change -/

/-- The loop goes on after the change, with a running instance of exactly this
configuration, whose channel is the one that the later changes are sent to. -/
def TakesEffect (s : Supervisor) (a : Action) : Prop :=
  ∀ config exit t, a = .recv (.general config) exit → s.step a = some t →
    t.result = none ∧
    ∃ i, t.lastInstance = some (i, i) ∧
      t.instances[i]? = some ⟨config, [], none⟩ ∧
      ∀ later t', (∀ b ∈ later, b.keepsInstance) →
        Runs.Run step t later t' →
        t'.result = none ∧ t'.lastInstance = some (i, i) ∧
          ∃ r, t'.instances[i]? = some ⟨config, delivered i later, r⟩

/-- `r` is how the instance has ended or, if it still runs, how it ends. -/
def Ends (s : Supervisor) (inst : Instance) (exit r : InstanceExit) : Prop :=
  inst.exit = some r ∨
    (inst.exit = none ∧ mayExit inst.config s.args exit = true ∧ r = exit)

/-- The new configuration says, with the flags, what to run as, and either
there is no instance yet, or the shutdown channel has a receiver left and the
last instance ends with `Ok`. -/
def RestartsCleanly (s : Supervisor) (a : Action) : Prop :=
  ∀ config exit, a = .recv (.general config) exit → s.result = none →
    match s.lastInstance with
    | none => determineRunMode config s.args ≠ .undetermine
    | some (i, _) =>
        s.listening = true ∧ ∀ inst r, s.instances[i]? = some inst →
          s.Ends inst exit r →
          r = .ok ∧ determineRunMode config s.args ≠ .undetermine

/-- The join handle and the sender belong to one instance that was started, and
no other runs. -/
structure Tracks (s : Supervisor) : Prop where
  last : ∀ i tx, s.lastInstance = some (i, tx) →
    i = tx ∧ i < s.instances.length
  running : ∀ j, s.Running j → ∃ tx, s.lastInstance = some (j, tx)

section General

variable {s t u : Supervisor} {config : Config} {exit r : InstanceExit}
  {i tx : ℕ} {inst : Instance}

theorem step_general (hnone : s.result = none) :
    s.step (.recv (.general config) exit) = s.restart config exit := by
  unfold step
  rw [hnone]
  rfl

/-- The instance that the loop has waited for was the only one. -/
theorem Tracks.awaited (h : s.Tracks) (hlast : s.lastInstance = some (i, tx))
    (hu : s.awaitInstance i exit = some (u, r)) :
    u.Tracks ∧ (∀ j, ¬ u.Running j) ∧ u.args = s.args ∧
      (r = .ok → u.result = s.result) := by
  have halone : ∀ j, s.Running j → j = i := by
    intro j hj
    obtain ⟨tx', hj⟩ := h.running j hj
    cases hlast.symm.trans hj
    rfl
  unfold awaitInstance at hu
  split at hu
  · cases hu
  · rename_i inst hinst
    split at hu
    · rename_i hended
      cases hu
      refine ⟨h, ?_, rfl, fun _ => rfl⟩
      rintro j ⟨x, hx, hruns⟩
      obtain rfl := halone j ⟨x, hx, hruns⟩
      cases hinst.symm.trans hx
      cases hended.symm.trans hruns
    · split at hu
      · cases hu
        have hidle : ∀ j, ¬ (s.setExit i inst exit).Running j := by
          intro j hj
          obtain ⟨hold, hne⟩ := hj.of_setExit hinst
          exact hne (halone j hold)
        refine ⟨⟨?_, fun j hj => absurd hj (hidle j)⟩, hidle, rfl, ?_⟩
        · intro k tx' hk
          obtain ⟨heq, hlt⟩ := h.last k tx' hk
          exact ⟨heq, by simpa [setExit] using hlt⟩
        · rintro rfl
          rfl
      · cases hu

/-- What the loop makes of the end of the instance it waits for. -/
theorem restart_ends (config : Config)
    (hlast : s.lastInstance = some (i, tx))
    (hinst : s.instances[i]? = some inst) (hlisten : s.listening = true)
    (hends : s.Ends inst exit r) :
    ∃ u : Supervisor, s.awaitInstance i exit = some (u, r) ∧
      s.restart config exit = some (u.afterEnd config r) := by
  have hawait : ∃ u, s.awaitInstance i exit = some (u, r) := by
    unfold awaitInstance
    rw [hinst]
    dsimp only
    rcases hends with hended | ⟨hruns, hmay, rfl⟩
    · rw [hended]
      exact ⟨s, rfl⟩
    · rw [hruns]
      dsimp only
      rw [if_pos hmay]
      exact ⟨s.setExit i inst r, rfl⟩
  obtain ⟨u, hu⟩ := hawait
  refine ⟨u, hu, ?_⟩
  unfold restart
  rw [hlast]
  dsimp only
  rw [if_pos hlisten, hu]
  rfl

/-- An instance that is waited for has ended or does so now. -/
theorem ends_of_await (hinst : s.instances[i]? = some inst)
    (hu : s.awaitInstance i exit = some (u, r)) : s.Ends inst exit r := by
  unfold awaitInstance at hu
  rw [hinst] at hu
  dsimp only at hu
  split at hu
  · rename_i hended
    cases hu
    exact Or.inl hended
  · rename_i hruns
    split at hu
    · rename_i hmay
      cases hu
      exact Or.inr ⟨hruns, hmay, rfl⟩
    · cases hu

/-- An instance that has just been started is the current one. -/
theorem current_start (hnone : u.result = none) (hidle : ∀ j, ¬ u.Running j)
    (hmode : determineRunMode config u.args ≠ .undetermine) :
    (u.start config).Current u.instances.length ⟨config, [], none⟩ where
  result := hnone
  last := rfl
  started := List.getElem?_concat_length
  alone := fun j hj => hj.of_start.resolve_left (hidle j)
  mode := hmode

theorem takesEffect_start (hnone : u.result = none)
    (hidle : ∀ j, ¬ u.Running j)
    (hmode : determineRunMode config u.args ≠ .undetermine) :
    (u.start config).result = none ∧
    ∃ i, (u.start config).lastInstance = some (i, i) ∧
      (u.start config).instances[i]? = some ⟨config, [], none⟩ ∧
      ∀ later t', (∀ b ∈ later, b.keepsInstance) →
        Runs.Run step (u.start config) later t' →
        t'.result = none ∧ t'.lastInstance = some (i, i) ∧
          ∃ r, t'.instances[i]? = some ⟨config, delivered i later, r⟩ := by
  have hcurrent := current_start hnone hidle hmode
  refine ⟨hnone, _, rfl, hcurrent.started, ?_⟩
  intro later t' hkeep hrun
  obtain ⟨r, hr⟩ := run_delivered later hkeep hcurrent hrun
  exact ⟨hr.result, hr.last, r, hr.started⟩

/-- With a configuration that does not say what to run as, the process is gone
as soon as the instance gets to run. -/
theorem start_panics (hnone : u.result = none)
    (hmode : determineRunMode config u.args = .undetermine) :
    ∃ t, Runs.Run step (u.start config)
        [.exits u.instances.length .panicked] t ∧ t.result ≠ none := by
  have hinst : (u.start config).instances[u.instances.length]? =
      some ⟨config, [], none⟩ := List.getElem?_concat_length
  have hmay : mayExit config (u.start config).args .panicked = true := by
    unfold mayExit
    rw [show (u.start config).args = u.args from rfl, hmode]
    rfl
  refine ⟨(u.start config).setExit u.instances.length ⟨config, [], none⟩
    .panicked, Runs.run_cons.mpr ⟨_, ?_, Runs.run_nil.mpr rfl⟩, nofun⟩
  unfold step
  rw [show (u.start config).result = none from hnone]
  dsimp only
  rw [hinst]
  exact if_pos hmay

/-- A change that takes effect says what to run as. -/
theorem mode_of_takesEffect
    (h : s.TakesEffect (.recv (.general config) exit))
    (hs : s.step (.recv (.general config) exit) = some (u.start config)) :
    determineRunMode config u.args ≠ .undetermine := by
  intro hmode
  obtain ⟨hnone, i, -, -, hlater⟩ := h config exit _ rfl hs
  obtain ⟨t, hrun, hgone⟩ := start_panics (u := u) hnone hmode
  have hkeep : ∀ b ∈ [Action.exits u.instances.length .panicked],
      b.keepsInstance := by
    intro b hb
    rw [List.mem_singleton.mp hb]
    trivial
  exact hgone (hlater _ t hkeep hrun).1

/-- **Step lemma**: a `General` change takes effect exactly when the restart is
clean. -/
theorem takesEffect_iff (hs : s.Tracks) (a : Action) :
    s.TakesEffect a ↔ s.RestartsCleanly a := by
  constructor
  · rintro h config exit rfl hnone
    cases hlast : s.lastInstance with
    | none =>
        apply mode_of_takesEffect h
        rw [step_general hnone]
        unfold restart
        rw [hlast]
    | some p =>
        obtain ⟨i, tx⟩ := p
        have hlisten : s.listening = true := by
          by_contra hdeaf
          have hstep : s.step (.recv (.general config) exit) =
              some { s with result := some (.error .sendFailed) } := by
            rw [step_general hnone]
            unfold restart
            rw [hlast]
            exact if_neg hdeaf
          have hresult := (h config exit _ rfl hstep).1
          cases hresult
        refine ⟨hlisten, ?_⟩
        intro inst r hinst hends
        obtain ⟨u, hu, hrestart⟩ :=
          restart_ends config hlast hinst hlisten hends
        obtain ⟨-, -, hargs, -⟩ := hs.awaited hlast hu
        rw [← step_general hnone] at hrestart
        cases r with
        | ok => exact ⟨rfl, hargs ▸ mode_of_takesEffect h hrestart⟩
        | error msg => cases (h config exit _ rfl hrestart).1
        | panicked => cases (h config exit _ rfl hrestart).1
  · rintro h config exit t rfl hstep
    have hnone : s.result = none :=
      Option.not_isSome_iff_eq_none.mp (result_of_step hstep)
    have hclean := h config exit rfl hnone
    rw [step_general hnone] at hstep
    unfold restart at hstep
    cases hlast : s.lastInstance with
    | none =>
        rw [hlast] at hstep hclean
        cases hstep
        refine takesEffect_start hnone ?_ hclean
        intro j hj
        obtain ⟨tx, hj⟩ := hs.running j hj
        cases hlast.symm.trans hj
    | some p =>
        obtain ⟨i, tx⟩ := p
        rw [hlast] at hstep hclean
        obtain ⟨hlisten, hok⟩ := hclean
        dsimp only at hstep
        rw [if_pos hlisten] at hstep
        obtain ⟨⟨u, r⟩, hu, rfl⟩ := Option.map_eq_some_iff.mp hstep
        obtain ⟨-, hidle, hargs, hresult⟩ := hs.awaited hlast hu
        have hinst : s.instances[i]? = some _ :=
          List.getElem?_eq_getElem (hs.last i tx hlast).2
        obtain ⟨rfl, hmode⟩ := hok _ r hinst (ends_of_await hinst hu)
        exact takesEffect_start ((hresult rfl).trans hnone) hidle
          (hargs ▸ hmode)

theorem tracks_start (hidle : ∀ j, ¬ u.Running j) (config : Config) :
    (u.start config).Tracks where
  last := by
    rintro i tx hlast
    cases hlast
    refine ⟨rfl, ?_⟩
    show u.instances.length < (u.instances ++ [_]).length
    rw [List.length_append, List.length_singleton]
    exact Nat.lt_succ_self _
  running := by
    intro j hj
    rw [hj.of_start.resolve_left (hidle j)]
    exact ⟨_, rfl⟩

/-- A step that starts no instance. -/
theorem Tracks.mono (h : s.Tracks) (hlast : t.lastInstance = s.lastInstance)
    (hlen : t.instances.length = s.instances.length)
    (hruns : ∀ j, t.Running j → s.Running j) : t.Tracks where
  last := by
    intro i tx hi
    rw [hlen]
    exact h.last i tx (hlast ▸ hi)
  running := by
    intro j hj
    rw [hlast]
    exact h.running j (hruns j hj)

theorem tracks_afterEnd (hu : u.Tracks) (hidle : ∀ j, ¬ u.Running j)
    (config : Config) (r : InstanceExit) : (u.afterEnd config r).Tracks := by
  cases r with
  | ok => exact tracks_start hidle config
  | error msg => exact hu.mono rfl rfl (fun _ hj => hj)
  | panicked => exact hu.mono rfl rfl (fun _ hj => hj)

theorem tracks_restart (h : s.Tracks)
    (hs : s.restart config exit = some t) : t.Tracks := by
  unfold restart at hs
  split at hs
  · rename_i hlast
    cases hs
    refine tracks_start ?_ config
    intro j hj
    obtain ⟨tx, hj⟩ := h.running j hj
    cases hlast.symm.trans hj
  · rename_i hlast
    split at hs
    · obtain ⟨⟨u, r⟩, hu, rfl⟩ := Option.map_eq_some_iff.mp hs
      obtain ⟨htracks, hidle, -, -⟩ := h.awaited hlast hu
      exact tracks_afterEnd htracks hidle config r
    · cases hs
      exact h.mono rfl rfl (fun _ hj => hj)

theorem tracks_sendUpdate (h : s.Tracks) (ev : ConfigChange) :
    (s.sendUpdate ev).Tracks := by
  unfold sendUpdate
  split
  · exact h
  · split
    · exact h
    · rename_i hinst
      split
      · exact h.mono rfl List.length_set
          (fun _ hj => hj.of_set hinst rfl id)
      · exact h

/-- **Step lemma.** -/
theorem Tracks.step {a : Action} (h : s.Tracks) (hs : s.step a = some t) :
    t.Tracks := by
  have hnone := result_of_step hs
  unfold Supervisor.step at hs
  rw [if_neg hnone] at hs
  cases a with
  | recv ev exit =>
      cases ev with
      | general config => exact tracks_restart h hs
      | serverChange change =>
          cases hs
          exact tracks_sendUpdate h _
      | clientChange change =>
          cases hs
          exact tracks_sendUpdate h _
  | recvNone =>
      cases hs
      exact h.mono rfl rfl (fun _ hj => hj)
  | exits i exit =>
      dsimp only at hs
      split at hs
      · cases hs
      · rename_i hinst
        split at hs
        · cases hs
          exact h.mono rfl List.length_set (fun _ hj => (hj.of_setExit hinst).1)
        · cases hs
  | connected =>
      dsimp only at hs
      split at hs
      · cases hs
        exact h.mono rfl rfl (fun _ hj => hj)
      · cases hs
  | disconnected =>
      dsimp only at hs
      split at hs
      · cases hs
        exact h.mono rfl rfl (fun _ hj => hj)
      · cases hs

end General

/-- **A `General` change takes effect**, in a whole run of the loop, exactly
when its configuration says what to run as and, unless it is the first, it
finds a receiver of the shutdown signal and an instance that ends with `Ok`. -/
theorem general_takes_effect_iff (args : Cli) (as : List Action) :
    Runs.Meets step TakesEffect (init args) as ↔
      Runs.Meets step RestartsCleanly (init args) as := by
  apply Runs.meets_congr (I := Tracks)
  · exact fun s a h => takesEffect_iff h a
  · exact fun s a t h _ hs => h.step hs
  · refine ⟨?_, ?_⟩
    · intro i tx hlast
      cases hlast
    · rintro j ⟨inst, hinst, -⟩
      cases hinst

/-- A server that listens at `bind_addr`. -/
def serverConfig (bindAddr : String) : Config where
  server := some
    { bindAddr := bindAddr
      users := ∅
      services := ∅
      transport := ⟨.tcp, ⟨true, 20, 8, none⟩, none, none⟩
      heartbeatInterval := 30 }
  client := none

/-- The first bind fails; the corrected configuration ends `run`. -/
theorem failed_bind_ends_run :
    ¬ Runs.Meets step TakesEffect (init ⟨true, false⟩)
      [.recv (.general (serverConfig "10.0.0.9:2333")) .ok,
        .exits 0 (.error "Failed to listen at `server.bind_addr`"),
        .recv (.general (serverConfig "0.0.0.0:2333")) .ok] := by
  rintro ⟨-, h⟩
  obtain ⟨-, h⟩ := h _ rfl
  obtain ⟨h, -⟩ := h _ rfl
  obtain ⟨hresult, -⟩ := h _ _ _ rfl rfl
  cases hresult

end Supervisor

end Rathole
