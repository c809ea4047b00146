import Rathole.Config

/-!
# The difference of two configurations (`config_watcher.rs`)

`calculate_events` compares the running configuration with a new one. Server
and client share the algorithm through the trait `InstanceConfig`: if nothing
but services differs, the services that are gone are deleted and those that
are new or changed are added, by name.
-/

namespace Rathole

inductive ServerServiceChange where
  | add (cfg : ServerServiceConfig)
  | delete (name : String)
deriving DecidableEq

inductive ClientServiceChange where
  | add (cfg : ClientServiceConfig)
  | delete (name : String)
deriving DecidableEq

inductive ConfigChange where
  /-- Trigger a full restart. -/
  | general (config : Config)
  | serverChange (change : ServerServiceChange)
  | clientChange (change : ClientServiceChange)

class InstanceConfig (T : Type) where
  ServiceConfig : Type
  decEq : DecidableEq ServiceConfig
  equalWithoutService : T → T → Bool
  serviceDeleteChange : String → ConfigChange
  serviceAddChange : ServiceConfig → ConfigChange
  getServices : T → HashMap String ServiceConfig

instance : InstanceConfig ServerConfig where
  ServiceConfig := ServerServiceConfig
  decEq := inferInstance
  equalWithoutService left right :=
    decide (left.bindAddr = right.bindAddr) &&
      HashMap.eq left.users right.users &&
      decide (left.transport = right.transport) &&
      decide (left.heartbeatInterval = right.heartbeatInterval)
  serviceDeleteChange s := .serverChange (.delete s)
  serviceAddChange cfg := .serverChange (.add cfg)
  getServices cfg := cfg.services

instance : InstanceConfig ClientConfig where
  ServiceConfig := ClientServiceConfig
  decEq := inferInstance
  equalWithoutService left right :=
    decide (left.remoteAddr = right.remoteAddr) &&
      decide (left.user = right.user) && decide (left.token = right.token) &&
      decide (left.preferIpv6 = right.preferIpv6) &&
      decide (left.transport = right.transport) &&
      decide (left.heartbeatTimeout = right.heartbeatTimeout) &&
      decide (left.retryInterval = right.retryInterval)
  serviceDeleteChange s := .clientChange (.delete s)
  serviceAddChange cfg := .clientChange (.add cfg)
  getServices cfg := cfg.services

section Instance

variable {T : Type} [InstanceConfig T]

instance : DecidableEq (InstanceConfig.ServiceConfig T) := InstanceConfig.decEq

/-- The derived `==`. -/
def instanceEq (left right : T) : Bool :=
  InstanceConfig.equalWithoutService left right &&
    HashMap.eq (InstanceConfig.getServices left)
      (InstanceConfig.getServices right)

def optionEq : Option T → Option T → Bool
  | some left, some right => instanceEq left right
  | none, none => true
  | _, _ => false

/-- The names of the deletions, in the iteration order of the old services. -/
def deletions (old new : HashMap String (InstanceConfig.ServiceConfig T)) :
    List String :=
  old.keys.filter (fun name => (new.lookup name).isNone)

/-- The services of the additions: those that are new or have changed. -/
def addition (old new : HashMap String (InstanceConfig.ServiceConfig T)) :
    List ((_ : String) × InstanceConfig.ServiceConfig T) :=
  new.entries.filter (fun e => decide (old.lookup e.1 ≠ some e.2))

/-- `none` indicates that a `General` change is needed. -/
def calculateInstanceConfigEvents (old new : T) : Option (List ConfigChange) :=
  if InstanceConfig.equalWithoutService old new then
    let old := InstanceConfig.getServices old
    let new := InstanceConfig.getServices new
    some ((deletions old new).map (InstanceConfig.serviceDeleteChange T) ++
      (addition old new).map
        (fun e => InstanceConfig.serviceAddChange (T := T) e.2))
  else none

theorem mem_deletions {old new : HashMap String (InstanceConfig.ServiceConfig T)}
    {name : String} :
    name ∈ deletions old new ↔
      (∃ c, old.lookup name = some c) ∧ new.lookup name = none := by
  unfold deletions
  rw [List.mem_filter, Option.isNone_iff_eq_none]
  show name ∈ old ∧ _ ↔ _
  rw [← AList.lookup_isSome, Option.isSome_iff_exists]

theorem mem_addition {old new : HashMap String (InstanceConfig.ServiceConfig T)}
    {e : (_ : String) × InstanceConfig.ServiceConfig T} :
    e ∈ addition old new ↔
      new.lookup e.1 = some e.2 ∧ old.lookup e.1 ≠ some e.2 := by
  unfold addition
  rw [List.mem_filter, HashMap.mem_entries_iff, decide_eq_true_eq]

/-- Equal services produce no event. -/
theorem deletions_addition_of_sameMap
    {old new : HashMap String (InstanceConfig.ServiceConfig T)}
    (h : HashMap.SameMap old new) :
    deletions old new = [] ∧ addition old new = [] := by
  constructor
  · rw [List.eq_nil_iff_forall_not_mem]
    intro name hname
    obtain ⟨⟨c, hc⟩, hnone⟩ := mem_deletions.mp hname
    rw [← h name, hc] at hnone
    cases hnone
  · rw [List.eq_nil_iff_forall_not_mem]
    intro e he
    obtain ⟨hnew, hold⟩ := mem_addition.mp he
    exact hold ((h e.1).trans hnew)

/-- The events of one of the two blocks: none if it has not changed. -/
def blockEvents : Option T → Option T → Option (List ConfigChange)
  | some old, some new =>
      if instanceEq old new then some []
      else calculateInstanceConfigEvents old new
  | _, _ => some []

/-- The deletions, then the additions, as events. -/
def serviceEvents (old new : T) : List ConfigChange :=
  (deletions (InstanceConfig.getServices old)
      (InstanceConfig.getServices new)).map
        (InstanceConfig.serviceDeleteChange T) ++
    (addition (InstanceConfig.getServices old)
      (InstanceConfig.getServices new)).map
        (fun e => InstanceConfig.serviceAddChange (T := T) e.2)

theorem serviceEvents_eq_nil_iff {old new : T} :
    serviceEvents old new = [] ↔
      HashMap.SameMap (InstanceConfig.getServices old)
        (InstanceConfig.getServices new) := by
  unfold serviceEvents
  rw [List.append_eq_nil_iff, List.map_eq_nil_iff, List.map_eq_nil_iff]
  constructor
  · rintro ⟨hdel, hadd⟩ name
    rw [List.eq_nil_iff_forall_not_mem] at hdel hadd
    cases hnew : (InstanceConfig.getServices new).lookup name with
    | none =>
        by_contra hold
        obtain ⟨c, hc⟩ := Option.ne_none_iff_exists'.mp hold
        exact hdel name (mem_deletions.mpr ⟨⟨c, hc⟩, hnew⟩)
    | some c =>
        by_contra hold
        exact hadd ⟨name, c⟩ (mem_addition.mpr ⟨hnew, hold⟩)
  · exact deletions_addition_of_sameMap

/-- The blocks differ in services only, or both are missing. -/
def SameButServices (old new : Option T) : Prop :=
  Option.Rel (fun o n => InstanceConfig.equalWithoutService o n = true) old new

theorem sameButServices_some {old new : T} :
    SameButServices (some old) (some new) ↔
      InstanceConfig.equalWithoutService old new = true := by
  unfold SameButServices
  rw [Option.rel_some_some]

theorem blockEvents_of_sameButServices {old new : T}
    (h : InstanceConfig.equalWithoutService old new = true) :
    blockEvents (some old) (some new) = some (serviceEvents old new) := by
  unfold blockEvents
  dsimp only
  split
  · rename_i heq
    unfold instanceEq at heq
    rw [Bool.and_eq_true] at heq
    rw [serviceEvents_eq_nil_iff.mpr (HashMap.eq_iff.mp heq.2)]
  · exact if_pos h

theorem blockEvents_eq_none_iff {old new : Option T}
    (hsome : old.isSome = new.isSome) :
    blockEvents old new = none ↔ ¬ SameButServices old new := by
  cases old with
  | none =>
      cases new with
      | none => simp [blockEvents, SameButServices]
      | some n => cases hsome
  | some o =>
      cases new with
      | none => cases hsome
      | some n =>
          rw [sameButServices_some]
          by_cases h : InstanceConfig.equalWithoutService o n = true
          · rw [blockEvents_of_sameButServices h]
            simp [h]
          · simp [blockEvents, instanceEq, calculateInstanceConfigEvents, h]

theorem blockEvents_of_optionEq {old new : Option T}
    (h : optionEq old new = true) : blockEvents old new = some [] := by
  unfold blockEvents
  split
  · exact if_pos h
  · rfl

/-- A block that has changed has events. -/
theorem optionEq_of_blockEvents_nil {old new : Option T}
    (hsame : SameButServices old new)
    (h : (blockEvents old new).getD [] = []) : optionEq old new = true := by
  cases hsame with
  | none => rfl
  | some hsame =>
      rw [blockEvents_of_sameButServices hsame, Option.getD_some,
        serviceEvents_eq_nil_iff] at h
      unfold optionEq instanceEq
      dsimp only
      rw [hsame, HashMap.eq_iff.mpr h]
      rfl

theorem isSome_of_sameButServices {old new : Option T}
    (h : SameButServices old new) : old.isSome = new.isSome := by
  cases h <;> rfl

theorem sameButServices_of_optionEq {old new : Option T}
    (h : optionEq old new = true) : SameButServices old new := by
  unfold optionEq at h
  split at h
  · unfold instanceEq at h
    rw [Bool.and_eq_true] at h
    exact Option.Rel.some h.1
  · exact Option.Rel.none
  · cases h

end Instance

def calculateEvents (old new : Config) : Option (List ConfigChange) :=
  if optionEq old.server new.server && optionEq old.client new.client then none
  else if old.server.isSome ≠ new.server.isSome ∨
      old.client.isSome ≠ new.client.isSome then
    some [.general new]
  else
    match blockEvents old.server new.server with
    | none => some [.general new]
    | some serverEvents =>
        match blockEvents old.client new.client with
        | none => some [.general new]
        | some clientEvents => some (serverEvents ++ clientEvents)

/-! ## What the events are -/

/-- Equal in every field, and the maps agree on every key. -/
structure ServerConfig.Same (a b : ServerConfig) : Prop where
  bindAddr : a.bindAddr = b.bindAddr
  users : HashMap.SameMap a.users b.users
  services : HashMap.SameMap a.services b.services
  transport : a.transport = b.transport
  heartbeatInterval : a.heartbeatInterval = b.heartbeatInterval

structure ClientConfig.Same (a b : ClientConfig) : Prop where
  remoteAddr : a.remoteAddr = b.remoteAddr
  user : a.user = b.user
  token : a.token = b.token
  preferIpv6 : a.preferIpv6 = b.preferIpv6
  services : HashMap.SameMap a.services b.services
  transport : a.transport = b.transport
  heartbeatTimeout : a.heartbeatTimeout = b.heartbeatTimeout
  retryInterval : a.retryInterval = b.retryInterval

structure Config.Same (a b : Config) : Prop where
  server : Option.Rel ServerConfig.Same a.server b.server
  client : Option.Rel ClientConfig.Same a.client b.client

/-- Nothing but services differs, in either block. -/
structure Config.OnlyServices (old new : Config) : Prop where
  server : SameButServices old.server new.server
  client : SameButServices old.client new.client

theorem instanceEq_server_iff {a b : ServerConfig} :
    instanceEq a b = true ↔ a.Same b := by
  simp only [instanceEq, InstanceConfig.equalWithoutService,
    InstanceConfig.getServices, Bool.and_eq_true, decide_eq_true_eq,
    HashMap.eq_iff]
  constructor
  · rintro ⟨⟨⟨⟨hbind, husers⟩, htransport⟩, hinterval⟩, hservices⟩
    exact ⟨hbind, husers, hservices, htransport, hinterval⟩
  · rintro ⟨hbind, husers, hservices, htransport, hinterval⟩
    exact ⟨⟨⟨⟨hbind, husers⟩, htransport⟩, hinterval⟩, hservices⟩

theorem instanceEq_client_iff {a b : ClientConfig} :
    instanceEq a b = true ↔ a.Same b := by
  simp only [instanceEq, InstanceConfig.equalWithoutService,
    InstanceConfig.getServices, Bool.and_eq_true, decide_eq_true_eq,
    HashMap.eq_iff]
  constructor
  · rintro ⟨⟨⟨⟨⟨⟨⟨haddr, huser⟩, htoken⟩, hipv6⟩, htransport⟩, hbeat⟩, hretry⟩,
      hservices⟩
    exact ⟨haddr, huser, htoken, hipv6, hservices, htransport, hbeat, hretry⟩
  · rintro ⟨haddr, huser, htoken, hipv6, hservices, htransport, hbeat, hretry⟩
    exact ⟨⟨⟨⟨⟨⟨⟨haddr, huser⟩, htoken⟩, hipv6⟩, htransport⟩, hbeat⟩, hretry⟩,
      hservices⟩

theorem optionEq_iff {T : Type} [InstanceConfig T] {R : T → T → Prop}
    (h : ∀ a b : T, instanceEq a b = true ↔ R a b) {a b : Option T} :
    optionEq a b = true ↔ Option.Rel R a b := by
  cases a with
  | none => cases b <;> simp [optionEq]
  | some a => cases b <;> simp [optionEq, h]

theorem calculateEvents_eq_none_iff {old new : Config} :
    calculateEvents old new = none ↔ old.Same new := by
  have hsame : old.Same new ↔ optionEq old.server new.server = true ∧
      optionEq old.client new.client = true := by
    rw [optionEq_iff (fun _ _ => instanceEq_server_iff),
      optionEq_iff (fun _ _ => instanceEq_client_iff)]
    exact ⟨fun h => ⟨h.server, h.client⟩, fun h => ⟨h.1, h.2⟩⟩
  rw [hsame, ← Bool.and_eq_true]
  unfold calculateEvents
  split
  · rename_i h
    simp [h]
  · rename_i h
    rw [iff_false_right h]
    split
    · simp
    · split
      · simp
      · split <;> simp

/-- The events of configurations that differ in nothing but services. -/
theorem calculateEvents_of_onlyServices {old new : Config}
    (h : old.OnlyServices new) :
    (calculateEvents old new).getD [] =
      (blockEvents old.server new.server).getD [] ++
        (blockEvents old.client new.client).getD [] := by
  have hserver := isSome_of_sameButServices h.server
  have hclient := isSome_of_sameButServices h.client
  unfold calculateEvents
  split
  · rename_i heq
    rw [Bool.and_eq_true] at heq
    rw [blockEvents_of_optionEq heq.1, blockEvents_of_optionEq heq.2]
    rfl
  · rw [if_neg (by simp [hserver, hclient])]
    split
    · rename_i hnone
      exact absurd h.server ((blockEvents_eq_none_iff hserver).mp hnone)
    · rename_i serverEvents hs
      split
      · rename_i hnone
        exact absurd h.client ((blockEvents_eq_none_iff hclient).mp hnone)
      · rename_i clientEvents hc
        rw [hs, hc]
        rfl

/-- Any other difference is one `General` change. -/
theorem calculateEvents_general {old new : Config}
    (h : ¬ old.OnlyServices new) :
    calculateEvents old new = some [.general new] := by
  unfold calculateEvents
  split
  · rename_i heq
    rw [Bool.and_eq_true] at heq
    exact absurd ⟨sameButServices_of_optionEq heq.1,
      sameButServices_of_optionEq heq.2⟩ h
  · split
    · rfl
    · rename_i hsome
      rw [not_or, not_ne_iff, not_ne_iff] at hsome
      split
      · rfl
      · rename_i serverEvents hs
        split
        · rfl
        · rename_i clientEvents hc
          have hserver : SameButServices old.server new.server := by
            by_contra hne
            rw [(blockEvents_eq_none_iff hsome.1).mpr hne] at hs
            cases hs
          have hclient : SameButServices old.client new.client := by
            by_contra hne
            rw [(blockEvents_eq_none_iff hsome.2).mpr hne] at hc
            cases hc
          exact absurd ⟨hserver, hclient⟩ h

theorem calculateEvents_ne_nil (old new : Config) :
    calculateEvents old new ≠ some [] := by
  intro hnil
  by_cases h : old.OnlyServices new
  · have happend := calculateEvents_of_onlyServices h
    rw [hnil] at happend
    obtain ⟨hs, hc⟩ := List.append_eq_nil_iff.mp happend.symm
    -- no block has changed, so the configurations are equal
    have hnone : calculateEvents old new = none := by
      unfold calculateEvents
      rw [if_pos]
      rw [Bool.and_eq_true]
      exact ⟨optionEq_of_blockEvents_nil h.server hs,
        optionEq_of_blockEvents_nil h.client hc⟩
    rw [hnone] at hnil
    cases hnil
  · rw [calculateEvents_general h] at hnil
    cases hnil

/-- The changes of server configurations that differ only in services. -/
theorem calculateEvents_of_servicesOnly {old new : Config} {o n : ServerConfig}
    (ho : old.server = some o) (hn : new.server = some n)
    (hserver : InstanceConfig.equalWithoutService o n = true)
    (hclient : optionEq old.client new.client = true) :
    (calculateEvents old new).getD [] =
      (deletions (T := ServerConfig) o.services n.services).map
          (fun s => .serverChange (.delete s)) ++
        (addition (T := ServerConfig) o.services n.services).map
          (fun e => .serverChange (.add e.2)) := by
  have honly : old.OnlyServices new := by
    refine ⟨?_, sameButServices_of_optionEq hclient⟩
    rw [ho, hn]
    exact Option.Rel.some hserver
  rw [calculateEvents_of_onlyServices honly, blockEvents_of_optionEq hclient,
    ho, hn, blockEvents_of_sameButServices hserver, Option.getD_some,
    Option.getD_some, List.append_nil]
  rfl

end Rathole
