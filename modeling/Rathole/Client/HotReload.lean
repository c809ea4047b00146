import Rathole.ConfigWatcher
import Rathole.Lib.Runs

/-!
# Hot reload of the client's services

The client keeps a handle for every service, by name. A handle owns the task
that runs the service's control channel and ends it when it is dropped. After
every reload the client runs what the new configuration lists and nothing
else: every handle it has ever created is under a name or has been dropped.
-/

namespace Rathole

open Runs

/-- A control channel's handle, with what its task was started with. The
number tells handles apart. -/
structure ControlChannelHandle where
  id : Nat
  service : ClientServiceConfig
  remoteAddr : String
  heartbeatTimeout : UInt64
deriving DecidableEq

/-- `ControlChannelHandle::new`. `none` is a panic: the retry interval is
unwrapped. -/
def ControlChannelHandle.new (id : Nat) (service : ClientServiceConfig)
    (remoteAddr : String) (heartbeatTimeout : UInt64) :
    Option ControlChannelHandle :=
  match service.retryInterval with
  | none => none
  | some _ =>
      some { id := id
             service := service
             remoteAddr := remoteAddr
             heartbeatTimeout := heartbeatTimeout }

/-- The state of a client, with the number of handles it has created and the
numbers of those it has dropped. -/
structure Client where
  config : ClientConfig
  serviceHandles : HashMap String ControlChannelHandle
  created : Nat
  dropped : List Nat

namespace Client

def fromConfig (config : ClientConfig) : Client where
  config := config
  serviceHandles := ∅
  created := 0
  dropped := []

/-- Insert a new handle; the handle it replaces is dropped. -/
def insertHandle (s : Client) (name : String) (handle : ControlChannelHandle) :
    Client :=
  { s with
    serviceHandles := AList.insert name handle s.serviceHandles
    created := s.created + 1
    dropped := s.dropped ++
      ((s.serviceHandles.lookup name).map ControlChannelHandle.id).toList }

/-- Remove a handle, which is dropped. -/
def removeHandle (s : Client) (name : String) : Client :=
  { s with
    serviceHandles := AList.erase name s.serviceHandles
    dropped := s.dropped ++
      ((s.serviceHandles.lookup name).map ControlChannelHandle.id).toList }

/-- Create a control channel for a service and keep its handle. -/
def startService (s : Client) (name : String) (service : ClientServiceConfig) :
    Option Client :=
  (ControlChannelHandle.new s.created service s.config.remoteAddr
    s.config.heartbeatTimeout).map (s.insertHandle name)

/-- The loop with which `run` begins. -/
def startServices (config : ClientConfig) : Option Client :=
  config.services.entries.foldlM (fun s e => s.startService e.1 e.2)
    (fromConfig config)

def handleHotReload (s : Client) : ConfigChange → Option Client
  | .clientChange (.add cfg) => s.startService cfg.name cfg
  | .clientChange (.delete name) => some (s.removeHandle name)
  | _ => some s   -- ignored since running as a client

def applyEvents (s : Client) (events : List ConfigChange) : Option Client :=
  events.foldlM handleHotReload s

/-- What runs under each name. -/
def running (s : Client) : String → Option ClientServiceConfig :=
  fun name => (s.serviceHandles.lookup name).map ControlChannelHandle.service

/-! ## Handles are under a name or dropped -/

/-- Handles have the client's address and timeout, and every handle created
is under one name or dropped. -/
structure Sound (s : Client) : Prop where
  args : ∀ name h, s.serviceHandles.lookup name = some h →
    h.remoteAddr = s.config.remoteAddr ∧
      h.heartbeatTimeout = s.config.heartbeatTimeout
  created : ∀ name h, s.serviceHandles.lookup name = some h → h.id < s.created
  distinct : ∀ name name' h h', s.serviceHandles.lookup name = some h →
    s.serviceHandles.lookup name' = some h' → h.id = h'.id → name = name'
  dropped : ∀ id, id ∈ s.dropped ↔ id < s.created ∧
    ∀ name h, s.serviceHandles.lookup name = some h → h.id ≠ id

theorem sound_fromConfig (config : ClientConfig) : (fromConfig config).Sound where
  args name h hh := by cases hh
  created name h hh := by cases hh
  distinct name name' h h' hh := by cases hh
  dropped id := by simp [fromConfig]

theorem Sound.removeHandle {s : Client} (hs : s.Sound) (name : String) :
    (s.removeHandle name).Sound := by
  -- what is left was there before, under another name
  have hold : ∀ n h, (AList.erase name s.serviceHandles).lookup n = some h ↔
      n ≠ name ∧ s.serviceHandles.lookup n = some h := by
    intro n h
    by_cases hn : n = name
    · subst hn
      simp
    · rw [AList.lookup_erase_ne hn]
      simp [hn]
  refine ⟨?_, ?_, ?_, ?_⟩
  · intro n h hh
    exact hs.args n h ((hold n h).mp hh).2
  · intro n h hh
    exact hs.created n h ((hold n h).mp hh).2
  · intro n n' h h' hh hh'
    exact hs.distinct n n' h h' ((hold n h).mp hh).2 ((hold n' h').mp hh').2
  · intro id
    show id ∈ s.dropped ++ _ ↔ id < s.created ∧
      ∀ n h, (AList.erase name s.serviceHandles).lookup n = some h → h.id ≠ id
    rw [List.mem_append, Option.mem_toList, Option.map_eq_some_iff, hs.dropped]
    constructor
    · rintro (⟨hlt, hnone⟩ | ⟨h, hh, rfl⟩)
      · exact ⟨hlt, fun n h hh => hnone n h ((hold n h).mp hh).2⟩
      · refine ⟨hs.created name h hh, ?_⟩
        intro n h' hh' heq
        obtain ⟨hne, hh'⟩ := (hold n h').mp hh'
        exact hne (hs.distinct n name h' h hh' hh heq)
    · rintro ⟨hlt, hnone⟩
      by_cases hname : ∃ h, s.serviceHandles.lookup name = some h ∧ h.id = id
      · exact Or.inr hname
      · refine Or.inl ⟨hlt, ?_⟩
        intro n h hh heq
        by_cases hn : n = name
        · subst hn
          exact hname ⟨h, hh, heq⟩
        · exact hnone n h ((hold n h).mpr ⟨hn, hh⟩) heq

/-- Inserting is removing, and then putting a handle with a new number where
there is none. -/
theorem Sound.insertHandle {s : Client} (hs : s.Sound) (name : String)
    {handle : ControlChannelHandle} (hid : handle.id = s.created)
    (hargs : handle.remoteAddr = s.config.remoteAddr ∧
      handle.heartbeatTimeout = s.config.heartbeatTimeout) :
    (s.insertHandle name handle).Sound := by
  have hremoved := hs.removeHandle name
  have hlookup : ∀ n h,
      (AList.insert name handle s.serviceHandles).lookup n = some h ↔
        (n = name ∧ handle = h) ∨
          (s.removeHandle name).serviceHandles.lookup n = some h := by
    intro n h
    show _ ↔ _ ∨ (AList.erase name s.serviceHandles).lookup n = some h
    by_cases hn : n = name
    · subst hn
      simp
    · rw [AList.lookup_insert_ne hn, AList.lookup_erase_ne hn]
      simp [hn]
  refine ⟨?_, ?_, ?_, ?_⟩
  · intro n h hh
    rcases (hlookup n h).mp hh with ⟨-, rfl⟩ | hh
    · exact hargs
    · exact hremoved.args n h hh
  · intro n h hh
    rcases (hlookup n h).mp hh with ⟨-, rfl⟩ | hh
    · exact Nat.lt_succ_of_le (Nat.le_of_eq hid)
    · exact Nat.lt_succ_of_lt (hremoved.created n h hh)
  · intro n n' h h' hh hh' heq
    rcases (hlookup n h).mp hh with ⟨rfl, rfl⟩ | hh
    · rcases (hlookup n' h').mp hh' with ⟨rfl, -⟩ | hh'
      · rfl
      · have hlt : h'.id < s.created := hremoved.created n' h' hh'
        omega
    · rcases (hlookup n' h').mp hh' with ⟨rfl, rfl⟩ | hh'
      · have hlt : h.id < s.created := hremoved.created n h hh
        omega
      · exact hremoved.distinct n n' h h' hh hh' heq
  · intro id
    show id ∈ (s.removeHandle name).dropped ↔ id < s.created + 1 ∧ ∀ n h,
      (AList.insert name handle s.serviceHandles).lookup n = some h → h.id ≠ id
    rw [hremoved.dropped]
    constructor
    · rintro ⟨hlt, hnone⟩
      have hlt' : id < s.created := hlt
      refine ⟨by omega, ?_⟩
      intro n h hh
      rcases (hlookup n h).mp hh with ⟨-, rfl⟩ | hh
      · omega
      · exact hnone n h hh
    · rintro ⟨hlt, hnone⟩
      have hne := hnone name handle ((hlookup name handle).mpr (Or.inl ⟨rfl, rfl⟩))
      refine ⟨show id < s.created by omega, ?_⟩
      intro n h hh
      exact hnone n h ((hlookup n h).mpr (Or.inr hh))

/-! ## A change is a point update of what runs -/

end Client

/-- The name a change is about, and what runs there after it. -/
def ClientServiceChange.update :
    ClientServiceChange → String × Option ClientServiceConfig
  | .add cfg => (cfg.name, some cfg)
  | .delete name => (name, none)

/-- A service to be added has a retry interval. -/
def ClientServiceChange.Startable : ClientServiceChange → Prop
  | .add cfg => cfg.retryInterval.isSome
  | .delete _ => True

namespace Client

theorem startService_eq {s : Client} (hs : s.Sound) {name : String}
    {service : ClientServiceConfig} (hretry : service.retryInterval.isSome) :
    ∃ s', s.startService name service = some s' ∧ s'.Sound ∧
      s'.config = s.config ∧
      s'.running = Function.update s.running name (some service) := by
  obtain ⟨interval, hinterval⟩ := Option.isSome_iff_exists.mp hretry
  refine ⟨s.insertHandle name ⟨s.created, service, s.config.remoteAddr,
    s.config.heartbeatTimeout⟩, ?_, hs.insertHandle name rfl ⟨rfl, rfl⟩, rfl, ?_⟩
  · simp [startService, ControlChannelHandle.new, hinterval]
  · ext n : 1
    by_cases hn : n = name
    · subst hn
      simp [running, insertHandle]
    · simp [running, insertHandle, hn]

theorem handleHotReload_eq {s : Client} (hs : s.Sound)
    {change : ClientServiceChange} (hstart : change.Startable) :
    ∃ s', s.handleHotReload (.clientChange change) = some s' ∧ s'.Sound ∧
      s'.config = s.config ∧
      s'.running = Function.update s.running change.update.1 change.update.2 := by
  cases change with
  | add cfg => exact startService_eq hs hstart
  | delete name =>
      refine ⟨s.removeHandle name, rfl, hs.removeHandle name, rfl, ?_⟩
      ext n : 1
      by_cases hn : n = name
      · subst hn
        simp [running, removeHandle, ClientServiceChange.update]
      · simp [running, removeHandle, ClientServiceChange.update, hn]

theorem applyEvents_eq {changes : List ClientServiceChange} {s : Client}
    (hs : s.Sound) (hstart : ∀ c ∈ changes, c.Startable) :
    ∃ s', s.applyEvents (changes.map .clientChange) = some s' ∧ s'.Sound ∧
      s'.config = s.config ∧
      s'.running = (changes.map ClientServiceChange.update).foldl
        (fun f u => Function.update f u.1 u.2) s.running := by
  induction changes generalizing s with
  | nil => exact ⟨s, rfl, hs, rfl, rfl⟩
  | cons c changes ih =>
      rw [List.forall_mem_cons] at hstart
      obtain ⟨s₁, hstep, hs₁, hconfig₁, hrun₁⟩ := handleHotReload_eq hs hstart.1
      obtain ⟨s₂, hsteps, hs₂, hconfig₂, hrun₂⟩ := ih hs₁ hstart.2
      refine ⟨s₂, ?_, hs₂, hconfig₂.trans hconfig₁, ?_⟩
      · unfold applyEvents
        rw [List.map_cons, List.foldlM_cons, hstep]
        exact hsteps
      · rw [hrun₂, hrun₁]
        rfl

/-- Events that are not for the client change nothing. -/
theorem applyEvents_ignored {events : List ConfigChange} (s : Client)
    (h : ∀ e ∈ events, ∀ c, e ≠ .clientChange c) :
    s.applyEvents events = some s := by
  induction events with
  | nil => rfl
  | cons e events ih =>
      rw [List.forall_mem_cons] at h
      have hstep : s.handleHotReload e = some s := by
        cases e with
        | general config => rfl
        | serverChange change => rfl
        | clientChange change => exact absurd rfl (h.1 change)
      unfold applyEvents
      rw [List.foldlM_cons, hstep]
      exact ih h.2

theorem applyEvents_append (s : Client) (events events' : List ConfigChange) :
    s.applyEvents (events ++ events') =
      (s.applyEvents events).bind (fun s' => s'.applyEvents events') :=
  List.foldlM_append

/-- Changes that are right for their names, one for every name at which what
runs differs from `target`, bring the client to `target`. -/
theorem applyEvents_converges {changes : List ClientServiceChange} {s : Client}
    (hs : s.Sound) (hstart : ∀ c ∈ changes, c.Startable)
    {target : String → Option ClientServiceConfig}
    (hright : ∀ c ∈ changes, c.update.2 = target c.update.1)
    (hcover : ∀ name, s.running name ≠ target name →
      ∃ c ∈ changes, c.update.1 = name) :
    ∃ s', s.applyEvents (changes.map .clientChange) = some s' ∧ s'.Sound ∧
      s'.config = s.config ∧ s'.running = target := by
  obtain ⟨s', hrun, hs', hconfig, hrunning⟩ := applyEvents_eq hs hstart
  refine ⟨s', hrun, hs', hconfig, ?_⟩
  rw [hrunning]
  apply HashMap.foldl_update_eq
  · intro u hu
    obtain ⟨c, hc, rfl⟩ := List.mem_map.mp hu
    exact hright c hc
  · intro name hne
    obtain ⟨c, hc, rfl⟩ := hcover name hne
    rw [List.map_map]
    exact List.mem_map_of_mem hc

/-! ## Starting and reloading -/

/-- The services of a checked client block start, under their own names. -/
structure Startable (config : ClientConfig) : Prop where
  named : ∀ name c, config.services.lookup name = some c → c.name = name
  retry : ∀ name c, config.services.lookup name = some c →
    c.retryInterval.isSome

theorem startable_of_fromStr {parsed : Except String Config} {config : Config}
    (h : Config.fromStr parsed = .ok config) {client : ClientConfig}
    (hclient : config.client = some client) : Startable client := by
  obtain ⟨block, hblock⟩ := Config.client_of_fromStr h hclient
  exact ⟨fun _ _ hc => (service_of_validateClientConfig hblock hc).1,
    fun _ _ hc => (service_of_validateClientConfig hblock hc).2⟩

/-- `run` begins by adding every service. -/
theorem startServices_eq {config : ClientConfig} (h : Startable config) :
    startServices config = (fromConfig config).applyEvents
      ((config.services.entries.map
        (fun e => ClientServiceChange.add e.2)).map .clientChange) := by
  have hnamed : ∀ e ∈ config.services.entries, e.2.name = e.1 :=
    fun e he => h.named e.1 e.2 (HashMap.mem_entries_iff.mp he)
  unfold startServices
  generalize fromConfig config = s
  generalize config.services.entries = entries at hnamed
  induction entries generalizing s with
  | nil => rfl
  | cons e entries ih =>
      rw [List.forall_mem_cons] at hnamed
      unfold applyEvents
      rw [List.map_cons, List.map_cons, List.foldlM_cons, List.foldlM_cons,
        handleHotReload, hnamed.1]
      congr 1
      ext s' : 1
      exact ih s' hnamed.2

theorem startServices_converges {config : ClientConfig} (h : Startable config) :
    ∃ s, startServices config = some s ∧ s.Sound ∧ s.config = config ∧
      s.running = fun name => config.services.lookup name := by
  rw [startServices_eq h]
  apply applyEvents_converges (sound_fromConfig config)
  · intro c hc
    obtain ⟨e, he, rfl⟩ := List.mem_map.mp hc
    exact h.retry e.1 e.2 (HashMap.mem_entries_iff.mp he)
  · intro c hc
    obtain ⟨e, he, rfl⟩ := List.mem_map.mp hc
    have hlookup := HashMap.mem_entries_iff.mp he
    show some e.2 = config.services.lookup e.2.name
    rw [h.named e.1 e.2 hlookup, hlookup]
  · intro name hne
    obtain ⟨c, hc⟩ := Option.ne_none_iff_exists'.mp hne.symm
    refine ⟨.add c, ?_, h.named name c hc⟩
    exact List.mem_map.mpr ⟨⟨name, c⟩, HashMap.mem_entries_iff.mpr hc, rfl⟩

/-- The changes of a reload, as the client gets them. -/
def serviceChanges (old new : ClientConfig) : List ClientServiceChange :=
  (deletions (T := ClientConfig) old.services new.services).map .delete ++
    (addition (T := ClientConfig) old.services new.services).map
      (fun e => .add e.2)

theorem serviceChanges_converges {s : Client} (hs : s.Sound)
    {old new : ClientConfig} (hnew : Startable new)
    (hold : s.running = fun name => old.services.lookup name) :
    ∃ s', s.applyEvents ((serviceChanges old new).map .clientChange) = some s' ∧
      s'.Sound ∧ s'.config = s.config ∧
      s'.running = fun name => new.services.lookup name := by
  have hmem : ∀ c ∈ serviceChanges old new,
      (∃ name, c = .delete name ∧ new.services.lookup name = none) ∨
        ∃ name cfg, c = .add cfg ∧ new.services.lookup name = some cfg := by
    intro c hc
    rcases List.mem_append.mp hc with hc | hc
    · obtain ⟨name, hname, rfl⟩ := List.mem_map.mp hc
      exact Or.inl ⟨name, rfl, (mem_deletions.mp hname).2⟩
    · obtain ⟨e, he, rfl⟩ := List.mem_map.mp hc
      exact Or.inr ⟨e.1, e.2, rfl, (mem_addition.mp he).1⟩
  apply applyEvents_converges hs
  · intro c hc
    rcases hmem c hc with ⟨name, rfl, -⟩ | ⟨name, cfg, rfl, hcfg⟩
    · trivial
    · exact hnew.retry name cfg hcfg
  · intro c hc
    rcases hmem c hc with ⟨name, rfl, hnone⟩ | ⟨name, cfg, rfl, hcfg⟩
    · exact hnone.symm
    · show some cfg = new.services.lookup cfg.name
      rw [hnew.named name cfg hcfg, hcfg]
  · intro name hne
    rw [hold] at hne
    cases hlookup : new.services.lookup name with
    | none =>
        rw [hlookup] at hne
        have hin : name ∈ deletions (T := ClientConfig) old.services
            new.services :=
          mem_deletions.mpr ⟨Option.ne_none_iff_exists'.mp hne, hlookup⟩
        exact ⟨.delete name,
          List.mem_append_left _ (List.mem_map_of_mem hin), rfl⟩
    | some cfg =>
        rw [hlookup] at hne
        have hin : (⟨name, cfg⟩ : (_ : String) × ClientServiceConfig) ∈
            addition (T := ClientConfig) old.services new.services :=
          mem_addition.mpr ⟨hlookup, hne⟩
        exact ⟨.add cfg, List.mem_append_right _
          (List.mem_map.mpr ⟨_, hin, rfl⟩), hnew.named name cfg hlookup⟩

theorem not_clientChange_of_server {old new : Option ServerConfig}
    (h : SameButServices old new) :
    ∀ e ∈ (blockEvents old new).getD [], ∀ c, e ≠ .clientChange c := by
  intro e he c
  cases h with
  | none => cases he
  | some hsame =>
      rw [blockEvents_of_sameButServices hsame] at he
      rcases List.mem_append.mp he with he | he
      · obtain ⟨name, -, rfl⟩ := List.mem_map.mp he
        exact nofun
      · obtain ⟨e, -, rfl⟩ := List.mem_map.mp he
        exact nofun

/-- The events of a reload that changes nothing but services: those of the
server block are ignored. -/
theorem applyEvents_reload {old new : Config} (h : old.OnlyServices new)
    {o n : ClientConfig} (ho : old.client = some o) (hn : new.client = some n)
    (s : Client) :
    s.applyEvents ((calculateEvents old new).getD []) =
      s.applyEvents ((serviceChanges o n).map .clientChange) := by
  have hclient : InstanceConfig.equalWithoutService o n = true := by
    have hc := h.client
    rw [ho, hn] at hc
    exact sameButServices_some.mp hc
  rw [calculateEvents_of_onlyServices h, applyEvents_append,
    applyEvents_ignored s (not_clientChange_of_server h.server),
    Option.bind_some, ho, hn, blockEvents_of_sameButServices hclient,
    Option.getD_some]
  unfold serviceEvents serviceChanges
  rw [List.map_append, List.map_map, List.map_map]
  rfl

end Client

/-! ## Runs of reloads -/

/-- The last configuration the watcher has read, and the client. -/
structure WatchedClient where
  old : Config
  client : Client

/-- A rescan of the file. One that is rejected is ignored; else the events go
to the client, which does not look at those that are not for it. -/
def rescan (s : WatchedClient) (parsed : Except String Config) :
    Option WatchedClient :=
  match Config.fromStr parsed with
  | .error _ => some s
  | .ok new =>
      (s.client.applyEvents ((calculateEvents s.old new).getD [])).map
        (fun client => { old := new, client := client })

/-- The configurations of the files that are accepted. -/
def acceptedConfigs (files : List (Except String Config)) : List Config :=
  files.filterMap (fun parsed => (Config.fromStr parsed).toOption)

/-- The client runs the services of `config` and no other, each with its own
configuration, and has dropped every other handle. -/
structure Client.Converged (s : Client) (config : ClientConfig) : Prop where
  names : ∀ name, (s.serviceHandles.lookup name).isSome ↔
    (config.services.lookup name).isSome
  handles : ∀ name h, s.serviceHandles.lookup name = some h →
    config.services.lookup name = some h.service ∧
      h.remoteAddr = config.remoteAddr ∧
      h.heartbeatTimeout = config.heartbeatTimeout
  dropped : ∀ id < s.created, id ∈ s.dropped ↔
    ∀ name h, s.serviceHandles.lookup name = some h → h.id ≠ id

/-- The client runs the services of the watcher's configuration. -/
structure WatchedClient.InSync (s : WatchedClient) (config : ClientConfig) :
    Prop where
  watched : s.old.client = some config
  sound : s.client.Sound
  remoteAddr : s.client.config.remoteAddr = config.remoteAddr
  heartbeatTimeout : s.client.config.heartbeatTimeout = config.heartbeatTimeout
  running : s.client.running = fun name => config.services.lookup name

theorem WatchedClient.InSync.converged {s : WatchedClient}
    {config : ClientConfig} (hs : s.InSync config) : s.client.Converged config := by
  have hrunning : ∀ name, (s.client.serviceHandles.lookup name).map
      ControlChannelHandle.service = config.services.lookup name :=
    fun name => congrFun hs.running name
  refine ⟨?_, ?_, ?_⟩
  · intro name
    rw [← hrunning name, Option.isSome_map]
  · intro name h hh
    obtain ⟨haddr, hbeat⟩ := hs.sound.args name h hh
    refine ⟨?_, haddr.trans hs.remoteAddr, hbeat.trans hs.heartbeatTimeout⟩
    rw [← hrunning name, hh, Option.map_some]
  · intro id hid
    rw [hs.sound.dropped id]
    exact and_iff_right hid

theorem WatchedClient.inSync_start {parsed : Except String Config} {c : Config}
    (h : Config.fromStr parsed = .ok c) {client : ClientConfig}
    (hclient : c.client = some client) :
    ∃ started, Client.startServices client = some started ∧
      InSync ⟨c, started⟩ client := by
  obtain ⟨started, hstart, hsound, hconfig, hrunning⟩ :=
    Client.startServices_converges (Client.startable_of_fromStr h hclient)
  refine ⟨started, hstart, hclient, hsound, ?_, ?_, hrunning⟩
  · rw [hconfig]
  · rw [hconfig]

/-- One reload that changes nothing but services. -/
theorem WatchedClient.InSync.rescan {s : WatchedClient} {o : ClientConfig}
    (hs : s.InSync o) {parsed : Except String Config} {new : Config}
    (hparsed : Config.fromStr parsed = .ok new)
    (honly : s.old.OnlyServices new) :
    ∃ t n, Rathole.rescan s parsed = some t ∧ t.old = new ∧ t.InSync n := by
  have hrel := honly.client
  rw [hs.watched] at hrel
  obtain ⟨n, hn⟩ : ∃ n, new.client = some n := by
    cases hnew : new.client with
    | none =>
        rw [hnew] at hrel
        exact absurd hrel Option.not_rel_some_none
    | some n => exact ⟨n, rfl⟩
  rw [hn] at hrel
  have hsame : InstanceConfig.equalWithoutService o n = true :=
    sameButServices_some.mp hrel
  obtain ⟨client, happly, hsound, hconfig, hrunning⟩ :=
    Client.serviceChanges_converges hs.sound
      (Client.startable_of_fromStr hparsed hn) hs.running
  refine ⟨⟨new, client⟩, n, ?_, rfl, hn, hsound, ?_, ?_, hrunning⟩
  · unfold Rathole.rescan
    rw [hparsed]
    dsimp only
    rw [Client.applyEvents_reload honly hs.watched hn, happly]
    rfl
  · rw [hconfig, hs.remoteAddr]
    simp only [InstanceConfig.equalWithoutService, Bool.and_eq_true,
      decide_eq_true_eq] at hsame
    tauto
  · rw [hconfig, hs.heartbeatTimeout]
    simp only [InstanceConfig.equalWithoutService, Bool.and_eq_true,
      decide_eq_true_eq] at hsame
    tauto

/-- A run of rescans: the accepted files one after the other. -/
theorem WatchedClient.InSync.rescans {files : List (Except String Config)}
    {s : WatchedClient} {o : ClientConfig} (hs : s.InSync o)
    (hchain : List.IsChain Config.OnlyServices
      (s.old :: acceptedConfigs files)) :
    ∃ t n, Run Rathole.rescan s files t ∧
      (s.old :: acceptedConfigs files).getLast? = some t.old ∧ t.InSync n := by
  induction files generalizing s o with
  | nil => exact ⟨s, o, run_nil.mpr rfl, rfl, hs⟩
  | cons parsed files ih =>
      cases hparsed : Config.fromStr parsed with
      | error e =>
          have hskip : acceptedConfigs (parsed :: files) =
              acceptedConfigs files := by
            simp [acceptedConfigs, hparsed, Except.toOption]
          rw [hskip] at hchain ⊢
          obtain ⟨t, n, hrun, hlast, ht⟩ := ih hs hchain
          refine ⟨t, n, run_cons.mpr ⟨s, ?_, hrun⟩, hlast, ht⟩
          simp [Rathole.rescan, hparsed]
      | ok new =>
          have hnext : acceptedConfigs (parsed :: files) =
              new :: acceptedConfigs files := by
            simp [acceptedConfigs, hparsed, Except.toOption]
          rw [hnext] at hchain ⊢
          obtain ⟨honly, hchain⟩ := List.isChain_cons_cons.mp hchain
          obtain ⟨s', n', hstep, rfl, hs'⟩ := hs.rescan hparsed honly
          obtain ⟨t, n, hrun, hlast, ht⟩ := ih hs' hchain
          refine ⟨t, n, run_cons.mpr ⟨s', hstep, hrun⟩, ?_, ht⟩
          rw [List.getLast?_cons_cons]
          exact hlast

/-- **Convergence of the client's hot reload**: along any sequence of files
whose accepted configurations differ in nothing but services, no reload
panics, and in the end the client runs the services of the last configuration
and has dropped every other handle. Equal configurations have no events,
unequal ones have at least one, and where more than services differ, in either
block, the only event is a `General` change. -/
theorem client_hot_reload_converges (file : Except String Config)
    (files : List (Except String Config)) (c : Config) (client : ClientConfig)
    (hfile : Config.fromStr file = .ok c) (hclient : c.client = some client)
    (hchain : List.IsChain Config.OnlyServices (c :: acceptedConfigs files)) :
    (∃ started s config, Client.startServices client = some started ∧
      Run rescan ⟨c, started⟩ files s ∧
      (c :: acceptedConfigs files).getLast? = some s.old ∧
      s.old.client = some config ∧ s.client.Converged config) ∧
    ∀ old new : Config,
      (calculateEvents old new = none ↔ old.Same new) ∧
      calculateEvents old new ≠ some [] ∧
      (¬ old.OnlyServices new →
        calculateEvents old new = some [.general new]) := by
  constructor
  · obtain ⟨started, hstart, hsync⟩ :=
      WatchedClient.inSync_start hfile hclient
    obtain ⟨s, config, hrun, hlast, hs⟩ := hsync.rescans hchain
    exact ⟨started, s, config, hstart, hrun, hlast, hs.watched, hs.converged⟩
  · intro old new
    exact ⟨calculateEvents_eq_none_iff, calculateEvents_ne_nil old new,
      calculateEvents_general⟩

/-! ## A client whose services change -/

/-- A service as it is parsed: the rest is left to the check. -/
def parsedService (localAddr : String) : ClientServiceConfig where
  serviceType := .tcp
  name := ""
  localAddr := localAddr
  preferIpv6 := false
  user := none
  token := none
  nodelay := none
  retryInterval := none
  remoteBindAddr := none
  proxyProtocol := none

def checkedService (name localAddr : String) : ClientServiceConfig :=
  { parsedService localAddr with
    name := name
    user := some "default"
    token := some "secret"
    retryInterval := some 1 }

def sampleClient (services : HashMap String ClientServiceConfig) :
    ClientConfig where
  remoteAddr := "example.com:2333"
  user := none
  token := some "secret"
  preferIpv6 := none
  services := services
  transport := ⟨.tcp, ⟨true, 20, 8, none⟩, none, some ⟨"rathole"⟩⟩
  heartbeatTimeout := 40
  retryInterval := 1

/-- A web and an ssh service. -/
def clientBefore (service : String → String → ClientServiceConfig) :
    ClientConfig :=
  sampleClient (AList.insert "web" (service "web" "127.0.0.1:80")
    (AList.singleton "ssh" (service "ssh" "127.0.0.1:22")))

/-- The ssh is gone, the web has moved. -/
def clientAfter (service : String → String → ClientServiceConfig) :
    ClientConfig :=
  sampleClient (AList.singleton "web" (service "web" "127.0.0.1:8080"))

/-- Between the two the file is rejected once. -/
theorem client_hot_reload_converges_moved :
    ∃ started s, Client.startServices (clientBefore checkedService) =
        some started ∧
      Run rescan ⟨⟨none, some (clientBefore checkedService)⟩, started⟩
        [.error "expected an equals", .ok ⟨none, some (clientAfter
          (fun _ => parsedService))⟩] s ∧
      s.client.Converged (clientAfter checkedService) := by
  obtain ⟨⟨started, s, config, hstart, hrun, hlast, hconfig, hconv⟩, -⟩ :=
    client_hot_reload_converges
      (.ok ⟨none, some (clientBefore (fun _ => parsedService))⟩)
      [.error "expected an equals", .ok ⟨none, some (clientAfter
        (fun _ => parsedService))⟩]
      ⟨none, some (clientBefore checkedService)⟩ (clientBefore checkedService)
      rfl rfl (List.isChain_cons_cons.mpr
        ⟨⟨Option.Rel.none, Option.Rel.some rfl⟩, List.IsChain.singleton _⟩)
  have hold : s.old = ⟨none, some (clientAfter checkedService)⟩ :=
    (Option.some.inj hlast).symm
  rw [hold] at hconfig
  cases hconfig
  exact ⟨started, s, hstart, hrun, hconv⟩

/-- A server block that stands in the client's file. -/
def serverBlock (bindAddr : String) : ServerConfig where
  bindAddr := bindAddr
  users := ∅
  services := ∅
  transport := ⟨.tcp, ⟨true, 20, 8, none⟩, none, some ⟨"rathole"⟩⟩
  heartbeatInterval := 30

/-- The same change of services together with a new bind address of a server
block in the same file: the client goes on with the old services. -/
theorem client_keeps_old_services :
    let before : Config :=
      ⟨some (serverBlock "0.0.0.0:2333"), some (clientBefore checkedService)⟩
    let after : Config :=
      ⟨some (serverBlock "0.0.0.0:2334"), some (clientAfter checkedService)⟩
    Config.fromStr (.ok before) = .ok before ∧
      Config.fromStr (.ok after) = .ok after ∧
      SameButServices before.client after.client ∧
      ∃ started s, Client.startServices (clientBefore checkedService) =
          some started ∧
        Run rescan ⟨before, started⟩ [.ok after] s ∧
        ¬ s.client.Converged (clientAfter checkedService) := by
  intro before after
  refine ⟨rfl, rfl, Option.Rel.some rfl, _, _, rfl, run_cons.mpr ⟨_, rfl,
    run_nil.mpr rfl⟩, ?_⟩
  intro hconv
  have hssh := (hconv.names "ssh").mp rfl
  cases hssh

end Rathole
