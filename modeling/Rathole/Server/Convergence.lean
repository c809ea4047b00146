import Rathole.Server.HotReload

/-!
# Convergence of hot reload

The watcher holds the last configuration, the server the services. Every
reload replaces the first and sends the difference to the second. A reload
converges exactly if every service that stays under its name leaves its old
identity `user:name` to some service of the new configuration; otherwise the
entry under the old identity is neither deleted (its name is still there) nor
overwritten, and the old owner's token keeps opening it.
-/

namespace Rathole

open Runs

/-- The identities under which a configuration's services are looked up. -/
def ServerConfig.identities (c : ServerConfig) : List String :=
  c.services.entries.map (fun e => serviceId e.2.user e.1)

/-- An accepted configuration whose identities are distinct and occur. -/
structure ServerConfig.Sound (occurs : Set String) (c : ServerConfig) :
    Prop where
  accepted : c.Accepted
  distinct : c.identities.Nodup
  occurring : ∀ id ∈ c.identities, id ∈ occurs

/-- The services of a configuration, as a listing. -/
def ServerConfig.Lists (c : ServerConfig) (name : String)
    (s : ServerServiceConfig) : Prop :=
  c.services.lookup name = some s

/-- Every service that keeps its name leaves its old identity to a service of
the new configuration, its own or another. -/
def KeepsIdentities (old new : ServerConfig) : Prop :=
  ∀ name c, old.Lists name c → (new.services.lookup name).isSome →
    serviceId c.user name ∈ new.identities

instance (old new : ServerConfig) : Decidable (KeepsIdentities old new) :=
  decidable_of_iff (∀ e ∈ old.services.entries,
      (new.services.lookup e.1).isSome →
        serviceId e.2.user e.1 ∈ new.identities)
    ⟨fun h _ _ hc => h _ (HashMap.mem_entries_iff.mpr hc),
      fun h e he => h e.1 e.2 (HashMap.mem_entries_iff.mp he)⟩

theorem ServerConfig.mem_identities {c : ServerConfig} {id : String} :
    id ∈ c.identities ↔ ∃ name s, c.Lists name s ∧ serviceId s.user name = id := by
  unfold ServerConfig.identities ServerConfig.Lists
  rw [List.mem_map]
  constructor
  · rintro ⟨e, he, rfl⟩
    exact ⟨e.1, e.2, HashMap.mem_entries_iff.mp he, rfl⟩
  · rintro ⟨name, s, hs, rfl⟩
    exact ⟨⟨name, s⟩, HashMap.mem_entries_iff.mpr hs, rfl⟩

section

variable {digest : Bytes → Digest} {occurs : Set String}

theorem serviceDigest_inj (hinj : Set.InjOn (fun id => digest (utf8 id)) occurs)
    {c c' : ServerConfig} (hc : c.Sound occurs) (hc' : c'.Sound occurs)
    {name name' : String} {s s' : ServerServiceConfig} (hs : c.Lists name s)
    (hs' : c'.Lists name' s')
    (h : serviceDigest digest s.user name = serviceDigest digest s'.user name') :
    serviceId s.user name = serviceId s'.user name' := by
  apply hinj (hc.occurring _ ?_) (hc'.occurring _ ?_) h
  · exact ServerConfig.mem_identities.mpr ⟨name, s, hs, rfl⟩
  · exact ServerConfig.mem_identities.mpr ⟨name', s', hs', rfl⟩

/-- A sound configuration is a listing: by name, and by digest. -/
theorem ServerConfig.Sound.listing
    (hinj : Set.InjOn (fun id => digest (utf8 id)) occurs) {c : ServerConfig}
    (hc : c.Sound occurs) : Listing digest c.Lists where
  named name s hs := hc.accepted.name_eq hs
  distinct name s name' s' hs hs' hd := by
    have hid := serviceDigest_inj hinj hc hc hs hs' hd
    -- two entries with one identity are one entry
    have hinjOn := List.inj_on_of_nodup_map hc.distinct
      (HashMap.mem_entries_iff.mpr hs) (HashMap.mem_entries_iff.mpr hs') hid
    cases hinjOn
    exact ⟨rfl, rfl⟩
  functional name s s' hs hs' := Option.some.inj (hs.symm.trans hs')

/-- The map a server starts with offers the configuration's services. -/
theorem offers_generate (hinj : Set.InjOn (fun id => digest (utf8 id)) occurs)
    {c : ServerConfig} (hc : c.Sound occurs) :
    Offers digest (generateServiceHashmap digest c) c.Lists := by
  have hnodup : (c.services.entries.map
      (fun e => serviceDigest digest e.2.user e.1)).Nodup := by
    have hmap : c.services.entries.map
        (fun e => serviceDigest digest e.2.user e.1) =
          c.identities.map (fun id => digest (utf8 id)) := by
      simp [ServerConfig.identities, serviceDigest, Function.comp_def]
    rw [hmap]
    exact hc.distinct.map_on (fun id hid id' hid' h =>
      hinj (hc.occurring id hid) (hc.occurring id' hid') h)
  intro d s
  unfold generateServiceHashmap
  rw [HashMap.lookup_foldl_insert _ _ hnodup]
  constructor
  · rintro (⟨e, he, rfl, rfl⟩ | ⟨-, habs⟩)
    · exact ⟨e.1, HashMap.mem_entries_iff.mp he, rfl⟩
    · cases habs
  · rintro ⟨name, hs, rfl⟩
    exact Or.inl ⟨⟨name, s⟩, HashMap.mem_entries_iff.mpr hs, rfl, rfl⟩

/-! ## One reload -/

/-- The changes from `old` to `new`, each with an order for its scan. -/
def serviceChanges (old new : ServerConfig) : List ConfigChange :=
  (deletions (T := ServerConfig) old.services new.services).map
      (fun s => .serverChange (.delete s)) ++
    (addition (T := ServerConfig) old.services new.services).map
      (fun e => .serverChange (.add e.2))

/-- What the services map offers after the changes: the services added, and
those that keep their name and are not overwritten. -/
def Remaining (digest : Bytes → Digest) (old new : ServerConfig)
    (name : String) (c : ServerServiceConfig) : Prop :=
  (new.Lists name c ∧ ¬ old.Lists name c) ∨
    (old.Lists name c ∧ (new.services.lookup name).isSome ∧
      ∀ name' c', new.Lists name' c' → ¬ old.Lists name' c' →
        serviceDigest digest c.user name ≠ serviceDigest digest c'.user name')

/-- The services added, under their own names. -/
def addedServices (old new : ServerConfig) : List ServerServiceConfig :=
  (addition (T := ServerConfig) old.services new.services).map Sigma.snd

theorem mem_addedServices {old new : ServerConfig}
    (hlist : Listing digest new.Lists) {c : ServerServiceConfig} :
    c ∈ addedServices old new ↔ new.Lists c.name c ∧ ¬ old.Lists c.name c := by
  unfold addedServices
  rw [List.mem_map]
  constructor
  · rintro ⟨e, he, rfl⟩
    obtain ⟨hin, hout⟩ := mem_addition.mp he
    have hname : ServerServiceConfig.name e.2 = e.1 := hlist.named _ _ hin
    rw [hname]
    exact ⟨hin, hout⟩
  · rintro ⟨hin, hout⟩
    exact ⟨⟨c.name, c⟩, mem_addition.mpr ⟨hin, hout⟩, rfl⟩

theorem addedServices_pairwise {old new : ServerConfig}
    (hlist : Listing digest new.Lists) :
    (addedServices old new).Pairwise (fun a b =>
      serviceDigest digest a.user a.name ≠ serviceDigest digest b.user b.name) := by
  have hnodup : (addition (T := ServerConfig) old.services
      new.services).Nodup :=
    (List.Nodup.of_map Sigma.fst new.services.nodupKeys).filter _
  unfold addedServices
  rw [List.pairwise_map]
  refine hnodup.pairwise_of_forall_ne ?_
  intro e he e' he' hne hd
  obtain ⟨hin, -⟩ := mem_addition.mp he
  obtain ⟨hin', -⟩ := mem_addition.mp he'
  have hname : ServerServiceConfig.name e.2 = e.1 := hlist.named _ _ hin
  have hname' : ServerServiceConfig.name e'.2 = e'.1 := hlist.named _ _ hin'
  rw [hname, hname'] at hd
  obtain ⟨hfst, hsnd⟩ := hlist.distinct _ _ _ _ hin hin' hd
  exact hne (Sigma.ext hfst (heq_of_eq hsnd))

theorem offers_applyChanges
    (hinj : Set.InjOn (fun id => digest (utf8 id)) occurs)
    {old new : ServerConfig} (hold : old.Sound occurs) (hnew : new.Sound occurs)
    {m : Services} (hm : Offers digest m old.Lists) {changes}
    (hchanges : changes.map Prod.snd = serviceChanges old new)
    (hscans : Scans digest m changes) :
    Offers digest (applyChanges digest m changes) (Remaining digest old new) := by
  obtain ⟨dels, adds, rfl, hdels, hadds⟩ := List.map_eq_append_iff.mp hchanges
  obtain ⟨hscans, -⟩ := scans_append.mp hscans
  have hlist := hnew.listing hinj
  have hadds' : adds.map Prod.snd =
      (addedServices old new).map (fun c => .serverChange (.add c)) := by
    unfold addedServices
    rw [List.map_map]
    exact hadds
  rw [applyChanges_append]
  have hdel := hm.deletions (hold.listing hinj) hdels hscans
  refine (hdel.additions (addedServices_pairwise hlist) hadds').congr
    (fun name c => or_congr ?_ ?_)
  · rw [mem_addedServices hlist]
    constructor
    · rintro ⟨rfl, hc⟩
      exact hc
    · intro hc
      obtain rfl := hlist.named _ _ hc.1
      exact ⟨rfl, hc⟩
  · rw [and_assoc]
    refine and_congr_right (fun hc => and_congr ?_ ?_)
    · rw [mem_deletions, not_and, Option.isSome_iff_ne_none]
      exact ⟨fun h => h ⟨c, hc⟩, fun h _ => h⟩
    · constructor
      · intro hall name' c' hin hout
        obtain rfl := hlist.named _ _ hin
        exact hall c' ((mem_addedServices hlist).mpr ⟨hin, hout⟩)
      · intro hall c' hc'
        obtain ⟨hin, hout⟩ := (mem_addedServices hlist).mp hc'
        exact hall c'.name c' hin hout

/-- What remains is the new configuration exactly if identities are kept. -/
theorem remaining_iff_keepsIdentities
    (hinj : Set.InjOn (fun id => digest (utf8 id)) occurs)
    {old new : ServerConfig} (hold : old.Sound occurs)
    (hnew : new.Sound occurs) :
    (∀ name c, Remaining digest old new name c ↔ new.Lists name c) ↔
      KeepsIdentities old new := by
  have hlist := hnew.listing hinj
  constructor
  · intro h name c hc hsome
    obtain ⟨c', hc'⟩ := Option.isSome_iff_exists.mp hsome
    by_contra hlost
    -- the old entry is not overwritten, so it remains: then it is unchanged
    have hrem : Remaining digest old new name c := by
      refine Or.inr ⟨hc, hsome, ?_⟩
      intro name' c'' hin hout hd
      have hid := serviceDigest_inj hinj hold hnew hc hin hd
      exact hlost (ServerConfig.mem_identities.mpr ⟨name', c'', hin, hid.symm⟩)
    exact hlost (ServerConfig.mem_identities.mpr
      ⟨name, c, (h name c).mp hrem, rfl⟩)
  · intro hkeep name c
    constructor
    · rintro (⟨hc, -⟩ | ⟨hc, hsome, hall⟩)
      · exact hc
      · obtain ⟨name', c', hin, hid⟩ :=
          ServerConfig.mem_identities.mp (hkeep name c hc hsome)
        have hd : serviceDigest digest c.user name =
            serviceDigest digest c'.user name' := by
          unfold serviceDigest
          rw [hid]
        -- whoever has the identity now is not added, so it was there before
        have hwas : old.Lists name' c' := by
          by_contra hout
          exact hall name' c' hin hout hd
        obtain ⟨rfl, rfl⟩ :=
          (hold.listing hinj).distinct _ _ _ _ hc hwas hd
        exact hin
    · intro hc
      by_cases hwas : old.Lists name c
      · refine Or.inr ⟨hwas, Option.isSome_iff_exists.mpr ⟨c, hc⟩, ?_⟩
        intro name' c' hin hout hd
        obtain ⟨rfl, rfl⟩ := hlist.distinct _ _ _ _ hc hin hd
        exact hout hwas
      · exact Or.inl ⟨hc, hwas⟩

/-! ## Runs of reloads -/

/-- The last configuration the watcher has read, and the server's services. -/
structure ReloadState where
  config : Config
  services : Services

/-- A new configuration, with the orders in which its changes will find the
services when they scan them. -/
structure Reload where
  new : Config
  orders : List (List ((_ : Digest) × ServerServiceConfig))

def ConfigChange.isGeneral : ConfigChange → Bool
  | .general _ => true
  | _ => false

/-- The events the watcher sends for a new configuration. -/
def ReloadState.events (s : ReloadState) (new : Config) : List ConfigChange :=
  (calculateEvents s.config new).getD []

variable (digest occurs)

/-- The watcher's round, and the server applying what it has sent. -/
def reloadStep (s : ReloadState) (a : Reload) : Option ReloadState :=
  if (s.events a.new).any ConfigChange.isGeneral then
    none   -- the server is restarted
  else
    some { config := a.new
           services :=
             applyChanges digest s.services (a.orders.zip (s.events a.new)) }

/-- The new configuration is accepted and differs in nothing but services;
the orders are possible ones. -/
def ServicesOnly (s : ReloadState) (a : Reload) : Prop :=
  ∃ old new, s.config.server = some old ∧ a.new.server = some new ∧
    InstanceConfig.equalWithoutService old new = true ∧
    optionEq s.config.client a.new.client = true ∧ new.Sound occurs ∧
    a.orders.length = (s.events a.new).length ∧
    Scans digest s.services (a.orders.zip (s.events a.new))

/-- A client that presents `user` and `service` and proves `token` gets a
control channel for `bindAddr`. -/
def Accepts (m : Services) (user service token bindAddr : String) : Prop :=
  ∃ c, m.lookup (serviceDigest digest (some user) service) = some c ∧
    c.token.getD "" = token ∧ c.bindAddr = bindAddr

/-- The configuration has a service with this identity, token and address. -/
def ServerConfig.Grants (c : ServerConfig)
    (user service token bindAddr : String) : Prop :=
  ∃ name s, c.Lists name s ∧ serviceId s.user name = serviceId (some user) service ∧
    s.token.getD "" = token ∧ s.bindAddr = bindAddr

/-- After the reload the services are those of the new configuration, and
exactly what it grants is accepted. -/
def Converges (s : ReloadState) (a : Reload) : Prop :=
  ∀ t new, reloadStep digest s a = some t → a.new.server = some new →
    HashMap.SameMap t.services (generateServiceHashmap digest new) ∧
      ∀ user service token bindAddr, serviceId (some user) service ∈ occurs →
        (Accepts digest t.services user service token bindAddr ↔
          new.Grants user service token bindAddr)

/-- The reload keeps identities, see `KeepsIdentities`. -/
def ReloadKeeps (s : ReloadState) (a : Reload) : Prop :=
  ∀ old new, s.config.server = some old → a.new.server = some new →
    KeepsIdentities old new

/-- The services are those of the watcher's configuration. -/
def InSync (s : ReloadState) : Prop :=
  ∃ old, s.config.server = some old ∧ old.Sound occurs ∧
    HashMap.SameMap s.services (generateServiceHashmap digest old)

variable {digest occurs}

theorem Offers.of_sameMap {m m' : Services}
    {P : String → ServerServiceConfig → Prop} (h : Offers digest m P)
    (hsame : HashMap.SameMap m' m) : Offers digest m' P := by
  intro d c
  rw [hsame d, h d c]

theorem accepts_iff_grants
    (hinj : Set.InjOn (fun id => digest (utf8 id)) occurs) {c : ServerConfig}
    (hc : c.Sound occurs) {m : Services} (hm : Offers digest m c.Lists)
    {user service token bindAddr : String}
    (hoccurs : serviceId (some user) service ∈ occurs) :
    Accepts digest m user service token bindAddr ↔
      c.Grants user service token bindAddr := by
  constructor
  · rintro ⟨s, hs, htoken, hbind⟩
    obtain ⟨name, hname, hd⟩ := (hm _ s).mp hs
    have hid := hinj hoccurs (hc.occurring _
      (ServerConfig.mem_identities.mpr ⟨name, s, hname, rfl⟩)) hd
    exact ⟨name, s, hname, hid.symm, htoken, hbind⟩
  · rintro ⟨name, s, hname, hid, htoken, hbind⟩
    refine ⟨s, (hm _ s).mpr ⟨name, hname, ?_⟩, htoken, hbind⟩
    unfold serviceDigest
    rw [hid]

theorem events_of_servicesOnly {s : ReloadState} {a : Reload}
    {old new : ServerConfig} (hold : s.config.server = some old)
    (hnew : a.new.server = some new)
    (hserver : InstanceConfig.equalWithoutService old new = true)
    (hclient : optionEq s.config.client a.new.client = true) :
    s.events a.new = serviceChanges old new :=
  calculateEvents_of_servicesOnly hold hnew hserver hclient

theorem serviceChanges_not_general (old new : ServerConfig) :
    (serviceChanges old new).any ConfigChange.isGeneral = false := by
  unfold serviceChanges
  rw [List.any_append, List.any_map, List.any_map, Bool.or_eq_false_iff]
  constructor
  · exact List.any_eq_false.mpr (fun _ _ => Bool.false_ne_true)
  · exact List.any_eq_false.mpr (fun _ _ => Bool.false_ne_true)

/-- One reload from a server in sync. -/
theorem converges_iff_reloadKeeps
    (hinj : Set.InjOn (fun id => digest (utf8 id)) occurs) {s : ReloadState}
    {a : Reload} (hs : InSync digest occurs s)
    (ha : ServicesOnly digest occurs s a) :
    Converges digest occurs s a ↔ ReloadKeeps s a := by
  obtain ⟨old, hold, hsound, hsame⟩ := hs
  obtain ⟨old', new, hold', hnew, hserver, hclient, hsound', hlen, hscans⟩ := ha
  obtain rfl : old = old' := Option.some.inj (hold.symm.trans hold')
  have hevents := events_of_servicesOnly hold hnew hserver hclient
  have hstep : reloadStep digest s a = some ⟨a.new,
      applyChanges digest s.services (a.orders.zip (s.events a.new))⟩ := by
    unfold reloadStep
    rw [if_neg]
    rw [hevents, serviceChanges_not_general]
    exact Bool.false_ne_true
  have hchanges : (a.orders.zip (s.events a.new)).map Prod.snd =
      serviceChanges old new := by
    rw [List.map_snd_zip (Nat.le_of_eq hlen.symm), hevents]
  have hgen := offers_generate hinj hsound'
  have hoffers := offers_applyChanges hinj hsound hsound'
    ((offers_generate hinj hsound).of_sameMap hsame) hchanges hscans
  have hnamed : ∀ name c, Remaining digest old new name c → c.name = name := by
    rintro name c (⟨hc, -⟩ | ⟨hc, -⟩)
    · exact hsound'.accepted.name_eq hc
    · exact hsound.accepted.name_eq hc
  have hiff := hoffers.sameMap_iff hgen hnamed
    (fun name c hc => hsound'.accepted.name_eq hc)
  rw [remaining_iff_keepsIdentities hinj hsound hsound'] at hiff
  constructor
  · intro hconv old' new' hold' hnew'
    obtain rfl : old = old' := Option.some.inj (hold.symm.trans hold')
    obtain rfl : new = new' := Option.some.inj (hnew.symm.trans hnew')
    exact hiff.mp (hconv _ new hstep hnew).1
  · intro hkeep t new' ht hnew'
    obtain rfl : new = new' := Option.some.inj (hnew.symm.trans hnew')
    obtain rfl := Option.some.inj (hstep.symm.trans ht)
    have hmap := hiff.mpr (hkeep old new hold hnew)
    refine ⟨hmap, ?_⟩
    intro user service token bindAddr hoccurs
    exact accepts_iff_grants hinj hsound' (hgen.of_sameMap hmap) hoccurs

/-- **Convergence of hot reload**: along any sequence of reloads that differ
only in services, every reload converges exactly if every reload keeps
identities. -/
theorem hot_reload_converges_iff (digest : Bytes → Digest)
    (occurs : Set String)
    (hinj : Set.InjOn (fun id => digest (utf8 id)) occurs) (s : ReloadState)
    (reloads : List Reload) (hs : InSync digest occurs s)
    (hreloads : Meets (reloadStep digest) (ServicesOnly digest occurs) s
      reloads) :
    Meets (reloadStep digest) (Converges digest occurs) s reloads ↔
      Meets (reloadStep digest) ReloadKeeps s reloads := by
  refine meets_congr_on (I := InSync digest occurs) ?_ ?_ hs hreloads
  · intro s a hs ha
    exact converges_iff_reloadKeeps hinj hs ha
  · intro s a t hs ha hconv ht
    obtain ⟨-, new, -, hnew, -, -, hsound, -, -⟩ := ha
    refine ⟨new, ?_, hsound, (hconv t new ht hnew).1⟩
    unfold reloadStep at ht
    split at ht
    · cases ht
    · cases ht
      exact hnew

end

/-! ## Two reloads, one of which leaves an entry behind -/

/-- SHA-256 on the identities of the examples below. -/
def idDigest (data : Bytes) : Digest :=
  if data = utf8 "alice:web" then aliceWebDigest
  else if data = utf8 "alice:ssh" then
    #v[65, 164, 88, 200, 157, 20, 12, 118, 69, 114, 70, 12, 236, 56, 182, 23,
      19, 31, 154, 28, 27, 207, 27, 255, 131, 73, 185, 102, 214, 48, 115, 141]
  else if data = utf8 "bob:web" then
    #v[84, 76, 56, 91, 146, 47, 229, 214, 241, 82, 120, 218, 104, 42, 93, 251,
      81, 99, 252, 170, 64, 255, 211, 118, 19, 64, 226, 32, 74, 47, 9, 210]
  else Vector.replicate 32 0

def sampleIds : Set String := {"alice:web", "alice:ssh", "bob:web"}

theorem idDigest_injOn :
    Set.InjOn (fun id => idDigest (utf8 id)) sampleIds := by
  rintro x (rfl | rfl | rfl) y (rfl | rfl | rfl) h
  all_goals first | rfl | exact absurd h (by decide)

def sampleService (name user bindAddr : String) : ServerServiceConfig where
  serviceType := .tcp
  name := name
  bindAddr := bindAddr
  user := some user
  token := some (user ++ "-token")
  nodelay := none

/-- A server with the users alice and bob. -/
def sampleServer (services : HashMap String ServerServiceConfig) :
    ServerConfig where
  bindAddr := "0.0.0.0:2333"
  users := AList.insert "alice" ⟨some "alice-token", "*"⟩
    (AList.singleton "bob" ⟨some "bob-token", "*"⟩)
  services := services
  transport := ⟨.tcp, ⟨true, 20, 8, none⟩, none, none⟩
  heartbeatInterval := 30

/-- Alice's web at port 80 and her ssh. -/
def serverBefore : ServerConfig :=
  sampleServer (AList.insert "web" (sampleService "web" "alice" "0.0.0.0:80")
    (AList.singleton "ssh" (sampleService "ssh" "alice" "0.0.0.0:22")))

/-- The ssh is gone, the web has moved to port 8080. -/
def serverMoved : ServerConfig :=
  sampleServer
    (AList.singleton "web" (sampleService "web" "alice" "0.0.0.0:8080"))

/-- The ssh is gone, the web belongs to bob. -/
def serverHandedOver : ServerConfig :=
  sampleServer (AList.singleton "web" (sampleService "web" "bob" "0.0.0.0:80"))

def runningBefore : ReloadState where
  config := ⟨some serverBefore, none⟩
  services := generateServiceHashmap idDigest serverBefore

/-- Reload `server`, every scan in the order of insertion. -/
def sampleReload (server : ServerConfig) : Reload where
  new := ⟨some server, none⟩
  orders :=
    let services := generateServiceHashmap idDigest serverBefore
    [services.entries, (AList.erase (serviceDigest idDigest "alice" "ssh")
      services).entries]

theorem runningBefore_inSync : InSync idDigest sampleIds runningBefore := by
  refine ⟨serverBefore, rfl, ⟨⟨serverBefore, rfl⟩, by decide, ?_⟩,
    fun _ => rfl⟩
  intro id hid
  have hids : serverBefore.identities = ["alice:web", "alice:ssh"] := by decide
  rw [hids] at hid
  simp only [List.mem_cons, List.not_mem_nil, or_false] at hid
  rcases hid with rfl | rfl
  · exact Or.inl rfl
  · exact Or.inr (Or.inl rfl)

theorem hot_reload_converges_iff_moved :
    Meets (reloadStep idDigest) (Converges idDigest sampleIds) runningBefore
      [sampleReload serverMoved] := by
  refine (hot_reload_converges_iff idDigest sampleIds idDigest_injOn
    runningBefore [sampleReload serverMoved] runningBefore_inSync ?_).mpr ?_
  · refine ⟨?_, fun t _ => trivial⟩
    refine ⟨serverBefore, serverMoved, rfl, rfl, by decide, rfl,
      ⟨⟨serverMoved, rfl⟩, by decide, ?_⟩, by decide, ?_⟩
    · intro id hid
      obtain rfl := List.mem_singleton.mp hid
      exact Or.inl rfl
    · exact ⟨List.Perm.refl _, List.Perm.refl _, trivial⟩
  · refine ⟨?_, fun t _ => trivial⟩
    rintro old new hold hnew
    cases hold
    cases hnew
    show KeepsIdentities serverBefore serverMoved
    decide

/-- The web is handed over to bob: alice's entry stays, and her token still
opens the port. -/
theorem handed_over_not_converged :
    Set.InjOn (fun id => idDigest (utf8 id)) sampleIds ∧
      InSync idDigest sampleIds runningBefore ∧
      ServicesOnly idDigest sampleIds runningBefore
        (sampleReload serverHandedOver) ∧
      ¬ Converges idDigest sampleIds runningBefore
        (sampleReload serverHandedOver) := by
  refine ⟨idDigest_injOn, runningBefore_inSync, ?_, ?_⟩
  · refine ⟨serverBefore, serverHandedOver, rfl, rfl, by decide, rfl,
      ⟨⟨serverHandedOver, rfl⟩, by decide, ?_⟩, by decide, ?_⟩
    · intro id hid
      obtain rfl := List.mem_singleton.mp hid
      exact Or.inr (Or.inr rfl)
    · exact ⟨List.Perm.refl _, List.Perm.refl _, trivial⟩
  · intro hconv
    have hsame := (hconv _ serverHandedOver rfl rfl).1
      (serviceDigest idDigest "alice" "web")
    revert hsame
    decide

end Rathole
