import Rathole.Server.Convergence
import Rathole.Server.Interleaving

/-!
# Service identities

A service is known by the digest of `user:name`, a visitor by the digest of
`user:visitor:bind_addr`. The parts may contain the separator themselves, so
two different pairs can be joined to one text: the longer user name has then
taken over a part of the other one's service name. `identities_distinct_iff`
says exactly which names do that. Visitors never get in each other's way,
because an address is written without the letters of `visitor`.
-/

namespace Rathole.Server

/-! ## Joined texts -/

/-- `u:n` can also be read as `u':n'`, with the longer `u'`. -/
def Absorbs (u n u' n' : String) : Prop :=
  ∃ m, u' = u ++ ":" ++ m ∧ n = m ++ ":" ++ n'

theorem Absorbs.ne {u n u' n' : String} (h : Absorbs u n u' n') : u ≠ u' := by
  obtain ⟨m, rfl, -⟩ := h
  intro heq
  have hlen := congrArg (fun s : String => s.toList.length) heq
  simp at hlen

theorem join_of_absorbs {u n u' n' : String} (h : Absorbs u n u' n') :
    u ++ ":" ++ n = u' ++ ":" ++ n' := by
  obtain ⟨m, rfl, rfl⟩ := h
  simp [String.append_assoc]

/-- **Two pairs with one joined text** are equal, or one user name has taken
over a part of the other pair's name. -/
theorem join_eq_iff {u n u' n' : String} :
    u ++ ":" ++ n = u' ++ ":" ++ n' ↔
      (u = u' ∧ n = n') ∨ Absorbs u n u' n' ∨ Absorbs u' n' u n := by
  have hlist : (":" : String).toList = [':'] := by decide
  -- what the longer user name has more is empty or starts with the separator
  have hsplit {a b a' b' : String} {as : List Char}
      (ha : a'.toList = a.toList ++ as)
      (hb : [':'] ++ b.toList = as ++ ([':'] ++ b'.toList)) :
      (a = a' ∧ b = b') ∨ Absorbs a b a' b' := by
    cases as with
    | nil =>
        left
        constructor
        · apply String.toList_injective
          simpa using ha.symm
        · apply String.toList_injective
          simpa using hb
    | cons c m =>
        right
        simp only [List.cons_append, List.nil_append, List.cons.injEq] at hb
        obtain ⟨rfl, hb⟩ := hb
        refine ⟨String.ofList m, ?_, ?_⟩
        · apply String.toList_injective
          simp [String.toList_append, ha, hlist]
        · apply String.toList_injective
          simp [String.toList_append, hb, hlist]
  constructor
  · intro h
    have hl : u.toList ++ ([':'] ++ n.toList) =
        u'.toList ++ ([':'] ++ n'.toList) := by
      have := congrArg String.toList h
      simpa [String.toList_append, hlist] using this
    rcases List.append_eq_append_iff.mp hl with ⟨as, ha, hb⟩ | ⟨as, ha, hb⟩
    · rcases hsplit ha hb with heq | habs
      · exact Or.inl heq
      · exact Or.inr (Or.inl habs)
    · rcases hsplit ha hb with ⟨heq, heq'⟩ | habs
      · exact Or.inl ⟨heq.symm, heq'.symm⟩
      · exact Or.inr (Or.inr habs)
  · rintro (⟨rfl, rfl⟩ | habs | habs)
    · rfl
    · exact join_of_absorbs habs
    · exact (join_of_absorbs habs).symm

/-! ## Visitors -/

theorem utf8_append (s t : String) : utf8 (s ++ t) = utf8 s ++ utf8 t := by
  simp [utf8, String.toByteArray_append]

/-- The text whose digest a visitor is registered under. -/
def visitorId (v : Visitor) : String :=
  v.userName ++ ":" ++ ("visitor:" ++ v.auth.bindAddr)

theorem visitorDigest_eq (digest : Bytes → Digest) (v : Visitor) :
    visitorDigest digest v = digest (utf8 (visitorId v)) := by
  have hsep : (":visitor:" : String) = ":" ++ "visitor:" := by decide
  unfold visitorDigest visitorId
  rw [hsep, String.append_assoc, String.append_assoc, String.append_assoc]

/-- No address contains the text `visitor`. -/
theorem visitor_not_in_addr {b rest m : String} {addr : SocketAddr}
    (hb : SocketAddr.parse b = some addr) :
    "visitor:" ++ b ≠ m ++ ":" ++ ("visitor:" ++ rest) := by
  intro h
  have hbytes := congrArg utf8 h
  simp only [utf8_append] at hbytes
  have hvisitor : utf8 "visitor:" = 118 :: [105, 115, 105, 116, 111, 114, 58] := by
    decide
  have hsep : utf8 ":" = [58] := by decide
  rw [hvisitor, hsep] at hbytes
  have hclean : (118 : UInt8) ∉ utf8 b := by
    intro hmem
    have := SocketAddr.isAddrByte_of_parse hb 118 hmem
    revert this
    decide
  cases hm : utf8 m with
  | nil =>
      rw [hm] at hbytes
      simp at hbytes
  | cons c cs =>
      -- the second `v` would lie in the address
      rw [hm] at hbytes
      have htail := (List.cons.inj hbytes).2
      have hmem : (118 : UInt8) ∈
          [105, 115, 105, 116, 111, 114, 58] ++ utf8 b := by
        rw [show [105, 115, 105, 116, 111, 114, 58] ++ utf8 b = _ from htail]
        simp
      rcases List.mem_append.mp hmem with hmem | hmem
      · revert hmem
        decide
      · exact hclean hmem

/-! ## The identities of a server -/

/-- The owner of a service, as `generate_service_hashmap` reads it. -/
def owner (s : ServerServiceConfig) : String := s.user.getD "default"

theorem serviceId_eq (s : ServerServiceConfig) (name : String) :
    serviceId s.user name = owner s ++ ":" ++ name := rfl

/-- The texts that are digested for the services and the visitors. -/
def occurring (config : ServerConfig) (visitors : Set Visitor) : Set String :=
  {id | id ∈ config.identities ∨ ∃ v ∈ visitors, visitorId v = id}

section

variable (digest : Bytes → Digest)

/-- The visitor has passed the checks. -/
def AdmittedUnder (config : ServerConfig) (v : Visitor) : Prop :=
  ∃ nonce, checkVisitor digest config nonce v.auth v.sessionNonce = .ok v

/-- No two of the services and the visitors share a digest. -/
structure IdentitiesDistinct (config : ServerConfig) (visitors : Set Visitor) :
    Prop where
  services : ∀ name s name' s', config.Lists name s → config.Lists name' s' →
    (s.user, name) ≠ (s'.user, name') →
      serviceDigest digest s.user name ≠ serviceDigest digest s'.user name'
  kept : ∀ name s, config.Lists name s →
    (generateServiceHashmap digest config).lookup
      (serviceDigest digest s.user name) = some s
  visitor : ∀ v ∈ visitors, ∀ name s, config.Lists name s →
    visitorDigest digest v ≠ serviceDigest digest s.user name
  apart : ∀ v ∈ visitors, ∀ v' ∈ visitors,
    (v.userName, v.auth.bindAddr) ≠ (v'.userName, v'.auth.bindAddr) →
      visitorDigest digest v ≠ visitorDigest digest v'

end

/-- No user name takes over a part of another one's service name, and no
service is named like a visitor of its owner. -/
structure Unambiguous (config : ServerConfig) (visitors : Set Visitor) :
    Prop where
  services : ∀ name s name' s', config.Lists name s → config.Lists name' s' →
    ¬ Absorbs (owner s) name (owner s') name'
  visitor : ∀ v ∈ visitors, ∀ name s, config.Lists name s →
    ¬ (v.userName = owner s ∧ "visitor:" ++ v.auth.bindAddr = name) ∧
    ¬ Absorbs v.userName ("visitor:" ++ v.auth.bindAddr) (owner s) name ∧
    ¬ Absorbs (owner s) name v.userName ("visitor:" ++ v.auth.bindAddr)

variable {digest : Bytes → Digest} {config : ServerConfig}
  {visitors : Set Visitor}

theorem AdmittedUnder.parses {v : Visitor}
    (h : AdmittedUnder digest config v) :
    ∃ addr, SocketAddr.parse v.auth.bindAddr = some addr := by
  obtain ⟨nonce, hok⟩ := h
  obtain ⟨-, -, -, -, addr, haddr, -⟩ := checkVisitor_eq_ok hok
  exact ⟨addr, haddr⟩

/-- Two services of an unambiguous configuration with one text are one. -/
theorem Unambiguous.service_inj (h : Unambiguous config visitors)
    (hacc : config.Accepted) {name name' : String}
    {s s' : ServerServiceConfig} (hs : config.Lists name s)
    (hs' : config.Lists name' s')
    (heq : serviceId s.user name = serviceId s'.user name') :
    (s.user, name) = (s'.user, name') := by
  rcases join_eq_iff.mp heq with ⟨howner, rfl⟩ | habs | habs
  · obtain ⟨-, o, ho⟩ := hacc.named hs
    obtain ⟨-, o', ho'⟩ := hacc.named hs'
    rw [ho, ho'] at howner ⊢
    exact congrArg (fun x => (some x, name)) howner
  · exact absurd habs (h.services name s name' s' hs hs')
  · exact absurd habs (h.services name' s' name s hs' hs)

theorem Unambiguous.sound (h : Unambiguous config visitors)
    (hacc : config.Accepted) :
    config.Sound (occurring config visitors) where
  accepted := hacc
  distinct := by
    refine List.Nodup.map_on ?_ (List.Nodup.of_map Sigma.fst
      config.services.nodupKeys)
    rintro ⟨name, s⟩ hs ⟨name', s'⟩ hs' heq
    have hs := HashMap.mem_entries_iff.mp hs
    have hs' := HashMap.mem_entries_iff.mp hs'
    have hname : name = name' :=
      congrArg Prod.snd (h.service_inj hacc hs hs' heq)
    subst hname
    rw [Option.some.inj (hs.symm.trans hs')]
  occurring := fun id hid => Or.inl hid

/-- **Identities.** For a server configuration that is accepted and a set of
visitors admitted under it, with a digest that tells the texts that occur
apart: services and visitors get distinct digests, and the map of the services
keeps every one of them, exactly if the names are unambiguous. -/
theorem identities_distinct_iff (digest : Bytes → Digest)
    (config : ServerConfig) (visitors : Set Visitor)
    (haccepted : config.Accepted)
    (hadmitted : ∀ v ∈ visitors, AdmittedUnder digest config v)
    (hinj : Set.InjOn (fun id => digest (utf8 id))
      (occurring config visitors)) :
    IdentitiesDistinct digest config visitors ↔
      Unambiguous config visitors := by
  have hservice {name : String} {s : ServerServiceConfig}
      (hs : config.Lists name s) :
      serviceId s.user name ∈ occurring config visitors :=
    Or.inl (ServerConfig.mem_identities.mpr ⟨name, s, hs, rfl⟩)
  have hvisitor {v : Visitor} (hv : v ∈ visitors) :
      visitorId v ∈ occurring config visitors := Or.inr ⟨v, hv, rfl⟩
  constructor
  · intro h
    constructor
    · intro name s name' s' hs hs' habs
      refine h.services name s name' s' hs hs' ?_ ?_
      · intro heq
        exact habs.ne (congrArg (fun p => p.1.getD "default") heq)
      · unfold serviceDigest
        rw [serviceId_eq, serviceId_eq, join_of_absorbs habs]
    · intro v hv name s hs
      have hne : visitorId v ≠ serviceId s.user name := by
        intro heq
        apply h.visitor v hv name s hs
        rw [visitorDigest_eq, heq]
        rfl
      refine ⟨fun heq => hne ?_, fun habs => hne (join_of_absorbs habs),
        fun habs => hne (join_of_absorbs habs).symm⟩
      exact join_eq_iff.mpr (Or.inl heq)
  · intro h
    have hsound := h.sound haccepted
    constructor
    · intro name s name' s' hs hs' hne heq
      exact hne (h.service_inj haccepted hs hs'
        (hinj (hservice hs) (hservice hs') heq))
    · intro name s hs
      exact ((offers_generate hinj hsound) _ s).mpr ⟨name, hs, rfl⟩
    · intro v hv name s hs heq
      rw [visitorDigest_eq] at heq
      have hid := hinj (hvisitor hv) (hservice hs) heq
      obtain ⟨hsame, habs, habs'⟩ := h.visitor v hv name s hs
      rcases join_eq_iff.mp hid with hpair | hpair | hpair
      · exact hsame hpair
      · exact habs hpair
      · exact habs' hpair
    · intro v hv v' hv' hne heq
      rw [visitorDigest_eq, visitorDigest_eq] at heq
      obtain ⟨addr, haddr⟩ := (hadmitted v hv).parses
      obtain ⟨addr', haddr'⟩ := (hadmitted v' hv').parses
      rcases join_eq_iff.mp (hinj (hvisitor hv) (hvisitor hv') heq) with
        ⟨huser, hbind⟩ | ⟨m, -, hm⟩ | ⟨m, -, hm⟩
      · apply hne
        have hbind' : v.auth.bindAddr = v'.auth.bindAddr := by
          apply String.toList_injective
          have := congrArg String.toList hbind
          simpa [String.toList_append] using this
        rw [huser, hbind']
      · exact visitor_not_in_addr haddr hm
      · exact visitor_not_in_addr haddr' hm

/-- Alice on port 8080. -/
def sampleVisitor : Visitor where
  userName := "alice"
  user := ⟨some "alice-token", "8000-9000"⟩
  auth := ⟨sampleDigest (challenge (some "alice-token") ones), "0.0.0.0:8080",
    .tcp⟩
  sessionNonce := zeros

theorem identities_distinct_iff_alice :
    IdentitiesDistinct sampleDigest sampleConfig {sampleVisitor} := by
  have hlists {name : String} {s : ServerServiceConfig}
      (hs : sampleConfig.Lists name s) : name = "web" ∧ s = sampleService := by
    have hmem := HashMap.mem_entries_iff.mpr hs
    rw [show sampleConfig.services.entries = [⟨"web", sampleService⟩] from rfl,
      List.mem_singleton] at hmem
    cases hmem
    exact ⟨rfl, rfl⟩
  refine (identities_distinct_iff sampleDigest sampleConfig {sampleVisitor}
    ⟨sampleConfig, rfl⟩ ?_ ?_).mpr ⟨?_, ?_⟩
  · rintro v rfl
    exact ⟨ones, by decide⟩
  · have hids : sampleConfig.identities = ["alice:web"] := by decide
    have hvid : visitorId sampleVisitor = "alice:visitor:0.0.0.0:8080" := by
      decide
    have hone {id : String}
        (h : id ∈ occurring sampleConfig {sampleVisitor}) :
        id = "alice:web" ∨ id = "alice:visitor:0.0.0.0:8080" := by
      rcases h with hid | ⟨v, rfl, rfl⟩
      · rw [hids] at hid
        exact Or.inl (List.mem_singleton.mp hid)
      · exact Or.inr hvid
    intro x hx y hy h
    rcases hone hx with rfl | rfl <;> rcases hone hy with rfl | rfl
    all_goals first | rfl | exact absurd h (by decide)
  · intro name s name' s' hs hs' habs
    obtain ⟨rfl, rfl⟩ := hlists hs
    obtain ⟨rfl, rfl⟩ := hlists hs'
    exact habs.ne rfl
  · rintro v rfl name s hs
    obtain ⟨rfl, rfl⟩ := hlists hs
    exact ⟨by decide, fun habs => habs.ne rfl, fun habs => habs.ne rfl⟩

/-- SHA-256 on the one identity of the example below. -/
def opsDigest (data : Bytes) : Digest :=
  if data = utf8 "ops:eu:web" then
    #v[130, 173, 28, 218, 79, 182, 141, 4, 222, 84, 128, 214, 73, 64, 44, 8,
      81, 103, 58, 125, 81, 137, 107, 73, 246, 126, 100, 180, 155, 29, 66, 176]
  else Vector.replicate 32 0

/-- The service `eu:web` of `ops`, and the service `web` of `ops:eu`. -/
def opsConfig : ServerConfig where
  bindAddr := "0.0.0.0:2333"
  users := AList.insert "ops" ⟨some "a", "*"⟩
    (AList.singleton "ops:eu" ⟨some "b", "*"⟩)
  services := AList.insert "eu:web"
    ⟨.tcp, "eu:web", "0.0.0.0:80", some "ops", some "a", none⟩
    (AList.singleton "web"
      ⟨.tcp, "web", "0.0.0.0:8080", some "ops:eu", some "b", none⟩)
  transport := ⟨.tcp, ⟨true, 20, 8, none⟩, none, none⟩
  heartbeatInterval := 30

/-- Of the two services only one gets into the map. -/
theorem ops_services_collide :
    opsConfig.Accepted ∧
    Set.InjOn (fun id => opsDigest (utf8 id)) (occurring opsConfig ∅) ∧
    ¬ IdentitiesDistinct opsDigest opsConfig ∅ := by
  refine ⟨⟨opsConfig, rfl⟩, ?_, fun h => ?_⟩
  · have hids : opsConfig.identities = ["ops:eu:web", "ops:eu:web"] := by decide
    have hone {id : String} (h : id ∈ occurring opsConfig ∅) :
        id = "ops:eu:web" := by
      rcases h with hid | ⟨v, hv, -⟩
      · rw [hids] at hid
        simpa using hid
      · cases hv
    intro x hx y hy _
    rw [hone hx, hone hy]
  · exact h.services "eu:web" _ "web" _ rfl rfl (by decide) (by decide)

end Rathole.Server
