import Rathole.ConfigWatcher
import Rathole.Lib.Runs
import Rathole.Protocol

/-!
# Hot reload of the server's services

The running server keeps its services by the digest of `user:name`, the
watcher compares configurations by name, and a deletion searches the running
map by name. `Offers` says what the three have in common: which services
a map offers. A reload brings the map from the services of the old
configuration to those of the new one, unless a service keeps its name and
loses its old identity: then the entry under that identity stays behind.
-/

namespace Rathole

abbrev Services := HashMap Digest ServerServiceConfig

/-- `format!("{}:{}", user, name)`, with the default owner. -/
def serviceId (user : Option String) (name : String) : String :=
  user.getD "default" ++ ":" ++ name

section

variable (digest : Bytes → Digest)

def serviceDigest (user : Option String) (name : String) : Digest :=
  digest (utf8 (serviceId user name))

def generateServiceHashmap (serverConfig : ServerConfig) : Services :=
  serverConfig.services.entries.foldl
    (fun ret u => AList.insert (serviceDigest digest u.2.user u.1) u.2 ret) ∅

/-- The scan of `Delete` over the services in the order `order`. -/
def hashToRemove (order : List ((_ : Digest) × ServerServiceConfig))
    (s : String) : Option Digest :=
  (order.find? (fun e => decide (e.2.name = s))).map Sigma.fst

/-- What `handle_hot_reload` does to the services; `order` is the order in
which a `Delete` iterates over them. -/
def handleHotReload (order : List ((_ : Digest) × ServerServiceConfig))
    (services : Services) : ConfigChange → Services
  | .serverChange (.add cfg) =>
      AList.insert (serviceDigest digest cfg.user cfg.name) cfg services
  | .serverChange (.delete s) =>
      match hashToRemove order s with
      | some hash => AList.erase hash services
      | none => services
  | _ => services   -- ignored since running as a server

/-! ## What a map offers -/

/-- `m` offers exactly the services that `P` lists by name. -/
def Offers (m : Services) (P : String → ServerServiceConfig → Prop) : Prop :=
  ∀ d c, m.lookup d = some c ↔
    ∃ name, P name c ∧ d = serviceDigest digest c.user name

/-- `P` lists services under their own names, with distinct digests. -/
structure Listing (P : String → ServerServiceConfig → Prop) : Prop where
  named : ∀ name c, P name c → c.name = name
  distinct : ∀ name c name' c', P name c → P name' c' →
    serviceDigest digest c.user name = serviceDigest digest c'.user name' →
      name = name' ∧ c = c'
  functional : ∀ name c c', P name c → P name c' → c = c'

variable {digest}

/-- Deleting by name, whatever the order of the scan. -/
theorem Offers.delete {m : Services} {P : String → ServerServiceConfig → Prop}
    (h : Offers digest m P) (hP : Listing digest P) {order} {s : String}
    (horder : order.Perm m.entries) :
    Offers digest (handleHotReload digest order m (.serverChange (.delete s)))
      (fun name c => P name c ∧ name ≠ s) := by
  have hmem : ∀ e ∈ order, ∃ name, P name e.2 ∧
      e.1 = serviceDigest digest e.2.user name := by
    intro e he
    exact (h e.1 e.2).mp (HashMap.mem_entries_iff.mp (horder.mem_iff.mp he))
  cases hfind : order.find? (fun e => decide (e.2.name = s)) with
  | none =>
      have hkept : handleHotReload digest order m (.serverChange (.delete s)) =
          m := by
        simp [handleHotReload, hashToRemove, hfind]
      intro d c
      rw [hkept, h d c]
      constructor
      · rintro ⟨name, hname, rfl⟩
        refine ⟨name, ⟨hname, ?_⟩, rfl⟩
        rintro rfl
        -- the scan would have met this very entry
        have hentry : (⟨_, c⟩ : (_ : Digest) × ServerServiceConfig) ∈ order :=
          horder.mem_iff.mpr (HashMap.mem_entries_iff.mpr
            ((h _ c).mpr ⟨name, hname, rfl⟩))
        have hmiss := List.find?_eq_none.mp hfind _ hentry
        exact hmiss (decide_eq_true (hP.named name c hname))
      · rintro ⟨name, ⟨hname, -⟩, rfl⟩
        exact ⟨name, hname, rfl⟩
  | some e =>
      obtain ⟨n, hn, hd⟩ := hmem e (List.mem_of_find?_eq_some hfind)
      have hs : e.2.name = s := by
        simpa using List.find?_some hfind
      have hns : n = s := (hP.named n e.2 hn).symm.trans hs
      subst hns
      have herased : handleHotReload digest order m
          (.serverChange (.delete n)) = AList.erase e.1 m := by
        simp [handleHotReload, hashToRemove, hfind]
      intro d c
      rw [herased]
      by_cases hde : d = e.1
      · subst hde
        rw [AList.lookup_erase]
        constructor
        · intro habs
          cases habs
        · rintro ⟨name, ⟨hname, hne⟩, heq⟩
          rw [hd] at heq
          exact absurd (hP.distinct n e.2 name c hn hname heq).1.symm hne
      · rw [AList.lookup_erase_ne hde, h d c]
        constructor
        · rintro ⟨name, hname, rfl⟩
          refine ⟨name, ⟨hname, ?_⟩, rfl⟩
          rintro rfl
          rw [hP.functional name c e.2 hname hn] at hde
          exact hde hd.symm
        · rintro ⟨name, ⟨hname, -⟩, rfl⟩
          exact ⟨name, hname, rfl⟩

/-- Adding overwrites whatever was offered under the same digest. -/
theorem Offers.add {m : Services} {P : String → ServerServiceConfig → Prop}
    (h : Offers digest m P) (order) (cfg : ServerServiceConfig) :
    Offers digest (handleHotReload digest order m (.serverChange (.add cfg)))
      (fun name c => (name = cfg.name ∧ c = cfg) ∨
        (P name c ∧ serviceDigest digest c.user name ≠
          serviceDigest digest cfg.user cfg.name)) := by
  intro d c
  show AList.lookup d (AList.insert _ cfg m) = some c ↔ _
  by_cases hd : d = serviceDigest digest cfg.user cfg.name
  · subst hd
    rw [AList.lookup_insert]
    constructor
    · intro hc
      cases hc
      exact ⟨cfg.name, Or.inl ⟨rfl, rfl⟩, rfl⟩
    · rintro ⟨name, ⟨-, rfl⟩ | ⟨-, hne⟩, heq⟩
      · rfl
      · exact absurd heq.symm hne
  · rw [AList.lookup_insert_ne hd, h d c]
    constructor
    · rintro ⟨name, hname, rfl⟩
      exact ⟨name, Or.inr ⟨hname, hd⟩, rfl⟩
    · rintro ⟨name, ⟨rfl, rfl⟩ | ⟨hname, -⟩, rfl⟩
      · exact absurd rfl hd
      · exact ⟨name, hname, rfl⟩

theorem Offers.congr {m : Services} {P Q : String → ServerServiceConfig → Prop}
    (h : Offers digest m P) (hPQ : ∀ name c, P name c ↔ Q name c) :
    Offers digest m Q := by
  intro d c
  rw [h d c]
  constructor
  · rintro ⟨name, hname, hd⟩
    exact ⟨name, (hPQ name c).mp hname, hd⟩
  · rintro ⟨name, hname, hd⟩
    exact ⟨name, (hPQ name c).mpr hname, hd⟩

theorem Listing.mono {P Q : String → ServerServiceConfig → Prop}
    (h : Listing digest P) (hQP : ∀ name c, Q name c → P name c) :
    Listing digest Q where
  named name c hc := h.named name c (hQP name c hc)
  distinct name c name' c' hc hc' :=
    h.distinct name c name' c' (hQP name c hc) (hQP name' c' hc')
  functional name c c' hc hc' := h.functional name c c' (hQP name c hc)
    (hQP name c' hc')

/-- Two maps are equal exactly if they offer the same services. -/
theorem Offers.sameMap_iff {m m' : Services}
    {P Q : String → ServerServiceConfig → Prop} (h : Offers digest m P)
    (h' : Offers digest m' Q) (hP : ∀ name c, P name c → c.name = name)
    (hQ : ∀ name c, Q name c → c.name = name) :
    HashMap.SameMap m m' ↔ ∀ name c, P name c ↔ Q name c := by
  constructor
  · intro hsame name c
    -- the name of an entry is the one its own configuration carries
    have hlookup := hsame (serviceDigest digest c.user c.name)
    constructor
    · intro hc
      obtain rfl := hP name c hc
      obtain ⟨n, hn, -⟩ := (h' _ c).mp (hlookup ▸ (h _ c).mpr ⟨_, hc, rfl⟩)
      exact hQ n c hn ▸ hn
    · intro hc
      obtain rfl := hQ name c hc
      obtain ⟨n, hn, -⟩ := (h _ c).mp (hlookup ▸ (h' _ c).mpr ⟨_, hc, rfl⟩)
      exact hP n c hn ▸ hn
  · intro hPQ d
    apply Option.ext
    intro c
    rw [h d c, (h'.congr (fun name c => (hPQ name c).symm)) d c]

/-! ## Applying the changes of one reload -/

variable (digest)

/-- The changes, each with the order in which it finds the services. -/
def applyChanges (services : Services)
    (changes : List (List ((_ : Digest) × ServerServiceConfig) × ConfigChange)) :
    Services :=
  changes.foldl (fun m e => handleHotReload digest e.1 m e.2) services

/-- The orders are ones in which the services can be iterated over. -/
def Scans : Services →
    List (List ((_ : Digest) × ServerServiceConfig) × ConfigChange) → Prop
  | _, [] => True
  | m, e :: changes =>
      e.1.Perm m.entries ∧ Scans (handleHotReload digest e.1 m e.2) changes

variable {digest}

theorem applyChanges_append (m : Services) (l l') :
    applyChanges digest m (l ++ l') =
      applyChanges digest (applyChanges digest m l) l' :=
  List.foldl_append

theorem scans_append {m : Services} {l l'} :
    Scans digest m (l ++ l') ↔
      Scans digest m l ∧ Scans digest (applyChanges digest m l) l' := by
  induction l generalizing m with
  | nil => simp [Scans, applyChanges]
  | cons e l ih =>
      rw [List.cons_append]
      show _ ∧ _ ↔ (_ ∧ _) ∧ Scans digest (applyChanges digest _ l) l'
      rw [ih, and_assoc]

/-- All deletions of a reload. -/
theorem Offers.deletions {names : List String} {m : Services}
    {P : String → ServerServiceConfig → Prop} (h : Offers digest m P)
    (hP : Listing digest P) {changes}
    (hchanges : changes.map Prod.snd =
      names.map (fun s => ConfigChange.serverChange (.delete s)))
    (hscans : Scans digest m changes) :
    Offers digest (applyChanges digest m changes)
      (fun name c => P name c ∧ name ∉ names) := by
  induction names generalizing m P changes with
  | nil =>
      obtain rfl : changes = [] := by simpa using hchanges
      exact h.congr (fun name c => by simp)
  | cons s names ih =>
      obtain ⟨⟨order, change⟩, changes, rfl, rfl, hrest⟩ :=
        List.map_eq_cons_iff.mp hchanges
      have hfirst := h.delete hP (s := s) hscans.1
      have hlisting := hP.mono (Q := fun name c => P name c ∧ name ≠ s)
        (fun name c hc => hc.1)
      refine (ih hfirst hlisting hrest hscans.2).congr (fun name c => ?_)
      rw [List.mem_cons, not_or, and_assoc]

/-- All additions of a reload: their digests are distinct, so that none of
them undoes another. -/
theorem Offers.additions {adds : List ServerServiceConfig} {m : Services}
    {P : String → ServerServiceConfig → Prop} (h : Offers digest m P)
    (hadds : adds.Pairwise (fun a b => serviceDigest digest a.user a.name ≠
      serviceDigest digest b.user b.name)) {changes}
    (hchanges : changes.map Prod.snd =
      adds.map (fun c => ConfigChange.serverChange (.add c))) :
    Offers digest (applyChanges digest m changes)
      (fun name c => (name = c.name ∧ c ∈ adds) ∨
        (P name c ∧ ∀ a ∈ adds, serviceDigest digest c.user name ≠
          serviceDigest digest a.user a.name)) := by
  induction adds generalizing m P changes with
  | nil =>
      obtain rfl : changes = [] := by simpa using hchanges
      exact h.congr (fun name c => by simp)
  | cons a adds ih =>
      obtain ⟨⟨order, change⟩, changes, rfl, rfl, hrest⟩ :=
        List.map_eq_cons_iff.mp hchanges
      rw [List.pairwise_cons] at hadds
      refine (ih (h.add order a) hadds.2 hrest).congr (fun name c => ?_)
      simp only [List.mem_cons, forall_eq_or_imp]
      constructor
      · rintro (⟨hname, hc⟩ | ⟨⟨rfl, rfl⟩ | ⟨hc, hne⟩, hall⟩)
        · exact Or.inl ⟨hname, Or.inr hc⟩
        · exact Or.inl ⟨rfl, Or.inl rfl⟩
        · exact Or.inr ⟨hc, hne, hall⟩
      · rintro (⟨hname, rfl | hc⟩ | ⟨hc, hne, hall⟩)
        · subst hname
          exact Or.inr ⟨Or.inl ⟨rfl, rfl⟩, hadds.1⟩
        · exact Or.inl ⟨hname, hc⟩
        · exact Or.inr ⟨Or.inr ⟨hc, hne⟩, hall⟩

end

/-- SHA-256 of `alice:web`. -/
def aliceWebDigest : Digest :=
  #v[7, 163, 218, 130, 135, 91, 237, 81, 109, 88, 79, 230, 190, 199, 47, 38,
    6, 194, 227, 191, 15, 120, 72, 157, 227, 207, 60, 182, 208, 246, 176, 60]

end Rathole
