import Mathlib.Data.List.AList

/-!
# Hash maps

A hash map is an association list with distinct keys. The order of the list
is the iteration order; nothing but an iteration may depend on it, and two
maps are equal as maps when their entries are permutations of each other.
-/

abbrev HashMap (K V : Type*) := AList (fun _ : K => V)

namespace HashMap

variable {K V : Type*}

/-- Update every value in place (`for (k, v) in &mut map`). -/
def updateAll (f : K → V → V) (m : HashMap K V) : HashMap K V where
  entries := m.entries.map (fun e => (⟨e.1, f e.1 e.2⟩ : (_ : K) × V))
  nodupKeys := by
    have hkeys : (m.entries.map
        (fun e => (⟨e.1, f e.1 e.2⟩ : (_ : K) × V))).keys =
          m.entries.keys := by
      simp [List.keys, List.map_map, Function.comp_def]
    show List.Nodup _
    rw [hkeys]
    exact m.nodupKeys

theorem updateAll_singleton (f : K → V → V) (k : K) (v : V) :
    updateAll f (AList.singleton k v) = AList.singleton k (f k v) := rfl

theorem lookup_singleton [DecidableEq K] (k : K) (v : V) :
    AList.lookup k (AList.singleton k v : HashMap K V) = some v := by
  rw [← AList.insert_empty, AList.lookup_insert]

theorem mem_entries_iff [DecidableEq K] {m : HashMap K V} {k : K} {v : V} :
    (⟨k, v⟩ : (_ : K) × V) ∈ m.entries ↔ m.lookup k = some v :=
  AList.mem_lookup_iff.symm

theorem lookup_updateAll [DecidableEq K] (f : K → V → V) (m : HashMap K V)
    (k : K) : (updateAll f m).lookup k = (m.lookup k).map (f k) := by
  apply Option.ext
  intro v
  rw [← mem_entries_iff, Option.map_eq_some_iff]
  show _ ∈ m.entries.map _ ↔ _
  rw [List.mem_map]
  constructor
  · rintro ⟨e, he, heq⟩
    cases heq
    exact ⟨e.2, mem_entries_iff.mp he, rfl⟩
  · rintro ⟨u, hu, rfl⟩
    exact ⟨⟨k, u⟩, mem_entries_iff.mpr hu, rfl⟩

/-! ## Equality -/

/-- Two maps agree on every key. -/
def SameMap [DecidableEq K] (m m' : HashMap K V) : Prop :=
  ∀ k, m.lookup k = m'.lookup k

/-- `==` on maps: as many entries, and every entry of one is in the other. -/
def eq [DecidableEq K] [DecidableEq V] (m m' : HashMap K V) : Bool :=
  decide (m.entries.length = m'.entries.length) &&
    m.entries.all (fun e => decide (m'.lookup e.1 = some e.2))

theorem sameMap_of_perm [DecidableEq K] {m m' : HashMap K V}
    (h : m.entries.Perm m'.entries) : SameMap m m' :=
  fun _ => AList.perm_lookup h

theorem eq_iff [DecidableEq K] [DecidableEq V] {m m' : HashMap K V} :
    eq m m' = true ↔ SameMap m m' := by
  unfold eq
  simp only [Bool.and_eq_true, decide_eq_true_eq, List.all_eq_true]
  have nodup : ∀ m : HashMap K V, m.entries.Nodup := fun m =>
    List.Nodup.of_map Sigma.fst m.nodupKeys
  constructor
  · rintro ⟨hlen, hsub⟩
    refine sameMap_of_perm ?_
    have hsub' : m.entries ⊆ m'.entries := by
      intro e he
      exact mem_entries_iff.mpr (hsub e he)
    exact (List.subperm_of_subset (nodup m) hsub').perm_of_length_le
      (Nat.le_of_eq hlen.symm)
  · intro h
    have hperm : m.entries.Perm m'.entries := by
      rw [List.perm_ext_iff_of_nodup (nodup m) (nodup m')]
      intro e
      rw [mem_entries_iff, mem_entries_iff, h e.1]
    refine ⟨hperm.length_eq, ?_⟩
    intro e he
    exact mem_entries_iff.mp (hperm.mem_iff.mp he)

/-! ## Loops that may fail, and loops that insert -/

/-- `for (k, v) in &mut map` with a body that updates `v` or bails out: the
error of the first entry that fails, or the map with every value updated. -/
def tryUpdateAll {ε : Type*} (f : K → V → Except ε V) (m : HashMap K V) :
    Except ε (HashMap K V) :=
  match m.entries.findSome? (fun e =>
      match f e.1 e.2 with
      | .error x => some x
      | .ok _ => none) with
  | some x => .error x
  | none =>
      .ok (updateAll (fun k v =>
        match f k v with
        | .ok v' => v'
        | .error _ => v) m)

theorem lookup_of_tryUpdateAll [DecidableEq K] {ε : Type*}
    {f : K → V → Except ε V} {m m' : HashMap K V}
    (h : tryUpdateAll f m = .ok m') {k : K} {v' : V}
    (hk : m'.lookup k = some v') : ∃ v, m.lookup k = some v ∧ f k v = .ok v' := by
  unfold tryUpdateAll at h
  split at h
  · cases h
  · rename_i hnone
    cases h
    rw [lookup_updateAll, Option.map_eq_some_iff] at hk
    obtain ⟨v, hv, hval⟩ := hk
    refine ⟨v, hv, ?_⟩
    have hok := List.findSome?_eq_none_iff.mp hnone ⟨k, v⟩
      (mem_entries_iff.mpr hv)
    dsimp only at hok
    cases hf : f k v with
    | error x =>
        rw [hf] at hok
        cases hok
    | ok u =>
        rw [hf] at hval
        rw [← hval]

/-- The loop goes through when the body succeeds on every entry. -/
theorem tryUpdateAll_ok_iff [DecidableEq K] {ε : Type*}
    {f : K → V → Except ε V} {m : HashMap K V} :
    (∃ m', tryUpdateAll f m = .ok m') ↔
      ∀ k v, m.lookup k = some v → ∃ v', f k v = .ok v' := by
  constructor
  · rintro ⟨m', h⟩ k v hv
    unfold tryUpdateAll at h
    split at h
    · cases h
    · rename_i hnone
      have hok := List.findSome?_eq_none_iff.mp hnone ⟨k, v⟩
        (mem_entries_iff.mpr hv)
      dsimp only at hok
      cases hf : f k v with
      | error x =>
          rw [hf] at hok
          cases hok
      | ok v' => exact ⟨v', rfl⟩
  · intro h
    have hnone : m.entries.findSome? (fun e =>
        match f e.1 e.2 with
        | .error x => some x
        | .ok _ => none) = none := by
      apply List.findSome?_eq_none_iff.mpr
      intro e he
      obtain ⟨v', hv'⟩ := h e.1 e.2 (mem_entries_iff.mp he)
      rw [hv']
    unfold tryUpdateAll
    rw [hnone]
    exact ⟨_, rfl⟩

theorem lookup_tryUpdateAll [DecidableEq K] {ε : Type*}
    {f : K → V → Except ε V} {m m' : HashMap K V}
    (h : tryUpdateAll f m = .ok m') {k : K} {v' : V} :
    m'.lookup k = some v' ↔ ∃ v, m.lookup k = some v ∧ f k v = .ok v' := by
  constructor
  · exact lookup_of_tryUpdateAll h
  · rintro ⟨v, hv, hf⟩
    unfold tryUpdateAll at h
    split at h
    · cases h
    · cases h
      rw [lookup_updateAll, hv]
      dsimp only [Option.map_some]
      rw [hf]

/-- A body that leaves every entry as it is leaves the map as it is. -/
theorem tryUpdateAll_fixed [DecidableEq K] {ε : Type*}
    {f : K → V → Except ε V} {m : HashMap K V}
    (h : ∀ k v, m.lookup k = some v → f k v = .ok v) :
    tryUpdateAll f m = .ok m := by
  obtain ⟨m', hm'⟩ := tryUpdateAll_ok_iff.mpr (fun k v hv => ⟨v, h k v hv⟩)
  rw [hm']
  unfold tryUpdateAll at hm'
  split at hm'
  · cases hm'
  · cases hm'
    congr 1
    apply AList.ext
    show m.entries.map _ = m.entries
    conv_rhs => rw [← List.map_id m.entries]
    apply List.map_congr_left
    intro e he
    dsimp only
    rw [h e.1 e.2 (mem_entries_iff.mp he)]
    rfl

/-- The iteration order does not matter. -/
theorem tryUpdateAll_same [DecidableEq K] {ε : Type*}
    {f g : K → V → Except ε V} (hfg : ∀ k v, f k v = g k v)
    {a b a' : HashMap K V} (hab : SameMap a b)
    (h : tryUpdateAll f a = .ok a') :
    ∃ b', tryUpdateAll g b = .ok b' ∧ SameMap a' b' := by
  have hok := tryUpdateAll_ok_iff.mp ⟨a', h⟩
  obtain ⟨b', hb'⟩ : ∃ b', tryUpdateAll g b = .ok b' := by
    apply tryUpdateAll_ok_iff.mpr
    intro k v hv
    rw [← hab k] at hv
    rw [← hfg k v]
    exact hok k v hv
  refine ⟨b', hb', ?_⟩
  intro k
  apply Option.ext
  intro v'
  rw [lookup_tryUpdateAll h, lookup_tryUpdateAll hb']
  simp only [hab k, hfg]

/-- Inserting a list of values under distinct keys. -/
theorem lookup_foldl_insert [DecidableEq K] {α : Type*} (key : α → K)
    (val : α → V) {l : List α} (hkeys : (l.map key).Nodup) (m : HashMap K V)
    {k : K} {v : V} :
    (l.foldl (fun m a => AList.insert (key a) (val a) m) m).lookup k = some v ↔
      (∃ a ∈ l, key a = k ∧ val a = v) ∨
        ((∀ a ∈ l, key a ≠ k) ∧ m.lookup k = some v) := by
  induction l generalizing m with
  | nil => simp
  | cons a l ih =>
      rw [List.map_cons, List.nodup_cons] at hkeys
      rw [List.foldl_cons, ih hkeys.2]
      simp only [List.mem_cons, exists_eq_or_imp, forall_eq_or_imp]
      by_cases hak : key a = k
      · subst hak
        have hnone : ∀ b ∈ l, key b ≠ key a := fun b hb he =>
          hkeys.1 (he ▸ List.mem_map_of_mem hb)
        rw [AList.lookup_insert]
        constructor
        · rintro (⟨b, hb, heq, -⟩ | ⟨-, hv⟩)
          · exact absurd heq (hnone b hb)
          · exact Or.inl (Or.inl ⟨rfl, Option.some.inj hv⟩)
        · rintro ((⟨-, rfl⟩ | ⟨b, hb, heq, -⟩) | ⟨⟨hne, -⟩, -⟩)
          · exact Or.inr ⟨hnone, rfl⟩
          · exact absurd heq (hnone b hb)
          · exact absurd rfl hne
      · rw [AList.lookup_insert_ne (Ne.symm hak)]
        simp [hak]

/-! ## Point updates -/

/-- Updates that are right for their keys, at least one for every key on which
`f` and `g` differ, turn `f` into `g`: in whatever order, and however often a
key occurs. -/
theorem foldl_update_eq [DecidableEq K] {f g : K → V} {updates : List (K × V)}
    (hright : ∀ u ∈ updates, u.2 = g u.1)
    (hcover : ∀ k, f k ≠ g k → k ∈ updates.map Prod.fst) :
    updates.foldl (fun f u => Function.update f u.1 u.2) f = g := by
  induction updates generalizing f with
  | nil =>
      ext k
      by_contra hk
      exact absurd (hcover k hk) (by simp)
  | cons u updates ih =>
      rw [List.foldl_cons]
      apply ih (fun v hv => hright v (List.mem_cons_of_mem _ hv))
      intro k hk
      by_cases hu : k = u.1
      · subst hu
        rw [Function.update_self] at hk
        exact absurd (hright u List.mem_cons_self) hk
      · rw [Function.update_of_ne hu] at hk
        exact (List.mem_cons.mp (hcover k hk)).resolve_left hu

/-! ## An index of a store -/

section Index

variable [DecidableEq K] {A T : Type*} [DecidableEq A] {key : T → K}
  {index : HashMap K A} {store : HashMap A T}

/-- `index` has every item of `store` under its key, and nothing else. -/
def Indexes (key : T → K) (index : HashMap K A) (store : HashMap A T) : Prop :=
  ∀ k a, index.lookup k = some a ↔ ∃ x, store.lookup a = some x ∧ key x = k

theorem indexes_empty : Indexes key (∅ : HashMap K A) (∅ : HashMap A T) := by
  intro k a
  simp

/-- Two items with one key are one item. -/
theorem Indexes.eq_of_key_eq (h : Indexes key index store) {a b : A} {x y : T}
    (ha : store.lookup a = some x) (hb : store.lookup b = some y)
    (hkey : key x = key y) : a = b := by
  have hka := (h (key x) a).mpr ⟨x, ha, rfl⟩
  have hkb := (h (key x) b).mpr ⟨y, hb, hkey.symm⟩
  exact Option.some.inj (hka.symm.trans hkb)

theorem Indexes.insert (h : Indexes key index store) {a : A} {x : T}
    (ha : store.lookup a = none) (hx : index.lookup (key x) = none) :
    Indexes key (AList.insert (key x) a index) (AList.insert a x store) := by
  intro k b
  by_cases hb : b = a
  · subst hb
    rw [AList.lookup_insert]
    by_cases hk : k = key x
    · subst hk
      simp [AList.lookup_insert]
    · rw [AList.lookup_insert_ne hk, h, ha]
      simp [Ne.symm hk]
  · rw [AList.lookup_insert_ne hb, ← h]
    by_cases hk : k = key x
    · subst hk
      simp [AList.lookup_insert, hx, Ne.symm hb]
    · rw [AList.lookup_insert_ne hk]

theorem Indexes.erase (h : Indexes key index store) {a : A} {x : T}
    (ha : store.lookup a = some x) :
    Indexes key (AList.erase (key x) index) (AList.erase a store) := by
  intro k b
  by_cases hb : b = a
  · subst hb
    rw [AList.lookup_erase]
    by_cases hk : k = key x
    · subst hk
      simp [AList.lookup_erase]
    · rw [AList.lookup_erase_ne hk, h, ha]
      simp [Ne.symm hk]
  · rw [AList.lookup_erase_ne hb, ← h]
    by_cases hk : k = key x
    · subst hk
      have hkx := (h (key x) a).mpr ⟨x, ha, rfl⟩
      simp [AList.lookup_erase, hkx, Ne.symm hb]
    · rw [AList.lookup_erase_ne hk]

end Index

end HashMap
