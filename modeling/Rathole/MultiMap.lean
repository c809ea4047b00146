import Rathole.Lib.HashMap

/-!
# A map with two keys (`multi_map.rs`)

The items are boxes in a store; both maps hold references to them, the first
under the item's first key and the second under its second key. The structure
carries the proofs that each map is an index of the store: no reference
dangles, and no item is missing from a map.
-/

namespace Rathole

open HashMap

structure MultiMap (K₁ K₂ V : Type) [DecidableEq K₁] [DecidableEq K₂] where
  map1 : HashMap K₁ Nat
  map2 : HashMap K₂ Nat
  store : HashMap Nat (K₁ × K₂ × V)
  /-- The address of the next box. -/
  next : Nat
  ref1 : Indexes (fun x => x.1) map1 store
  ref2 : Indexes (fun x => x.2.1) map2 store
  fresh : ∀ a x, store.lookup a = some x → a < next

namespace MultiMap

variable {K₁ K₂ V : Type} [DecidableEq K₁] [DecidableEq K₂]

def new : MultiMap K₁ K₂ V where
  map1 := ∅
  map2 := ∅
  store := ∅
  next := 0
  ref1 := indexes_empty
  ref2 := indexes_empty
  fresh := by simp

def get1 (m : MultiMap K₁ K₂ V) (k₁ : K₁) : Option V :=
  match m.map1.lookup k₁ with
  | none => none
  | some item => (m.store.lookup item).map (fun x => x.2.2)

def get2 (m : MultiMap K₁ K₂ V) (k₂ : K₂) : Option V :=
  match m.map2.lookup k₂ with
  | none => none
  | some item => (m.store.lookup item).map (fun x => x.2.2)

theorem lookup_next (m : MultiMap K₁ K₂ V) : m.store.lookup m.next = none := by
  cases h : m.store.lookup m.next with
  | none => rfl
  | some x => exact absurd (m.fresh _ _ h) (Nat.lt_irrefl _)

/-- A new box, under keys that are not in use. -/
def insertBox (m : MultiMap K₁ K₂ V) (x : K₁ × K₂ × V)
    (h₁ : m.map1.lookup x.1 = none) (h₂ : m.map2.lookup x.2.1 = none) :
    MultiMap K₁ K₂ V where
  map1 := AList.insert x.1 m.next m.map1
  map2 := AList.insert x.2.1 m.next m.map2
  store := AList.insert m.next x m.store
  next := m.next + 1
  ref1 := m.ref1.insert m.lookup_next h₁
  ref2 := m.ref2.insert m.lookup_next h₂
  fresh := by
    intro a y h
    by_cases ha : a = m.next
    · omega
    · rw [AList.lookup_insert_ne ha] at h
      exact Nat.lt_succ_of_lt (m.fresh a y h)

def insert (m : MultiMap K₁ K₂ V) (k₁ : K₁) (k₂ : K₂) (v : V) :
    Except (K₁ × K₂ × V) (MultiMap K₁ K₂ V) :=
  if h : m.map1.lookup k₁ = none ∧ m.map2.lookup k₂ = none then
    .ok (m.insertBox (k₁, k₂, v) h.1 h.2)
  else .error (k₁, k₂, v)

/-- The box at `a` is freed and its keys are taken out of the maps. -/
def freeBox (m : MultiMap K₁ K₂ V) (a : Nat) (x : K₁ × K₂ × V)
    (h : m.store.lookup a = some x) : MultiMap K₁ K₂ V where
  map1 := AList.erase x.1 m.map1
  map2 := AList.erase x.2.1 m.map2
  store := AList.erase a m.store
  next := m.next
  ref1 := m.ref1.erase h
  ref2 := m.ref2.erase h
  fresh := by
    intro b y hb
    by_cases hba : b = a
    · rw [hba, AList.lookup_erase] at hb
      cases hb
    · rw [AList.lookup_erase_ne hba] at hb
      exact m.fresh b y hb

def remove1 (m : MultiMap K₁ K₂ V) (k₁ : K₁) : Option V × MultiMap K₁ K₂ V :=
  match m.map1.lookup k₁ with
  | none => (none, m)
  | some a =>
      match h : m.store.lookup a with
      | none => (none, m)   -- excluded by `ref1`
      | some x => (some x.2.2, m.freeBox a x h)

/-- The boxes left when those that `refs` names are freed. -/
def drain {T : Type} (store : HashMap Nat T) (refs : List Nat) :
    HashMap Nat T :=
  refs.foldl (fun store a => AList.erase a store) store

theorem lookup_drain {T : Type} {refs : List Nat} {store : HashMap Nat T}
    {a : Nat} {x : T} (h : (drain store refs).lookup a = some x) :
    store.lookup a = some x ∧ a ∉ refs := by
  induction refs generalizing store with
  | nil => exact ⟨h, List.not_mem_nil⟩
  | cons b refs ih =>
      obtain ⟨hstore, hrefs⟩ := ih h
      have hab : a ≠ b := by
        rintro rfl
        rw [AList.lookup_erase] at hstore
        cases hstore
      rw [AList.lookup_erase_ne hab] at hstore
      exact ⟨hstore, by simp [hab, hrefs]⟩

theorem lookup_drain_map2 (m : MultiMap K₁ K₂ V) (a : Nat) :
    (drain m.store (m.map2.entries.map Sigma.snd)).lookup a = none := by
  cases h : (drain m.store (m.map2.entries.map Sigma.snd)).lookup a with
  | none => rfl
  | some x =>
      obtain ⟨hstore, hrefs⟩ := lookup_drain h
      -- a box that is left has no reference, but every box has one
      have href : (⟨x.2.1, a⟩ : (_ : K₂) × Nat) ∈ m.map2.entries :=
        mem_entries_iff.mpr ((m.ref2 x.2.1 a).mpr ⟨x, hstore, rfl⟩)
      exact absurd (List.mem_map_of_mem href) hrefs

def clear (m : MultiMap K₁ K₂ V) : MultiMap K₁ K₂ V where
  map1 := ∅
  map2 := ∅
  store := drain m.store (m.map2.entries.map Sigma.snd)
  next := m.next
  ref1 := by
    intro k a
    simp [lookup_drain_map2]
  ref2 := by
    intro k a
    simp [lookup_drain_map2]
  fresh := by simp [lookup_drain_map2]

/-! ## Specification, by items -/

/-- The item `(k₁, k₂, v)` is in the map. -/
def Entry (m : MultiMap K₁ K₂ V) (k₁ : K₁) (k₂ : K₂) (v : V) : Prop :=
  ∃ a, m.store.lookup a = some (k₁, k₂, v)

section

variable {m m' : MultiMap K₁ K₂ V} {k₁ k₁' : K₁} {k₂ k₂' : K₂} {v v' : V}

theorem Entry.unique1 (h : m.Entry k₁ k₂ v) (h' : m.Entry k₁ k₂' v') :
    k₂ = k₂' ∧ v = v' := by
  obtain ⟨a, ha⟩ := h
  obtain ⟨b, hb⟩ := h'
  obtain rfl := m.ref1.eq_of_key_eq ha hb rfl
  cases Option.some.inj (ha.symm.trans hb)
  exact ⟨rfl, rfl⟩

theorem Entry.unique2 (h : m.Entry k₁ k₂ v) (h' : m.Entry k₁' k₂ v') :
    k₁ = k₁' ∧ v = v' := by
  obtain ⟨a, ha⟩ := h
  obtain ⟨b, hb⟩ := h'
  obtain rfl := m.ref2.eq_of_key_eq ha hb rfl
  cases Option.some.inj (ha.symm.trans hb)
  exact ⟨rfl, rfl⟩

theorem lookup_map1_eq_none :
    m.map1.lookup k₁ = none ↔ ∀ k₂ v, ¬ m.Entry k₁ k₂ v := by
  constructor
  · rintro hnone k₂ v ⟨a, ha⟩
    rw [(m.ref1 k₁ a).mpr ⟨_, ha, rfl⟩] at hnone
    cases hnone
  · intro h
    cases hk : m.map1.lookup k₁ with
    | none => rfl
    | some a =>
        obtain ⟨⟨_, k₂, v⟩, hx, rfl⟩ := (m.ref1 k₁ a).mp hk
        exact absurd ⟨a, hx⟩ (h k₂ v)

theorem lookup_map2_eq_none :
    m.map2.lookup k₂ = none ↔ ∀ k₁ v, ¬ m.Entry k₁ k₂ v := by
  constructor
  · rintro hnone k₁ v ⟨a, ha⟩
    rw [(m.ref2 k₂ a).mpr ⟨_, ha, rfl⟩] at hnone
    cases hnone
  · intro h
    cases hk : m.map2.lookup k₂ with
    | none => rfl
    | some a =>
        obtain ⟨⟨k₁, _, v⟩, hx, rfl⟩ := (m.ref2 k₂ a).mp hk
        exact absurd ⟨a, hx⟩ (h k₁ v)

theorem get1_eq_some : m.get1 k₁ = some v ↔ ∃ k₂, m.Entry k₁ k₂ v := by
  unfold get1
  constructor
  · intro h
    split at h
    · cases h
    · rename_i a ha
      obtain ⟨⟨_, k₂, w⟩, hx, rfl⟩ := (m.ref1 k₁ a).mp ha
      rw [hx] at h
      cases h
      exact ⟨k₂, a, hx⟩
  · rintro ⟨k₂, a, ha⟩
    rw [(m.ref1 k₁ a).mpr ⟨_, ha, rfl⟩]
    dsimp only
    rw [ha]
    rfl

theorem get2_eq_some : m.get2 k₂ = some v ↔ ∃ k₁, m.Entry k₁ k₂ v := by
  unfold get2
  constructor
  · intro h
    split at h
    · cases h
    · rename_i a ha
      obtain ⟨⟨k₁, _, w⟩, hx, rfl⟩ := (m.ref2 k₂ a).mp ha
      rw [hx] at h
      cases h
      exact ⟨k₁, a, hx⟩
  · rintro ⟨k₁, a, ha⟩
    rw [(m.ref2 k₂ a).mpr ⟨_, ha, rfl⟩]
    dsimp only
    rw [ha]
    rfl

theorem not_entry_new : ¬ (new : MultiMap K₁ K₂ V).Entry k₁ k₂ v := by
  rintro ⟨a, ha⟩
  cases ha

theorem not_entry_clear : ¬ m.clear.Entry k₁ k₂ v := by
  rintro ⟨a, ha⟩
  rw [show m.clear.store.lookup a = none from lookup_drain_map2 m a] at ha
  cases ha

theorem entry_freeBox {a : Nat} {x : K₁ × K₂ × V}
    (h : m.store.lookup a = some x) :
    (m.freeBox a x h).Entry k₁ k₂ v ↔ m.Entry k₁ k₂ v ∧ k₁ ≠ x.1 := by
  have hstore : (m.freeBox a x h).store = AList.erase a m.store := rfl
  constructor
  · rintro ⟨b, hb⟩
    have hba : b ≠ a := by
      rintro rfl
      rw [hstore, AList.lookup_erase] at hb
      cases hb
    rw [hstore, AList.lookup_erase_ne hba] at hb
    exact ⟨⟨b, hb⟩, fun hk => hba (m.ref1.eq_of_key_eq hb h hk)⟩
  · rintro ⟨⟨b, hb⟩, hk⟩
    refine ⟨b, ?_⟩
    have hba : b ≠ a := by
      rintro rfl
      cases Option.some.inj (hb.symm.trans h)
      exact hk rfl
    rw [hstore, AList.lookup_erase_ne hba]
    exact hb

theorem entry_remove1 {k : K₁} :
    (m.remove1 k).2.Entry k₁ k₂ v ↔ m.Entry k₁ k₂ v ∧ k₁ ≠ k := by
  unfold remove1
  split
  · rename_i hnone
    have habsent := lookup_map1_eq_none.mp hnone
    constructor
    · intro h
      refine ⟨h, ?_⟩
      rintro rfl
      exact habsent k₂ v h
    · exact And.left
  · rename_i a ha
    obtain ⟨x, hx, rfl⟩ := (m.ref1 k a).mp ha
    split
    · rename_i hnone
      rw [hx] at hnone
      cases hnone
    · rename_i y hy
      cases Option.some.inj (hx.symm.trans hy)
      exact entry_freeBox hy

/-- What `remove1` returns is the item it removes. -/
theorem remove1_fst_eq_some {k : K₁} :
    (m.remove1 k).1 = some v ↔ ∃ k₂, m.Entry k k₂ v := by
  rw [← get1_eq_some]
  unfold remove1 get1
  split
  · rfl
  · split
    · rename_i hnone
      simp [hnone]
    · rename_i hx
      simp [hx]

theorem insert_eq_ok (h₁ : ∀ k₂' v', ¬ m.Entry k₁ k₂' v')
    (h₂ : ∀ k₁' v', ¬ m.Entry k₁' k₂ v') : ∃ m', m.insert k₁ k₂ v = .ok m' :=
  ⟨_, dif_pos ⟨lookup_map1_eq_none.mpr h₁, lookup_map2_eq_none.mpr h₂⟩⟩

theorem entry_insert (h : m.insert k₁ k₂ v = .ok m') :
    m'.Entry k₁' k₂' v' ↔
      m.Entry k₁' k₂' v' ∨ (k₁' = k₁ ∧ k₂' = k₂ ∧ v' = v) := by
  unfold insert at h
  split at h
  · cases h
    constructor
    · rintro ⟨a, ha⟩
      change AList.lookup a (AList.insert m.next (k₁, k₂, v) m.store) = _ at ha
      by_cases han : a = m.next
      · subst han
        rw [AList.lookup_insert] at ha
        cases ha
        exact Or.inr ⟨rfl, rfl, rfl⟩
      · rw [AList.lookup_insert_ne han] at ha
        exact Or.inl ⟨a, ha⟩
    · rintro (⟨a, ha⟩ | ⟨rfl, rfl, rfl⟩)
      · refine ⟨a, ?_⟩
        have han : a ≠ m.next := Nat.ne_of_lt (m.fresh _ _ ha)
        show AList.lookup a (AList.insert m.next (k₁, k₂, v) m.store) = _
        rw [AList.lookup_insert_ne han]
        exact ha
      · exact ⟨m.next, AList.lookup_insert _⟩
  · cases h

end

end MultiMap

end Rathole
