import Mathlib.Order.Lattice
import Mathlib.Data.List.Basic
import Mathlib.Data.List.Pairwise
import Mathlib.Data.List.Nodup
import Mathlib.Data.List.Perm.Subperm

/-!
# Finite maps ordered by key

A map is the list of its entries, strictly ascending by key; the order is a
field, so an unsorted or ambiguous map cannot be built. Iteration is the list
itself. Every operation is described by the entries it leaves, and clients
reason through those membership lemmas alone.
-/

structure OrdMap (κ β : Type*) [LT κ] where
  entries : List (κ × β)
  sorted : entries.Pairwise (fun a b => a.1 < b.1)

namespace OrdMap

variable {κ β : Type*} [LinearOrder κ]

theorem ext {m m' : OrdMap κ β} (h : m.entries = m'.entries) : m = m' := by
  cases m
  cases m'
  cases h
  rfl

instance [DecidableEq β] : DecidableEq (OrdMap κ β) := fun m m' =>
  decidable_of_iff (m.entries = m'.entries)
    ⟨ext, fun h => congrArg OrdMap.entries h⟩

/-! ## Operations -/

def empty : OrdMap κ β := ⟨[], List.Pairwise.nil⟩

def get? (m : OrdMap κ β) (k : κ) : Option β :=
  (m.entries.find? (fun e => decide (e.1 = k))).map Prod.snd

def containsKey (m : OrdMap κ β) (k : κ) : Bool :=
  m.entries.any (fun e => decide (e.1 = k))

def len (m : OrdMap κ β) : ℕ := m.entries.length

def isEmpty (m : OrdMap κ β) : Bool := m.entries.isEmpty

/-- Keep the entries that satisfy `p`. -/
def retain (p : κ → β → Bool) (m : OrdMap κ β) : OrdMap κ β :=
  ⟨m.entries.filter (fun e => p e.1 e.2), m.sorted.filter _⟩

/-- `retain` by a test that may fail, and then fails as a whole. -/
def retain? (p : κ → β → Option Bool) (m : OrdMap κ β) :
    Option (OrdMap κ β) :=
  if m.entries.all (fun e => (p e.1 e.2).isSome) then
    some (m.retain (fun k v => (p k v).getD false))
  else none

def erase (k : κ) (m : OrdMap κ β) : OrdMap κ β :=
  m.retain (fun k' _ => decide (k' ≠ k))

/-- Replace the values, key by key. -/
def withEntries (m : OrdMap κ β) (l : List (κ × β))
    (h : l.map Prod.fst = m.entries.map Prod.fst) : OrdMap κ β :=
  ⟨l, by
    have hm : (m.entries.map Prod.fst).Pairwise (· < ·) :=
      List.pairwise_map.mpr m.sorted
    rw [← h] at hm
    exact List.pairwise_map.mp hm⟩

/-- Apply `f` to the value under `k`, if there is one. -/
def modify (k : κ) (f : β → β) (m : OrdMap κ β) : OrdMap κ β :=
  m.withEntries (m.entries.map (fun e => if e.1 = k then (e.1, f e.2) else e))
    (by
      rw [List.map_map]
      apply List.map_congr_left
      intro e _
      simp only [Function.comp]
      split <;> rfl)

def insertEntry (k : κ) (v : β) : List (κ × β) → List (κ × β)
  | [] => [(k, v)]
  | e :: es =>
      if k < e.1 then (k, v) :: e :: es
      else if e.1 < k then e :: insertEntry k v es
      else (k, v) :: es

/-! ## Entries of a sorted list -/

theorem mem_insertEntry {k : κ} {v : β} {x : κ × β} {l : List (κ × β)}
    (hs : l.Pairwise (fun a b => a.1 < b.1)) :
    x ∈ insertEntry k v l ↔ x = (k, v) ∨ (x ∈ l ∧ x.1 ≠ k) := by
  induction l with
  | nil => simp [insertEntry]
  | cons e es ih =>
      rcases List.pairwise_cons.mp hs with ⟨he, hes⟩
      rcases lt_trichotomy k e.1 with h | h | h
      · -- the new key is below every old one: nothing is replaced
        have hne : ∀ y ∈ e :: es, y.1 ≠ k := by
          intro y hy
          rcases List.mem_cons.mp hy with rfl | hy'
          · exact h.ne'
          · exact (h.trans (he y hy')).ne'
        simp only [insertEntry, if_pos h, List.mem_cons]
        constructor
        · rintro (hx | hx)
          · exact Or.inl hx
          · exact Or.inr ⟨hx, hne x (List.mem_cons.mpr hx)⟩
        · rintro (hx | ⟨hx, -⟩)
          · exact Or.inl hx
          · exact Or.inr hx
      · have hne : ∀ y ∈ es, y.1 ≠ k := fun y hy => h ▸ (he y hy).ne'
        have hlt : ¬ k < e.1 := h ▸ lt_irrefl k
        have hlt' : ¬ e.1 < k := h ▸ lt_irrefl k
        simp only [insertEntry, if_neg hlt, if_neg hlt', List.mem_cons]
        constructor
        · rintro (hx | hx)
          · exact Or.inl hx
          · exact Or.inr ⟨Or.inr hx, hne x hx⟩
        · rintro (hx | ⟨hx | hx, hk⟩)
          · exact Or.inl hx
          · exact absurd (by rw [hx, h]) hk
          · exact Or.inr hx
      · simp only [insertEntry, if_neg (lt_asymm h), if_pos h, List.mem_cons,
          ih hes]
        constructor
        · rintro (hx | hx | ⟨hx, hk⟩)
          · exact Or.inr ⟨Or.inl hx, by rw [hx]; exact h.ne⟩
          · exact Or.inl hx
          · exact Or.inr ⟨Or.inr hx, hk⟩
        · rintro (hx | ⟨hx | hx, hk⟩)
          · exact Or.inr (Or.inl hx)
          · exact Or.inl hx
          · exact Or.inr (Or.inr ⟨hx, hk⟩)

theorem insertEntry_sorted {k : κ} {v : β} {l : List (κ × β)}
    (hs : l.Pairwise (fun a b => a.1 < b.1)) :
    (insertEntry k v l).Pairwise (fun a b => a.1 < b.1) := by
  induction l with
  | nil => exact List.pairwise_singleton _ _
  | cons e es ih =>
      rcases List.pairwise_cons.mp hs with ⟨he, hes⟩
      rcases lt_trichotomy k e.1 with h | h | h
      · rw [insertEntry, if_pos h]
        refine List.pairwise_cons.mpr ⟨?_, hs⟩
        intro y hy
        rcases List.mem_cons.mp hy with rfl | hy'
        · exact h
        · exact h.trans (he y hy')
      · rw [insertEntry, if_neg (h ▸ lt_irrefl k), if_neg (h ▸ lt_irrefl k)]
        exact List.pairwise_cons.mpr ⟨fun y hy => h ▸ he y hy, hes⟩
      · rw [insertEntry, if_neg (lt_asymm h), if_pos h]
        refine List.pairwise_cons.mpr ⟨?_, ih hes⟩
        intro y hy
        rcases (mem_insertEntry hes).mp hy with rfl | ⟨hy', -⟩
        · exact h
        · exact he y hy'

theorem length_insertEntry_le {k : κ} {v : β} (l : List (κ × β)) :
    (insertEntry k v l).length ≤ l.length + 1 := by
  induction l with
  | nil => simp [insertEntry]
  | cons e es ih =>
      simp only [insertEntry]
      split
      · simp
      · split
        · simp only [List.length_cons]
          omega
        · simp

theorem length_insertEntry_new {k : κ} {v : β} (l : List (κ × β))
    (h : ∀ x ∈ l, x.1 ≠ k) : (insertEntry k v l).length = l.length + 1 := by
  induction l with
  | nil => rfl
  | cons e es ih =>
      have ih := ih (fun x hx => h x (List.mem_cons_of_mem _ hx))
      simp only [insertEntry]
      split
      · rfl
      · split
        · rw [List.length_cons, ih, List.length_cons]
        · rename_i hlt hgt
          exact absurd (le_antisymm (not_lt.mp hlt) (not_lt.mp hgt))
            (h e List.mem_cons_self)

def insert (k : κ) (v : β) (m : OrdMap κ β) : OrdMap κ β :=
  ⟨insertEntry k v m.entries, insertEntry_sorted m.sorted⟩

/-! ## What each operation leaves -/

@[simp] theorem entries_empty : (empty : OrdMap κ β).entries = [] := rfl

@[simp] theorem len_empty : (empty : OrdMap κ β).len = 0 := rfl

theorem mem_insert {k : κ} {v : β} {m : OrdMap κ β} {x : κ × β} :
    x ∈ (m.insert k v).entries ↔ x = (k, v) ∨ (x ∈ m.entries ∧ x.1 ≠ k) :=
  mem_insertEntry m.sorted

theorem mem_retain {p : κ → β → Bool} {m : OrdMap κ β} {x : κ × β} :
    x ∈ (m.retain p).entries ↔ x ∈ m.entries ∧ p x.1 x.2 = true := by
  simp [retain, List.mem_filter]

theorem mem_erase {k : κ} {m : OrdMap κ β} {x : κ × β} :
    x ∈ (m.erase k).entries ↔ x ∈ m.entries ∧ x.1 ≠ k := by
  simp [erase, mem_retain]

theorem mem_modify {k : κ} {f : β → β} {m : OrdMap κ β} {x : κ × β} :
    x ∈ (m.modify k f).entries ↔
      ∃ e ∈ m.entries, x = if e.1 = k then (e.1, f e.2) else e := by
  simp only [modify, withEntries, List.mem_map]
  constructor
  · rintro ⟨e, he, rfl⟩
    exact ⟨e, he, rfl⟩
  · rintro ⟨e, he, rfl⟩
    exact ⟨e, he, rfl⟩

/-- What does not look at the changed part of the value does not see it. -/
theorem map_modify {γ : Type*} {g : κ × β → γ} {k : κ} {f : β → β}
    {m : OrdMap κ β} (hg : ∀ e, g (e.1, f e.2) = g e) :
    (m.modify k f).entries.map g = m.entries.map g := by
  simp only [modify, withEntries, List.map_map]
  apply List.map_congr_left
  intro e _
  simp only [Function.comp]
  split
  · exact hg e
  · rfl

theorem keys_modify {k : κ} {f : β → β} {m : OrdMap κ β} :
    (m.modify k f).entries.map Prod.fst = m.entries.map Prod.fst :=
  map_modify (fun _ => rfl)

@[simp] theorem len_modify {k : κ} {f : β → β} {m : OrdMap κ β} :
    (m.modify k f).len = m.len := by
  simp [len, modify, withEntries]

theorem len_insert_le {k : κ} {v : β} {m : OrdMap κ β} :
    (m.insert k v).len ≤ m.len + 1 :=
  length_insertEntry_le m.entries

theorem len_insert_new {k : κ} {v : β} {m : OrdMap κ β}
    (h : ∀ x ∈ m.entries, x.1 ≠ k) : (m.insert k v).len = m.len + 1 :=
  length_insertEntry_new m.entries h

theorem len_retain_le {p : κ → β → Bool} {m : OrdMap κ β} :
    (m.retain p).len ≤ m.len :=
  List.length_filter_le _ _

theorem len_retain_lt {p : κ → β → Bool} {m : OrdMap κ β} {x : κ × β}
    (hx : x ∈ m.entries) (hp : p x.1 x.2 = false) :
    (m.retain p).len < m.len := by
  refine Nat.lt_of_le_of_ne len_retain_le fun heq => ?_
  have hall := List.length_filter_eq_length_iff.mp heq x hx
  rw [hp] at hall
  cases hall

theorem retain_eq_self {p : κ → β → Bool} {m : OrdMap κ β}
    (h : ∀ x ∈ m.entries, p x.1 x.2 = true) : m.retain p = m :=
  ext (List.filter_eq_self.mpr h)

theorem retain?_eq {p : κ → β → Option Bool} {q : κ → β → Bool}
    {m : OrdMap κ β} (h : ∀ x ∈ m.entries, p x.1 x.2 = some (q x.1 x.2)) :
    m.retain? p = some (m.retain q) := by
  unfold retain?
  rw [if_pos]
  · congr 1
    apply ext
    apply List.filter_congr
    intro x hx
    dsimp only
    rw [h x hx]
    rfl
  · apply List.all_eq_true.mpr
    intro x hx
    rw [h x hx]
    rfl

/-! ## Lookup -/

theorem keys_nodup (m : OrdMap κ β) : (m.entries.map Prod.fst).Nodup :=
  List.pairwise_map.mpr (m.sorted.imp (fun hab => ne_of_lt hab))

theorem len_le_of_keys {m m' : OrdMap κ β}
    (h : ∀ x ∈ m.entries, ∃ p, (x.1, p) ∈ m'.entries) : m.len ≤ m'.len := by
  have hsub : m.entries.map Prod.fst ⊆ m'.entries.map Prod.fst := by
    intro k hk
    obtain ⟨x, hx, rfl⟩ := List.mem_map.mp hk
    obtain ⟨p, hp⟩ := h x hx
    exact List.mem_map.mpr ⟨(x.1, p), hp, rfl⟩
  have hle := (m.keys_nodup.subperm hsub).length_le
  rw [List.length_map, List.length_map] at hle
  exact hle

/-- A map is determined by the entries it holds. -/
theorem ext_mem {m m' : OrdMap κ β}
    (h : ∀ x, x ∈ m.entries ↔ x ∈ m'.entries) : m = m' := by
  apply ext
  have hperm : m.entries.Perm m'.entries :=
    (List.perm_ext_iff_of_nodup m.keys_nodup.of_map m'.keys_nodup.of_map).mpr h
  apply hperm.eq_of_pairwise _ m.sorted m'.sorted
  intro a b _ _ hab hba
  exact absurd hab (lt_asymm hba)

theorem mem_unique {m : OrdMap κ β} {k : κ} {v v' : β}
    (h : (k, v) ∈ m.entries) (h' : (k, v') ∈ m.entries) : v = v' :=
  congrArg Prod.snd (List.inj_on_of_nodup_map m.keys_nodup h h' rfl)

theorem containsKey_iff {m : OrdMap κ β} {k : κ} :
    m.containsKey k = true ↔ ∃ v, (k, v) ∈ m.entries := by
  simp only [containsKey, List.any_eq_true, decide_eq_true_eq]
  constructor
  · rintro ⟨⟨k', v⟩, he, rfl⟩
    exact ⟨v, he⟩
  · rintro ⟨v, hv⟩
    exact ⟨(k, v), hv, rfl⟩

theorem get?_eq_some {m : OrdMap κ β} {k : κ} {v : β} :
    m.get? k = some v ↔ (k, v) ∈ m.entries := by
  constructor
  · intro h
    obtain ⟨e, he, rfl⟩ := Option.map_eq_some_iff.mp h
    have hk : e.1 = k := by simpa using List.find?_some he
    rw [← hk]
    exact List.mem_of_find?_eq_some he
  · intro h
    cases hf : m.entries.find? (fun e => decide (e.1 = k)) with
    | none =>
        have := List.find?_eq_none.mp hf (k, v) h
        simp at this
    | some e =>
        have hk : e.1 = k := by simpa using List.find?_some hf
        have hm : (k, e.2) ∈ m.entries := hk ▸ List.mem_of_find?_eq_some hf
        simp [get?, hf, mem_unique hm h]

theorem get?_eq_none {m : OrdMap κ β} {k : κ} :
    m.get? k = none ↔ ∀ v, (k, v) ∉ m.entries := by
  constructor
  · intro h v hv
    rw [get?_eq_some.mpr hv] at h
    cases h
  · intro h
    cases hg : m.get? k with
    | none => rfl
    | some v => exact absurd (get?_eq_some.mp hg) (h v)

theorem len_erase_lt {m : OrdMap κ β} {k : κ} {v : β}
    (h : (k, v) ∈ m.entries) : (m.erase k).len < m.len := by
  have := List.length_filter_lt_length_iff_exists
    (p := fun e : κ × β => decide (e.1 ≠ k)) (l := m.entries)
  exact this.mpr ⟨(k, v), h, by simp⟩

end OrdMap
