import Rathole.MultiMap.Pointers
import Mathlib.Data.Set.Function

/-!
# The pointers are a map with two keys

`PtrMap.Refers` says what one of the two maps has to do with the boxes, and
one lemma for each of its operations keeps it. `Consistent` says it of both.
-/

namespace Rathole

/-! ## One map and the boxes -/

/-- `m` refers to every box once, by a pointer to its key and a pointer to the
box itself, and the keys of the boxes are distinct. -/
structure PtrMap.Refers {K T : Type} (heap : HashMap Addr T) (key : T → K)
    (m : PtrMap) : Prop where
  own : ∀ e ∈ m, e.1 = e.2
  alive : ∀ a, (a, a) ∈ m ↔ ∃ x, heap.lookup a = some x
  nodup : m.Nodup
  distinct : ∀ a b x y, heap.lookup a = some x → heap.lookup b = some y →
    key x = key y → a = b

namespace PtrMap

variable {K T : Type} {heap : HashMap Addr T} {key : T → K} {m : PtrMap}
  {a : Addr} {x : T} {k : K}

theorem refers_nil (h : ∀ a, heap.lookup a = none) : Refers heap key [] where
  own := fun e he => absurd he List.not_mem_nil
  alive := by
    intro a
    simp [h a]
  nodup := List.nodup_nil
  distinct := by
    intro a b x y ha
    rw [h a] at ha
    cases ha

theorem Refers.keysAlive (h : Refers heap key m) :
    PtrMap.keysAlive heap m = true := by
  unfold PtrMap.keysAlive
  rw [List.all_eq_true]
  intro e he
  have hown := h.own e he
  obtain ⟨x, hx⟩ := (h.alive e.1).mp (by rwa [← Prod.eta e, ← hown] at he)
  rw [hx]
  rfl

/-- Writing a value into a box, under the same key. -/
theorem Refers.write (h : Refers heap key m) (ha : heap.lookup a = some x)
    {y : T} (hy : key y = key x) : Refers (AList.insert a y heap) key m := by
  -- a box has the key it had
  have hsame : ∀ b z, (AList.insert a y heap).lookup b = some z →
      ∃ z', heap.lookup b = some z' ∧ key z' = key z := by
    intro b z hb
    by_cases hba : b = a
    · subst hba
      rw [AList.lookup_insert] at hb
      cases hb
      exact ⟨x, ha, hy.symm⟩
    · rw [AList.lookup_insert_ne hba] at hb
      exact ⟨z, hb, rfl⟩
  refine ⟨h.own, ?_, h.nodup, ?_⟩
  · intro b
    rw [h.alive b]
    by_cases hba : b = a
    · subst hba
      simp [AList.lookup_insert, ha]
    · rw [AList.lookup_insert_ne hba]
  · intro b c z w hb hc hzw
    obtain ⟨z', hz', hkz⟩ := hsame b z hb
    obtain ⟨w', hw', hkw⟩ := hsame c w hc
    exact h.distinct b c z' w' hz' hw' (hkz.trans (hzw.trans hkw.symm))

theorem Refers.mem_refs (h : Refers heap key m) (a : Addr) :
    a ∈ m.map Prod.snd ↔ ∃ x, heap.lookup a = some x := by
  rw [← h.alive a, List.mem_map]
  constructor
  · rintro ⟨e, he, rfl⟩
    have hown := h.own e he
    rwa [← Prod.eta e, hown] at he
  · exact fun ha => ⟨(a, a), ha, rfl⟩

/-- No entry dangles, and each has the key of its item. -/
theorem Refers.item (h : Refers heap key m) {e : Addr × Addr} (he : e ∈ m) :
    ∃ x, heap.lookup e.2 = some x ∧
      (heap.lookup e.1).map key = some (key x) := by
  obtain ⟨x, hx⟩ := (h.mem_refs e.2).mp (List.mem_map_of_mem he)
  refine ⟨x, hx, ?_⟩
  rw [h.own e he, hx]
  rfl

variable [DecidableEq K]

theorem keyIs_iff {e : Addr × Addr} : PtrMap.keyIs heap key k e = true ↔
    ∃ x, heap.lookup e.1 = some x ∧ key x = k := by
  unfold PtrMap.keyIs
  rw [decide_eq_true_eq, Option.map_eq_some_iff]

/-- **`get` finds the box with the key.** -/
theorem Refers.get (h : Refers heap key m) (k : K) :
    (PtrMap.get heap key m k = some none ∧
      ∀ a x, heap.lookup a = some x → key x ≠ k) ∨
    ∃ a x, PtrMap.get heap key m k = some (some a) ∧
      heap.lookup a = some x ∧ key x = k := by
  unfold PtrMap.get
  rw [if_pos h.keysAlive]
  cases hfind : m.find? (PtrMap.keyIs heap key k) with
  | none =>
      refine Or.inl ⟨rfl, ?_⟩
      intro a x ha hk
      have hmem := (h.alive a).mpr ⟨x, ha⟩
      exact List.find?_eq_none.mp hfind _ hmem (keyIs_iff.mpr ⟨x, ha, hk⟩)
  | some e =>
      obtain ⟨x, hx, hk⟩ := keyIs_iff.mp (List.find?_some hfind)
      have hown := h.own e (List.mem_of_find?_eq_some hfind)
      exact Or.inr ⟨e.2, x, rfl, hown ▸ hx, hk⟩

/-- **`insert` of a new box.** -/
theorem Refers.insert (h : Refers heap key m) (ha : heap.lookup a = none)
    (hk : ∀ b y, heap.lookup b = some y → key y ≠ key x) :
    ∃ m', PtrMap.insert (AList.insert a x heap) key m a a = some m' ∧
      Refers (AList.insert a x heap) key m' := by
  have hold : ∀ e ∈ m, e.1 ≠ a := by
    rintro e he rfl
    have hown := h.own e he
    obtain ⟨y, hy⟩ := (h.alive e.1).mp (by rwa [← Prod.eta e, ← hown] at he)
    rw [ha] at hy
    cases hy
  have halive : PtrMap.keysAlive (AList.insert a x heap) m = true := by
    have hbefore := h.keysAlive
    unfold PtrMap.keysAlive at hbefore ⊢
    rw [List.all_eq_true] at hbefore ⊢
    intro e he
    rw [AList.lookup_insert_ne (hold e he)]
    exact hbefore e he
  have hnone : ¬ m.any (PtrMap.keyIs (AList.insert a x heap) key (key x)) =
      true := by
    rw [List.any_eq_true]
    rintro ⟨e, he, hkey⟩
    obtain ⟨y, hy, hyk⟩ := keyIs_iff.mp hkey
    rw [AList.lookup_insert_ne (hold e he)] at hy
    exact hk e.1 y hy hyk
  refine ⟨(a, a) :: m, ?_, ?_⟩
  · unfold PtrMap.insert
    rw [AList.lookup_insert]
    dsimp only
    rw [if_pos halive, if_neg hnone]
  · constructor
    · intro e he
      rcases List.mem_cons.mp he with rfl | he'
      · rfl
      · exact h.own e he'
    · intro b
      rw [List.mem_cons]
      by_cases hba : b = a
      · subst hba
        simp [AList.lookup_insert]
      · rw [AList.lookup_insert_ne hba, ← h.alive b]
        simp [hba]
    · exact List.nodup_cons.mpr ⟨fun hmem => hold _ hmem rfl, h.nodup⟩
    · intro b c y z hb hc hyz
      by_cases hba : b = a
      · subst hba
        rw [AList.lookup_insert] at hb
        cases hb
        by_contra hbc
        rw [AList.lookup_insert_ne (Ne.symm hbc)] at hc
        exact hk c z hc hyz.symm
      · rw [AList.lookup_insert_ne hba] at hb
        by_cases hca : c = a
        · subst hca
          rw [AList.lookup_insert] at hc
          cases hc
          exact absurd hyz (hk b y hb)
        · rw [AList.lookup_insert_ne hca] at hc
          exact h.distinct b c y z hb hc hyz

/-- **`remove` takes out the box with the key**, which may then be freed. -/
theorem Refers.remove (h : Refers heap key m) (k : K) :
    (∃ m', PtrMap.remove heap key m k = some (none, m') ∧
      ∀ a x, heap.lookup a = some x → key x ≠ k) ∨
    ∃ a x m', PtrMap.remove heap key m k = some (some a, m') ∧
      heap.lookup a = some x ∧ key x = k ∧
      Refers (AList.erase a heap) key m' := by
  have hget := h.get k
  unfold PtrMap.get at hget
  unfold PtrMap.remove
  rw [if_pos h.keysAlive] at hget ⊢
  rcases hget with ⟨hnone, habsent⟩ | ⟨a, x, hsome, ha, hk⟩
  · exact Or.inl ⟨_, by rw [Option.some.inj hnone], habsent⟩
  · refine Or.inr ⟨a, x, m.eraseP (PtrMap.keyIs heap key k),
      by rw [Option.some.inj hsome], ha, hk, ?_⟩
    have hmatch : PtrMap.keyIs heap key k (a, a) = true :=
      keyIs_iff.mpr ⟨x, ha, hk⟩
    -- the only entry that matches is that of `a`
    have honly : ∀ e ∈ m, PtrMap.keyIs heap key k e = true → e = (a, a) := by
      intro e he hkey
      obtain ⟨y, hy, hyk⟩ := keyIs_iff.mp hkey
      have hea := h.distinct e.1 a y x hy ha (hyk.trans hk.symm)
      exact Prod.ext hea ((h.own e he).symm.trans hea)
    obtain ⟨e, l₁, l₂, -, hekey, hm, herase⟩ :=
      List.exists_of_eraseP ((h.alive a).mpr ⟨x, ha⟩) hmatch
    obtain rfl := honly e (by simp [hm]) hekey
    have hnodup := h.nodup
    rw [hm, List.nodup_middle, List.nodup_cons] at hnodup
    have hmem : ∀ e, e ∈ m.eraseP (PtrMap.keyIs heap key k) ↔
        e ∈ m ∧ e ≠ (a, a) := by
      intro e
      rw [herase, hm]
      constructor
      · intro he
        refine ⟨?_, ?_⟩
        · rcases List.mem_append.mp he with he' | he' <;> simp [he']
        · rintro rfl
          exact hnodup.1 he
      · rintro ⟨he, hne⟩
        simp only [List.mem_append, List.mem_cons] at he ⊢
        rcases he with he | rfl | he
        · exact Or.inl he
        · exact absurd rfl hne
        · exact Or.inr he
    constructor
    · exact fun e he => h.own e ((hmem e).mp he).1
    · intro b
      rw [hmem, h.alive b]
      by_cases hba : b = a
      · subst hba
        simp [AList.lookup_erase]
      · rw [AList.lookup_erase_ne hba]
        simp [hba]
    · rw [herase]
      exact hnodup.2
    · intro b c y z hb hc
      have hba : b ≠ a := by
        rintro rfl
        rw [AList.lookup_erase] at hb
        cases hb
      have hca : c ≠ a := by
        rintro rfl
        rw [AList.lookup_erase] at hc
        cases hc
      rw [AList.lookup_erase_ne hba] at hb
      rw [AList.lookup_erase_ne hca] at hc
      exact h.distinct b c y z hb hc

end PtrMap

/-! ## The operations -/

theorem freeAll_spec {T : Type} {l : List Addr} {heap : HashMap Addr T}
    (hnodup : l.Nodup) (halive : ∀ a ∈ l, ∃ x, heap.lookup a = some x) :
    ∃ heap', freeAll heap l = some heap' ∧
      ∀ a, heap'.lookup a = if a ∈ l then none else heap.lookup a := by
  induction l generalizing heap with
  | nil => exact ⟨heap, rfl, fun a => by simp⟩
  | cons b l ih =>
      rw [List.nodup_cons] at hnodup
      obtain ⟨x, hx⟩ := halive b List.mem_cons_self
      have halive' : ∀ a ∈ l, ∃ y, (AList.erase b heap).lookup a = some y := by
        intro a ha
        have hab : a ≠ b := fun hab => hnodup.1 (hab ▸ ha)
        rw [AList.lookup_erase_ne hab]
        exact halive a (List.mem_cons_of_mem _ ha)
      obtain ⟨heap', hfree, hlook⟩ := ih hnodup.2 halive'
      refine ⟨heap', ?_, ?_⟩
      · unfold freeAll
        rw [hx]
        exact hfree
      · intro a
        rw [hlook a]
        by_cases hab : a = b
        · subst hab
          simp [AList.lookup_erase]
        · rw [AList.lookup_erase_ne hab]
          simp [hab]

namespace RawMultiMap

variable {K₁ K₂ V : Type}

/-- Both maps refer to exactly the boxes that are alive, each under its own
key. -/
structure Consistent (m : RawMultiMap K₁ K₂ V) : Prop where
  refers1 : PtrMap.Refers m.heap key1 m.map1
  refers2 : PtrMap.Refers m.heap key2 m.map2

theorem consistent_new : (new : RawMultiMap K₁ K₂ V).Consistent :=
  ⟨PtrMap.refers_nil (fun _ => rfl), PtrMap.refers_nil (fun _ => rfl)⟩

theorem items_new : (new : RawMultiMap K₁ K₂ V).items = ∅ := by
  ext x
  constructor
  · rintro ⟨a, ha⟩
    cases ha
  · intro hx
    cases hx

theorem Consistent.injOn1 {m : RawMultiMap K₁ K₂ V} (h : m.Consistent) :
    Set.InjOn key1 m.items := by
  rintro x ⟨a, ha⟩ y ⟨b, hb⟩ hxy
  obtain rfl := h.refers1.distinct a b x y ha hb hxy
  exact Option.some.inj (ha.symm.trans hb)

theorem Consistent.injOn2 {m : RawMultiMap K₁ K₂ V} (h : m.Consistent) :
    Set.InjOn key2 m.items := by
  rintro x ⟨a, ha⟩ y ⟨b, hb⟩ hxy
  obtain rfl := h.refers2.distinct a b x y ha hb hxy
  exact Option.some.inj (ha.symm.trans hb)

theorem Consistent.refs_iff {m : RawMultiMap K₁ K₂ V} (h : m.Consistent) (a : Addr) :
    a ∈ m.map1.map Prod.snd ↔ a ∈ m.map2.map Prod.snd := by
  rw [h.refers1.mem_refs, h.refers2.mem_refs]

theorem Reads.eq {S : Set (K₁ × K₂ × V)} {P : K₁ × K₂ × V → Prop}
    {r o : Option V} (h : Reads S P r)
    (ho : ∀ v, o = some v ↔ ∃ x ∈ S, P x ∧ x.2.2 = v) : r = o := by
  rcases h with ⟨rfl, hnone⟩ | ⟨x, hx, hP, rfl⟩
  · cases o with
    | none => rfl
    | some v =>
        obtain ⟨x, hx, hP, -⟩ := (ho v).mp rfl
        exact absurd hP (hnone x hx)
  · exact ((ho _).mpr ⟨x, hx, hP, rfl⟩).symm

section

variable {m : RawMultiMap K₁ K₂ V} {K : Type} {key : K₁ × K₂ × V → K}
  {map : PtrMap}

/-- The boxes after a value was written into the box of `x`. -/
theorem items_write (h : PtrMap.Refers m.heap key map) {a : Addr}
    {x : K₁ × K₂ × V} (ha : m.heap.lookup a = some x) (f : V → V) :
    ({ m with heap := AList.insert a (x.1, x.2.1, f x.2.2) m.heap } :
      RawMultiMap K₁ K₂ V).items =
        changed (fun y => key y = key x) f m.items := by
  ext y
  constructor
  · rintro ⟨b, hb⟩
    by_cases hba : b = a
    · subst hba
      rw [AList.lookup_insert] at hb
      cases hb
      exact Or.inr ⟨x, ⟨b, ha⟩, rfl, rfl⟩
    · rw [AList.lookup_insert_ne hba] at hb
      exact Or.inl ⟨⟨b, hb⟩, fun hk => hba (h.distinct b a y x hb ha hk)⟩
  · rintro (⟨⟨b, hb⟩, hk⟩ | ⟨z, ⟨b, hb⟩, hk, rfl⟩)
    · refine ⟨b, ?_⟩
      have hba : b ≠ a := by
        rintro rfl
        cases Option.some.inj (hb.symm.trans ha)
        exact hk rfl
      rw [AList.lookup_insert_ne hba]
      exact hb
    · obtain rfl := h.distinct b a z x hb ha hk
      cases Option.some.inj (hb.symm.trans ha)
      exact ⟨b, AList.lookup_insert _⟩

/-- The boxes after that of `x` was freed. -/
theorem items_erase (h : PtrMap.Refers m.heap key map) {a : Addr}
    {x : K₁ × K₂ × V} (ha : m.heap.lookup a = some x) (map1 map2 : PtrMap) :
    (⟨map1, map2, AList.erase a m.heap⟩ : RawMultiMap K₁ K₂ V).items =
      {y ∈ m.items | key y ≠ key x} := by
  ext y
  constructor
  · rintro ⟨b, hb⟩
    have hba : b ≠ a := by
      rintro rfl
      rw [AList.lookup_erase] at hb
      cases hb
    rw [AList.lookup_erase_ne hba] at hb
    exact ⟨⟨b, hb⟩, fun hk => hba (h.distinct b a y x hb ha hk)⟩
  · rintro ⟨⟨b, hb⟩, hk⟩
    refine ⟨b, ?_⟩
    have hba : b ≠ a := by
      rintro rfl
      cases Option.some.inj (hb.symm.trans ha)
      exact hk rfl
    rw [AList.lookup_erase_ne hba]
    exact hb

theorem items_insert {a : Addr} (ha : m.heap.lookup a = none)
    (x : K₁ × K₂ × V) (map1 map2 : PtrMap) :
    (⟨map1, map2, AList.insert a x m.heap⟩ : RawMultiMap K₁ K₂ V).items =
      Insert.insert x m.items := by
  ext y
  constructor
  · rintro ⟨b, hb⟩
    by_cases hba : b = a
    · subst hba
      rw [AList.lookup_insert] at hb
      exact Or.inl (Option.some.inj hb).symm
    · rw [AList.lookup_insert_ne hba] at hb
      exact Or.inr ⟨b, hb⟩
  · rintro (rfl | ⟨b, hb⟩)
    · exact ⟨a, AList.lookup_insert _⟩
    · refine ⟨b, ?_⟩
      have hba : b ≠ a := by
        rintro rfl
        rw [ha] at hb
        cases hb
      rw [AList.lookup_insert_ne hba]
      exact hb

theorem reads_absent {k : K}
    (habsent : ∀ a x, m.heap.lookup a = some x → key x ≠ k) :
    Reads m.items (fun x => key x = k) none ∧
      m.items = {x ∈ m.items | key x ≠ k} := by
  have hnone : ∀ x ∈ m.items, key x ≠ k := by
    rintro x ⟨a, ha⟩
    exact habsent a x ha
  refine ⟨Or.inl ⟨rfl, hnone⟩, ?_⟩
  ext x
  exact ⟨fun hx => ⟨hx, hnone x hx⟩, And.left⟩

theorem clear_spec (h : m.Consistent) :
    ∃ m', m.clear = some m' ∧ m'.Consistent ∧ m'.items = ∅ := by
  have hnodup : (m.map2.map Prod.snd).Nodup := by
    refine h.refers2.nodup.map_on ?_
    intro e he e' he' heq
    exact Prod.ext (by rw [h.refers2.own e he, heq, ← h.refers2.own e' he']) heq
  obtain ⟨heap, hfree, hlook⟩ := freeAll_spec hnodup (fun a => (h.refers2.mem_refs a).mp)
  have hempty : ∀ a, heap.lookup a = none := by
    intro a
    rw [hlook a]
    split
    · rfl
    · rename_i hnot
      rw [h.refers2.mem_refs a] at hnot
      exact Option.eq_none_iff_forall_ne_some.mpr (fun x hx => hnot ⟨x, hx⟩)
  refine ⟨⟨[], [], heap⟩, ?_,
    ⟨PtrMap.refers_nil hempty, PtrMap.refers_nil hempty⟩, ?_⟩
  · unfold clear
    rw [hfree]
    rfl
  · ext x
    constructor
    · rintro ⟨a, ha⟩
      change heap.lookup a = some x at ha
      rw [hempty a] at ha
      cases ha
    · intro hx
      cases hx

variable [DecidableEq K]

theorem read_spec (h : PtrMap.Refers m.heap key map) (k : K) :
    ∃ r, m.read map key k = some r ∧ Reads m.items (fun x => key x = k) r := by
  unfold read
  rcases h.get k with ⟨hget, habsent⟩ | ⟨a, x, hget, ha, hk⟩
  · rw [hget]
    refine ⟨none, rfl, Or.inl ⟨rfl, ?_⟩⟩
    rintro x ⟨a, ha⟩
    exact habsent a x ha
  · rw [hget]
    refine ⟨some x.2.2, ?_, Or.inr ⟨x, ⟨a, ha⟩, hk, rfl⟩⟩
    simp [ha]

theorem modify_spec (hm : m.Consistent) (h : PtrMap.Refers m.heap key map)
    (k : K) (f : V → V) :
    ∃ m' r, m.modify map key k f = some (m', r) ∧ m'.Consistent ∧
      Reads m.items (fun x => key x = k) r ∧
      m'.items = changed (fun x => key x = k) f m.items := by
  unfold modify
  rcases h.get k with ⟨hget, habsent⟩ | ⟨a, x, hget, ha, rfl⟩
  · rw [hget]
    have hnone : ∀ x ∈ m.items, key x ≠ k := by
      rintro x ⟨a, ha⟩
      exact habsent a x ha
    refine ⟨m, none, rfl, hm, Or.inl ⟨rfl, hnone⟩, ?_⟩
    ext y
    constructor
    · exact fun hy => Or.inl ⟨hy, hnone y hy⟩
    · rintro (⟨hy, -⟩ | ⟨x, hx, hk, -⟩)
      · exact hy
      · exact absurd hk (hnone x hx)
  · rw [hget]
    refine ⟨{ m with heap := AList.insert a (x.1, x.2.1, f x.2.2) m.heap },
      some x.2.2, ?_, ?_, Or.inr ⟨x, ⟨a, ha⟩, rfl, rfl⟩, items_write h ha f⟩
    · simp [ha]
    · exact ⟨hm.refers1.write ha rfl, hm.refers2.write ha rfl⟩

end

section

variable [DecidableEq K₁] [DecidableEq K₂] {m : RawMultiMap K₁ K₂ V}

theorem remove1_spec (h : m.Consistent) (k₁ : K₁) :
    ∃ m' r, m.remove1 k₁ = some (m', r) ∧ m'.Consistent ∧
      Reads m.items (fun x => key1 x = k₁) r ∧
      m'.items = {x ∈ m.items | key1 x ≠ k₁} := by
  unfold remove1
  rcases h.refers1.remove k₁ with
    ⟨map1, hrem, habsent⟩ | ⟨a, x, map1, hrem, ha, rfl, href1⟩
  · rw [hrem]
    obtain ⟨hreads, hitems⟩ := reads_absent habsent
    exact ⟨m, none, rfl, h, hreads, hitems⟩
  · rw [hrem]
    -- the second map has the same box under its own second key
    rcases h.refers2.remove (key2 x) with
      ⟨-, -, habsent⟩ | ⟨b, y, map2, hrem2, hb, hky, href2⟩
    · exact absurd rfl (habsent a x ha)
    · obtain rfl := h.refers2.distinct b a y x hb ha hky
      refine ⟨⟨map1, map2, AList.erase b m.heap⟩, some x.2.2, ?_,
        ⟨href1, href2⟩, Or.inr ⟨x, ⟨b, ha⟩, rfl, rfl⟩,
        items_erase h.refers1 ha map1 map2⟩
      simp [ha, hrem2]

theorem remove2_spec (h : m.Consistent) (k₂ : K₂) :
    ∃ m' r, m.remove2 k₂ = some (m', r) ∧ m'.Consistent ∧
      Reads m.items (fun x => key2 x = k₂) r ∧
      m'.items = {x ∈ m.items | key2 x ≠ k₂} := by
  unfold remove2
  rcases h.refers2.remove k₂ with
    ⟨map2, hrem, habsent⟩ | ⟨a, x, map2, hrem, ha, rfl, href2⟩
  · rw [hrem]
    obtain ⟨hreads, hitems⟩ := reads_absent habsent
    exact ⟨m, none, rfl, h, hreads, hitems⟩
  · rw [hrem]
    rcases h.refers1.remove (key1 x) with
      ⟨-, -, habsent⟩ | ⟨b, y, map1, hrem1, hb, hky, href1⟩
    · exact absurd rfl (habsent a x ha)
    · obtain rfl := h.refers1.distinct b a y x hb ha hky
      refine ⟨⟨map1, map2, AList.erase b m.heap⟩, some x.2.2, ?_,
        ⟨href1, href2⟩, Or.inr ⟨x, ⟨b, ha⟩, rfl, rfl⟩,
        items_erase h.refers2 ha map1 map2⟩
      simp [ha, hrem1]

/-- `insert` fails exactly if one of the keys is there, and then gives its
arguments back. -/
theorem insert_spec (al : Allocator (K₁ × K₂ × V)) (h : m.Consistent) (k₁ : K₁)
    (k₂ : K₂) (v : V) :
    (∃ m', m.insert al k₁ k₂ v = some (m', .ok ()) ∧ m'.Consistent ∧
      (∀ x ∈ m.items, key1 x ≠ k₁ ∧ key2 x ≠ k₂) ∧
      m'.items = Insert.insert (k₁, k₂, v) m.items) ∨
    (m.insert al k₁ k₂ v = some (m, .error (k₁, k₂, v)) ∧
      ∃ x ∈ m.items, key1 x = k₁ ∨ key2 x = k₂) := by
  unfold insert
  rcases h.refers1.get k₁ with ⟨hget1, habsent1⟩ | ⟨a, x, hget1, ha, hk⟩
  · rw [hget1]
    rcases h.refers2.get k₂ with ⟨hget2, habsent2⟩ | ⟨a, x, hget2, ha, hk⟩
    · refine Or.inl ?_
      have hfresh := al.fresh m.heap
      obtain ⟨map1, hins1, href1⟩ :=
        h.refers1.insert (x := (k₁, k₂, v)) hfresh habsent1
      obtain ⟨map2, hins2, href2⟩ :=
        h.refers2.insert (x := (k₁, k₂, v)) hfresh habsent2
      refine ⟨⟨map1, map2, AList.insert (al.alloc m.heap) (k₁, k₂, v) m.heap⟩,
        ?_, ⟨href1, href2⟩, ?_, items_insert hfresh _ map1 map2⟩
      · simp [hget2, hins1, hins2]
      · rintro x ⟨a, ha⟩
        exact ⟨habsent1 a x ha, habsent2 a x ha⟩
    · refine Or.inr ⟨?_, x, ⟨a, ha⟩, Or.inr hk⟩
      simp [hget2]
  · rw [hget1]
    refine Or.inr ⟨?_, x, ⟨a, ha⟩, Or.inl hk⟩
    simp

/-- **Step lemma**: no operation fails, and every operation does to the items
what the set does. -/
theorem step_spec (al : Allocator (K₁ × K₂ × V)) (h : m.Consistent)
    (op : Op K₁ K₂ V) : ∃ m' answer, m.step al op = some (m', answer) ∧
      m'.Consistent ∧ SpecStep m.items op m'.items answer := by
  cases op with
  | insert k₁ k₂ v =>
      rcases insert_spec al h k₁ k₂ v with
        ⟨m', hins, hm', hfree, hitems⟩ | ⟨hins, hclash⟩
      · refine ⟨m', .inserted (.ok ()), ?_, hm', ?_⟩
        · simp only [step, hins, Option.map_some]
        · rw [hitems]
          exact .inserted hfree
      · refine ⟨m, .inserted (.error (k₁, k₂, v)), ?_, h, .clash hclash⟩
        simp only [step, hins, Option.map_some]
  | get1 k₁ =>
      obtain ⟨r, hread, hr⟩ := read_spec h.refers1 k₁
      refine ⟨m, .value r, ?_, h, .get1 hr⟩
      simp only [step, get1, hread, Option.map_some]
  | get1Mut k₁ f =>
      obtain ⟨m', r, hmod, hm', hr, hitems⟩ := modify_spec h h.refers1 k₁ f
      refine ⟨m', .value r, ?_, hm', ?_⟩
      · simp only [step, get1Mut, hmod, Option.map_some]
      · rw [hitems]
        exact .get1Mut hr
  | get2 k₂ =>
      obtain ⟨r, hread, hr⟩ := read_spec h.refers2 k₂
      refine ⟨m, .value r, ?_, h, .get2 hr⟩
      simp only [step, get2, hread, Option.map_some]
  | getMut2 k₂ f =>
      obtain ⟨m', r, hmod, hm', hr, hitems⟩ := modify_spec h h.refers2 k₂ f
      refine ⟨m', .value r, ?_, hm', ?_⟩
      · simp only [step, getMut2, hmod, Option.map_some]
      · rw [hitems]
        exact .getMut2 hr
  | remove1 k₁ =>
      obtain ⟨m', r, hrem, hm', hr, hitems⟩ := remove1_spec h k₁
      refine ⟨m', .value r, ?_, hm', ?_⟩
      · simp only [step, hrem, Option.map_some]
      · rw [hitems]
        exact .remove1 hr
  | remove2 k₂ =>
      obtain ⟨m', r, hrem, hm', hr, hitems⟩ := remove2_spec h k₂
      refine ⟨m', .value r, ?_, hm', ?_⟩
      · simp only [step, hrem, Option.map_some]
      · rw [hitems]
        exact .remove2 hr
  | clear =>
      obtain ⟨m', hclear, hm', hitems⟩ := clear_spec h
      refine ⟨m', .cleared, ?_, hm', ?_⟩
      · simp only [step, hclear, Option.map_some]
      · rw [hitems]
        exact .clear

/-- **Run lemma.** -/
theorem run_spec (al : Allocator (K₁ × K₂ × V)) (ops : List (Op K₁ K₂ V))
    (h : m.Consistent) : ∃ m' answers, m.run al ops = some (m', answers) ∧
      m'.Consistent ∧ SpecRun m.items ops m'.items answers := by
  induction ops generalizing m with
  | nil => exact ⟨m, [], rfl, h, .nil⟩
  | cons op ops ih =>
      obtain ⟨m₁, answer, hstep, hm₁, hspec⟩ := step_spec al h op
      obtain ⟨m₂, answers, hrun, hm₂, hrest⟩ := ih hm₁
      refine ⟨m₂, answer :: answers, ?_, hm₂, .cons hspec hrest⟩
      unfold run
      simp [hstep, hrun]

/-- Both keys of an item lead to its value. -/
theorem Consistent.get_item (h : m.Consistent) {x : K₁ × K₂ × V}
    (hx : x ∈ m.items) :
    m.get1 (key1 x) = some (some x.2.2) ∧ m.get2 (key2 x) = some (some x.2.2) := by
  obtain ⟨r₁, hread1, hr₁⟩ := read_spec h.refers1 (key1 x)
  obtain ⟨r₂, hread2, hr₂⟩ := read_spec h.refers2 (key2 x)
  refine ⟨hread1.trans (congrArg some ?_), hread2.trans (congrArg some ?_)⟩
  · rcases hr₁ with ⟨-, hnone⟩ | ⟨y, hy, hk, rfl⟩
    · exact absurd rfl (hnone x hx)
    · rw [h.injOn1 hy hx hk]
  · rcases hr₂ with ⟨-, hnone⟩ | ⟨y, hy, hk, rfl⟩
    · exact absurd rfl (hnone x hx)
    · rw [h.injOn2 hy hx hk]

/-- **The structure is a map with two keys.** Every run of operations, with
any allocator, ends without touching a dead box. In the state it reaches the
two maps refer to the same boxes, all alive, each under its own keys; the
items and all answers are those of a set of triples with unique keys. -/
theorem two_key_map (al : Allocator (K₁ × K₂ × V)) (ops : List (Op K₁ K₂ V)) :
    ∃ m answers, (new : RawMultiMap K₁ K₂ V).run al ops = some (m, answers) ∧
      (∀ a, a ∈ m.map1.map Prod.snd ↔ a ∈ m.map2.map Prod.snd) ∧
      (∀ e ∈ m.map1, ∃ x, m.heap.lookup e.2 = some x ∧
        (m.heap.lookup e.1).map key1 = some (key1 x)) ∧
      (∀ e ∈ m.map2, ∃ x, m.heap.lookup e.2 = some x ∧
        (m.heap.lookup e.1).map key2 = some (key2 x)) ∧
      SpecRun ∅ ops m.items answers ∧
      Set.InjOn key1 m.items ∧ Set.InjOn key2 m.items ∧
      (∀ x ∈ m.items, m.get1 (key1 x) = some (some x.2.2) ∧
        m.get2 (key2 x) = some (some x.2.2)) ∧
      (∀ k₁ k₂ v, (∃ m', m.insert al k₁ k₂ v = some (m', .ok ())) ↔
        ∀ x ∈ m.items, key1 x ≠ k₁ ∧ key2 x ≠ k₂) ∧
      ∀ k₁ k₂ v m' r, m.insert al k₁ k₂ v = some (m', .error r) →
        r = (k₁, k₂, v) ∧ m' = m := by
  obtain ⟨m, answers, hrun, h, hspec⟩ := run_spec al ops consistent_new
  rw [items_new] at hspec
  refine ⟨m, answers, hrun, h.refs_iff, fun e he => h.refers1.item he,
    fun e he => h.refers2.item he, hspec, h.injOn1, h.injOn2,
    fun x hx => h.get_item hx, ?_, ?_⟩
  · intro k₁ k₂ v
    rcases insert_spec al h k₁ k₂ v with
      ⟨m', hins, -, hfree, -⟩ | ⟨hins, x, hx, hclash⟩
    · exact ⟨fun _ => hfree, fun _ => ⟨m', hins⟩⟩
    · constructor
      · rintro ⟨m', hok⟩
        cases hins.symm.trans hok
      · intro hfree
        rcases hclash with hk | hk
        · exact absurd hk (hfree x hx).1
        · exact absurd hk (hfree x hx).2
  · intro k₁ k₂ v m' r hfail
    rcases insert_spec al h k₁ k₂ v with ⟨m'', hins, -⟩ | ⟨hins, -⟩
    · cases hins.symm.trans hfail
    · cases hins.symm.trans hfail
      exact ⟨rfl, rfl⟩

/-! ## The map of the server

The server's model uses `MultiMap`, whose maps are indexes of the boxes by
construction. The pointers answer as it does. -/

/-- The pointers and the indexed map have the same items. -/
def Represents (m : RawMultiMap K₁ K₂ V) (n : MultiMap K₁ K₂ V) : Prop :=
  ∀ x, x ∈ m.items ↔ n.Entry (key1 x) (key2 x) x.2.2

variable {n : MultiMap K₁ K₂ V}

theorem Represents.first (h : Represents m n) {k₁ : K₁} {v : V} :
    (∃ k₂, n.Entry k₁ k₂ v) ↔ ∃ x ∈ m.items, key1 x = k₁ ∧ x.2.2 = v := by
  constructor
  · rintro ⟨k₂, he⟩
    exact ⟨(k₁, k₂, v), (h _).mpr he, rfl, rfl⟩
  · rintro ⟨x, hx, rfl, rfl⟩
    exact ⟨key2 x, (h x).mp hx⟩

theorem Represents.second (h : Represents m n) {k₂ : K₂} {v : V} :
    (∃ k₁, n.Entry k₁ k₂ v) ↔ ∃ x ∈ m.items, key2 x = k₂ ∧ x.2.2 = v := by
  constructor
  · rintro ⟨k₁, he⟩
    exact ⟨(k₁, k₂, v), (h _).mpr he, rfl, rfl⟩
  · rintro ⟨x, hx, rfl, rfl⟩
    exact ⟨key1 x, (h x).mp hx⟩

theorem Represents.get1 (h : Represents m n) (hm : m.Consistent) (k₁ : K₁) :
    m.get1 k₁ = some (n.get1 k₁) := by
  obtain ⟨r, hread, hr⟩ := read_spec hm.refers1 k₁
  have heq : r = n.get1 k₁ := hr.eq (fun v => by
    rw [MultiMap.get1_eq_some, h.first])
  rw [← heq]
  exact hread

theorem Represents.get2 (h : Represents m n) (hm : m.Consistent) (k₂ : K₂) :
    m.get2 k₂ = some (n.get2 k₂) := by
  obtain ⟨r, hread, hr⟩ := read_spec hm.refers2 k₂
  have heq : r = n.get2 k₂ := hr.eq (fun v => by
    rw [MultiMap.get2_eq_some, h.second])
  rw [← heq]
  exact hread

theorem Represents.remove1 (h : Represents m n) (hm : m.Consistent)
    (k₁ : K₁) : ∃ m', m.remove1 k₁ = some (m', (n.remove1 k₁).1) ∧
      m'.Consistent ∧ Represents m' (n.remove1 k₁).2 := by
  obtain ⟨m', r, hrem, hm', hr, hitems⟩ := remove1_spec hm k₁
  have heq : r = (n.remove1 k₁).1 := hr.eq (fun v => by
    rw [MultiMap.remove1_fst_eq_some, h.first])
  refine ⟨m', heq ▸ hrem, hm', ?_⟩
  intro x
  rw [hitems, MultiMap.entry_remove1, ← h x]
  exact Iff.rfl

/-- Both insert, or both give the arguments back. -/
theorem Represents.insert (al : Allocator (K₁ × K₂ × V)) (h : Represents m n)
    (hm : m.Consistent) (k₁ : K₁) (k₂ : K₂) (v : V) :
    (∃ m' n', m.insert al k₁ k₂ v = some (m', .ok ()) ∧
      n.insert k₁ k₂ v = .ok n' ∧ m'.Consistent ∧ Represents m' n') ∨
    (m.insert al k₁ k₂ v = some (m, .error (k₁, k₂, v)) ∧
      n.insert k₁ k₂ v = .error (k₁, k₂, v)) := by
  rcases insert_spec al hm k₁ k₂ v with
    ⟨m', hins, hm', hfree, hitems⟩ | ⟨hins, x, hx, hclash⟩
  · obtain ⟨n', hn'⟩ := MultiMap.insert_eq_ok (m := n) (v := v)
      (fun k v' he => (hfree (k₁, k, v') ((h _).mpr he)).1 rfl)
      (fun k v' he => (hfree (k, k₂, v') ((h _).mpr he)).2 rfl)
    refine Or.inl ⟨m', n', hins, hn', hm', ?_⟩
    intro x
    rw [hitems, MultiMap.entry_insert hn', ← h x, Set.mem_insert_iff,
      or_comm, Prod.ext_iff, Prod.ext_iff]
  · refine Or.inr ⟨hins, dif_neg ?_⟩
    rintro ⟨hnone1, hnone2⟩
    have he := (h x).mp hx
    rcases hclash with rfl | rfl
    · exact MultiMap.lookup_map1_eq_none.mp hnone1 _ _ he
    · exact MultiMap.lookup_map2_eq_none.mp hnone2 _ _ he

theorem represents_clear (hm : m.Consistent) :
    ∃ m', m.clear = some m' ∧ m'.Consistent ∧ Represents m' n.clear := by
  obtain ⟨m', hclear, hm', hitems⟩ := clear_spec hm
  refine ⟨m', hclear, hm', ?_⟩
  intro x
  rw [hitems]
  exact ⟨fun hx => hx.elim, fun he => absurd he MultiMap.not_entry_clear⟩

end

end RawMultiMap

end Rathole
