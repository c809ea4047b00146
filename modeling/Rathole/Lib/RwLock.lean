import Mathlib.Data.List.Nodup
import Mathlib.Logic.Relation

/-!
# A fair read-write lock

Requests are granted in the order in which they are made. A reader waits while
a writer holds the lock or stands before it in the queue; a writer waits until
the lock is free. A task may have more than one guard, so a reader that asks
again behind a writer waits for the writer, and the writer for it.
-/

inductive Access where
  | read | write
deriving DecidableEq, Repr

namespace RwLock

variable {T : Type*}

/-- A guard may be given out beside those of `holders`. -/
def admits (holders : List (T × Access)) : Access → Bool
  | .read => holders.all (fun h => decide (h.2 = .read))
  | .write => holders.isEmpty

/-- A writer is alone. -/
def Exclusive (holders : List (T × Access)) : Prop :=
  ∀ h ∈ holders, h.2 = .write → holders = [h]

theorem exclusive_append {holders : List (T × Access)} (h : Exclusive holders)
    {w : T × Access} (hw : admits holders w.2 = true) :
    Exclusive (holders ++ [w]) := by
  obtain ⟨t, a⟩ := w
  cases a with
  | read =>
      have hall := List.all_eq_true.mp hw
      intro x hx hwrite
      rcases List.mem_append.mp hx with hx | hx
      · have hread := of_decide_eq_true (hall x hx)
        rw [hwrite] at hread
        cases hread
      · rw [List.mem_singleton.mp hx] at hwrite
        cases hwrite
  | write =>
      have hnil : holders = [] := List.isEmpty_iff.mp hw
      subst hnil
      intro x hx _
      rw [List.nil_append, List.mem_singleton.mp hx]

theorem exclusive_filter {holders : List (T × Access)} (h : Exclusive holders)
    (p : T × Access → Bool) : Exclusive (holders.filter p) := by
  intro x hx hwrite
  obtain ⟨hmem, hp⟩ := List.mem_filter.mp hx
  have hone := h x hmem hwrite
  rw [hone, List.filter_cons_of_pos hp]
  rfl

end RwLock

/-- Who holds a guard, and who waits for one: whoever is first in the queue
cannot have it yet. -/
structure RwLock (T : Type*) where
  holders : List (T × Access)
  waiting : List (T × Access)
  exclusive : RwLock.Exclusive holders
  settled : ∀ w ∈ waiting.head?, RwLock.admits holders w.2 = false

namespace RwLock

variable {T : Type*}

def new : RwLock T where
  holders := []
  waiting := []
  exclusive := by simp [Exclusive]
  settled := by simp

/-- Grant requests from the front of the queue, as far as it goes. -/
def grant (holders : List (T × Access)) (hex : Exclusive holders) :
    List (T × Access) → RwLock T
  | [] => ⟨holders, [], hex, by simp⟩
  | w :: ws =>
      if hw : admits holders w.2 = true then
        grant (holders ++ [w]) (exclusive_append hex hw) ws
      else ⟨holders, w :: ws, hex, by simp [hw]⟩

/-- Ask for a guard. -/
def request (l : RwLock T) (t : T) (a : Access) : RwLock T :=
  grant l.holders l.exclusive (l.waiting ++ [(t, a)])

/-- Drop every guard of a task, and its request if it has one. -/
def dropAll [DecidableEq T] (l : RwLock T) (t : T) : RwLock T :=
  grant (l.holders.filter (fun h => decide (h.1 ≠ t)))
    (exclusive_filter l.exclusive _)
    (l.waiting.filter (fun w => decide (w.1 ≠ t)))

/-- The task waits for a guard. -/
def waits [DecidableEq T] (l : RwLock T) (t : T) : Bool :=
  l.waiting.any (fun w => decide (w.1 = t))

/-- The guards a task has or waits for. -/
def claims [DecidableEq T] (l : RwLock T) (t : T) : List Access :=
  ((l.holders ++ l.waiting).filter (fun h => decide (h.1 = t))).map Prod.snd

/-! ## What an operation does -/

/-- A prefix of the queue gets its guards. -/
theorem grant_eq (holders : List (T × Access)) (hex : Exclusive holders)
    (ws : List (T × Access)) :
    ∃ granted, ws = granted ++ (grant holders hex ws).waiting ∧
      (grant holders hex ws).holders = holders ++ granted := by
  induction ws generalizing holders with
  | nil => exact ⟨[], rfl, (List.append_nil _).symm⟩
  | cons w ws ih =>
      unfold grant
      split
      · rename_i hw
        obtain ⟨granted, hws, hholders⟩ :=
          ih (holders ++ [w]) (exclusive_append hex hw)
        refine ⟨w :: granted, ?_, ?_⟩
        · rw [List.cons_append, ← hws]
        · rw [hholders, List.append_assoc]
          rfl
      · exact ⟨[], rfl, (List.append_nil _).symm⟩

theorem grant_append (holders : List (T × Access)) (hex : Exclusive holders)
    (ws : List (T × Access)) :
    (grant holders hex ws).holders ++ (grant holders hex ws).waiting =
      holders ++ ws := by
  obtain ⟨granted, hws, hholders⟩ := grant_eq holders hex ws
  rw [hholders, List.append_assoc, ← hws]

theorem request_append (l : RwLock T) (t : T) (a : Access) :
    (l.request t a).holders ++ (l.request t a).waiting =
      l.holders ++ l.waiting ++ [(t, a)] := by
  rw [List.append_assoc]
  exact grant_append _ _ _

/-- Guards are kept, and only the new request may be added to the queue. -/
theorem mem_holders_request {l : RwLock T} {t : T} {a : Access}
    {h : T × Access} (hh : h ∈ l.holders) : h ∈ (l.request t a).holders := by
  obtain ⟨granted, -, hholders⟩ :=
    grant_eq l.holders l.exclusive (l.waiting ++ [(t, a)])
  show h ∈ (grant _ _ _).holders
  rw [hholders]
  exact List.mem_append_left _ hh

theorem mem_waiting_request {l : RwLock T} {t : T} {a : Access}
    {w : T × Access} (hw : w ∈ (l.request t a).waiting) :
    w ∈ l.waiting ∨ w = (t, a) := by
  obtain ⟨granted, hws, -⟩ :=
    grant_eq l.holders l.exclusive (l.waiting ++ [(t, a)])
  have hmem : w ∈ l.waiting ++ [(t, a)] := by
    rw [hws]
    exact List.mem_append_right _ hw
  rcases List.mem_append.mp hmem with hmem | hmem
  · exact Or.inl hmem
  · exact Or.inr (List.mem_singleton.mp hmem)

/-- Behind a queue the request waits, and the queue stays as it is. -/
theorem request_of_queue {l : RwLock T} (hqueue : l.waiting ≠ []) (t : T)
    (a : Access) : (l.request t a).holders = l.holders ∧
      (l.request t a).waiting = l.waiting ++ [(t, a)] := by
  obtain ⟨w, ws, hw⟩ := List.exists_cons_of_ne_nil hqueue
  have hblocked := l.settled w (by rw [hw]; rfl)
  unfold request
  simp only [hw, List.cons_append]
  unfold grant
  rw [dif_neg (by simp [hblocked])]
  exact ⟨rfl, rfl⟩

theorem request_of_no_queue {l : RwLock T} (hqueue : l.waiting = []) (t : T)
    (a : Access) :
    (l.request t a).waiting = if admits l.holders a then [] else [(t, a)] := by
  unfold request
  simp only [hqueue, List.nil_append]
  unfold grant
  split
  · rfl
  · rfl

/-- While somebody reads, nobody writes. -/
theorem not_writes_of_reads {l : RwLock T} {t u : T}
    (ht : (t, .read) ∈ l.holders) :
    (u, .write) ∉ l.holders := by
  intro hu
  have hone := l.exclusive _ hu rfl
  rw [hone, List.mem_singleton] at ht
  cases ht

theorem admits_read {l : RwLock T} {t : T} (ht : (t, .read) ∈ l.holders) :
    admits l.holders .read = true := by
  unfold admits
  rw [List.all_eq_true]
  intro h hh
  obtain ⟨u, a⟩ := h
  cases a with
  | read => rfl
  | write => exact absurd hh (not_writes_of_reads ht)

/-- No task waits twice. -/
def Single (l : RwLock T) : Prop := (l.waiting.map Prod.fst).Nodup

theorem single_new : Single (new : RwLock T) := List.nodup_nil

section

variable [DecidableEq T] {l : RwLock T} {t u : T}

theorem waits_iff : l.waits t = true ↔ ∃ a, (t, a) ∈ l.waiting := by
  unfold waits
  rw [List.any_eq_true]
  constructor
  · rintro ⟨w, hw, heq⟩
    obtain rfl := of_decide_eq_true heq
    exact ⟨w.2, hw⟩
  · rintro ⟨a, ha⟩
    exact ⟨(t, a), ha, by simp⟩

theorem mem_claims {a : Access} :
    a ∈ l.claims t ↔ (t, a) ∈ l.holders ∨ (t, a) ∈ l.waiting := by
  unfold claims
  simp [List.mem_map, List.mem_filter]

@[simp] theorem claims_new : (new : RwLock T).claims t = [] := rfl

theorem claims_request (a : Access) :
    (l.request t a).claims u = l.claims u ++ if u = t then [a] else [] := by
  unfold claims
  rw [request_append, List.filter_append, List.map_append]
  by_cases h : u = t
  · subst h
    simp
  · simp [h, Ne.symm h]

theorem claims_dropAll :
    (l.dropAll t).claims u = if u = t then [] else l.claims u := by
  unfold claims dropAll
  rw [grant_append, ← List.filter_append, List.filter_filter]
  by_cases h : u = t
  · subst h
    rw [if_pos rfl, List.map_eq_nil_iff, List.filter_eq_nil_iff]
    intro x _ hx
    simp at hx
  · rw [if_neg h]
    congr 1
    apply List.filter_congr
    intro x _
    by_cases hx : x.1 = u
    · simp [hx, h]
    · simp [hx]

theorem mem_holders_dropAll {h : T × Access} (hh : h ∈ l.holders)
    (hne : h.1 ≠ t) : h ∈ (l.dropAll t).holders := by
  obtain ⟨granted, -, hholders⟩ :=
    grant_eq (l.holders.filter (fun h => decide (h.1 ≠ t)))
      (exclusive_filter l.exclusive _)
      (l.waiting.filter (fun w => decide (w.1 ≠ t)))
  show h ∈ (grant _ _ _).holders
  rw [hholders]
  exact List.mem_append_left _ (List.mem_filter.mpr ⟨hh, by simp [hne]⟩)

/-- Nobody comes to wait when guards are dropped. -/
theorem mem_waiting_dropAll {w : T × Access}
    (hw : w ∈ (l.dropAll t).waiting) : w ∈ l.waiting := by
  obtain ⟨granted, hws, -⟩ :=
    grant_eq (l.holders.filter (fun h => decide (h.1 ≠ t)))
      (exclusive_filter l.exclusive _)
      (l.waiting.filter (fun w => decide (w.1 ≠ t)))
  have hmem : w ∈ l.waiting.filter (fun w => decide (w.1 ≠ t)) := by
    rw [hws]
    exact List.mem_append_right _ hw
  exact (List.mem_filter.mp hmem).1

/-- Whoever does not wait has what it asked for. -/
theorem mem_holders_of_not_waits {a : Access} (hwaits : l.waits t = false)
    (ha : a ∈ l.claims t) : (t, a) ∈ l.holders := by
  rcases mem_claims.mp ha with h | h
  · exact h
  · rw [Bool.eq_false_iff] at hwaits
    exact absurd (waits_iff.mpr ⟨a, h⟩) hwaits

theorem not_waits_of_claims_nil (h : l.claims t = []) : l.waits t = false := by
  rw [Bool.eq_false_iff]
  intro hwaits
  obtain ⟨a, ha⟩ := waits_iff.mp hwaits
  have hmem := mem_claims.mpr (Or.inr ha)
  rw [h] at hmem
  cases hmem

/-- Nobody else comes to wait because of a request. -/
theorem not_waits_request {a : Access} (hne : u ≠ t)
    (h : l.waits u = false) : (l.request t a).waits u = false := by
  rw [Bool.eq_false_iff] at h ⊢
  intro hwaits
  obtain ⟨b, hb⟩ := waits_iff.mp hwaits
  rcases mem_waiting_request hb with hb | hb
  · exact h (waits_iff.mpr ⟨b, hb⟩)
  · cases hb
    exact hne rfl

theorem not_waits_dropAll (h : l.waits u = false) :
    (l.dropAll t).waits u = false := by
  rw [Bool.eq_false_iff] at h ⊢
  intro hwaits
  obtain ⟨b, hb⟩ := waits_iff.mp hwaits
  exact h (waits_iff.mpr ⟨b, mem_waiting_dropAll hb⟩)

/-- With one claim, whoever waits has no guard. -/
theorem not_holds_of_waits {a : Access} (h : l.claims t = [a])
    (hwaits : l.waits t = true) (b : Access) : (t, b) ∉ l.holders := by
  obtain ⟨c, hc⟩ := waits_iff.mp hwaits
  intro hb
  have hcount := congrArg List.length h
  unfold claims at hcount
  rw [List.filter_append, List.map_append, List.length_append,
    List.length_map, List.length_map] at hcount
  have hheld : 0 < (l.holders.filter (fun h => decide (h.1 = t))).length :=
    List.length_pos_of_mem (List.mem_filter.mpr ⟨hb, by simp⟩)
  have hqueued : 0 < (l.waiting.filter (fun h => decide (h.1 = t))).length :=
    List.length_pos_of_mem (List.mem_filter.mpr ⟨hc, by simp⟩)
  rw [List.length_singleton] at hcount
  omega

/-! ## Waiting for each other -/

theorem Single.request (h : l.Single) (a : Access) (hwaits : l.waits t = false) :
    (l.request t a).Single := by
  obtain ⟨granted, hws, -⟩ :=
    grant_eq l.holders l.exclusive (l.waiting ++ [(t, a)])
  have hnodup : ((l.waiting ++ [(t, a)]).map Prod.fst).Nodup := by
    rw [List.map_append]
    refine List.Nodup.append h (List.nodup_singleton t) ?_
    intro x hx hx'
    obtain ⟨w, hw, rfl⟩ := List.mem_map.mp hx
    have heq : w.1 = t := List.mem_singleton.mp hx'
    rw [Bool.eq_false_iff] at hwaits
    exact hwaits (waits_iff.mpr ⟨w.2, heq ▸ hw⟩)
  rw [hws, List.map_append] at hnodup
  exact hnodup.of_append_right

theorem Single.dropAll (h : l.Single) (t : T) : (l.dropAll t).Single := by
  obtain ⟨granted, hws, -⟩ :=
    grant_eq (l.holders.filter (fun h => decide (h.1 ≠ t)))
      (exclusive_filter l.exclusive _)
      (l.waiting.filter (fun w => decide (w.1 ≠ t)))
  have hnodup : ((l.waiting.filter (fun w => decide (w.1 ≠ t))).map
      Prod.fst).Nodup :=
    List.Nodup.sublist (List.filter_sublist.map _) h
  rw [hws, List.map_append] at hnodup
  exact hnodup.of_append_right

/-- The request of `t` waits for `u`: `u` stands before it in the queue, or has
a guard that excludes it. -/
def WaitsFor (l : RwLock T) (t u : T) : Prop :=
  ∃ before a after, l.waiting = before ++ (t, a) :: after ∧
    ((∃ b, (u, b) ∈ before) ∨
      ∃ b, (u, b) ∈ l.holders ∧ (a = .write ∨ b = .write))

/-- The place in the queue. -/
def place (l : RwLock T) (t : T) : Nat :=
  (l.waiting.map Prod.fst).idxOf t

theorem WaitsFor.waits (h : l.WaitsFor t u) : l.waits t = true := by
  obtain ⟨before, a, after, hqueue, -⟩ := h
  refine waits_iff.mpr ⟨a, ?_⟩
  rw [hqueue]
  simp

/-- Whoever `t` waits for stands before it or has a guard. -/
theorem WaitsFor.before (hsingle : l.Single) (h : l.WaitsFor t u) :
    (l.waits u = true ∧ l.place u < l.place t) ∨ ∃ b, (u, b) ∈ l.holders := by
  obtain ⟨before, a, after, hqueue, ⟨b, hb⟩ | ⟨b, hb, -⟩⟩ := h
  · left
    constructor
    · refine waits_iff.mpr ⟨b, ?_⟩
      rw [hqueue]
      exact List.mem_append_left _ hb
    · have hnames : l.waiting.map Prod.fst =
          before.map Prod.fst ++ t :: after.map Prod.fst := by
        rw [hqueue]
        simp
      have hu : u ∈ before.map Prod.fst := List.mem_map.mpr ⟨(u, b), hb, rfl⟩
      have ht : t ∉ before.map Prod.fst := by
        unfold Single at hsingle
        rw [hnames] at hsingle
        intro hmem
        exact (List.disjoint_of_nodup_append hsingle) hmem List.mem_cons_self
      unfold place
      rw [hnames, List.idxOf_append_of_mem hu, List.idxOf_append_of_notMem ht]
      have hlt := List.idxOf_lt_length_of_mem hu
      omega
  · exact Or.inr ⟨b, hb⟩

end

end RwLock
