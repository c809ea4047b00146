import Mathlib.Data.List.Dedup
import Mathlib.Data.Finset.Card
import Mathlib.Tactic.Ring

/-!
# Senders that are never silent for long

A sender keeps the time of its last message and sends again before `gap` has
passed. `Cadence` is what a step has to preserve; from it follows that every
stretch of time of the length of `gap` has a message in it, and so that a
listener who misses at most `k` of them hears one within `k + 1` gaps.
-/

/-- At the time `clock` the sender has sent at the times in `log`, last at
`last`. Nothing is said of the time before `launch`. -/
structure Cadence (gap launch last clock : ℕ) (log : List ℕ) : Prop where
  launched : launch ≤ clock
  before : last ≤ clock
  known : last ≤ launch ∨ last ∈ log
  dense : clock ≤ max last launch + gap
  covers : ∀ z, launch ≤ z → z + gap < clock →
    ∃ u ∈ log, z < u ∧ u ≤ z + gap

namespace Cadence

variable {gap launch last clock now : ℕ} {log : List ℕ}

theorem start (h : last ≤ launch) : Cadence gap launch last launch [] where
  launched := le_refl launch
  before := h
  known := Or.inl h
  dense := by omega
  covers := by
    intro z hz hgap
    omega

/-- Time passes, and the sender is not late. -/
theorem later (h : Cadence gap launch last clock log) (hclock : clock ≤ now)
    (hdense : now ≤ max last launch + gap) :
    Cadence gap launch last now log where
  launched := h.launched.trans hclock
  before := h.before.trans hclock
  known := h.known
  dense := hdense
  covers := by
    intro z hz hgap
    by_cases hold : z + gap < clock
    · exact h.covers z hz hold
    · -- the last message is the one after `z`
      have hbefore := h.before
      rcases h.known with hlast | hlast
      · omega
      · exact ⟨last, hlast, by omega, by omega⟩

/-- The sender sends. -/
theorem send (h : Cadence gap launch last clock log) :
    Cadence gap launch clock clock (log ++ [clock]) where
  launched := h.launched
  before := le_refl clock
  known := Or.inr (List.mem_append_right _ (List.mem_singleton.mpr rfl))
  dense := by omega
  covers := by
    intro z hz hgap
    obtain ⟨u, hu, hzu⟩ := h.covers z hz hgap
    exact ⟨u, List.mem_append_left _ hu, hzu⟩

/-- In `k` gaps there are `k` messages. -/
theorem sent_in (h : Cadence gap launch last clock log) (k : ℕ) {z : ℕ}
    (hz : launch ≤ z) (hk : z + k * gap < clock) :
    ∃ l : List ℕ, l.length = k ∧ l.Pairwise (· < ·) ∧
      ∀ u ∈ l, u ∈ log ∧ z < u ∧ u ≤ z + k * gap := by
  induction k generalizing z with
  | zero => exact ⟨[], rfl, List.Pairwise.nil, by simp⟩
  | succ k ih =>
      rw [Nat.succ_mul] at hk ⊢
      obtain ⟨u, hu, hzu, hle⟩ := h.covers z hz (by omega)
      obtain ⟨l, hlen, hsorted, hmem⟩ := ih (z := u) (by omega) (by omega)
      refine ⟨u :: l, by rw [List.length_cons, hlen], ?_, ?_⟩
      · exact List.pairwise_cons.mpr ⟨fun x hx => (hmem x hx).2.1, hsorted⟩
      · intro x hx
        rcases List.mem_cons.mp hx with rfl | hx'
        · exact ⟨hu, hzu, by omega⟩
        · obtain ⟨hlog, hux, hxle⟩ := hmem x hx'
          exact ⟨hlog, by omega, by omega⟩

/-- The times after `heard` at which the sender sent something that should
have arrived by `clock`, at the latest `delay` after it was sent. -/
def missed (log : List ℕ) (heard delay clock : ℕ) : List ℕ :=
  (log.filter (fun u => decide (heard < u ∧ u + delay ≤ clock))).dedup

/-- **A listener hears the sender in time**, if it misses no more than `k`
messages in a row. -/
theorem heard_within (h : Cadence gap launch last clock log)
    {k heard delay limit : ℕ}
    (hmissed : (missed log heard delay clock).length ≤ k)
    (hlimit : launch - heard + (k + 1) * gap + delay ≤ limit) :
    clock ≤ heard + limit := by
  by_contra hsilent
  have hlaunched := h.launched
  obtain ⟨l, hlen, hsorted, hmem⟩ := h.sent_in (k + 1)
    (z := max heard launch) (Nat.le_max_right _ _) (by omega)
  have hsub : l ⊆ missed log heard delay clock := by
    intro u hu
    obtain ⟨hlog, hgt, hle⟩ := hmem u hu
    unfold missed
    rw [List.mem_dedup, List.mem_filter, decide_eq_true_eq]
    exact ⟨hlog, by omega, by omega⟩
  have hnodup : l.Nodup := hsorted.imp Nat.ne_of_lt
  have hle := (List.subperm_of_subset hnodup hsub).length_le
  omega

end Cadence
