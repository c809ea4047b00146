import Mathlib.Data.Nat.Bitwise
import Mathlib.Data.List.Basic

/-!
# Checked arithmetic

Unsigned words of `w` bits are natural numbers below `2 ^ w`. An operation
that would leave that range, or shift by the width or more, has no value:
a computation that has one never overflows.
-/

namespace Checked

variable {w a b k : ℕ}

def add (w a b : ℕ) : Option ℕ :=
  if a + b < 2 ^ w then some (a + b) else none

def sub (a b : ℕ) : Option ℕ := if b ≤ a then some (a - b) else none

/-- What is shifted out is lost, which is no overflow. -/
def shl (w a k : ℕ) : Option ℕ :=
  if k < w then some (a <<< k % 2 ^ w) else none

def shr (w a k : ℕ) : Option ℕ := if k < w then some (a >>> k) else none

theorem add_eq (h : a + b < 2 ^ w) : add w a b = some (a + b) := if_pos h

theorem sub_eq (h : b ≤ a) : sub a b = some (a - b) := if_pos h

theorem shr_eq (h : k < w) : shr w a k = some (a >>> k) := if_pos h

theorem one_shl_eq (h : k < w) : shl w 1 k = some (1 <<< k) := by
  unfold shl
  rw [if_pos h, Nat.one_shiftLeft, Nat.mod_eq_of_lt]
  exact Nat.pow_lt_pow_right (by decide) h

/-- A loop whose body has a value on every item has one itself. -/
theorem foldlM_eq {α β : Type*} {f : β → α → Option β} {g : β → α → β}
    {l : List α} (h : ∀ x ∈ l, ∀ b, f b x = some (g b x)) (b : β) :
    l.foldlM f b = some (l.foldl g b) := by
  induction l generalizing b with
  | nil => rfl
  | cons x l ih =>
      rw [List.foldlM_cons, h x List.mem_cons_self, List.foldl_cons]
      exact ih (fun y hy => h y (List.mem_cons_of_mem _ hy)) (g b x)

/-- `start..=end`: the next item is computed only while there is one, so the
end may be the greatest word. -/
def rangeFrom (w : ℕ) : ℕ → ℕ → Option (List ℕ)
  | 0, start => some [start]
  | left + 1, start => do
      let next ← add w start 1
      let rest ← rangeFrom w left next
      some (start :: rest)

def rangeInclusive (w start stop : ℕ) : Option (List ℕ) :=
  if start ≤ stop then rangeFrom w (stop - start) start else some []

theorem rangeFrom_eq {left start : ℕ} (h : start + left < 2 ^ w) :
    rangeFrom w left start = some (List.range' start (left + 1)) := by
  induction left generalizing start with
  | zero => rfl
  | succ left ih =>
      unfold rangeFrom
      rw [add_eq (by omega), List.range'_succ]
      show (rangeFrom w left (start + 1)).bind _ = _
      rw [ih (by omega)]
      rfl

theorem rangeInclusive_eq {start stop : ℕ} (h : stop < 2 ^ w) :
    rangeInclusive w start stop =
      some (List.range' start (stop + 1 - start)) := by
  unfold rangeInclusive
  by_cases hle : start ≤ stop
  · rw [if_pos hle, rangeFrom_eq (by omega)]
    congr 2
    omega
  · rw [if_neg hle, show stop + 1 - start = 0 by omega]
    rfl

end Checked
