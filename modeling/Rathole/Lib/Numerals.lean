import Mathlib.Algebra.Group.Nat.Defs
import Mathlib.Data.List.Basic
import Mathlib.Data.List.Forall2

/-!
# Numerals in ASCII

A number is written in a base up to sixteen, without leading zeros and with
the small letters, and read with zeros in front and letters of either case. A
text of several parts is the parts with a separator between them.
-/

namespace Numerals

abbrev Text := List UInt8

/-- The bytes of a text in ASCII. -/
def ascii (s : String) : Text := s.toUTF8.data.toList

/-! ## Writing -/

def write (base n : ℕ) : Text :=
  (Nat.toDigits base n).map (fun c => c.toNat.toUInt8)

/-! ## Reading -/

def digitValue (c : UInt8) : Option ℕ :=
  let c := c.toNat
  if 48 ≤ c ∧ c ≤ 57 then some (c - 48)
  else if 97 ≤ c ∧ c ≤ 102 then some (c - 87)
  else if 65 ≤ c ∧ c ≤ 70 then some (c - 55)
  else none

/-- One more digit behind the number read so far. -/
def push (base n : ℕ) (c : UInt8) : Option ℕ :=
  match digitValue c with
  | some d => if d < base then some (n * base + d) else none
  | none => none

def value (base : ℕ) (text : Text) : Option ℕ := text.foldlM (push base) 0

/-- `text` is a numeral of `n`. -/
structure Numeral (base n : ℕ) (text : Text) : Prop where
  nonempty : text ≠ []
  value : value base text = some n

/-- A decimal numeral without leading zeros. -/
structure Decimal (n : ℕ) (text : Text) : Prop where
  numeral : Numeral 10 n text
  lead : text.head? = some 48 → text = [48]

/-! ## What is written is read -/

section

variable {base n : ℕ}

theorem push_digit {d : ℕ} (hd : d < base) (hbase : base ≤ 16) (m : ℕ) :
    push base m d.digitChar.toNat.toUInt8 = some (m * base + d) := by
  have hvalue : ∀ d < 16, digitValue d.digitChar.toNat.toUInt8 = some d := by
    decide
  unfold push
  rw [hvalue d (by omega)]
  exact if_pos hd

theorem value_write (hbase : 1 < base) (hle : base ≤ 16) (n : ℕ) :
    value base (write base n) = some n := by
  induction n using Nat.strongRecOn with
  | ind n ih =>
      unfold value write
      rw [Nat.toDigits_eq_if hbase]
      by_cases hn : n < base
      · rw [if_pos hn, List.map_singleton, List.foldlM_cons, push_digit hn hle]
        simp
      · -- all digits but the last are those of the quotient
        have ih := ih (n / base) (Nat.div_lt_self (by omega) hbase)
        unfold value write at ih
        rw [if_neg hn, List.map_append, List.foldlM_append, ih]
        show List.foldlM (push base) (n / base) [_] = some n
        rw [List.foldlM_cons, push_digit (Nat.mod_lt _ (by omega)) hle]
        show some (n / base * base + n % base) = some n
        rw [Nat.mul_comm, Nat.div_add_mod]

theorem numeral_write (hbase : 1 < base) (hle : base ≤ 16) (n : ℕ) :
    Numeral base n (write base n) where
  nonempty := by simp [write]
  value := value_write hbase hle n

/-- The first digit of a positive number is not zero. -/
theorem head_write (hbase : 1 < base) (hle : base ≤ 16) (hpos : 0 < n) :
    (write base n).head? ≠ some 48 := by
  induction n using Nat.strongRecOn with
  | ind n ih =>
      unfold write
      rw [Nat.toDigits_eq_if hbase]
      by_cases hn : n < base
      · have hdigit : ∀ d < 16, 0 < d → d.digitChar.toNat.toUInt8 ≠ 48 := by
          decide
        rw [if_pos hn]
        simpa using hdigit n (by omega) hpos
      · have hquot : 0 < n / base := Nat.div_pos (by omega) (by omega)
        have ih := ih (n / base) (Nat.div_lt_self hpos hbase) hquot
        rw [if_neg hn, List.map_append, List.head?_append_of_ne_nil]
        · exact ih
        · simp

theorem decimal_write (n : ℕ) : Decimal n (write 10 n) where
  numeral := numeral_write (by decide) (by decide) n
  lead := by
    intro hlead
    rcases Nat.eq_zero_or_pos n with rfl | hpos
    · rfl
    · exact absurd hlead (head_write (by decide) (by decide) hpos)

/-- A number below `base ^ k` has at most `k` digits. -/
theorem length_write_le (hbase : 1 < base) {k : ℕ} (hk : 0 < k)
    (h : n < base ^ k) : (write base n).length ≤ k := by
  unfold write
  rw [List.length_map]
  exact (Nat.length_toDigits_le_iff hbase hk).mpr h

/-- A numeral has digits only. -/
theorem Numeral.digits {text : Text} (h : Numeral base n text) :
    ∀ c ∈ text, digitValue c ≠ none := by
  have hfold : ∀ (text : Text) m m', text.foldlM (push base) m = some m' →
      ∀ c ∈ text, digitValue c ≠ none := by
    intro text
    induction text with
    | nil => exact fun m m' _ c hc => absurd hc List.not_mem_nil
    | cons d text ih =>
        intro m m' hm c hc
        rw [List.foldlM_cons] at hm
        obtain ⟨k, hk, hrest⟩ := Option.bind_eq_some_iff.mp hm
        rcases List.mem_cons.mp hc with rfl | hc
        · intro hnone
          unfold push at hk
          rw [hnone] at hk
          cases hk
        · exact ih k m' hrest c hc
  exact hfold text 0 n h.value

end

/-! ## Texts of several parts -/

/-- The parts with `sep` between them. -/
def join (sep : UInt8) (parts : List Text) : Text := [sep].intercalate parts

theorem mem_join {sep c : UInt8} {parts : List Text} (h : c ∈ join sep parts) :
    c = sep ∨ ∃ part ∈ parts, c ∈ part := by
  induction parts with
  | nil => cases h
  | cons part parts ih =>
      cases parts with
      | nil => exact Or.inr ⟨part, List.mem_cons_self, by simpa [join] using h⟩
      | cons next parts =>
          unfold join at h
          rw [List.intercalate_cons_cons] at h
          simp only [List.mem_append, List.mem_singleton] at h
          rcases h with (hpart | rfl) | hrest
          · exact Or.inr ⟨part, List.mem_cons_self, hpart⟩
          · exact Or.inl rfl
          · rcases ih hrest with hsep | ⟨x, hx, hc⟩
            · exact Or.inl hsep
            · exact Or.inr ⟨x, List.mem_cons_of_mem _ hx, hc⟩

theorem length_join_le {sep : UInt8} {k : ℕ} {parts : List Text}
    (h : ∀ part ∈ parts, part.length ≤ k) :
    (join sep parts).length ≤ (k + 1) * parts.length - 1 := by
  induction parts with
  | nil => exact Nat.zero_le _
  | cons part parts ih =>
      have hpart : part.length ≤ k := h part List.mem_cons_self
      cases parts with
      | nil => simpa [join] using hpart
      | cons next parts =>
          have ih := ih (fun x hx => h x (List.mem_cons_of_mem _ hx))
          unfold join at ih ⊢
          rw [List.intercalate_cons_cons, List.length_append,
            List.length_append, List.length_singleton]
          rw [List.length_cons, Nat.mul_succ] at ih ⊢
          rw [List.length_cons, Nat.mul_succ]
          omega

end Numerals
