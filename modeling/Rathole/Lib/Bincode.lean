import Rathole.Lib.Codec

/-!
# Bincode

The default format of bincode 1: integers of fixed width, least significant
byte first; a tag of four bytes before the variant of an enumeration; a length
of eight before a vector or a string; arrays and the fields of a record one
after the other. What follows a value is left alone.
-/

namespace Bincode

open Codec

/-! ## Writing -/

def serU8 (n : UInt8) : List UInt8 := toLe 1 n.toNat

def serU16 (n : UInt16) : List UInt8 := toLe 2 n.toNat

/-- The index of a variant, a `u32`. -/
def serVariant (i : ℕ) : List UInt8 := toLe 4 i

def serBool (b : Bool) : List UInt8 := serU8 (if b then 1 else 0)

def serArray {n : ℕ} (a : Vector UInt8 n) : List UInt8 := a.toList

/-- `Vec<u8>`: the length as a `u64`, then the bytes. -/
def serVec (bs : List UInt8) : List UInt8 := toLe 8 bs.length ++ bs

def serString (s : String) : List UInt8 := serVec s.toByteArray.data.toList

/-! ## Reading -/

abbrev De (α : Type) := Reader UInt8 α

def deInt (w : ℕ) : De ℕ := ofLe <$> takeExact w

def deU8 : De UInt8 := UInt8.ofNat <$> deInt 1

def deU16 : De UInt16 := UInt16.ofNat <$> deInt 2

def deVariant : De ℕ := deInt 4

/-- Any byte but 0 and 1 is an error. -/
def deBool : De Bool := do
  match (← deU8).toNat with
  | 0 => pure false
  | 1 => pure true
  | _ => failure

def deArray (n : ℕ) : De (Vector UInt8 n) := do
  let bs ← takeExact n
  if h : bs.length = n then pure ⟨bs.toArray, by simpa using h⟩ else failure

def deVec : De (List UInt8) := deInt 8 >>= takeExact

/-- The bytes have to be UTF-8. -/
def deString : De String := do
  match String.fromUTF8? ⟨(← deVec).toArray⟩ with
  | some s => pure s
  | none => failure

/-! ## Round trips -/

theorem parses_deInt {w n : ℕ} (h : n < 256 ^ w) :
    Parses (deInt w) (toLe w n) n := by
  have hp := (parses_takeExact (length_toLe w n)).map ofLe
  rwa [ofLe_toLe_of_lt h] at hp

theorem parses_deU8 (n : UInt8) : Parses deU8 (serU8 n) n := by
  have hp := (parses_deInt (w := 1) n.toNat_lt).map UInt8.ofNat
  rwa [UInt8.ofNat_toNat] at hp

theorem parses_deU16 (n : UInt16) : Parses deU16 (serU16 n) n := by
  have hp := (parses_deInt (w := 2) n.toNat_lt).map UInt16.ofNat
  rwa [UInt16.ofNat_toNat] at hp

theorem parses_deVariant {i : ℕ} (h : i < 2 ^ 32) :
    Parses deVariant (serVariant i) i :=
  parses_deInt h

section Variants

variable {α : Type} {f : ℕ → De α} {i : ℕ} {bs : List UInt8} {a : α}

/-- A variant with fields. -/
theorem parses_variant (hi : i < 2 ^ 32) (h : Parses (f i) bs a) :
    Parses (deVariant >>= f) (serVariant i ++ bs) a :=
  (parses_deVariant hi).bind h

/-- A variant without. -/
theorem parses_unit_variant (hi : i < 2 ^ 32) (h : Parses (f i) [] a) :
    Parses (deVariant >>= f) (serVariant i) a := by
  rw [← List.append_nil (serVariant i)]
  exact parses_variant hi h

end Variants

theorem parses_deBool (b : Bool) : Parses deBool (serBool b) b := by
  unfold deBool
  rw [← List.append_nil (serBool b)]
  apply (parses_deU8 _).bind
  cases b
  · exact parses_pure false
  · exact parses_pure true

theorem parses_deArray {n : ℕ} (a : Vector UInt8 n) :
    Parses (deArray n) (serArray a) a := by
  have hlen : (serArray a).length = n := by simp [serArray]
  unfold deArray
  rw [← List.append_nil (serArray a)]
  apply (parses_takeExact hlen).bind
  rw [dif_pos hlen]
  exact parses_pure a

theorem parses_deVec {bs : List UInt8} (h : bs.length < 2 ^ 64) :
    Parses deVec (serVec bs) bs :=
  (parses_deInt h).bind (parses_takeExact rfl)

theorem parses_deString {s : String} (h : s.utf8ByteSize < 2 ^ 64) :
    Parses deString (serString s) s := by
  have hvalid : String.fromUTF8? ⟨s.toByteArray.data.toList.toArray⟩ = some s := by
    unfold String.fromUTF8?
    exact dif_pos s.isValidUTF8
  unfold deString
  rw [← List.append_nil (serString s)]
  apply (parses_deVec (by simpa using h)).bind
  rw [hvalid]
  exact parses_pure s

end Bincode
