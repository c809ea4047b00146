import Mathlib.Data.List.TakeDrop
import Mathlib.Data.List.TakeWhile
import Rathole.Config

/-!
# What a list of allowed ports says

`is_port_allowed` is the only check between a visitor and the ports of the
server. It cuts the text at the commas, each part at its first dash, trims and
parses. Here the reading is given the other way round: what a text *writes*,
with blanks wherever they may stand, and the function is shown to grant what
is written and nothing else.
-/

namespace Rathole

/-! ## Numbers in a text -/

def Blank (w : List Char) : Prop := ∀ c ∈ w, isWhitespace c = true

/-- The digits of `p`, leading zeros included. -/
def Decimal (digits : List Char) (p : UInt16) : Prop :=
  digits ≠ [] ∧ (∀ c ∈ digits, c.isDigit = true) ∧
    Nat.ofDigitChars 10 digits 0 = p.toNat

/-- The usual decimal of a port is one, with any zeros in front. -/
theorem decimal_toDigits (zeros : Nat) (p : UInt16) :
    Decimal (List.replicate zeros '0' ++ Nat.toDigits 10 p.toNat) p := by
  refine ⟨by simp [Nat.toDigits_ne_nil], ?_, ?_⟩
  · intro c hc
    rcases List.mem_append.1 hc with hc | hc
    · rw [List.eq_of_mem_replicate hc]
      decide
    · exact Nat.isDigit_of_mem_toDigits (by decide) (by decide) hc
  · rw [Nat.ofDigitChars_append, Nat.ofDigitChars_replicate_zero,
      Nat.mul_zero, Nat.ofDigitChars_ten_toDigits]

/-- What parses as `p`: its digits, perhaps behind a plus. -/
def Numeral (s : List Char) (p : UInt16) : Prop :=
  ∃ sign digits, (sign = [] ∨ sign = ['+']) ∧ s = sign ++ digits ∧
    Decimal digits p

/-- A number with blanks around it. -/
def Written (text : List Char) (p : UInt16) : Prop :=
  ∃ v s w, Blank v ∧ Blank w ∧ Numeral s p ∧ text = v ++ s ++ w

/-- The first dash of a text parts it in two numbers. -/
def WrittenRange (text : List Char) (lo hi : UInt16) : Prop :=
  ∃ a b, text = a ++ '-' :: b ∧ Written a lo ∧ Written b hi

/-! ## Trimming -/

theorem trim_pad {v s w : List Char} (hv : Blank v) (hw : Blank w) :
    trim (v ++ s ++ w) = trim s := by
  have hw' : ∀ c ∈ w.reverse, isWhitespace c = true := by
    intro c hc
    apply hw c
    simpa using hc
  unfold trim
  rw [List.append_assoc, List.dropWhile_append_of_pos hv, List.dropWhile_append]
  split
  · next hs =>
    have hs' : s.dropWhile isWhitespace = [] := by simpa using hs
    have hwnil : w.dropWhile isWhitespace = [] := by
      rw [List.dropWhile_eq_nil_iff]
      exact hw
    rw [hs', hwnil]
  · rw [List.reverse_append, List.dropWhile_append_of_pos hw']

/-- Trimming takes a blank from each side. -/
theorem exists_pad_trim (s : List Char) :
    ∃ v w, Blank v ∧ Blank w ∧ s = v ++ trim s ++ w := by
  let t := s.dropWhile isWhitespace
  refine ⟨s.takeWhile isWhitespace, (t.reverse.takeWhile isWhitespace).reverse,
    ?_, ?_, ?_⟩
  · intro c hc
    exact List.mem_takeWhile_imp hc
  · intro c hc
    rw [List.mem_reverse] at hc
    exact List.mem_takeWhile_imp hc
  · have ht : t = trim s ++ (t.reverse.takeWhile isWhitespace).reverse := by
      rw [trim, ← List.reverse_append, List.takeWhile_append_dropWhile,
        List.reverse_reverse]
    rw [List.append_assoc, ← ht]
    exact List.takeWhile_append_dropWhile.symm

theorem dropWhile_solid {s : List Char}
    (h : ∀ c ∈ s, isWhitespace c = false) : s.dropWhile isWhitespace = s := by
  rw [List.dropWhile_eq_self_iff]
  intro hl
  simp [h _ (List.getElem_mem hl)]

theorem trim_solid {s : List Char}
    (h : ∀ c ∈ s, isWhitespace c = false) : trim s = s := by
  have hback : ∀ c ∈ s.reverse, isWhitespace c = false := by
    intro c hc
    exact h c (List.mem_reverse.1 hc)
  rw [trim, dropWhile_solid h, dropWhile_solid hback, List.reverse_reverse]

theorem mem_trim {c : Char} (hc : isWhitespace c = false) (s : List Char) :
    c ∈ trim s ↔ c ∈ s := by
  obtain ⟨v, w, hv, hw, hpad⟩ := exists_pad_trim s
  have hcv : c ∉ v := by
    intro hmem
    simp [hv c hmem] at hc
  have hcw : c ∉ w := by
    intro hmem
    simp [hw c hmem] at hc
  conv_rhs => rw [hpad]
  simp [hcv, hcw]

/-! ## Parsing -/

theorem digit_not_blank {c : Char} (h : c.isDigit = true) :
    isWhitespace c = false := by
  simp only [Char.isDigit, Bool.and_eq_true, decide_eq_true_eq] at h
  have h1 : 48 ≤ c.toNat := h.1
  have h2 : c.toNat ≤ 57 := h.2
  simp only [isWhitespace]
  grind

theorem foldl_digits (digits : List Char) (n : Nat) :
    digits.foldl (fun n c => n * 10 + (c.toNat - '0'.toNat)) n =
      Nat.ofDigitChars 10 digits n := by
  rw [Nat.ofDigitChars_eq_foldl]
  simp only [Nat.mul_comm]

theorem parseU16_plus (digits : List Char) (p : UInt16) :
    parseU16 ('+' :: digits) = some p ↔ Decimal digits p := by
  simp only [parseU16, foldl_digits]
  constructor
  · intro h
    split at h
    · cases h
    · next hd =>
      simp only [Bool.or_eq_true, decide_eq_true_eq, Bool.not_eq_true',
        not_or, Bool.not_eq_false, List.all_eq_true] at hd
      split at h
      · next hlt =>
        obtain rfl : _ = p := Option.some.inj h
        refine ⟨hd.1, hd.2, ?_⟩
        rw [Nat.toUInt16_eq, UInt16.toNat_ofNat_of_lt' hlt]
      · cases h
  · rintro ⟨hne, hdigits, hvalue⟩
    have hall : digits.all Char.isDigit = true := List.all_eq_true.2 hdigits
    have hlt : p.toNat < 65536 := p.toNat_lt
    simp [hne, hall, hvalue, hlt]

theorem parseU16_no_plus {s : List Char} (h : s.head? ≠ some '+') :
    parseU16 s = parseU16 ('+' :: s) := by
  rcases s with _ | ⟨c, rest⟩
  · rfl
  · have hc : c ≠ '+' := by
      rintro rfl
      exact h rfl
    unfold parseU16
    split
    · next heq =>
      injection heq with hhead
      exact absurd hhead hc
    · rfl

theorem parseU16_eq_some_iff (s : List Char) (p : UInt16) :
    parseU16 s = some p ↔ Numeral s p := by
  constructor
  · intro h
    by_cases hplus : s.head? = some '+'
    · obtain ⟨rest, rfl⟩ := List.head?_eq_some_iff.1 hplus
      exact ⟨['+'], rest, .inr rfl, rfl, (parseU16_plus rest p).1 h⟩
    · rw [parseU16_no_plus hplus] at h
      exact ⟨[], s, .inl rfl, rfl, (parseU16_plus s p).1 h⟩
  · rintro ⟨sign, digits, hsign, rfl, hd⟩
    rcases hsign with rfl | rfl
    · have hplus : digits.head? ≠ some '+' := by
        intro hhead
        obtain ⟨rest, rfl⟩ := List.head?_eq_some_iff.1 hhead
        exact absurd (hd.2.1 '+' List.mem_cons_self) (by decide)
      rw [List.nil_append, parseU16_no_plus hplus]
      exact (parseU16_plus digits p).2 hd
    · exact (parseU16_plus digits p).2 hd

theorem Numeral.mem {s : List Char} {p : UInt16} (h : Numeral s p) {c : Char}
    (hc : c ∈ s) : c = '+' ∨ c.isDigit = true := by
  obtain ⟨sign, digits, hsign, rfl, -, hdigits, -⟩ := h
  rcases List.mem_append.1 hc with hc | hc
  · rcases hsign with rfl | rfl
    · simp at hc
    · exact .inl (List.mem_singleton.1 hc)
  · exact .inr (hdigits c hc)

/-- The code's own reading of a number between blanks. -/
theorem written_iff (text : List Char) (p : UInt16) :
    Written text p ↔ parseU16 (trim text) = some p := by
  rw [parseU16_eq_some_iff]
  constructor
  · rintro ⟨v, s, w, hv, hw, hs, rfl⟩
    have hsolid : ∀ c ∈ s, isWhitespace c = false := by
      intro c hc
      rcases hs.mem hc with rfl | hdigit
      · decide
      · exact digit_not_blank hdigit
    rw [trim_pad hv hw, trim_solid hsolid]
    exact hs
  · intro h
    obtain ⟨v, w, hv, hw, hpad⟩ := exists_pad_trim text
    exact ⟨v, trim text, w, hv, hw, h, hpad⟩

theorem Written.unique {text : List Char} {p q : UInt16} (hp : Written text p)
    (hq : Written text q) : p = q := by
  rw [written_iff] at hp hq
  rw [hp] at hq
  exact Option.some.inj hq

theorem Written.mem {text : List Char} {p : UInt16} (h : Written text p)
    {c : Char} (hc : c ∈ text) :
    isWhitespace c = true ∨ c = '+' ∨ c.isDigit = true := by
  obtain ⟨v, s, w, hv, hw, hs, rfl⟩ := h
  simp only [List.mem_append] at hc
  rcases hc with (hc | hc) | hc
  · exact .inl (hv c hc)
  · exact .inr (hs.mem hc)
  · exact .inl (hw c hc)

theorem Written.no_dash {text : List Char} {p : UInt16} (h : Written text p) :
    '-' ∉ text := by
  intro hc
  exact absurd (h.mem hc) (by decide)

theorem Written.no_comma {text : List Char} {p : UInt16}
    (h : Written text p) : ',' ∉ text := by
  intro hc
  exact absurd (h.mem hc) (by decide)

theorem written_pad_left {v : List Char} (hv : Blank v) (s : List Char)
    (p : UInt16) : Written (v ++ s) p ↔ Written s p := by
  have hpad := trim_pad (s := s) (w := []) hv (by simp [Blank])
  rw [List.append_nil] at hpad
  rw [written_iff, written_iff, hpad]

theorem written_pad_right {w : List Char} (hw : Blank w) (s : List Char)
    (p : UInt16) : Written (s ++ w) p ↔ Written s p := by
  have hpad := trim_pad (v := []) (s := s) (by simp [Blank]) hw
  rw [List.nil_append] at hpad
  rw [written_iff, written_iff, hpad]

/-! ## The first dash -/

theorem splitOnce_eq_none {d : Char} {s : List Char}
    (h : splitOnce d s = none) : d ∉ s := by
  unfold splitOnce at h
  rw [List.span_eq_takeWhile_dropWhile] at h
  split at h
  · next heq =>
    have hdrop : s.dropWhile (fun c => c ≠ d) = [] := congrArg Prod.snd heq
    rw [List.dropWhile_eq_nil_iff] at hdrop
    intro hd
    simpa using hdrop d hd
  · cases h

theorem splitOnce_eq_some {d : Char} {s a b : List Char}
    (h : splitOnce d s = some (a, b)) : d ∉ a ∧ s = a ++ d :: b := by
  unfold splitOnce at h
  rw [List.span_eq_takeWhile_dropWhile] at h
  split at h
  · cases h
  · next before c after heq =>
    obtain ⟨rfl, rfl⟩ : before = a ∧ after = b := by simpa using h
    have htake : s.takeWhile (fun c => c ≠ d) = before := congrArg Prod.fst heq
    have hdrop : s.dropWhile (fun c => c ≠ d) = c :: after :=
      congrArg Prod.snd heq
    have hc : c = d := by
      have hhead := List.head?_dropWhile_not (fun c => decide (c ≠ d)) s
      rw [hdrop] at hhead
      simpa using hhead
    subst hc
    constructor
    · intro hmem
      rw [← htake] at hmem
      simpa using List.mem_takeWhile_imp hmem
    · rw [← hdrop, ← htake, List.takeWhile_append_dropWhile]

theorem splitOnce_first {d : Char} {a : List Char} (ha : d ∉ a)
    (b : List Char) : splitOnce d (a ++ d :: b) = some (a, b) := by
  have hpos : ∀ c ∈ a, decide (c ≠ d) = true := by
    intro c hc
    rw [decide_eq_true_eq]
    rintro rfl
    exact ha hc
  unfold splitOnce
  rw [List.span_eq_takeWhile_dropWhile, List.takeWhile_append_of_pos hpos,
    List.dropWhile_append_of_pos hpos]
  simp

/-- A text has one first `d`. -/
theorem first_unique {d : Char} {a b a' b' : List Char} (ha : d ∉ a)
    (ha' : d ∉ a') (h : a ++ d :: b = a' ++ d :: b') : a = a' ∧ b = b' := by
  have hsplit := splitOnce_first ha b
  rw [h, splitOnce_first ha' b'] at hsplit
  injection hsplit with hpair
  injection hpair with hfst hsnd
  exact ⟨hfst.symm, hsnd.symm⟩

/-! ## One part of the list -/

theorem Written.no_range {text : List Char} {p lo hi : UInt16}
    (hp : Written text p) : ¬ WrittenRange text lo hi := by
  rintro ⟨a, b, rfl, -, -⟩
  apply hp.no_dash
  simp

theorem WrittenRange.unique {text : List Char} {lo hi lo' hi' : UInt16}
    (h : WrittenRange text lo hi) (h' : WrittenRange text lo' hi') :
    lo = lo' ∧ hi = hi' := by
  obtain ⟨a, b, rfl, ha, hb⟩ := h
  obtain ⟨a', b', heq, ha', hb'⟩ := h'
  obtain ⟨rfl, rfl⟩ := first_unique ha.no_dash ha'.no_dash heq
  exact ⟨ha.unique ha', hb.unique hb'⟩

theorem writtenRange_of_split {text a b : List Char}
    (hsplit : splitOnce '-' (trim text) = some (a, b)) (lo hi : UInt16) :
    WrittenRange text lo hi ↔ Written a lo ∧ Written b hi := by
  obtain ⟨hna, htrim⟩ := splitOnce_eq_some hsplit
  obtain ⟨v, w, hv, hw, hpad⟩ := exists_pad_trim text
  -- the blanks around the part go to the two sides of the dash
  have htext : text = (v ++ a) ++ '-' :: (b ++ w) := by
    rw [hpad, htrim]
    simp
  have hnva : '-' ∉ v ++ a := by
    intro hmem
    rcases List.mem_append.1 hmem with hmem | hmem
    · exact absurd (hv '-' hmem) (by decide)
    · exact hna hmem
  rw [← written_pad_left hv a lo, ← written_pad_right hw b hi]
  constructor
  · rintro ⟨a', b', heq, ha', hb'⟩
    rw [htext] at heq
    obtain ⟨rfl, rfl⟩ := first_unique hnva ha'.no_dash heq
    exact ⟨ha', hb'⟩
  · rintro ⟨ha', hb'⟩
    exact ⟨_, _, htext, ha', hb'⟩

theorem writtenRange_no_split {text : List Char}
    (hsplit : splitOnce '-' (trim text) = none) (lo hi : UInt16) :
    ¬ WrittenRange text lo hi := by
  rintro ⟨a, b, rfl, -, -⟩
  apply splitOnce_eq_none hsplit
  rw [mem_trim (by decide)]
  simp

/-- What one part of the list grants, for any text: the number it writes, or
the numbers between the two it writes. -/
theorem partAllows_iff (text : List Char) (p : UInt16) :
    partAllows text p = true ↔
      Written text p ∨
        ∃ lo hi, WrittenRange text lo hi ∧ lo ≤ p ∧ p ≤ hi := by
  unfold partAllows
  split
  · next a b hsplit =>
    have hdash : ¬ Written text p := by
      intro h
      apply h.no_dash
      rw [← mem_trim (by decide), (splitOnce_eq_some hsplit).2]
      simp
    simp only [writtenRange_of_split hsplit, written_iff a, written_iff b]
    rw [or_iff_right hdash]
    split
    · next lo hi hlo hhi =>
      rw [Bool.and_eq_true, decide_eq_true_eq, decide_eq_true_eq]
      constructor
      · intro hp
        exact ⟨lo, hi, ⟨hlo, hhi⟩, hp⟩
      · rintro ⟨lo', hi', ⟨hlo', hhi'⟩, hp⟩
        rw [hlo] at hlo'
        rw [hhi] at hhi'
        cases hlo'
        cases hhi'
        exact hp
    · next hnone =>
      constructor
      · intro h
        cases h
      · rintro ⟨lo, hi, ⟨hlo, hhi⟩, -⟩
        exact absurd hhi (hnone lo hi hlo)
  · next hsplit =>
    rw [decide_eq_true_eq, ← written_iff]
    constructor
    · exact Or.inl
    · rintro (h | ⟨lo, hi, hrange, -⟩)
      · exact h
      · exact absurd hrange (writtenRange_no_split hsplit lo hi)

/-! ## The whole list -/

/-- What an item of the list is meant to say. -/
inductive Entry where
  | port (p : UInt16)
  | range (lo hi : UInt16)
  | malformed
deriving DecidableEq, Repr

def Entry.Grants : Entry → UInt16 → Prop
  | .port q, p => p = q
  | .range lo hi, p => lo ≤ p ∧ p ≤ hi
  | .malformed, _ => False

/-- The texts an item can have; none of them has a comma. -/
def Renders : Entry → List Char → Prop
  | .port p, text => Written text p
  | .range lo hi, text => WrittenRange text lo hi
  | .malformed, text =>
      ',' ∉ text ∧ (∀ p, ¬ Written text p) ∧
        ∀ lo hi, ¬ WrittenRange text lo hi

theorem Renders.no_comma {e : Entry} {text : List Char} (h : Renders e text) :
    ',' ∉ text := by
  cases e with
  | port p => exact Written.no_comma h
  | range lo hi =>
    obtain ⟨a, b, rfl, ha, hb⟩ := h
    simp [ha.no_comma, hb.no_comma]
  | malformed => exact h.1

theorem Renders.partAllows {e : Entry} {text : List Char} (h : Renders e text)
    (p : UInt16) : partAllows text p = true ↔ e.Grants p := by
  rw [partAllows_iff]
  cases e with
  | port q =>
    constructor
    · rintro (hp | ⟨lo, hi, hrange, -⟩)
      · exact hp.unique h
      · exact absurd hrange (Written.no_range h)
    · rintro rfl
      exact .inl h
  | range lo hi =>
    constructor
    · rintro (hp | ⟨lo', hi', hrange, hmem⟩)
      · exact absurd h hp.no_range
      · obtain ⟨rfl, rfl⟩ := hrange.unique h
        exact hmem
    · intro hmem
      exact .inr ⟨lo, hi, h, hmem⟩
  | malformed =>
    obtain ⟨-, hport, hrange⟩ := h
    constructor
    · rintro (hp | ⟨lo, hi, hp, -⟩)
      · exact hport p hp
      · exact hrange lo hi hp
    · intro hfalse
      exact hfalse.elim

/-- Cutting at the commas gives back the parts that were joined. -/
theorem any_splitOn_intercalate {texts : List (List Char)}
    (hcomma : ∀ t ∈ texts, ',' ∉ t) (p : UInt16) :
    (([','].intercalate texts).splitOn ',').any
        (fun part => partAllows part p) =
      texts.any (fun part => partAllows part p) := by
  rcases texts with _ | ⟨t, rest⟩
  · -- no entry at all is one empty part, which says nothing
    rfl
  · rw [List.splitOn_intercalate ',' hcomma (List.cons_ne_nil t rest)]

theorem any_partAllows {entries : List Entry} {texts : List (List Char)}
    (hrender : List.Forall₂ Renders entries texts) (p : UInt16) :
    texts.any (fun part => partAllows part p) = true ↔
      ∃ e ∈ entries, e.Grants p := by
  induction hrender with
  | nil => simp
  | cons he _ ih =>
    rw [List.any_cons, Bool.or_eq_true, he.partAllows p, ih]
    simp

theorem Renders.all_no_comma {entries : List Entry}
    {texts : List (List Char)} (hrender : List.Forall₂ Renders entries texts) :
    ∀ t ∈ texts, ',' ∉ t := by
  induction hrender with
  | nil => simp
  | cons he _ ih =>
    intro t ht
    rcases List.mem_cons.1 ht with rfl | ht
    · exact he.no_comma
    · exact ih t ht

/-- A list of allowed ports grants what its entries say. -/
theorem isPortAllowed_iff {entries : List Entry} {texts : List (List Char)}
    (hrender : List.Forall₂ Renders entries texts) {text : String}
    (htext : text.toList = [','].intercalate texts) (hstar : text ≠ "*")
    (p : UInt16) :
    isPortAllowed text p = true ↔ ∃ e ∈ entries, e.Grants p := by
  rw [isPortAllowed, htext,
    any_splitOn_intercalate (Renders.all_no_comma hrender) p,
    decide_eq_false hstar, Bool.false_or]
  exact any_partAllows hrender p

/-- One port, a range with blanks around its dash, a word, and a range the
wrong way round. -/
theorem isPortAllowed_iff_sample :
    isPortAllowed " 80,8000 - 8002 ,http,9-7" 8001 = true ↔
      ∃ e ∈ [Entry.port 80, .range 8000 8002, .malformed, .range 9 7],
        e.Grants 8001 := by
  have hport : Renders (.port 80) " 80".toList :=
    (written_iff _ _).2 (by decide)
  have hrange : Renders (.range 8000 8002) "8000 - 8002 ".toList :=
    ⟨"8000 ".toList, " 8002 ".toList, by decide,
      (written_iff _ _).2 (by decide), (written_iff _ _).2 (by decide)⟩
  have hword : Renders .malformed "http".toList := by
    refine ⟨by decide, ?_, ?_⟩
    · intro p hp
      rw [written_iff, show parseU16 (trim "http".toList) = none by decide] at hp
      cases hp
    · intro lo hi
      exact writtenRange_no_split (by decide) lo hi
  have hback : Renders (.range 9 7) "9-7".toList :=
    ⟨"9".toList, "7".toList, by decide,
      (written_iff _ _).2 (by decide), (written_iff _ _).2 (by decide)⟩
  exact isPortAllowed_iff
    (.cons hport (.cons hrange (.cons hword (.cons hback .nil))))
    (by decide) (by decide) 8001

/-- Every text without a comma says something, so every list is covered. -/
theorem exists_renders {text : List Char} (hcomma : ',' ∉ text) :
    ∃ e, Renders e text := by
  by_cases hport : ∃ p, Written text p
  · obtain ⟨p, hp⟩ := hport
    exact ⟨.port p, hp⟩
  · by_cases hrange : ∃ lo hi, WrittenRange text lo hi
    · obtain ⟨lo, hi, h⟩ := hrange
      exact ⟨.range lo hi, h⟩
    · refine ⟨.malformed, hcomma, ?_, ?_⟩
      · intro p hp
        exact hport ⟨p, hp⟩
      · intro lo hi h
        exact hrange ⟨lo, hi, h⟩

/-! ## Longer lists -/

/-- What a text grants as a list of entries. -/
def listAllows (text : List Char) (p : UInt16) : Bool :=
  (text.splitOn ',').any (fun part => partAllows part p)

theorem isPortAllowed_list {text : String} (hstar : text ≠ "*") (p : UInt16) :
    isPortAllowed text p = listAllows text.toList p := by
  rw [isPortAllowed, decide_eq_false hstar, Bool.false_or]
  rfl

theorem listAllows_append (a b : List Char) (p : UInt16) :
    listAllows (a ++ ',' :: b) p = (listAllows a p || listAllows b p) := by
  unfold listAllows
  rw [List.splitOn_append_cons_self, List.any_append]

theorem listAllows_part {t : List Char} (ht : ',' ∉ t) (p : UInt16) :
    listAllows t p = partAllows t p := by
  unfold listAllows
  rw [List.splitOn_eq_singleton ht, List.any_cons, List.any_nil, Bool.or_false]

theorem Blank.no_comma {w : List Char} (hw : Blank w) : ',' ∉ w := by
  intro hc
  exact absurd (hw ',' hc) (by decide)

theorem blank_nil : Blank [] := by
  intro c hc
  cases hc

theorem blank_space : Blank " ".toList := by
  intro c hc
  obtain rfl : c = ' ' := by simpa using hc
  decide

theorem partAllows_pad {v t w : List Char} (hv : Blank v) (hw : Blank w)
    (p : UInt16) : partAllows (v ++ t ++ w) p = partAllows t p := by
  unfold partAllows
  rw [trim_pad hv hw]

theorem partAllows_pad_left {v : List Char} (hv : Blank v) (t : List Char)
    (p : UInt16) : partAllows (v ++ t) p = partAllows t p := by
  have hpad := partAllows_pad (t := t) hv blank_nil p
  rwa [List.append_nil] at hpad

theorem partAllows_pad_right {w : List Char} (hw : Blank w) (t : List Char)
    (p : UInt16) : partAllows (t ++ w) p = partAllows t p :=
  partAllows_pad (v := []) blank_nil hw p

/-- Blanks before a list are blanks before its first entry. -/
theorem listAllows_pad_left {v : List Char} (hv : Blank v) (a : List Char)
    (p : UInt16) : listAllows (v ++ a) p = listAllows a p := by
  cases hsplit : splitOnce ',' a with
  | none =>
    have ha : ',' ∉ a := splitOnce_eq_none hsplit
    have hva : ',' ∉ v ++ a := by simp [hv.no_comma, ha]
    rw [listAllows_part hva, listAllows_part ha, partAllows_pad_left hv]
  | some parts =>
    obtain ⟨hx, rfl⟩ := splitOnce_eq_some hsplit
    have hvx : ',' ∉ v ++ parts.1 := by simp [hv.no_comma, hx]
    rw [← List.append_assoc, listAllows_append, listAllows_append,
      listAllows_part hvx, listAllows_part hx, partAllows_pad_left hv]

/-- Blanks behind a list are blanks behind its last entry. -/
theorem listAllows_pad_right {w : List Char} (hw : Blank w) (a : List Char)
    (p : UInt16) : listAllows (a ++ w) p = listAllows a p := by
  induction hn : a.length using Nat.strong_induction_on generalizing a with
  | h n ih =>
    cases hsplit : splitOnce ',' a with
    | none =>
      have ha : ',' ∉ a := splitOnce_eq_none hsplit
      have haw : ',' ∉ a ++ w := by simp [hw.no_comma, ha]
      rw [listAllows_part haw, listAllows_part ha, partAllows_pad_right hw]
    | some parts =>
      obtain ⟨-, rfl⟩ := splitOnce_eq_some hsplit
      have hshorter : parts.2.length < n := by
        rw [← hn, List.length_append, List.length_cons]
        omega
      rw [List.append_assoc, List.cons_append, listAllows_append,
        listAllows_append, ih _ hshorter _ rfl]

theorem eq_star_of_pad {v a w : List Char} (hv : Blank v) (hw : Blank w)
    (h : v ++ a ++ w = ['*']) : a = ['*'] := by
  have hstar : ∀ u : List Char, Blank u → ¬ u = ['*'] := by
    rintro u hu rfl
    exact absurd (hu '*' List.mem_cons_self) (by decide)
  rcases List.append_eq_singleton_iff.mp h with ⟨-, hw'⟩ | ⟨hva, -⟩
  · exact absurd hw' (hstar w hw)
  · rcases List.append_eq_singleton_iff.mp hva with ⟨-, ha⟩ | ⟨hv', -⟩
    · exact ha
    · exact absurd hv' (hstar v hv)

/-- Blanks put around a list say nothing. -/
theorem isPortAllowed_pad {v a w : String} (hv : Blank v.toList)
    (hw : Blank w.toList) (ha : a ≠ "*") (p : UInt16) :
    isPortAllowed (v ++ a ++ w) p = isPortAllowed a p := by
  have hne : v ++ a ++ w ≠ "*" := by
    intro heq
    have hlist : v.toList ++ a.toList ++ w.toList = ['*'] := by
      rw [← String.toList_append, ← String.toList_append, heq]
      decide
    exact ha (String.toList_inj.mp (eq_star_of_pad hv hw hlist))
  rw [isPortAllowed_list hne, isPortAllowed_list ha, String.toList_append,
    String.toList_append, listAllows_pad_right hw, listAllows_pad_left hv]

/-- **A longer list grants what its parts grant**, and blanks around a list
say nothing, whether they are put there or stand there. A star is a wildcard as
a whole text only: as a part of a longer list it grants nothing. -/
theorem isPortAllowed_append (p : UInt16) :
    (∀ a b : String, isPortAllowed (a ++ "," ++ b) p =
      ((decide (a ≠ "*") && isPortAllowed a p) ||
        (decide (b ≠ "*") && isPortAllowed b p))) ∧
    (∀ v a w : String, Blank v.toList → Blank w.toList → a ≠ "*" →
      isPortAllowed (v ++ a ++ w) p = isPortAllowed a p) ∧
    ∀ a : String, String.ofList (trim a.toList) ≠ "*" →
      isPortAllowed (String.ofList (trim a.toList)) p = isPortAllowed a p := by
  have hstar : listAllows "*".toList p = false := by
    have hcomma : ',' ∉ "*".toList := by decide
    rw [listAllows_part hcomma]
    have hsplit : splitOnce '-' (trim "*".toList) = none := by decide
    have hparse : parseU16 (trim "*".toList) = none := by decide
    unfold partAllows
    rw [hsplit, hparse]
    rfl
  have hentry : ∀ a : String,
      (decide (a ≠ "*") && isPortAllowed a p) = listAllows a.toList p := by
    intro a
    by_cases ha : a = "*"
    · rw [ha, hstar]
      rfl
    · rw [isPortAllowed_list ha, decide_eq_true ha, Bool.true_and]
  refine ⟨?_, fun v a w hv hw ha => isPortAllowed_pad hv hw ha p, ?_⟩
  · intro a b
    have hne : a ++ "," ++ b ≠ "*" := by
      intro heq
      have hcomma : ',' ∈ (a ++ "," ++ b).toList := by simp
      rw [heq] at hcomma
      exact absurd hcomma (by decide)
    rw [hentry, hentry, isPortAllowed_list hne, ← listAllows_append]
    simp
  · intro a ha
    obtain ⟨v, w, hv, hw, hsplit⟩ := exists_pad_trim a.toList
    have hpad : String.ofList v ++ String.ofList (trim a.toList) ++
        String.ofList w = a := by
      apply String.toList_inj.mp
      rw [String.toList_append, String.toList_append, String.toList_ofList,
        String.toList_ofList, String.toList_ofList]
      exact hsplit.symm
    conv_rhs => rw [← hpad]
    exact (isPortAllowed_pad (String.toList_ofList.symm ▸ hv)
      (String.toList_ofList.symm ▸ hw) ha p).symm

/-- A list in blanks. -/
theorem isPortAllowed_append_blanks :
    isPortAllowed (" " ++ "80,443" ++ " ") 443 = isPortAllowed "80,443" 443 ∧
    isPortAllowed (String.ofList (trim " 80,443 ".toList)) 443 =
      isPortAllowed " 80,443 " 443 := by
  obtain ⟨-, hput, hstand⟩ := isPortAllowed_append 443
  exact ⟨hput " " "80,443" " " blank_space blank_space (by decide),
    hstand " 80,443 " (by decide)⟩

/-- A star that gets company, or a blank, grants nothing any more. -/
theorem star_in_company :
    isPortAllowed ("*" ++ "," ++ "80") 443 ≠
      (isPortAllowed "*" 443 || isPortAllowed "80" 443) ∧
    isPortAllowed (" " ++ "*") 443 ≠ isPortAllowed "*" 443 := by
  decide

end Rathole
