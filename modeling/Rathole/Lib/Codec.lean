import Mathlib.Data.List.Forall2
import Mathlib.Tactic.Ring

/-!
# Bytes, readers and streams

Integers of a fixed width in either byte order, readers that take a value off
the front of a list, and reads from a connection whose bytes come in pieces.

`Parses p bs a` says that `p` makes `a` of `bs` and leaves what follows.
`Reads m bs a` says the same of a connection, however the bytes are split,
and that `m` fails on a connection that ends inside `bs`. Both are closed
under sequencing, so a format is verified along its own structure.
-/

namespace Codec

/-! ## Integers -/

/-- The low `w` bytes of `n`, least significant first. -/
def toLe : ℕ → ℕ → List UInt8
  | 0, _ => []
  | w + 1, n => UInt8.ofNat n :: toLe w (n / 256)

def ofLe : List UInt8 → ℕ
  | [] => 0
  | b :: bs => b.toNat + 256 * ofLe bs

/-- Most significant byte first. -/
def toBe (w n : ℕ) : List UInt8 := (toLe w n).reverse

def ofBe (bs : List UInt8) : ℕ := ofLe bs.reverse

@[simp]
theorem length_toLe (w n : ℕ) : (toLe w n).length = w := by
  induction w generalizing n with
  | zero => rfl
  | succ w ih => simp [toLe, ih]

@[simp]
theorem length_toBe (w n : ℕ) : (toBe w n).length = w := by
  simp [toBe]

theorem ofLe_toLe (w n : ℕ) : ofLe (toLe w n) = n % 256 ^ w := by
  induction w generalizing n with
  | zero => simp [toLe, ofLe, Nat.mod_one]
  | succ w ih =>
      rw [toLe, ofLe, ih, pow_succ, Nat.mul_comm (256 ^ w), Nat.mod_mul]
      rfl

theorem ofLe_toLe_of_lt {w n : ℕ} (h : n < 256 ^ w) : ofLe (toLe w n) = n := by
  rw [ofLe_toLe, Nat.mod_eq_of_lt h]

theorem ofBe_toBe_of_lt {w n : ℕ} (h : n < 256 ^ w) : ofBe (toBe w n) = n := by
  unfold ofBe toBe
  rw [List.reverse_reverse, ofLe_toLe_of_lt h]

theorem toLe_ofLe (bs : List UInt8) : toLe bs.length (ofLe bs) = bs := by
  induction bs with
  | nil => rfl
  | cons b bs ih =>
      have hb := b.toNat_lt
      have hlow : UInt8.ofNat (b.toNat + 256 * ofLe bs) = b := by
        apply UInt8.toNat_inj.mp
        rw [UInt8.toNat_ofNat']
        omega
      have hhigh : (b.toNat + 256 * ofLe bs) / 256 = ofLe bs := by omega
      rw [List.length_cons, ofLe, toLe, hlow, hhigh, ih]

theorem toBe_ofBe {w : ℕ} {bs : List UInt8} (h : bs.length = w) :
    toBe w (ofBe bs) = bs := by
  unfold toBe ofBe
  rw [← h, ← List.length_reverse, toLe_ofLe, List.reverse_reverse]

theorem ofLe_lt (bs : List UInt8) : ofLe bs < 256 ^ bs.length := by
  induction bs with
  | nil => decide
  | cons b bs ih =>
      have hb := b.toNat_lt
      rw [ofLe, List.length_cons, pow_succ]
      omega

theorem ofBe_lt {w : ℕ} {bs : List UInt8} (h : bs.length = w) :
    ofBe bs < 256 ^ w := by
  unfold ofBe
  rw [← h, ← List.length_reverse]
  exact ofLe_lt bs.reverse

/-! ## Readers -/

abbrev Reader (β α : Type) := StateT (List β) Option α

section Readers

variable {α β γ : Type} {p : Reader β α} {bs bs' : List β} {a : α} {b : γ}

/-- `p` takes `bs` off the front, returns `a` and leaves the rest. -/
def Parses (p : Reader β α) (bs : List β) (a : α) : Prop :=
  ∀ rest, p.run (bs ++ rest) = some (a, rest)

/-- The next `n` items. -/
def takeExact (n : ℕ) : Reader β (List β) := fun s =>
  if n ≤ s.length then some (s.take n, s.drop n) else none

theorem parses_pure (a : α) : Parses (pure a : Reader β α) [] a := by
  intro rest
  rfl

theorem Parses.bind {f : α → Reader β γ} (hp : Parses p bs a)
    (hf : Parses (f a) bs' b) : Parses (p >>= f) (bs ++ bs') b := by
  intro rest
  rw [StateT.run_bind, List.append_assoc, hp]
  exact hf rest

/-- The first part takes nothing. -/
theorem Parses.nil_bind {f : α → Reader β γ} (hp : Parses p [] a)
    (hf : Parses (f a) bs b) : Parses (p >>= f) bs b := by
  rw [← List.nil_append bs]
  exact hp.bind hf

theorem parses_lift (x : Option α) (h : x = some a) :
    Parses (liftM x : Reader β α) [] a := by
  intro rest
  subst h
  rfl

theorem parses_guard {q : Prop} [Decidable q] (h : q) :
    Parses (guard q : Reader β Unit) [] () := by
  intro rest
  rw [guard, if_pos h]
  rfl

theorem Parses.map (f : α → γ) (hp : Parses p bs a) :
    Parses (f <$> p) bs (f a) := by
  intro rest
  rw [StateT.run_map, hp]
  rfl

theorem Parses.bind_nil {f : α → Reader β γ} (hp : Parses p bs a)
    (hf : Parses (f a) [] b) : Parses (p >>= f) bs b := by
  rw [← List.append_nil bs]
  exact hp.bind hf

/-- The last field of a record. -/
theorem Parses.ret (f : α → γ) (hp : Parses p bs a) :
    Parses (p >>= fun x => pure (f x)) bs (f a) :=
  hp.bind_nil (parses_pure (f a))

theorem parses_takeExact {n : ℕ} (h : bs.length = n) :
    Parses (takeExact n) bs bs := by
  intro rest
  subst h
  show (if bs.length ≤ (bs ++ rest).length then _ else none) = _
  rw [if_pos (by simp), List.take_left, List.drop_left]

end Readers

/-! ## Connections -/

/-- The state is what is still to come, in the pieces it comes in; an empty
piece is a poll that found nothing. After the last piece the connection has
ended. -/
abbrev Conn (ε β α : Type) := StateT (List (List β)) (Except ε) α

section Conn

variable {α β γ ε : Type}

/-- Collect `n` items. -/
def pull : ℕ → List (List β) → Option (List β × List (List β))
  | n, [] => if n = 0 then some ([], []) else none
  | n, c :: cs =>
      if n ≤ c.length then some (c.take n, c.drop n :: cs)
      else (pull (n - c.length) cs).map (fun r => (c ++ r.1, r.2))

/-- Exactly `n` items, or `e` if the connection ends before them. -/
def readExact (e : ε) (n : ℕ) : Conn ε β (List β) := fun cs =>
  match pull n cs with
  | some r => .ok r
  | none => .error e

theorem pull_of_le {n : ℕ} {cs : List (List β)} (h : n ≤ cs.flatten.length) :
    ∃ cs', pull n cs = some (cs.flatten.take n, cs') ∧
      cs'.flatten = cs.flatten.drop n := by
  induction cs generalizing n with
  | nil =>
      have hn : n = 0 := by simpa using h
      subst hn
      exact ⟨[], rfl, rfl⟩
  | cons c cs ih =>
      unfold pull
      split
      · rename_i hle
        refine ⟨c.drop n :: cs, ?_, ?_⟩
        · rw [List.flatten_cons, List.take_append_of_le_length hle]
        · rw [List.flatten_cons, List.flatten_cons,
            List.drop_append_of_le_length hle]
      · rename_i hlt
        have hle : c.length ≤ n := by omega
        obtain ⟨cs', hpull, hrest⟩ := ih (n := n - c.length) (by
          rw [List.flatten_cons, List.length_append] at h
          omega)
        refine ⟨cs', ?_, ?_⟩
        · rw [hpull, Option.map_some, List.flatten_cons,
            List.take_append, List.take_of_length_le hle]
        · rw [hrest, List.flatten_cons, List.drop_append,
            List.drop_of_length_le hle, List.nil_append]

theorem pull_of_lt {n : ℕ} {cs : List (List β)} (h : cs.flatten.length < n) :
    pull n cs = none := by
  induction cs generalizing n with
  | nil =>
      have hn : n ≠ 0 := by
        rintro rfl
        simp at h
      simp [pull, hn]
  | cons c cs ih =>
      rw [List.flatten_cons, List.length_append] at h
      unfold pull
      rw [if_neg (by omega), ih (by omega)]
      rfl

/-- **However the bytes are split**, `m` makes `a` of `bs` and leaves what
follows; on a connection that ends inside `bs` it fails. -/
structure Reads (m : Conn ε β α) (bs : List β) (a : α) : Prop where
  whole : ∀ cs rest, cs.flatten = bs ++ rest →
    ∃ cs', m.run cs = .ok (a, cs') ∧ cs'.flatten = rest
  cut : ∀ cs, cs.flatten <+: bs → cs.flatten ≠ bs →
    ∃ e, m.run cs = .error e

variable {m : Conn ε β α} {bs bs' : List β} {a : α} {b : γ}

/-- What needs nothing from the connection. -/
theorem reads_lift (x : Except ε α) (h : x = .ok a) :
    Reads (liftM x : Conn ε β α) [] a := by
  subst h
  refine ⟨fun cs rest hcs => ⟨cs, rfl, hcs⟩, ?_⟩
  intro cs hcs hne
  exact absurd (List.prefix_nil.mp hcs) hne

theorem reads_pure (a : α) : Reads (pure a : Conn ε β α) [] a := by
  refine ⟨fun cs rest hcs => ⟨cs, rfl, hcs⟩, ?_⟩
  intro cs hcs hne
  exact absurd (List.prefix_nil.mp hcs) hne

theorem reads_readExact (e : ε) {n : ℕ} (h : bs.length = n) :
    Reads (readExact e n) bs bs := by
  subst h
  refine ⟨?_, ?_⟩
  · intro cs rest hcs
    have hle : bs.length ≤ cs.flatten.length := by simp [hcs]
    obtain ⟨cs', hpull, hrest⟩ := pull_of_le hle
    refine ⟨cs', ?_, ?_⟩
    · show (match pull bs.length cs with
        | some r => Except.ok r
        | none => .error e) = _
      rw [hpull, hcs, List.take_left]
    · rw [hrest, hcs, List.drop_left]
  · intro cs hcs hne
    have hlt : cs.flatten.length < bs.length := by
      rcases Nat.lt_or_ge cs.flatten.length bs.length with hlt | hge
      · exact hlt
      · exact absurd (hcs.eq_of_length_le hge) hne
    refine ⟨e, ?_⟩
    show (match pull bs.length cs with
      | some r => Except.ok r
      | none => .error e) = _
    rw [pull_of_lt hlt]

/-- A prefix of two parts is cut in the first or in the second. -/
theorem prefix_append_cases {l l₁ l₂ : List β} (h : l <+: l₁ ++ l₂)
    (hne : l ≠ l₁ ++ l₂) :
    (l <+: l₁ ∧ l ≠ l₁) ∨ ∃ l', l = l₁ ++ l' ∧ l' <+: l₂ ∧ l' ≠ l₂ := by
  rcases List.prefix_or_prefix_of_prefix h (List.prefix_append l₁ l₂) with
    hleft | ⟨l', rfl⟩
  · by_cases heq : l = l₁
    · subst heq
      refine Or.inr ⟨[], by simp, List.nil_prefix, ?_⟩
      rintro rfl
      exact hne (by simp)
    · exact Or.inl ⟨hleft, heq⟩
  · refine Or.inr ⟨l', rfl, (List.prefix_append_right_inj l₁).mp h, ?_⟩
    rintro rfl
    exact hne rfl

theorem Reads.bind {f : α → Conn ε β γ} (hm : Reads m bs a)
    (hf : Reads (f a) bs' b) : Reads (m >>= f) (bs ++ bs') b := by
  refine ⟨?_, ?_⟩
  · intro cs rest hcs
    rw [List.append_assoc] at hcs
    obtain ⟨cs₁, hrun₁, hcs₁⟩ := hm.whole cs _ hcs
    obtain ⟨cs₂, hrun₂, hcs₂⟩ := hf.whole cs₁ _ hcs₁
    refine ⟨cs₂, ?_, hcs₂⟩
    rw [StateT.run_bind, hrun₁]
    exact hrun₂
  · intro cs hcs hne
    rcases prefix_append_cases hcs hne with ⟨hleft, hne'⟩ | ⟨l, hl, hright, hne'⟩
    · obtain ⟨e, he⟩ := hm.cut cs hleft hne'
      refine ⟨e, ?_⟩
      rw [StateT.run_bind, he]
      rfl
    · obtain ⟨cs₁, hrun₁, hcs₁⟩ := hm.whole cs l hl
      rw [← hcs₁] at hright hne'
      obtain ⟨e, he⟩ := hf.cut cs₁ hright hne'
      refine ⟨e, ?_⟩
      rw [StateT.run_bind, hrun₁]
      exact he

/-- Read `n` values one after the other. -/
def readMany (m : Conn ε β α) : ℕ → Conn ε β (List α)
  | 0 => pure []
  | n + 1 => do
      let a ← m
      let as ← readMany m n
      pure (a :: as)

/-- **The rule for sequences.** -/
theorem reads_readMany {bss : List (List β)} {as : List α}
    (h : List.Forall₂ (Reads m) bss as) :
    Reads (readMany m as.length) bss.flatten as := by
  induction h with
  | nil => exact reads_pure []
  | @cons bs a bss as hfirst _ ih =>
      unfold readMany
      apply hfirst.bind
      rw [← List.append_nil bss.flatten]
      exact ih.bind (reads_pure (a :: as))

end Conn

/-! ## Frames on their way -/

/-- Between a writer and a reader: frames, each in full, and behind them some
of one more if the writer has `ended`. -/
structure InFlight {τ β : Type} (enc : τ → List β) (Fits : τ → Prop)
    (bytes : List β) (ts : List τ) (ended : Bool) : Prop where
  fits : ∀ t ∈ ts, Fits t
  frames : ∃ part t, bytes = (ts.map enc).flatten ++ part ∧ Fits t ∧
    part <+: enc t ∧ part ≠ enc t ∧ (ended = false → part = [])

section InFlight

variable {τ α β ε : Type} {enc : τ → List β} {dec : τ → α} {Fits : τ → Prop}
  {m : Conn ε β α} {bytes : List β} {ts : List τ} {t : τ} {ended : Bool}

theorem inFlight_nil (ht : Fits t) (hne : enc t ≠ []) :
    InFlight enc Fits [] [] ended :=
  ⟨by simp, [], t, rfl, ht, List.nil_prefix, hne.symm, fun _ => rfl⟩

theorem InFlight.bytes_eq (h : InFlight enc Fits bytes ts false) :
    bytes = (ts.map enc).flatten := by
  obtain ⟨part, t, hbytes, -, -, -, hpart⟩ := h.frames
  rw [hbytes, hpart rfl, List.append_nil]

theorem InFlight.end (h : InFlight enc Fits bytes ts ended) :
    InFlight enc Fits bytes ts true := by
  obtain ⟨part, t, hbytes, ht, hprefix, hne, -⟩ := h.frames
  exact ⟨h.fits, part, t, hbytes, ht, hprefix, hne, nofun⟩

theorem InFlight.write (h : InFlight enc Fits bytes ts false) (ht : Fits t)
    (hne : enc t ≠ []) : InFlight enc Fits (bytes ++ enc t) (ts ++ [t]) false := by
  refine ⟨?_, [], t, ?_, ht, List.nil_prefix, hne.symm, fun _ => rfl⟩
  · intro u hu
    rcases List.mem_append.mp hu with hu | hu
    · exact h.fits u hu
    · rw [List.mem_singleton.mp hu]
      exact ht
  · rw [h.bytes_eq]
    simp

/-- The writer gets only `n` items of a frame out. -/
theorem InFlight.fail (h : InFlight enc Fits bytes ts false) (ht : Fits t)
    {n : ℕ} (hn : n < (enc t).length) :
    InFlight enc Fits (bytes ++ (enc t).take n) ts true := by
  refine ⟨h.fits, (enc t).take n, t, ?_, ht, List.take_prefix n _, ?_, nofun⟩
  · rw [h.bytes_eq]
  · intro heq
    have hlen := congrArg List.length heq
    rw [List.length_take_of_le hn.le] at hlen
    omega

theorem InFlight.ready (h : InFlight enc Fits bytes (t :: ts) ended)
    (hm : ∀ t, Fits t → Reads m (enc t) (dec t)) :
    ∃ rest, m.run [bytes] = .ok (dec t, rest) ∧
      InFlight enc Fits rest.flatten ts ended := by
  obtain ⟨part, u, hbytes, hu, hprefix, hne, hpart⟩ := h.frames
  obtain ⟨rest, hrun, hrest⟩ := (hm t (h.fits t (by simp))).whole
    [bytes] ((ts.map enc).flatten ++ part) (by simp [hbytes])
  refine ⟨rest, hrun, fun v hv => h.fits v (by simp [hv]), ?_⟩
  exact ⟨part, u, hrest, hu, hprefix, hne, hpart⟩

/-- **The rule for the reader**: it gets the next frame, or nothing. -/
theorem InFlight.read (h : InFlight enc Fits bytes ts ended)
    (hm : ∀ t, Fits t → Reads m (enc t) (dec t)) {a : α} {rest : List (List β)}
    (hrun : m.run [bytes] = .ok (a, rest)) :
    ∃ t, ts = t :: ts.tail ∧ a = dec t ∧
      InFlight enc Fits rest.flatten ts.tail ended := by
  cases ts with
  | nil =>
      obtain ⟨part, t, hbytes, ht, hprefix, hne, -⟩ := h.frames
      obtain ⟨e, he⟩ := (hm t ht).cut [bytes]
        (by simpa [hbytes] using hprefix) (by simpa [hbytes] using hne)
      rw [he] at hrun
      cases hrun
  | cons t ts =>
      obtain ⟨rest', hrun', hflight⟩ := h.ready hm
      cases hrun'.symm.trans hrun
      exact ⟨t, rfl, rfl, hflight⟩

end InFlight

end Codec
