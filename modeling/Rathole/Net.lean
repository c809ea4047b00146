import Mathlib.Algebra.Group.Nat.Defs

/-!
# Socket addresses (`std::net::SocketAddr`)

The addresses, and the parser behind `str::parse::<SocketAddr>`. A reader
takes the bytes left and returns a value with the bytes it did not consume;
where it fails nothing is consumed, as with `read_atomically`.
-/

namespace Rathole

inductive SocketAddr where
  | v4 (ip : Vector UInt8 4) (port : UInt16)
  | v6 (ip : Vector UInt8 16) (port : UInt16) (flowinfo scopeId : UInt32)
deriving DecidableEq, Repr

def SocketAddr.port : SocketAddr → UInt16
  | .v4 _ port => port
  | .v6 _ port _ _ => port

inductive IpAddr where
  | v4 (octets : Vector UInt8 4)
  | v6 (octets : Vector UInt8 16)
deriving DecidableEq

def SocketAddr.ip : SocketAddr → IpAddr
  | .v4 ip _ => .v4 ip
  | .v6 ip _ _ _ => .v6 ip

namespace SocketAddr

abbrev Reader (α : Type) := List UInt8 → Option (α × List UInt8)

/-- `char::to_digit`. -/
def toDigit (radix : Nat) (c : UInt8) : Option Nat :=
  let c := c.toNat
  let digit :=
    if 48 ≤ c ∧ c ≤ 57 then c - 48
    else if 97 ≤ c ∧ c ≤ 122 then c - 87
    else if 65 ≤ c ∧ c ≤ 90 then c - 55
    else radix
  if digit < radix then some digit else none

/-- The longest run of digits, with what follows it. -/
def readDigits (radix : Nat) : List UInt8 → List Nat × List UInt8
  | [] => ([], [])
  | c :: rest =>
      match toDigit radix c with
      | none => ([], c :: rest)
      | some digit =>
          let (digits, rest) := readDigits radix rest
          (digit :: digits, rest)

/-- A number below `bound`, of at most `maxDigits` digits if there is such a
limit. -/
def readNumber (bound radix : Nat) (maxDigits : Option Nat)
    (allowZeroPrefix : Bool) : Reader Nat := fun s =>
  let (digits, rest) := readDigits radix s
  let result := digits.foldl (fun n digit => n * radix + digit) 0
  if maxDigits.any (fun limit => limit < digits.length) then none
  else if digits = [] then none
  else if !allowZeroPrefix && digits.head? = some 0 && 1 < digits.length then
    none
  else if result < bound then some (result, rest)
  else none

def readGivenChar (target : Char) : Reader Unit
  | [] => none
  | c :: rest => if c.toNat = target.toNat then some ((), rest) else none

/-- The separator stands before every item but the first. -/
def readSeparator {α : Type} (sep : Char) (index : Nat) (inner : Reader α) :
    Reader α := fun s =>
  if 0 < index then
    match readGivenChar sep s with
    | none => none
    | some ((), s) => inner s
  else inner s

def readIpv4Addr : Reader (Vector UInt8 4) := fun s => do
  let group (i : Nat) : Reader Nat :=
    readSeparator '.' i (readNumber 256 10 (some 3) false)
  let (a, s) ← group 0 s
  let (b, s) ← group 1 s
  let (c, s) ← group 2 s
  let (d, s) ← group 3 s
  some (#v[a.toUInt8, b.toUInt8, c.toUInt8, d.toUInt8], s)

/-- Up to `left` groups from the `index`-th on; the flag says that they end
in an embedded IPv4 address, which needs the room of two groups. -/
def readGroups (index : Nat) : Nat → List UInt8 →
    List Nat × Bool × List UInt8
  | 0, s => ([], false, s)
  | left + 1, s =>
      match if 0 < left then readSeparator ':' index readIpv4Addr s else none with
      | some (ip, s) =>
          ([ip[0].toNat * 256 + ip[1].toNat, ip[2].toNat * 256 + ip[3].toNat],
            true, s)
      | none =>
          match readSeparator ':' index (readNumber 65536 16 (some 4) true) s with
          | none => ([], false, s)
          | some (group, s) =>
              let (groups, ipv4, s) := readGroups (index + 1) left s
              (group :: groups, ipv4, s)

/-- Eight groups, in network byte order. -/
def ofGroups (groups : List Nat) : Vector UInt8 16 :=
  Vector.ofFn (fun i =>
    let group := groups.getD (i.val / 2) 0
    (if i.val % 2 = 0 then group / 256 else group % 256).toUInt8)

def readIpv6Addr : Reader (Vector UInt8 16) := fun s =>
  let (head, headIpv4, s) := readGroups 0 8 s
  if head.length = 8 then some (ofGroups head, s)
  else if headIpv4 then none   -- an IPv4 part is not allowed before `::`
  else do
    let ((), s) ← readGivenChar ':' s
    let ((), s) ← readGivenChar ':' s
    let (tail, _, s) := readGroups 0 (7 - head.length) s
    let zeros := List.replicate (8 - head.length - tail.length) 0
    some (ofGroups (head ++ zeros ++ tail), s)

def readPort : Reader UInt16 := fun s => do
  let ((), s) ← readGivenChar ':' s
  let (port, s) ← readNumber 65536 10 none true s
  some (port.toUInt16, s)

def readScopeId : Reader UInt32 := fun s => do
  let ((), s) ← readGivenChar '%' s
  let (id, s) ← readNumber (2 ^ 32) 10 none true s
  some (id.toUInt32, s)

def readSocketAddrV4 : Reader SocketAddr := fun s => do
  let (ip, s) ← readIpv4Addr s
  let (port, s) ← readPort s
  some (.v4 ip port, s)

def readSocketAddrV6 : Reader SocketAddr := fun s => do
  let ((), s) ← readGivenChar '[' s
  let (ip, s) ← readIpv6Addr s
  let (scopeId, s) := (readScopeId s).getD (0, s)
  let ((), s) ← readGivenChar ']' s
  let (port, s) ← readPort s
  some (.v6 ip port 0 scopeId, s)

/-- `str::parse`: the whole text has to be an address. -/
def parse (text : String) : Option SocketAddr :=
  let s := text.toUTF8.data.toList
  match (readSocketAddrV4 s).or (readSocketAddrV6 s) with
  | some (addr, []) => some addr
  | _ => none

example : parse "127.0.0.1:8080" = some (.v4 #v[127, 0, 0, 1] 8080) := by
  decide

example : (parse "[fe80::1%7]:443").map SocketAddr.port = some 443 := by decide

example : parse "127.0.0.01:80" = none := by decide

/-! ## What an address is written with -/

/-- A hexadecimal digit or one of the separators. -/
def isAddrByte (c : UInt8) : Bool :=
  (toDigit 16 c).isSome || [46, 58, 91, 93, 37].contains c.toNat

/-- A reader has come from `s` to `rest` over such bytes only. -/
def Consumed (s rest : List UInt8) : Prop :=
  ∃ taken, s = taken ++ rest ∧ ∀ c ∈ taken, isAddrByte c = true

theorem Consumed.refl (s : List UInt8) : Consumed s s := ⟨[], rfl, by simp⟩

theorem Consumed.trans {s t u : List UInt8} (h : Consumed s t)
    (h' : Consumed t u) : Consumed s u := by
  obtain ⟨a, rfl, ha⟩ := h
  obtain ⟨b, rfl, hb⟩ := h'
  refine ⟨a ++ b, by simp, ?_⟩
  intro c hc
  rcases List.mem_append.mp hc with hc | hc
  · exact ha c hc
  · exact hb c hc

theorem Consumed.cons {c : UInt8} {s t : List UInt8}
    (hc : isAddrByte c = true) (h : Consumed s t) : Consumed (c :: s) t := by
  obtain ⟨a, rfl, ha⟩ := h
  refine ⟨c :: a, rfl, ?_⟩
  intro x hx
  rcases List.mem_cons.mp hx with rfl | hx
  · exact hc
  · exact ha x hx

theorem isAddrByte_of_toDigit {radix : Nat} (hr : radix ≤ 16) {c : UInt8}
    {digit : Nat} (h : toDigit radix c = some digit) : isAddrByte c = true := by
  have hdigit : (toDigit 16 c).isSome = true := by
    simp only [toDigit] at h ⊢
    grind
  unfold isAddrByte
  rw [hdigit]
  rfl

theorem consumed_readDigits {radix : Nat} (hr : radix ≤ 16)
    (s : List UInt8) : Consumed s (readDigits radix s).2 := by
  induction s with
  | nil => exact .refl _
  | cons c rest ih =>
      unfold readDigits
      cases hc : toDigit radix c with
      | none => exact .refl _
      | some digit => exact ih.cons (isAddrByte_of_toDigit hr hc)

theorem consumed_readNumber {bound radix : Nat} {maxDigits : Option Nat}
    {zero : Bool} (hr : radix ≤ 16) {s rest : List UInt8} {n : Nat}
    (h : readNumber bound radix maxDigits zero s = some (n, rest)) :
    Consumed s rest := by
  have hdigits := consumed_readDigits hr s
  unfold readNumber at h
  dsimp only at h
  split at h
  · cases h
  · split at h
    · cases h
    · split at h
      · cases h
      · split at h
        · cases h
          exact hdigits
        · cases h

theorem consumed_readGivenChar {target : Char} {s rest : List UInt8}
    (ht : target.toNat ∈ [46, 58, 91, 93, 37])
    (h : readGivenChar target s = some ((), rest)) : Consumed s rest := by
  unfold readGivenChar at h
  split at h
  · cases h
  · split at h
    · rename_i c rest' heq
      cases h
      refine (Consumed.refl _).cons ?_
      unfold isAddrByte
      rw [heq, Bool.or_eq_true]
      exact Or.inr (List.contains_iff_mem.mpr ht)
    · cases h

theorem consumed_readSeparator {α : Type} {sep : Char} {index : Nat}
    {inner : Reader α} {s rest : List UInt8} {a : α}
    (hsep : sep.toNat ∈ [46, 58, 91, 93, 37])
    (hinner : ∀ s rest, inner s = some (a, rest) → Consumed s rest)
    (h : readSeparator sep index inner s = some (a, rest)) :
    Consumed s rest := by
  unfold readSeparator at h
  split at h
  · split at h
    · cases h
    · rename_i s' hs
      exact (consumed_readGivenChar hsep hs).trans (hinner s' rest h)
  · exact hinner s rest h

theorem consumed_readIpv4Addr {s rest : List UInt8} {ip : Vector UInt8 4}
    (h : readIpv4Addr s = some (ip, rest)) : Consumed s rest := by
  have hgroup {i n : Nat} {s rest : List UInt8} (h : readSeparator '.' i
      (readNumber 256 10 (some 3) false) s = some (n, rest)) :
      Consumed s rest :=
    consumed_readSeparator (by decide)
      (fun _ _ h => consumed_readNumber (by omega) h) h
  unfold readIpv4Addr at h
  simp only [Option.bind_eq_bind, Option.bind_eq_some_iff, Prod.exists] at h
  obtain ⟨a, s₁, ha, b, s₂, hb, c, s₃, hc, d, s₄, hd, h⟩ := h
  obtain ⟨-, rfl⟩ := Prod.mk.inj (Option.some.inj h)
  exact (hgroup ha).trans ((hgroup hb).trans ((hgroup hc).trans (hgroup hd)))

theorem consumed_readGroups (left index : Nat) (s : List UInt8) :
    Consumed s (readGroups index left s).2.2 := by
  induction left generalizing index s with
  | zero => exact .refl _
  | succ left ih =>
      unfold readGroups
      split
      · rename_i ip s' hip
        split at hip
        · exact consumed_readSeparator (by decide)
            (fun _ _ h => consumed_readIpv4Addr h) hip
        · cases hip
      · split
        · exact .refl _
        · rename_i group s' hgroup
          exact (consumed_readSeparator (by decide)
            (fun _ _ h => consumed_readNumber (by omega) h) hgroup).trans
              (ih (index + 1) s')

theorem consumed_readIpv6Addr {s rest : List UInt8} {ip : Vector UInt8 16}
    (h : readIpv6Addr s = some (ip, rest)) : Consumed s rest := by
  unfold readIpv6Addr at h
  dsimp only at h
  split at h
  · obtain ⟨-, rfl⟩ := Prod.mk.inj (Option.some.inj h)
    exact consumed_readGroups 8 0 s
  · split at h
    · cases h
    · simp only [Option.bind_eq_bind, Option.bind_eq_some_iff, Prod.exists] at h
      obtain ⟨⟨⟩, s₁, h₁, ⟨⟩, s₂, h₂, h⟩ := h
      obtain ⟨-, rfl⟩ := Prod.mk.inj (Option.some.inj h)
      exact (consumed_readGroups 8 0 s).trans
        ((consumed_readGivenChar (by decide) h₁).trans
          ((consumed_readGivenChar (by decide) h₂).trans
            (consumed_readGroups _ 0 s₂)))

theorem consumed_readPort {s rest : List UInt8} {port : UInt16}
    (h : readPort s = some (port, rest)) : Consumed s rest := by
  unfold readPort at h
  simp only [Option.bind_eq_bind, Option.bind_eq_some_iff, Prod.exists] at h
  obtain ⟨⟨⟩, s₁, h₁, n, s₂, h₂, h⟩ := h
  cases h
  exact (consumed_readGivenChar (by decide) h₁).trans
    (consumed_readNumber (by omega) h₂)

theorem consumed_readScopeId {s rest : List UInt8} {id : UInt32}
    (h : readScopeId s = some (id, rest)) : Consumed s rest := by
  unfold readScopeId at h
  simp only [Option.bind_eq_bind, Option.bind_eq_some_iff, Prod.exists] at h
  obtain ⟨⟨⟩, s₁, h₁, n, s₂, h₂, h⟩ := h
  cases h
  exact (consumed_readGivenChar (by decide) h₁).trans
    (consumed_readNumber (by omega) h₂)

theorem consumed_readSocketAddrV4 {s rest : List UInt8} {addr : SocketAddr}
    (h : readSocketAddrV4 s = some (addr, rest)) : Consumed s rest := by
  unfold readSocketAddrV4 at h
  simp only [Option.bind_eq_bind, Option.bind_eq_some_iff, Prod.exists] at h
  obtain ⟨ip, s₁, h₁, port, s₂, h₂, h⟩ := h
  cases h
  exact (consumed_readIpv4Addr h₁).trans (consumed_readPort h₂)

theorem consumed_readSocketAddrV6 {s rest : List UInt8} {addr : SocketAddr}
    (h : readSocketAddrV6 s = some (addr, rest)) : Consumed s rest := by
  have hscope (s : List UInt8) :
      Consumed s ((readScopeId s).getD (0, s)).2 := by
    cases hs : readScopeId s with
    | none => exact .refl _
    | some r => exact consumed_readScopeId hs
  unfold readSocketAddrV6 at h
  simp only [Option.bind_eq_bind, Option.bind_eq_some_iff, Prod.exists] at h
  obtain ⟨⟨⟩, s₁, h₁, ip, s₂, h₂, ⟨⟩, s₃, h₃, port, s₄, h₄, h⟩ := h
  cases h
  exact (consumed_readGivenChar (by decide) h₁).trans
    ((consumed_readIpv6Addr h₂).trans ((hscope s₂).trans
      ((consumed_readGivenChar (by decide) h₃).trans (consumed_readPort h₄))))

/-- **An address is written with digits and separators.** -/
theorem isAddrByte_of_parse {text : String} {addr : SocketAddr}
    (h : parse text = some addr) :
    ∀ c ∈ text.toUTF8.data.toList, isAddrByte c = true := by
  have hall {s : List UInt8} (hs : Consumed s []) :
      ∀ c ∈ s, isAddrByte c = true := by
    obtain ⟨taken, rfl, htaken⟩ := hs
    simpa using htaken
  unfold parse at h
  dsimp only at h
  split at h
  · rename_i addr' hread
    rcases Option.or_eq_some_iff.mp hread with h4 | ⟨-, h6⟩
    · exact hall (consumed_readSocketAddrV4 h4)
    · exact hall (consumed_readSocketAddrV6 h6)
  · cases h

end SocketAddr

end Rathole
