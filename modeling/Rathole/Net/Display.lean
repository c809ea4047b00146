import Mathlib.Data.List.Induction
import Rathole.Lib.ProxyHeader
import Rathole.Net

/-!
# IP addresses as text (`Display`)

`std` writes an IPv6 address with `::` for the first of its longest runs of
zeros if that has more than one, and an IPv4-mapped address with the IPv4
address at its end. The toolchain that the repository names, 1.71, does so for
an IPv4-compatible address as well, later ones do not: `compat` tells them
apart.
-/

namespace Rathole

open Numerals ProxyHeader

/-! ## The longest run of zeros -/

structure Span where
  start : ℕ
  len : ℕ
deriving DecidableEq

/-- The current span with the zero at `i`. -/
def Span.grow (current : Span) (i : ℕ) : Span where
  start := if current.len = 0 then i else current.start
  len := current.len + 1

/-- One round of the loop over the segments. -/
def Span.scan (longest current : Span) (segment i : ℕ) : Span × Span :=
  if segment = 0 then
    let current := current.grow i
    (if longest.len < current.len then current else longest, current)
  else (longest, ⟨0, 0⟩)

def scanZeroes (segments : List ℕ) : Span × Span :=
  segments.zipIdx.foldl
    (fun spans segment => spans.1.scan spans.2 segment.1 segment.2)
    (⟨0, 0⟩, ⟨0, 0⟩)

def zeroes (segments : List ℕ) : Span := (scanZeroes segments).1

/-- `span` is a run of zeros. -/
def Span.In (span : Span) (segments : List ℕ) : Prop :=
  ∃ pre post, segments = pre ++ List.replicate span.len 0 ++ post ∧
    pre.length = span.start

/-- The loop has seen `segments`. -/
structure Scanned (segments : List ℕ) (longest current : Span) : Prop where
  isRun : longest.In segments
  max : ∀ m, List.replicate m 0 <:+: segments → m ≤ longest.len
  ending : ∃ pre, segments = pre ++ List.replicate current.len 0 ∧
    (0 < current.len → pre.length = current.start)
  maxEnding : ∀ m, List.replicate m 0 <:+ segments → m ≤ current.len

theorem Span.In.snoc {span : Span} {segments : List ℕ} (h : span.In segments)
    (segment : ℕ) : span.In (segments ++ [segment]) := by
  obtain ⟨pre, post, rfl, hlen⟩ := h
  exact ⟨pre, post ++ [segment], by simp, hlen⟩

/-- A run of zeros at the end grows by the zero that follows. -/
theorem replicate_suffix_snoc {m segment : ℕ} {segments : List ℕ}
    (h : List.replicate m 0 <:+ segments ++ [segment]) (hpos : 0 < m) :
    segment = 0 ∧ List.replicate (m - 1) 0 <:+ segments := by
  obtain ⟨k, rfl⟩ := Nat.exists_eq_succ_of_ne_zero (by omega : m ≠ 0)
  obtain ⟨pre, hpre⟩ := h
  rw [List.replicate_succ', ← List.append_assoc] at hpre
  obtain ⟨hsegments, hlast⟩ := List.append_inj' hpre rfl
  refine ⟨?_, pre, ?_⟩
  · exact (List.cons.inj hlast).1.symm
  · simpa using hsegments

/-- A zero lengthens the run at the end, and that one may now be the longest. -/
theorem Scanned.zero {segments : List ℕ} {longest current : Span}
    (h : Scanned segments longest current) :
    Scanned (segments ++ [0]) (longest.scan current 0 segments.length).1
      (longest.scan current 0 segments.length).2 := by
  have hending : ∃ pre,
      segments ++ [0] = pre ++ List.replicate (current.len + 1) 0 ∧
      pre.length = (current.grow segments.length).start := by
    obtain ⟨pre, hpre, hstart⟩ := h.ending
    refine ⟨pre, ?_, ?_⟩
    · rw [List.replicate_succ', ← List.append_assoc, ← hpre]
    · show pre.length =
        if current.len = 0 then segments.length else current.start
      by_cases hzero : current.len = 0
      · rw [if_pos hzero, hpre, hzero, List.replicate_zero, List.append_nil]
      · rw [if_neg hzero]
        exact hstart (by omega)
  have hmaxEnding : ∀ m, List.replicate m 0 <:+ segments ++ [0] →
      m ≤ current.len + 1 := by
    intro m hm
    rcases Nat.eq_zero_or_pos m with rfl | hpos
    · omega
    · have hprev := h.maxEnding (m - 1) (replicate_suffix_snoc hm hpos).2
      omega
  obtain ⟨pre, hpre, hstart⟩ := hending
  have hcurrent : ∃ pre, segments ++ [0] =
      pre ++ List.replicate (current.grow segments.length).len 0 ∧
      (0 < (current.grow segments.length).len →
        pre.length = (current.grow segments.length).start) :=
    ⟨pre, hpre, fun _ => hstart⟩
  unfold Span.scan
  rw [if_pos rfl]
  by_cases hlonger : longest.len < (current.grow segments.length).len
  · simp only [if_pos hlonger]
    refine ⟨⟨pre, [], ?_, hstart⟩, ?_, hcurrent, hmaxEnding⟩
    · rw [List.append_nil]
      exact hpre
    · intro m hm
      rcases List.infix_concat_iff.mp hm with hm | hm
      · exact hmaxEnding m hm
      · exact (h.max m hm).trans hlonger.le
  · simp only [if_neg hlonger]
    refine ⟨h.isRun.snoc 0, ?_, hcurrent, hmaxEnding⟩
    intro m hm
    rcases List.infix_concat_iff.mp hm with hm | hm
    · exact (hmaxEnding m hm).trans (Nat.le_of_not_lt hlonger)
    · exact h.max m hm

/-- Another segment ends the run at the end. -/
theorem Scanned.nonzero {segments : List ℕ} {longest current : Span}
    (h : Scanned segments longest current) {segment : ℕ} (hne : segment ≠ 0) :
    Scanned (segments ++ [segment])
      (longest.scan current segment segments.length).1
      (longest.scan current segment segments.length).2 := by
  have hmaxEnding : ∀ m, List.replicate m 0 <:+ segments ++ [segment] →
      m = 0 := by
    intro m hm
    rcases Nat.eq_zero_or_pos m with rfl | hpos
    · rfl
    · exact absurd (replicate_suffix_snoc hm hpos).1 hne
  unfold Span.scan
  rw [if_neg hne]
  refine ⟨h.isRun.snoc segment, ?_, ?_, ?_⟩
  · intro m hm
    rcases List.infix_concat_iff.mp hm with hm | hm
    · rw [hmaxEnding m hm]
      exact Nat.zero_le _
    · exact h.max m hm
  · exact ⟨segments ++ [segment], by simp, nofun⟩
  · intro m hm
    exact (hmaxEnding m hm).le

theorem scanZeroes_snoc (segments : List ℕ) (segment : ℕ) :
    scanZeroes (segments ++ [segment]) =
      (scanZeroes segments).1.scan (scanZeroes segments).2 segment
        segments.length := by
  unfold scanZeroes
  rw [List.zipIdx_append, List.foldl_append]
  simp

theorem scanned_scanZeroes (segments : List ℕ) :
    Scanned segments (scanZeroes segments).1 (scanZeroes segments).2 := by
  induction segments using List.reverseRecOn with
  | nil =>
      refine ⟨⟨[], [], rfl, rfl⟩, ?_, ⟨[], rfl, nofun⟩, ?_⟩
      · intro m hm
        exact (by simpa using hm.length_le : m = 0).le
      · intro m hm
        exact (by simpa using hm.length_le : m = 0).le
  | append_singleton segments segment ih =>
      rw [scanZeroes_snoc]
      by_cases hzero : segment = 0
      · subst hzero
        exact ih.zero
      · exact ih.nonzero hzero

/-! ## The text -/

def displayOctets (octets : List UInt8) : Text :=
  join 46 (octets.map (fun octet => write 10 octet.toNat))

/-- `fmt_subslice`. -/
def fmtSubslice (chunk : List ℕ) : Text := join 58 (chunk.map (write 16))

def displaySegments (segments : List ℕ) : Text :=
  let zeroes := zeroes segments
  if 1 < zeroes.len then
    fmtSubslice (segments.take zeroes.start) ++ ascii "::" ++
      fmtSubslice (segments.drop (zeroes.start + zeroes.len))
  else fmtSubslice segments

namespace IpAddr

/-- `Ipv6Addr::segments`. -/
def segments (ip : Vector UInt8 16) : List ℕ :=
  List.ofFn (fun i : Fin 8 =>
    ip[2 * i.val].toNat * 256 + ip[2 * i.val + 1].toNat)

/-- `to_ipv4_mapped` or, where `compat` is set, `to_ipv4`, from which `::` and
`::1` are kept: what stands before the IPv4 address. -/
def ipv4Prefix (compat : Bool) (ip : Vector UInt8 16) : Option Text :=
  let head := (segments ip).take 6
  let last := (segments ip).drop 6
  if head = [0, 0, 0, 0, 0, 0xffff] then some (ascii "::ffff:")
  else if compat = true ∧ head = [0, 0, 0, 0, 0, 0] ∧ last ≠ [0, 0] ∧
      last ≠ [0, 1] then
    some (ascii "::")
  else none

def display (compat : Bool) : IpAddr → Text
  | .v4 octets => displayOctets octets.toList
  | .v6 octets =>
      match ipv4Prefix compat octets with
      | some text =>
          text ++ displayOctets [octets[12], octets[13], octets[14], octets[15]]
      | none => displaySegments (segments octets)

/-- The address is written with an IPv4 address at its end. -/
def embedsIpv4 (compat : Bool) : IpAddr → Bool
  | .v4 _ => false
  | .v6 octets => (ipv4Prefix compat octets).isSome

end IpAddr

/-! ## The text is in the grammar -/

theorem octet_write (octet : UInt8) :
    Octet octet.toNat (write 10 octet.toNat) :=
  ⟨decimal_write _, octet.toNat_lt⟩

theorem group_write {n : ℕ} (h : n < 65536) : Group n (write 16 n) where
  numeral := numeral_write (by decide) (by decide) n
  length := length_write_le (by decide) (by decide) h

theorem ipv4_displayOctets {octets : List UInt8} (h : octets.length = 4) :
    Ipv4 (octets.map UInt8.toNat) (displayOctets octets) := by
  unfold displayOctets
  apply Ipv4.octets
  · rw [List.length_map, h]
  · rw [List.forall₂_map_left_iff, List.forall₂_map_right_iff,
      List.forall₂_same]
    exact fun octet _ => octet_write octet

theorem groups_fmtSubslice {chunk : List ℕ} (h : ∀ n ∈ chunk, n < 65536) :
    List.Forall₂ Group chunk (chunk.map (write 16)) := by
  rw [List.forall₂_map_right_iff, List.forall₂_same]
  exact fun n hn => group_write (h n hn)

/-- What stands before the run that the loop finds, and behind it. -/
theorem zeroes_split (segments : List ℕ) : ∃ pre post,
    segments = pre ++ List.replicate (zeroes segments).len 0 ++ post ∧
    segments.take (zeroes segments).start = pre ∧
    segments.drop ((zeroes segments).start + (zeroes segments).len) = post := by
  obtain ⟨pre, post, hsplit, hstart⟩ := (scanned_scanZeroes segments).isRun
  unfold zeroes
  generalize (scanZeroes segments).1 = span at hsplit hstart ⊢
  refine ⟨pre, post, hsplit, ?_, ?_⟩
  · rw [hsplit, List.append_assoc]
    exact List.take_left' hstart
  · rw [hsplit]
    apply List.drop_left'
    rw [List.length_append, List.length_replicate, hstart]

theorem ipv6_displaySegments {dotted : Bool} {segments : List ℕ}
    (hlen : segments.length = 8) (h : ∀ n ∈ segments, n < 65536) :
    Ipv6 dotted segments (displaySegments segments) := by
  obtain ⟨pre, post, hsplit, hpre, hpost⟩ := zeroes_split segments
  have hmax := (scanned_scanZeroes segments).max
  unfold displaySegments
  generalize hspan : zeroes segments = span at hsplit hpre hpost ⊢
  by_cases hlong : 1 < span.len
  · simp only [if_pos hlong, hpre, hpost]
    have hlen' := congrArg List.length hsplit
    simp only [List.length_append, List.length_replicate] at hlen'
    have hpre : ∀ n ∈ pre, n < 65536 := by
      intro n hn
      exact h n (by rw [hsplit]; simp [hn])
    have hpost : ∀ n ∈ post, n < 65536 := by
      intro n hn
      exact h n (by rw [hsplit]; simp [hn])
    have hshort := Ipv6.short (groups_fmtSubslice hpre)
      (groups_fmtSubslice hpost) (@Tail.nothing dotted)
      (by omega : 0 < span.len) (by simp only [List.length_nil]; omega) (by
        intro m hm
        rw [← hsplit] at hm
        rw [← hspan]
        exact hmax m hm)
    rw [List.append_nil, List.append_nil, ← hsplit] at hshort
    exact hshort
  · simp only [if_neg hlong]
    have hwhole := Ipv6.whole (groups_fmtSubslice h)
      (@Tail.nothing dotted) (by simpa using hlen)
    rw [List.append_nil, List.append_nil] at hwhole
    exact hwhole

namespace IpAddr

section

variable {compat : Bool} {ip : Vector UInt8 16}

theorem length_segments : (segments ip).length = 8 := by
  unfold segments
  exact List.length_ofFn

theorem segments_lt : ∀ n ∈ segments ip, n < 65536 := by
  intro n hn
  obtain ⟨i, rfl⟩ := List.mem_ofFn.mp hn
  have hhigh := ip[2 * i.val].toNat_lt
  have hlow := ip[2 * i.val + 1].toNat_lt
  omega

theorem ipv4Prefix_cases {text : Text} (h : ipv4Prefix compat ip = some text) :
    ((segments ip).take 6 = [0, 0, 0, 0, 0, 0xffff] ∧
      text = ascii "::ffff:") ∨
    ((segments ip).take 6 = [0, 0, 0, 0, 0, 0] ∧ text = ascii "::") := by
  unfold ipv4Prefix at h
  dsimp only at h
  split at h
  · rename_i hmapped
    exact Or.inl ⟨hmapped, (Option.some.inj h).symm⟩
  · split at h
    · rename_i hcompat
      exact Or.inr ⟨hcompat.2.1, (Option.some.inj h).symm⟩
    · cases h

theorem display_plain (h : ipv4Prefix compat ip = none) :
    display compat (.v6 ip) = displaySegments (segments ip) := by
  dsimp only [display]
  rw [h]

theorem display_embedded {text : Text} (h : ipv4Prefix compat ip = some text) :
    display compat (.v6 ip) =
      text ++ displayOctets [ip[12], ip[13], ip[14], ip[15]] := by
  dsimp only [display]
  rw [h]

theorem ipv4_display (ip : Vector UInt8 4) :
    Ipv4 (ip.toList.map UInt8.toNat) (display compat (.v4 ip)) :=
  ipv4_displayOctets ip.length_toList

/-- An IPv4 address in the place of the last two segments. -/
theorem tail_displayOctets (ip : Vector UInt8 16) :
    Tail true ((segments ip).drop 6)
      [displayOctets [ip[12], ip[13], ip[14], ip[15]]] := by
  have hoctets : Ipv4 ([ip[12], ip[13], ip[14], ip[15]].map UInt8.toNat)
      (displayOctets [ip[12], ip[13], ip[14], ip[15]]) :=
    ipv4_displayOctets rfl
  exact Tail.ipv4 rfl hoctets

theorem ipv6_display_mapped
    (h : (segments ip).take 6 = [0, 0, 0, 0, 0, 0xffff]) :
    Ipv6 true (segments ip) (ascii "::ffff:" ++
      displayOctets [ip[12], ip[13], ip[14], ip[15]]) := by
  have hgroup : List.Forall₂ Group [0xffff] [write 16 0xffff] :=
    List.Forall₂.cons (group_write (by decide)) List.Forall₂.nil
  have hmax : ∀ m, List.replicate m 0 <:+: [0, 0, 0, 0, 0, 0xffff] →
      m ≤ 5 := by
    intro m hm
    have hle : m ≤ 6 := by simpa using hm.length_le
    rcases Nat.lt_or_ge m 6 with hlt | hge
    · omega
    · have heq : m = 6 := by omega
      subst heq
      exact absurd (hm.eq_of_length rfl) (by decide)
  have hshort := Ipv6.short List.Forall₂.nil hgroup (tail_displayOctets ip)
    (by decide : 0 < 5) rfl hmax
  have htext : ascii "::ffff:" = [58, 58] ++ write 16 0xffff ++ [58] := by
    decide
  rw [← List.take_append_drop 6 (segments ip), h, htext]
  simpa [join, List.intercalate_cons_cons] using hshort

theorem ipv6_display_compat (h : (segments ip).take 6 = [0, 0, 0, 0, 0, 0]) :
    Ipv6 true (segments ip) (ascii "::" ++
      displayOctets [ip[12], ip[13], ip[14], ip[15]]) := by
  have hmax : ∀ m, List.replicate m 0 <:+: List.replicate 6 0 → m ≤ 6 := by
    intro m hm
    simpa using hm.length_le
  have hshort := Ipv6.short List.Forall₂.nil List.Forall₂.nil
    (tail_displayOctets ip) (by decide : 0 < 6) rfl (by simpa using hmax)
  have htext : ascii "::" = [58, 58] := by decide
  rw [← List.take_append_drop 6 (segments ip), h, htext]
  simpa [join] using hshort

/-- **An IPv6 address is written in the grammar**, in the one without dots
unless it embeds an IPv4 address. -/
theorem ipv6_display {dotted : Bool}
    (h : dotted = true ∨ embedsIpv4 compat (.v6 ip) = false) :
    Ipv6 dotted (segments ip) (display compat (.v6 ip)) := by
  cases hfound : ipv4Prefix compat ip with
  | none =>
      rw [display_plain hfound]
      exact ipv6_displaySegments length_segments segments_lt
  | some text =>
      rcases h with rfl | hembeds
      · rw [display_embedded hfound]
        rcases ipv4Prefix_cases hfound with ⟨hhead, rfl⟩ | ⟨hhead, rfl⟩
        · exact ipv6_display_mapped hhead
        · exact ipv6_display_compat hhead
      · have hsome : (ipv4Prefix compat ip).isSome = false := hembeds
        rw [hfound] at hsome
        cases hsome

/-- The dots of an embedded IPv4 address. -/
theorem dot_mem_display (h : embedsIpv4 compat (.v6 ip) = true) :
    46 ∈ display compat (.v6 ip) := by
  obtain ⟨text, hfound⟩ := Option.isSome_iff_exists.mp h
  rw [display_embedded hfound]
  simp [displayOctets, join, List.intercalate_cons_cons]

/-! ## Its length -/

theorem length_displayOctets_le {octets : List UInt8} (h : octets.length = 4) :
    (displayOctets octets).length ≤ 15 := by
  have hparts : ∀ part ∈ octets.map (fun octet => write 10 octet.toNat),
      part.length ≤ 3 := by
    intro part hpart
    obtain ⟨octet, -, rfl⟩ := List.mem_map.mp hpart
    have hlt := octet.toNat_lt
    exact length_write_le (by decide) (by decide) (by omega)
  have hjoin : (displayOctets octets).length ≤ _ := length_join_le hparts
  rwa [List.length_map, h] at hjoin

theorem length_fmtSubslice_le {chunk : List ℕ} (h : ∀ n ∈ chunk, n < 65536) :
    (fmtSubslice chunk).length ≤ 5 * chunk.length - 1 := by
  have hparts : ∀ part ∈ chunk.map (write 16), part.length ≤ 4 := by
    intro part hpart
    obtain ⟨n, hn, rfl⟩ := List.mem_map.mp hpart
    exact (group_write (h n hn)).length
  have hjoin : (fmtSubslice chunk).length ≤ _ := length_join_le hparts
  rwa [List.length_map] at hjoin

theorem length_displaySegments_le {segments : List ℕ}
    (hlen : segments.length = 8) (h : ∀ n ∈ segments, n < 65536) :
    (displaySegments segments).length ≤ 39 := by
  obtain ⟨pre, post, hsplit, hpre, hpost⟩ := zeroes_split segments
  unfold displaySegments
  by_cases hlong : 1 < (zeroes segments).len
  · simp only [if_pos hlong, hpre, hpost]
    have hlen' := congrArg List.length hsplit
    simp only [List.length_append, List.length_replicate] at hlen'
    have hshort : (fmtSubslice pre).length ≤ 5 * pre.length - 1 :=
      length_fmtSubslice_le (fun n hn => h n (by rw [hsplit]; simp [hn]))
    have hshort' : (fmtSubslice post).length ≤ 5 * post.length - 1 :=
      length_fmtSubslice_le (fun n hn => h n (by rw [hsplit]; simp [hn]))
    have hcolons : (ascii "::").length = 2 := by decide
    rw [List.length_append, List.length_append, hcolons]
    omega
  · simp only [if_neg hlong]
    have hwhole := length_fmtSubslice_le h
    rwa [hlen] at hwhole

theorem length_display_v4 (ip : Vector UInt8 4) :
    (display compat (.v4 ip)).length ≤ 15 :=
  length_displayOctets_le ip.length_toList

theorem length_display_v6 : (display compat (.v6 ip)).length ≤ 39 := by
  cases hfound : ipv4Prefix compat ip with
  | none =>
      rw [display_plain hfound]
      exact length_displaySegments_le length_segments segments_lt
  | some text =>
      have htext : text.length ≤ 7 := by
        rcases ipv4Prefix_cases hfound with ⟨-, rfl⟩ | ⟨-, rfl⟩
        · decide
        · decide
      have hoctets :
          (displayOctets [ip[12], ip[13], ip[14], ip[15]]).length ≤ 15 :=
        length_displayOctets_le rfl
      rw [display_embedded hfound, List.length_append]
      omega

end

end IpAddr

end Rathole
