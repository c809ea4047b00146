import Rathole.Transport.UdpStream
import Mathlib.Data.Nat.Size

/-!
# What a Sack tells the sender

`build_ack` writes the receiver's record into a cumulative ack and 64 bits,
and `handle_ack` reads it back on the other end. Between the two nothing is
lost inside the window: the sender keeps exactly what the receiver lacks, and
resends the part of it that the window covers.

That last part is more than the receiver has asked for. A chunk inside the
window that is still on its way is resent as well, because the scan does not
look at the highest bit of the Sack.
-/

namespace Rathole

namespace StreamState

/-! ## The gap scan -/

/-- On a sorted queue the `break` only skips what lies past the window. -/
theorem gapScan_eq (ack : ℕ) {l : List (ℕ × SentPacket)}
    (hl : l.Pairwise (fun a b => a.1 < b.1)) :
    gapScan ack l = (l.map Prod.fst).filter
      (fun seq => decide (ack < seq) && decide (seq ≤ ack + 64)) := by
  induction l with
  | nil => rfl
  | cons e rest ih =>
      obtain ⟨seq, p⟩ := e
      obtain ⟨hfirst, hrest⟩ := List.pairwise_cons.mp hl
      have ih := ih hrest
      simp only [gapScan, List.map_cons]
      by_cases hle : seq ≤ ack
      · rw [if_pos hle, ih, List.filter_cons_of_neg]
        simp [hle]
      · rw [if_neg hle]
        by_cases hout : seq - (ack + 1) ≥ 64
        · -- everything from here on is beyond the window
          rw [if_pos hout]
          symm
          apply List.filter_eq_nil_iff.mpr
          intro k hk
          have hge : seq ≤ k := by
            rcases List.mem_cons.mp hk with rfl | hk
            · exact Nat.le_refl _
            · obtain ⟨x, hx, rfl⟩ := List.mem_map.mp hk
              exact Nat.le_of_lt (hfirst x hx)
          simp only [Bool.and_eq_true, decide_eq_true_eq, not_and]
          omega
        · rw [if_neg hout, ih, List.filter_cons_of_pos]
          simp only [Bool.and_eq_true, decide_eq_true_eq]
          omega

theorem mem_handleAck_queue {s : StreamState} {ack bits : ℕ}
    {x : ℕ × SentPacket} :
    x ∈ (s.handleAck ack bits).1.writeQueue.entries ↔
      x ∈ s.writeQueue.entries ∧ ¬ Acked ack bits x.1 := by
  obtain ⟨ww, hack⟩ := UdpStreamInner.handleAck_frame s ack bits
  rw [hack, OrdMap.mem_retain, unacked_iff]

/-- The list `handle_ack` returns: the unacknowledged part of the window. -/
theorem mem_handleAck_resend {s : StreamState} {ack bits i : ℕ} :
    i ∈ (s.handleAck ack bits).2.1 ↔
      (∃ p, (i, p) ∈ s.writeQueue.entries) ∧ ack < i ∧ i ≤ ack + 64 ∧
        ¬ Acked ack bits i := by
  unfold handleAck
  dsimp only
  rw [gapScan_eq ack (OrdMap.sorted _), List.mem_filter, List.mem_map]
  simp only [Bool.and_eq_true, decide_eq_true_eq]
  constructor
  · rintro ⟨⟨x, hx, rfl⟩, hlt, hle⟩
    obtain ⟨hmem, hun⟩ := OrdMap.mem_retain.mp hx
    exact ⟨⟨x.2, hmem⟩, hlt, hle, unacked_iff.mp hun⟩
  · rintro ⟨⟨p, hp⟩, hlt, hle, hun⟩
    exact ⟨⟨(i, p), OrdMap.mem_retain.mpr ⟨hp, unacked_iff.mpr hun⟩, rfl⟩,
      hlt, hle⟩

theorem handleAck_resend_sorted (s : StreamState) (ack bits : ℕ) :
    (s.handleAck ack bits).2.1.Pairwise (· < ·) := by
  unfold handleAck
  dsimp only
  rw [gapScan_eq ack (OrdMap.sorted _)]
  apply List.Pairwise.filter
  exact List.pairwise_map.mpr (OrdMap.sorted _)

/-! ## Reading the receiver's record -/

/-- Inside the window the ack of a receiver is its record. -/
theorem acked_buildAck_iff {r : StreamState} (hpos : 1 ≤ r.nextReadSeq)
    {i : ℕ} : Acked r.buildAck.1 r.buildAck.2 i ↔
      r.Received i ∧ i ≤ r.buildAck.1 + 64 := by
  have hack : r.buildAck.1 = r.nextReadSeq - 1 := rfl
  constructor
  · intro h
    refine ⟨received_of_acked_buildAck hpos h, ?_⟩
    rcases h with h | ⟨h, -⟩ <;> omega
  · rintro ⟨hrec, hle⟩
    by_cases hi : i < r.nextReadSeq
    · left
      omega
    · rcases hrec with hlt | hbuf
      · exact absurd hlt hi
      · refine Or.inr ⟨by omega, ?_⟩
        apply buildAck_bit.mpr
        rw [hack, show r.nextReadSeq - 1 + 1 + (i - (r.nextReadSeq - 1 + 1)) = i
          by omega]
        exact ⟨by omega, OrdMap.containsKey_iff.mpr hbuf⟩

/-- **A selective ack means what the receiver has**: the sender keeps what the
receiver lacks and what the window does not reach, and the list to resend is
the first of the two, within the window. At this bound no sum of `build_ack`
leaves `u64`. -/
theorem handleAck_buildAck (r s : StreamState) (hpos : 1 ≤ r.nextReadSeq)
    (hmax : r.nextReadSeq ≤ 2 ^ 64 - 64) :
    (∀ i < 64, r.buildAck.1 + 1 + i < 2 ^ 64) ∧ r.buildAck.2 < 2 ^ 64 ∧
    (∃ wq ww, (s.handleAck r.buildAck.1 r.buildAck.2).1 =
        { s with writeQueue := wq, writeWaker := ww } ∧
      ∀ x, x ∈ wq.entries ↔ x ∈ s.writeQueue.entries ∧
        (¬ r.Received x.1 ∨ r.buildAck.1 + 64 < x.1)) ∧
    (s.handleAck r.buildAck.1 r.buildAck.2).2.1.Pairwise (· < ·) ∧
    ∀ i, i ∈ (s.handleAck r.buildAck.1 r.buildAck.2).2.1 ↔
      (r.buildAck.1 + 1 ≤ i ∧ i ≤ r.buildAck.1 + 64) ∧
        (∃ p, (i, p) ∈ s.writeQueue.entries) ∧ ¬ r.Received i := by
  have hack : r.buildAck.1 = r.nextReadSeq - 1 := rfl
  refine ⟨fun i hi => by omega, r.buildAck_bits_lt, ?_,
    handleAck_resend_sorted s _ _, ?_⟩
  · obtain ⟨ww, hframe⟩ :=
      UdpStreamInner.handleAck_frame s r.buildAck.1 r.buildAck.2
    refine ⟨_, ww, hframe, ?_⟩
    intro x
    rw [OrdMap.mem_retain, unacked_iff, acked_buildAck_iff hpos,
      Classical.not_and_iff_not_or_not, Nat.not_le]
  · intro i
    rw [mem_handleAck_resend, acked_buildAck_iff hpos]
    constructor
    · rintro ⟨hq, hlt, hle, hnot⟩
      exact ⟨⟨hlt, hle⟩, hq, fun hrec => hnot ⟨hrec, hle⟩⟩
    · rintro ⟨⟨hlt, hle⟩, hq, hnot⟩
      exact ⟨hq, hlt, hle, fun h => hnot h.1⟩

/-- A receiver with 1 to 4 delivered and 6 buffered. -/
def holeAtFive : StreamState :=
  { StreamState.new .tcp with
    nextReadSeq := 5
    readBuffer := OrdMap.empty.insert 6 [0] }

/-- A sender that has 4 to 6 and 80 outstanding. -/
def fourOutstanding : StreamState :=
  { StreamState.new .tcp with
    nextWriteSeq := 81
    writeQueue := (((OrdMap.empty.insert 4 ⟨[0], 0, 0⟩).insert 5
      ⟨[1], 0, 0⟩).insert 6 ⟨[2], 0, 0⟩).insert 80 ⟨[3], 0, 0⟩ }

theorem handleAck_buildAck_holeAtFive :
    1 ≤ holeAtFive.nextReadSeq ∧ holeAtFive.nextReadSeq ≤ 2 ^ 64 - 64 ∧
    5 ∈ (fourOutstanding.handleAck holeAtFive.buildAck.1
      holeAtFive.buildAck.2).2.1 := by
  refine ⟨by decide, by decide, ?_⟩
  obtain ⟨-, -, -, -, hmem⟩ := handleAck_buildAck holeAtFive fourOutstanding
    (by decide) (by decide)
  apply (hmem 5).mpr
  refine ⟨by decide, ⟨⟨[1], 0, 0⟩, by decide⟩, ?_⟩
  rintro (hlt | ⟨d, hd⟩)
  · exact absurd hlt (by decide)
  · have hkey := OrdMap.containsKey_iff.mpr ⟨d, hd⟩
    exact absurd hkey (by decide)

/-! ## Evidence of a gap -/

/-- The highest sequence number the pair `(ack, bits)` acknowledges. -/
def highestAcked (ack bits : ℕ) : ℕ := ack + Nat.size bits

/-- The Sack `(ack, bits)` shows that `i` is missing: it marks something
larger as received. -/
def GapEvidence (ack bits i : ℕ) : Prop := ∃ j, i < j ∧ Acked ack bits j

theorem gapEvidence_iff {ack bits i : ℕ} (hle : ack ≤ i)
    (hbits : bits < 2 ^ 64) :
    GapEvidence ack bits i ↔ i < highestAcked ack bits := by
  unfold highestAcked
  constructor
  · rintro ⟨j, hij, hj | ⟨-, hbit⟩⟩
    · omega
    · have hsize := Nat.lt_size.mpr (Nat.ge_two_pow_of_testBit hbit)
      omega
  · intro hlt
    have hpow : 2 ^ (i - ack) ≤ bits := Nat.lt_size.mp (by omega)
    obtain ⟨k, hk, hbit⟩ := Nat.exists_ge_and_testBit_of_ge_two_pow hpow
    have hk64 : k < 64 := (Nat.pow_lt_pow_iff_right (by decide)).mp
      (Nat.lt_of_le_of_lt (Nat.ge_two_pow_of_testBit hbit) hbits)
    refine ⟨ack + 1 + k, by omega, Or.inr ?_⟩
    rw [Nat.add_sub_cancel_left]
    exact ⟨hk64, hbit⟩

/-- An unacknowledged number at or below the highest acknowledged one is a
gap. -/
theorem gapEvidence_of_le {ack bits i : ℕ} (hlt : ack < i)
    (hbits : bits < 2 ^ 64) (hun : ¬ Acked ack bits i)
    (hle : i ≤ highestAcked ack bits) : GapEvidence ack bits i := by
  have hpred : GapEvidence ack bits (i - 1) :=
    (gapEvidence_iff (by omega) hbits).mpr (by omega)
  obtain ⟨j, hj, hacked⟩ := hpred
  have hne : j ≠ i := by
    rintro rfl
    exact hun hacked
  exact ⟨j, by omega, hacked⟩

end StreamState

namespace UdpStreamInner

/-- When every number is queued, the resend loop sends them all. -/
theorem resend_seqs (now : Instant) (l : List ℕ) (st : StreamState)
    (hl : ∀ i ∈ l, ∃ p, (i, p) ∈ st.writeQueue.entries) :
    (resend now st l).2.map ToSend.seq = l := by
  induction l generalizing st with
  | nil => rfl
  | cons seq rest ih =>
      obtain ⟨p, hp⟩ := hl seq List.mem_cons_self
      unfold resend
      rw [OrdMap.get?_eq_some.mpr hp]
      dsimp only
      rw [List.map_cons, ih]
      intro i hi
      obtain ⟨q, hq⟩ := hl i (List.mem_cons_of_mem _ hi)
      -- stamping a chunk keeps every key
      have hkey : i ∈ (st.writeQueue.modify seq
          (fun q => { q with sentAt := now })).entries.map Prod.fst := by
        rw [OrdMap.keys_modify]
        exact List.mem_map.mpr ⟨(i, q), hq, rfl⟩
      obtain ⟨x, hx, rfl⟩ := List.mem_map.mp hkey
      exact ⟨x.2, hx⟩

/-- The Sack branch resends exactly what `handle_ack` returned. -/
theorem dispatch_sack_seqs (st : StreamState) (pkt : IncomingPacket)
    (now : Instant) (hk : pkt.header.packetKind = .sack) :
    (dispatch st pkt now).2.2.1.map ToSend.seq =
      (st.handleAck pkt.header.ack pkt.header.ackBits).2.1 := by
  have hresend := resend_seqs now
    (st.handleAck pkt.header.ack pkt.header.ackBits).2.1
    (st.handleAck pkt.header.ack pkt.header.ackBits).1 (by
      intro i hi
      obtain ⟨⟨p, hp⟩, -, -, hun⟩ := StreamState.mem_handleAck_resend.mp hi
      exact ⟨p, StreamState.mem_handleAck_queue.mpr ⟨hp, hun⟩⟩)
  unfold dispatch
  rw [hk]
  dsimp only
  unfold afterAck
  dsimp only
  split
  · exact hresend
  · exact hresend

end UdpStreamInner

namespace StreamState

/-- **Fast retransmit needs a gap** exactly when nothing is queued between the
highest acknowledged number and the end of the window. What `handle_ack`
returns is what `handle_incoming` resends. -/
theorem handleAck_evidence_iff (st : StreamState) (ack ackBits : UInt64) :
    (∀ channelId seq payload src now,
      (UdpStreamInner.dispatch st ⟨⟨channelId, .sack, seq, ack.toNat,
          ackBits.toNat⟩, payload, src⟩ now).2.2.1.map ToSend.seq =
        (st.handleAck ack.toNat ackBits.toNat).2.1) ∧
    ((∀ i ∈ (st.handleAck ack.toNat ackBits.toNat).2.1,
        GapEvidence ack.toNat ackBits.toNat i) ↔
      ∀ x ∈ st.writeQueue.entries,
        x.1 ≤ highestAcked ack.toNat ackBits.toNat ∨
          ack.toNat + 64 < x.1) := by
  have hbits : ackBits.toNat < 2 ^ 64 := ackBits.toNat_lt
  refine ⟨fun channelId seq payload src now =>
    UdpStreamInner.dispatch_sack_seqs st _ now rfl, ?_⟩
  constructor
  · intro h x hx
    by_contra hnot
    have hgt : highestAcked ack.toNat ackBits.toNat < x.1 := by omega
    have hack : ack.toNat ≤ highestAcked ack.toNat ackBits.toNat :=
      Nat.le_add_right _ _
    -- such a chunk is in the window, unmarked, and beyond every mark
    have hun : ¬ Acked ack.toNat ackBits.toNat x.1 := by
      intro hacked
      have hpred : GapEvidence ack.toNat ackBits.toNat (x.1 - 1) :=
        ⟨x.1, by omega, hacked⟩
      have := (gapEvidence_iff (by omega) hbits).mp hpred
      omega
    have hret : x.1 ∈ (st.handleAck ack.toNat ackBits.toNat).2.1 :=
      mem_handleAck_resend.mpr ⟨⟨x.2, hx⟩, by omega, by omega, hun⟩
    have := (gapEvidence_iff (by omega) hbits).mp (h x.1 hret)
    omega
  · intro h i hi
    obtain ⟨⟨p, hp⟩, hlt, hle, hun⟩ := mem_handleAck_resend.mp hi
    apply gapEvidence_of_le hlt hbits hun
    rcases h _ hp with hin | hout
    · exact hin
    · omega

/-- Chunks 1 to 3 were sent; the Sack for the first one finds the other two
still on their way. -/
def threeInFlight : StreamState :=
  { StreamState.new .tcp with
    established := true
    nextWriteSeq := 4
    writeQueue := ((OrdMap.empty.insert 1 ⟨[0], 0, 0⟩).insert 2
      ⟨[1], 0, 0⟩).insert 3 ⟨[2], 0, 0⟩ }

theorem threeInFlight_resent_without_gap :
    (threeInFlight.handleAck 1 0).2.1 = [2, 3] ∧
    ¬ (∀ i ∈ (threeInFlight.handleAck 1 0).2.1, GapEvidence 1 0 i) := by
  have hret : (threeInFlight.handleAck 1 0).2.1 = [2, 3] := by decide
  refine ⟨hret, ?_⟩
  rw [hret]
  intro h
  have hlt := (gapEvidence_iff (by decide) (by decide)).mp
    (h 2 List.mem_cons_self)
  exact absurd hlt (by decide)

end StreamState

end Rathole
