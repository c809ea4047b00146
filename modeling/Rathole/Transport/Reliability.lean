import Rathole.Lib.HashMap
import Rathole.Lib.OrdMap
import Mathlib.Data.Nat.Bitwise

/-!
# The reliability layer (`transport/reliability.rs`)

One `StreamState` is one direction pair of a reliable stream over datagrams:
the queue of chunks sent and not yet acknowledged, the buffer of chunks that
arrived out of order, and the bytes ready for the reader.

Sequence numbers and acks are `u64` in the source and are counted in `ℕ` here.
The two agree as long as the counters fit: the one sum that can pass them, the
window of `build_ack`, then looks up a key that no buffer holds, wrapped or
not, and `handle_ack` adds to `ack` only for a larger `seq`. Instants are
nanoseconds on the monotonic clock; `duration_since` saturates at zero, as the
subtraction of `ℕ` does.
-/

namespace Rathole

abbrev Bytes := List UInt8
abbrev Instant := ℕ
/-- A task that can be woken. -/
abbrev Waker := ℕ

def millis (n : ℕ) : ℕ := n * 1000000
def secs (n : ℕ) : ℕ := n * 1000000000

inductive PacketKind where
  | stream | streamOpen | streamOpenAck | streamClose | sack
  | keepalivePing | keepalivePong | service | nack
deriving DecidableEq, Repr

structure TransportPacketHeader where
  channelId : UInt32
  packetKind : PacketKind
  seq : ℕ
  ack : ℕ
  ackBits : ℕ
deriving DecidableEq, Repr

structure SentPacket where
  data : Bytes
  sentAt : Instant
  retransmits : ℕ
deriving DecidableEq, Repr

inductive StreamMode where
  | tcp   -- SACK
  | udp   -- NACK
deriving DecidableEq, Repr

structure StreamState where
  mode : StreamMode
  established : Bool
  nextWriteSeq : ℕ
  nextReadSeq : ℕ
  writeQueue : OrdMap ℕ SentPacket
  readBuffer : OrdMap ℕ Bytes
  readBufBytes : Bytes
  readWaker : Option Waker
  writeWaker : Option Waker
deriving DecidableEq

namespace StreamState

def new (mode : StreamMode) : StreamState where
  mode := mode
  established := false
  nextWriteSeq := 1
  nextReadSeq := 1
  writeQueue := .empty
  readBuffer := .empty
  readBufBytes := []
  readWaker := none
  writeWaker := none

/-! ## Acknowledgements -/

/-- The cumulative ack and the bitmap of what is buffered beyond it. -/
def buildAck (s : StreamState) : ℕ × ℕ :=
  let ack := s.nextReadSeq - 1
  (ack, (List.range 64).foldl
    (fun bits i =>
      if s.readBuffer.containsKey (ack + 1 + i) then bits ||| (1 <<< i)
      else bits) 0)

/-- The `retain` closure of `handle_ack`: `seq` is not acknowledged. -/
def unacked (ack ackBits seq : ℕ) : Bool :=
  if seq ≤ ack then false
  else
    let offset := seq - (ack + 1)
    !(decide (offset < 64) && ((ackBits >>> offset) &&& 1) == 1)

/-- The gap scan of `handle_ack`, with its `break` past the SACK window. -/
def gapScan (ack : ℕ) : List (ℕ × SentPacket) → List ℕ
  | [] => []
  | (seq, _) :: rest =>
      if seq ≤ ack then gapScan ack rest
      else if seq - (ack + 1) ≥ 64 then []
      else seq :: gapScan ack rest

/-- Wake the parked writer when the queue has room. -/
def wakeWriter (s : StreamState) : StreamState × List Waker :=
  if s.writeQueue.len < 1024 then
    ({ s with writeWaker := none }, s.writeWaker.toList)
  else (s, [])

/-- Returns the state, the sequence numbers to resend and the tasks woken. -/
def handleAck (s : StreamState) (ack ackBits : ℕ) :
    StreamState × List ℕ × List Waker :=
  let kept := { s with
    writeQueue := s.writeQueue.retain (fun seq _ => unacked ack ackBits seq) }
  let retransmit := gapScan ack kept.writeQueue.entries
  (kept.wakeWriter.1, retransmit, kept.wakeWriter.2)

def handleNack (s : StreamState) (start stop : ℕ) :
    StreamState × List ℕ × List Waker :=
  let retransmit :=
    if s.mode = .udp then
      (List.range' start (stop + 1 - start)).filter s.writeQueue.containsKey
    else []
  (s.wakeWriter.1, retransmit, s.wakeWriter.2)

/-! ### What an ack says -/

/-- The receiver's own record: `i` was delivered or is buffered. -/
def Received (s : StreamState) (i : ℕ) : Prop :=
  i < s.nextReadSeq ∨ ∃ d, (i, d) ∈ s.readBuffer.entries

/-- `seq` is acknowledged by the pair `(ack, bits)`. -/
def Acked (ack bits seq : ℕ) : Prop :=
  seq ≤ ack ∨ (seq - (ack + 1) < 64 ∧ bits.testBit (seq - (ack + 1)) = true)

theorem testBit_eq_and_one (bits i : ℕ) :
    (((bits >>> i) &&& 1) == 1) = bits.testBit i := by
  rw [Nat.testBit_eq_decide_div_mod_eq, Nat.and_one_is_mod,
    Nat.shiftRight_eq_div_pow]
  rfl

theorem unacked_iff {ack bits seq : ℕ} :
    unacked ack bits seq = true ↔ ¬ Acked ack bits seq := by
  unfold unacked Acked
  by_cases h : seq ≤ ack
  · simp [h]
  · rw [if_neg h]
    dsimp only
    rw [testBit_eq_and_one]
    simp only [h, false_or, Bool.not_eq_true', Bool.and_eq_false_iff,
      decide_eq_false_iff_not, not_and, Bool.not_eq_true]
    constructor
    · rintro (hlt | hbit) hlt'
      · exact absurd hlt' hlt
      · exact hbit
    · intro himp
      by_cases hlt : seq - (ack + 1) < 64
      · exact Or.inr (himp hlt)
      · exact Or.inl hlt

/-- Setting one bit at a time: bit `i` of the scan over `l`. -/
theorem testBit_foldl_setBit (p : ℕ → Bool) (i : ℕ) (l : List ℕ) (b : ℕ) :
    (l.foldl (fun bits j => if p j then bits ||| (1 <<< j) else bits) b).testBit
      i = (b.testBit i || (decide (i ∈ l) && p i)) := by
  induction l generalizing b with
  | nil => simp
  | cons j l ih =>
      rw [List.foldl_cons, ih]
      by_cases hp : p j = true
      · rw [if_pos hp, Nat.testBit_lor, Nat.one_shiftLeft, Nat.testBit_two_pow]
        by_cases hij : j = i
        · subst hij
          simp [hp]
        · simp [hij, Ne.symm hij]
      · rw [if_neg hp]
        by_cases hij : j = i
        · subst hij
          simp [hp]
        · simp [Ne.symm hij]

theorem buildAck_bit {s : StreamState} {i : ℕ} :
    s.buildAck.2.testBit i = true ↔
      i < 64 ∧ s.readBuffer.containsKey (s.nextReadSeq - 1 + 1 + i) = true := by
  unfold buildAck
  dsimp only
  rw [testBit_foldl_setBit
    (fun j => s.readBuffer.containsKey (s.nextReadSeq - 1 + 1 + j)) i]
  simp

/-- The bitmap is a 64-bit word. -/
theorem buildAck_bits_lt (s : StreamState) : s.buildAck.2 < 2 ^ 64 := by
  apply Nat.lt_pow_two_of_testBit
  intro i hi
  rw [← Bool.not_eq_true, buildAck_bit]
  omega

/-- An ack is read off the receiving half alone. -/
theorem buildAck_congr {s t : StreamState}
    (hnext : s.nextReadSeq = t.nextReadSeq)
    (hbuf : s.readBuffer = t.readBuffer) : s.buildAck = t.buildAck := by
  unfold buildAck
  rw [hnext, hbuf]

/-- An ack built by a receiver acknowledges only what it has received. -/
theorem received_of_acked_buildAck {s : StreamState} (hpos : 1 ≤ s.nextReadSeq)
    {i : ℕ} (h : Acked s.buildAck.1 s.buildAck.2 i) : s.Received i := by
  have hack : s.buildAck.1 = s.nextReadSeq - 1 := rfl
  rcases h with h | ⟨hlt, hbit⟩
  · left
    omega
  · rw [hack] at hlt hbit
    by_cases hi : i < s.nextReadSeq
    · exact Or.inl hi
    · right
      have hkey := (buildAck_bit.mp hbit).2
      rw [show s.nextReadSeq - 1 + 1 + (i - (s.nextReadSeq - 1 + 1)) = i by omega]
        at hkey
      exact OrdMap.containsKey_iff.mp hkey

theorem wakeWriter_fst (s : StreamState) :
    s.wakeWriter.1 = { s with
      writeWaker := if s.writeQueue.len < 1024 then none else s.writeWaker } := by
  unfold wakeWriter
  split <;> rfl

/-! ## Incoming data -/

/-- The drain of `push_data`: move chunks to the byte stream while the next
expected one is buffered. Every turn removes an entry, so `fuel` at the
buffer's length never runs out (`drain_done`). -/
def drain : ℕ → ℕ → OrdMap ℕ Bytes → Bytes → ℕ × OrdMap ℕ Bytes × Bytes
  | 0, next, buf, bytes => (next, buf, bytes)
  | fuel + 1, next, buf, bytes =>
      match buf.get? next with
      | none => (next, buf, bytes)
      | some data => drain fuel (next + 1) (buf.erase next) (bytes ++ data)

/-- Returns the state, the NACK range and the tasks woken. -/
def pushData (s : StreamState) (seq : ℕ) (data : Bytes) :
    StreamState × Option (ℕ × ℕ) × List Waker :=
  if seq < s.nextReadSeq ∨ s.readBuffer.containsKey seq = true then
    (s, none, [])
  else
    let nack :=
      if s.mode = .udp ∧ seq > s.nextReadSeq then
        some (s.nextReadSeq, seq - 1)
      else none
    let buf := s.readBuffer.insert seq data
    let d := drain buf.len s.nextReadSeq buf s.readBufBytes
    ({ s with
        nextReadSeq := d.1
        readBuffer := d.2.1
        readBufBytes := d.2.2
        readWaker := none }, nack, s.readWaker.toList)

/-! ### What the drain leaves -/

theorem drain_next_le (fuel next : ℕ) (buf : OrdMap ℕ Bytes) (bytes : Bytes) :
    next ≤ (drain fuel next buf bytes).1 := by
  induction fuel generalizing next buf bytes with
  | zero => exact Nat.le_refl _
  | succ fuel ih =>
      unfold drain
      cases buf.get? next with
      | none => exact Nat.le_refl _
      | some d =>
          have := ih (next + 1) (buf.erase next) (bytes ++ d)
          dsimp only
          omega

/-- What stays buffered is what lies outside the drained range. -/
theorem mem_drain {x : ℕ × Bytes} (fuel next : ℕ) (buf : OrdMap ℕ Bytes)
    (bytes : Bytes) :
    x ∈ (drain fuel next buf bytes).2.1.entries ↔
      x ∈ buf.entries ∧
        ¬ (next ≤ x.1 ∧ x.1 < (drain fuel next buf bytes).1) := by
  induction fuel generalizing next buf bytes with
  | zero =>
      simp only [drain]
      constructor
      · exact fun h => ⟨h, by omega⟩
      · exact fun h => h.1
  | succ fuel ih =>
      unfold drain
      cases buf.get? next with
      | none =>
          dsimp only
          constructor
          · exact fun h => ⟨h, by omega⟩
          · exact fun h => h.1
      | some d =>
          dsimp only
          rw [ih (next + 1), OrdMap.mem_erase]
          have hle := drain_next_le fuel (next + 1) (buf.erase next) (bytes ++ d)
          constructor
          · rintro ⟨⟨hx, hne⟩, hout⟩
            exact ⟨hx, by omega⟩
          · rintro ⟨hx, hout⟩
            exact ⟨⟨hx, by omega⟩, by omega⟩

/-- Everything in the drained range was buffered. -/
theorem buffered_of_drained {i : ℕ} (fuel next : ℕ) (buf : OrdMap ℕ Bytes)
    (bytes : Bytes) (hle : next ≤ i) (hlt : i < (drain fuel next buf bytes).1) :
    ∃ d, (i, d) ∈ buf.entries := by
  induction fuel generalizing next buf bytes with
  | zero =>
      simp only [drain] at hlt
      omega
  | succ fuel ih =>
      unfold drain at hlt
      cases hget : buf.get? next with
      | none =>
          rw [hget] at hlt
          dsimp only at hlt
          omega
      | some d =>
          rw [hget] at hlt
          by_cases hi : i = next
          · exact ⟨d, hi ▸ OrdMap.get?_eq_some.mp hget⟩
          · obtain ⟨d', hd'⟩ := ih (next + 1) _ _ (by omega) hlt
            exact ⟨d', (OrdMap.mem_erase.mp hd').1⟩

/-- The drain stops only at a hole. -/
theorem drain_done (fuel next : ℕ) (buf : OrdMap ℕ Bytes) (bytes : Bytes)
    (hlen : buf.len ≤ fuel) (d : Bytes) :
    ((drain fuel next buf bytes).1, d) ∉
      (drain fuel next buf bytes).2.1.entries := by
  induction fuel generalizing next buf bytes with
  | zero =>
      have hnil : buf.entries = [] :=
        List.eq_nil_of_length_eq_zero (Nat.le_zero.mp hlen)
      simp [drain, hnil]
  | succ fuel ih =>
      unfold drain
      cases hget : buf.get? next with
      | none => exact OrdMap.get?_eq_none.mp hget d
      | some d' =>
          have hlt := OrdMap.len_erase_lt (OrdMap.get?_eq_some.mp hget)
          exact ih (next + 1) _ _ (by omega)

/-- The drained bytes, read off any function `c` that agrees with the buffer. -/
theorem drain_bytes (c : ℕ → Bytes) (fuel next : ℕ) (buf : OrdMap ℕ Bytes)
    (bytes : Bytes) (hc : ∀ x ∈ buf.entries, x.2 = c x.1) :
    (drain fuel next buf bytes).2.2 = bytes ++
      ((List.range' next ((drain fuel next buf bytes).1 - next)).map
        c).flatten := by
  induction fuel generalizing next buf bytes with
  | zero => simp [drain]
  | succ fuel ih =>
      unfold drain
      cases hget : buf.get? next with
      | none => simp
      | some d =>
          dsimp only
          have hd : d = c next := hc _ (OrdMap.get?_eq_some.mp hget)
          have hc' : ∀ x ∈ (buf.erase next).entries, x.2 = c x.1 :=
            fun x hx => hc x (OrdMap.mem_erase.mp hx).1
          have hle := drain_next_le fuel (next + 1) (buf.erase next) (bytes ++ d)
          have ih := ih (next + 1) _ (bytes ++ d) hc'
          generalize drain fuel (next + 1) (buf.erase next) (bytes ++ d) = r
            at hle ih ⊢
          rw [ih, show r.1 - next = (r.1 - (next + 1)) + 1 by omega,
            List.range'_succ, List.map_cons, List.flatten_cons, ← hd,
            List.append_assoc]

/-! ### What `push_data` does -/

theorem pushData_stale {s : StreamState} {seq : ℕ} {data : Bytes}
    (h : s.Received seq) : s.pushData seq data = (s, none, []) := by
  unfold pushData
  rw [if_pos]
  rcases h with h | h
  · exact Or.inl h
  · exact Or.inr (OrdMap.containsKey_iff.mpr h)

/-- The state after a chunk that is new to the receiver. -/
theorem pushData_fresh {s : StreamState} {seq : ℕ} {data : Bytes}
    (h : ¬ s.Received seq) :
    (s.pushData seq data).1 =
      let buf := s.readBuffer.insert seq data
      let d := drain buf.len s.nextReadSeq buf s.readBufBytes
      { s with
        nextReadSeq := d.1
        readBuffer := d.2.1
        readBufBytes := d.2.2
        readWaker := none } := by
  unfold pushData
  rw [if_neg]
  rintro (hlt | hkey)
  · exact h (Or.inl hlt)
  · exact h (Or.inr (OrdMap.containsKey_iff.mp hkey))

/-- `push_data` touches the reading half of the state only. -/
theorem pushData_frame (s : StreamState) (seq : ℕ) (data : Bytes) :
    (s.pushData seq data).1.mode = s.mode ∧
    (s.pushData seq data).1.nextWriteSeq = s.nextWriteSeq ∧
    (s.pushData seq data).1.writeQueue = s.writeQueue ∧
    (s.pushData seq data).1.writeWaker = s.writeWaker := by
  unfold pushData
  split <;> exact ⟨rfl, rfl, rfl, rfl⟩

theorem pushData_next_le (s : StreamState) (seq : ℕ) (data : Bytes) :
    s.nextReadSeq ≤ (s.pushData seq data).1.nextReadSeq := by
  unfold pushData
  split
  · exact Nat.le_refl _
  · exact drain_next_le _ _ _ _

/-- Exactly the pushed sequence number becomes received. -/
theorem pushData_received {s : StreamState} {seq : ℕ} {data : Bytes} {i : ℕ} :
    (s.pushData seq data).1.Received i ↔ s.Received i ∨ i = seq := by
  by_cases h : s.Received seq
  · rw [pushData_stale h]
    constructor
    · exact Or.inl
    · rintro (hi | rfl)
      · exact hi
      · exact h
  · rw [pushData_fresh h]
    have hseq : ¬ seq < s.nextReadSeq := fun hlt => h (Or.inl hlt)
    unfold Received
    dsimp only
    simp only [mem_drain]
    have hle := drain_next_le (s.readBuffer.insert seq data).len s.nextReadSeq
      (s.readBuffer.insert seq data) s.readBufBytes
    have hdrained := fun hge hlt => buffered_of_drained (i := i)
      (s.readBuffer.insert seq data).len s.nextReadSeq
      (s.readBuffer.insert seq data) s.readBufBytes hge hlt
    generalize (drain (s.readBuffer.insert seq data).len s.nextReadSeq
      (s.readBuffer.insert seq data) s.readBufBytes).1 = next' at hle hdrained ⊢
    have hbuf : (∃ d, (i, d) ∈ (s.readBuffer.insert seq data).entries) →
        (∃ d, (i, d) ∈ s.readBuffer.entries) ∨ i = seq := by
      rintro ⟨d, hd⟩
      rcases OrdMap.mem_insert.mp hd with hd' | ⟨hd', -⟩
      · exact Or.inr (Prod.mk.inj hd').1
      · exact Or.inl ⟨d, hd'⟩
    constructor
    · rintro (hlt | ⟨d, hd, -⟩)
      · by_cases hi : i < s.nextReadSeq
        · exact Or.inl (Or.inl hi)
        · rcases hbuf (hdrained (by omega) hlt) with hr | hr
          · exact Or.inl (Or.inr hr)
          · exact Or.inr hr
      · rcases hbuf ⟨d, hd⟩ with hr | hr
        · exact Or.inl (Or.inr hr)
        · exact Or.inr hr
    · have hcase : ∀ d, (i, d) ∈ (s.readBuffer.insert seq data).entries →
          i < next' ∨ ∃ d, (i, d) ∈ (s.readBuffer.insert seq data).entries ∧
            ¬ (s.nextReadSeq ≤ i ∧ i < next') := by
        intro d hd
        by_cases hi : i < next'
        · exact Or.inl hi
        · exact Or.inr ⟨d, hd, by omega⟩
      rintro ((hlt | ⟨d, hd⟩) | rfl)
      · exact Or.inl (by omega)
      · by_cases hi : i = seq
        · exact hcase data (OrdMap.mem_insert.mpr (Or.inl (by rw [hi])))
        · exact hcase d (OrdMap.mem_insert.mpr (Or.inr ⟨hd, hi⟩))
      · exact hcase data (OrdMap.mem_insert.mpr (Or.inl rfl))

/-- Nothing at or below the next expected number stays buffered. -/
def Drained (s : StreamState) : Prop :=
  ∀ x ∈ s.readBuffer.entries, s.nextReadSeq < x.1

theorem pushData_drained {s : StreamState} {seq : ℕ} {data : Bytes}
    (hs : s.Drained) : (s.pushData seq data).1.Drained := by
  by_cases h : s.Received seq
  · rw [pushData_stale h]
    exact hs
  · rw [pushData_fresh h]
    intro x hx
    dsimp only at hx ⊢
    have hhole := drain_done (s.readBuffer.insert seq data).len s.nextReadSeq
      (s.readBuffer.insert seq data) s.readBufBytes (Nat.le_refl _) x.2
    obtain ⟨hmem, hout⟩ := (mem_drain _ _ _ _).mp hx
    have hge : s.nextReadSeq ≤ x.1 := by
      rcases OrdMap.mem_insert.mp hmem with rfl | ⟨hold, -⟩
      · by_contra hlt
        exact h (Or.inl (by omega))
      · exact Nat.le_of_lt (hs x hold)
    have hne : x.1 ≠ (drain (s.readBuffer.insert seq data).len s.nextReadSeq
        (s.readBuffer.insert seq data) s.readBufBytes).1 :=
      fun he => hhole (he ▸ hx)
    omega

/-! ## The timer -/

/-- The TCP-mode loop of `get_retransmissions` over the write queue: the
entries afterwards, the chunks to resend, and whether the stream timed out
(the `break`: later entries are left as they were). -/
def retransmitScan (now : Instant) : List (ℕ × SentPacket) →
    List (ℕ × SentPacket) × List (ℕ × Bytes) × Bool
  | [] => ([], [], false)
  | (seq, p) :: rest =>
      if now - p.sentAt > millis 200 then
        let p' := { p with sentAt := now, retransmits := p.retransmits + 1 }
        if p'.retransmits > 100 then ((seq, p') :: rest, [], true)
        else
          let r := retransmitScan now rest
          ((seq, p') :: r.1, (seq, p.data) :: r.2.1, r.2.2)
      else
        let r := retransmitScan now rest
        ((seq, p) :: r.1, r.2.1, r.2.2)

theorem retransmitScan_keys (now : Instant) (l : List (ℕ × SentPacket)) :
    (retransmitScan now l).1.map Prod.fst = l.map Prod.fst := by
  induction l with
  | nil => rfl
  | cons e rest ih =>
      simp only [retransmitScan]
      split
      · split
        · rfl
        · simp [ih]
      · simp [ih]

/-- The body of the loop over streams in `get_retransmissions`. -/
def getRetransmissions (s : StreamState) (now : Instant) :
    StreamState × List (ℕ × Bytes) × Bool :=
  match s.mode with
  | .udp =>
      ({ s with
          writeQueue := s.writeQueue.retain
            (fun _ p => decide (now - p.sentAt < secs 30)) }, [], false)
  | .tcp =>
      let r := retransmitScan now s.writeQueue.entries
      ({ s with
          writeQueue := s.writeQueue.withEntries r.1
            (retransmitScan_keys now _) }, r.2.1, r.2.2)

/-! ### What a tick keeps and resends -/

theorem getRetransmissions_udp {s : StreamState} (h : s.mode = .udp)
    (now : Instant) : s.getRetransmissions now =
      ({ s with
          writeQueue := s.writeQueue.retain
            (fun _ p => decide (now - p.sentAt < secs 30)) }, [], false) := by
  unfold getRetransmissions
  split
  · rfl
  · rename_i htcp
    rw [h] at htcp
    cases htcp

theorem getRetransmissions_tcp {s : StreamState} (h : s.mode = .tcp)
    (now : Instant) : (s.getRetransmissions now).2 =
      (retransmitScan now s.writeQueue.entries).2 := by
  unfold getRetransmissions
  rw [h]

/-- A scan never changes a chunk's data. -/
theorem mem_retransmitScan {now : Instant} {i : ℕ} {p' : SentPacket}
    {l : List (ℕ × SentPacket)} (h : (i, p') ∈ (retransmitScan now l).1) :
    ∃ p, (i, p) ∈ l ∧ p'.data = p.data := by
  induction l with
  | nil => cases h
  | cons e rest ih =>
      obtain ⟨seq, p⟩ := e
      have hrest : (i, p') ∈ (retransmitScan now rest).1 →
          ∃ q, (i, q) ∈ (seq, p) :: rest ∧ p'.data = q.data := by
        intro h'
        obtain ⟨q, hq, hd⟩ := ih h'
        exact ⟨q, List.mem_cons_of_mem _ hq, hd⟩
      simp only [retransmitScan] at h
      split at h
      · split at h
        · rcases List.mem_cons.mp h with h' | h'
          · cases h'
            exact ⟨p, List.mem_cons_self, rfl⟩
          · exact ⟨p', List.mem_cons_of_mem _ h', rfl⟩
        · rcases List.mem_cons.mp h with h' | h'
          · cases h'
            exact ⟨p, List.mem_cons_self, rfl⟩
          · exact hrest h'
      · rcases List.mem_cons.mp h with h' | h'
        · cases h'
          exact ⟨_, List.mem_cons_self, rfl⟩
        · exact hrest h'

/-- A scan resends only what is queued, unchanged. -/
theorem mem_retransmitScan_out {now : Instant} {i : ℕ} {d : Bytes}
    {l : List (ℕ × SentPacket)} (h : (i, d) ∈ (retransmitScan now l).2.1) :
    ∃ p, (i, p) ∈ l ∧ p.data = d := by
  induction l with
  | nil => cases h
  | cons e rest ih =>
      obtain ⟨seq, p⟩ := e
      have hrest : (i, d) ∈ (retransmitScan now rest).2.1 →
          ∃ q, (i, q) ∈ (seq, p) :: rest ∧ q.data = d := by
        intro h'
        obtain ⟨q, hq, hd⟩ := ih h'
        exact ⟨q, List.mem_cons_of_mem _ hq, hd⟩
      simp only [retransmitScan] at h
      split at h
      · split at h
        · cases h
        · rcases List.mem_cons.mp h with h' | h'
          · cases h'
            exact ⟨p, List.mem_cons_self, rfl⟩
          · exact hrest h'
      · exact hrest h

/-- When every entry is due and below the limit, the scan resends the whole
queue and does not time out. -/
theorem retransmitScan_all_due {now : Instant} {l : List (ℕ × SentPacket)}
    (hdue : ∀ x ∈ l, now - x.2.sentAt > millis 200)
    (hlim : ∀ x ∈ l, x.2.retransmits < 100) :
    (retransmitScan now l).2 = (l.map (fun x => (x.1, x.2.data)), false) := by
  induction l with
  | nil => rfl
  | cons e rest ih =>
      obtain ⟨seq, p⟩ := e
      have ih := ih (fun x hx => hdue x (List.mem_cons_of_mem _ hx))
        (fun x hx => hlim x (List.mem_cons_of_mem _ hx))
      have hp : now - p.sentAt > millis 200 := hdue _ List.mem_cons_self
      have hr : p.retransmits < 100 := hlim _ List.mem_cons_self
      simp only [retransmitScan]
      rw [if_pos hp, if_neg (by omega), ih]
      rfl

/-- A due chunk below the limit is resent, unless the scan stops at one that
has reached it. -/
theorem retransmitScan_due {now : Instant} {i : ℕ} {p : SentPacket}
    {l : List (ℕ × SentPacket)} (hmem : (i, p) ∈ l)
    (hdue : now - p.sentAt > millis 200) (hlim : p.retransmits < 100) :
    (i, p.data) ∈ (retransmitScan now l).2.1 ∨
      (retransmitScan now l).2.2 = true := by
  induction l with
  | nil => cases hmem
  | cons e rest ih =>
      obtain ⟨seq, q⟩ := e
      simp only [retransmitScan]
      rcases List.mem_cons.mp hmem with heq | hrest
      · cases heq
        rw [if_pos hdue, if_neg (by omega)]
        exact Or.inl List.mem_cons_self
      · have ih := ih hrest
        split
        · split
          · exact Or.inr rfl
          · rcases ih with hout | hdead
            · exact Or.inl (List.mem_cons_of_mem _ hout)
            · exact Or.inr hdead
        · exact ih

/-- A scan times out on a due chunk that has been resent 100 times. -/
theorem retransmitScan_timeout {now : Instant} {l : List (ℕ × SentPacket)}
    (h : (retransmitScan now l).2.2 = true) :
    ∃ x ∈ l, now - x.2.sentAt > millis 200 ∧ 100 ≤ x.2.retransmits := by
  induction l with
  | nil => cases h
  | cons e rest ih =>
      obtain ⟨seq, p⟩ := e
      have hrest : (retransmitScan now rest).2.2 = true →
          ∃ x ∈ (seq, p) :: rest,
            now - x.2.sentAt > millis 200 ∧ 100 ≤ x.2.retransmits := by
        intro h'
        obtain ⟨x, hx, hdue⟩ := ih h'
        exact ⟨x, List.mem_cons_of_mem _ hx, hdue⟩
      simp only [retransmitScan] at h
      split at h
      · rename_i hdue
        split at h
        · exact ⟨(seq, p), List.mem_cons_self, hdue, by dsimp only; omega⟩
        · exact hrest h
      · exact hrest h

/-- A tick touches the write queue only. -/
theorem getRetransmissions_frame (s : StreamState) (now : Instant) :
    ∃ wq, (s.getRetransmissions now).1 = { s with writeQueue := wq } := by
  unfold getRetransmissions
  split
  · exact ⟨_, rfl⟩
  · exact ⟨_, rfl⟩

/-- What a tick leaves queued was queued, with the same data. -/
theorem mem_getRetransmissions {s : StreamState} {now : Instant} {i : ℕ}
    {p' : SentPacket}
    (h : (i, p') ∈ (s.getRetransmissions now).1.writeQueue.entries) :
    ∃ p, (i, p) ∈ s.writeQueue.entries ∧ p'.data = p.data := by
  unfold getRetransmissions at h
  split at h
  · exact ⟨p', (OrdMap.mem_retain.mp h).1, rfl⟩
  · exact mem_retransmitScan h

theorem mem_getRetransmissions_out {s : StreamState} {now : Instant} {i : ℕ}
    {d : Bytes} (h : (i, d) ∈ (s.getRetransmissions now).2.1) :
    ∃ p, (i, p) ∈ s.writeQueue.entries ∧ p.data = d := by
  unfold getRetransmissions at h
  split at h
  · cases h
  · exact mem_retransmitScan_out h

/-- In TCP mode a tick drops nothing. -/
theorem getRetransmissions_keys {s : StreamState} {now : Instant}
    (hmode : s.mode = .tcp) :
    (s.getRetransmissions now).1.writeQueue.entries.map Prod.fst =
      s.writeQueue.entries.map Prod.fst := by
  unfold getRetransmissions
  rw [hmode]
  exact retransmitScan_keys now _

end StreamState

structure Reliability where
  streams : HashMap UInt32 StreamState

namespace Reliability

/-- Collect the packets to resend and the streams that timed out. -/
def getRetransmissions (r : Reliability) (now : Instant) :
    Reliability × List (UInt32 × ℕ × Bytes) × List UInt32 :=
  (⟨HashMap.updateAll (fun _ s => (s.getRetransmissions now).1) r.streams⟩,
    r.streams.entries.flatMap
      (fun e => (e.2.getRetransmissions now).2.1.map (fun p => (e.1, p))),
    (r.streams.entries.filter
      (fun e => (e.2.getRetransmissions now).2.2)).map (fun e => e.1))

end Reliability

end Rathole
