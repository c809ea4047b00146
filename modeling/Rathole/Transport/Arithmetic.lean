import Mathlib.Data.UInt
import Rathole.Lib.Checked
import Rathole.Lib.Runs
import Rathole.Transport.Wire

/-!
# Sequence arithmetic in 64 bits

The model counts sequence numbers in `ℕ`; the source adds and subtracts `u64`,
which aborts a debug build on overflow and wraps in a release build. Below
are the functions of the source with every sum, difference and shift checked.
On the numbers of a peer they rely on the order of their guards, on their own
counters on a bound: a step delivers or buffers one chunk, and takes one
number.
-/

namespace Rathole

open Checked Runs

namespace StreamState

/-! ## The functions, checked -/

def buildAck? (s : StreamState) : Option (ℕ × ℕ) := do
  let ack := s.nextReadSeq - 1   -- saturating_sub
  let bits ← (List.range 64).foldlM (fun bits i => do
    let next ← add 64 ack 1
    let key ← add 64 next i
    if s.readBuffer.containsKey key then
      let bit ← shl 64 1 i
      some (bits ||| bit)
    else some bits) 0
  some (ack, bits)

/-- The `retain` closure of `handle_ack`. -/
def unacked? (ack ackBits seq : ℕ) : Option Bool :=
  if seq ≤ ack then some false
  else do
    let next ← add 64 ack 1
    let offset := seq - next   -- saturating_sub
    if offset < 64 then
      let bits ← shr 64 ackBits offset
      some !((bits &&& 1) == 1)
    else some true

def gapScan? (ack : ℕ) : List (ℕ × SentPacket) → Option (List ℕ)
  | [] => some []
  | (seq, _) :: rest =>
      if seq ≤ ack then gapScan? ack rest
      else do
        let next ← add 64 ack 1
        if seq - next ≥ 64 then some []   -- saturating_sub
        else
          let retransmit ← gapScan? ack rest
          some (seq :: retransmit)

def handleAck? (s : StreamState) (ack ackBits : ℕ) :
    Option (StreamState × List ℕ × List Waker) := do
  let writeQueue ← s.writeQueue.retain? (fun seq _ => unacked? ack ackBits seq)
  let kept := { s with writeQueue := writeQueue }
  let retransmit ← gapScan? ack kept.writeQueue.entries
  some (kept.wakeWriter.1, retransmit, kept.wakeWriter.2)

def handleNack? (s : StreamState) (start stop : ℕ) :
    Option (StreamState × List ℕ × List Waker) := do
  let retransmit ←
    if s.mode = .udp then
      (rangeInclusive 64 start stop).map (List.filter s.writeQueue.containsKey)
    else some []
  some (s.wakeWriter.1, retransmit, s.wakeWriter.2)

def drain? : ℕ → ℕ → OrdMap ℕ Bytes → Bytes →
    Option (ℕ × OrdMap ℕ Bytes × Bytes)
  | 0, next, buf, bytes => some (next, buf, bytes)
  | fuel + 1, next, buf, bytes =>
      match buf.get? next with
      | none => some (next, buf, bytes)
      | some data => do
          let next' ← add 64 next 1
          drain? fuel next' (buf.erase next) (bytes ++ data)

def pushData? (s : StreamState) (seq : ℕ) (data : Bytes) :
    Option (StreamState × Option (ℕ × ℕ) × List Waker) :=
  if seq < s.nextReadSeq ∨ s.readBuffer.containsKey seq = true then
    some (s, none, [])
  else do
    let nack ←
      if s.mode = .udp ∧ seq > s.nextReadSeq then
        (sub seq 1).map (fun stop => some (s.nextReadSeq, stop))
      else some none
    let buf := s.readBuffer.insert seq data
    let d ← drain? buf.len s.nextReadSeq buf s.readBufBytes
    some ({ s with
        nextReadSeq := d.1
        readBuffer := d.2.1
        readBufBytes := d.2.2
        readWaker := none }, nack, s.readWaker.toList)

/-- The part of `poll_write` that has the state. -/
def pollWrite? (s : StreamState) (cx : Waker) (buf : Bytes) (now : Instant) :
    Option StreamState :=
  if s.writeQueue.len ≥ 1024 then some { s with writeWaker := some cx }
  else do
    let chunk := buf.take (min buf.length 1100)
    let seq := s.nextWriteSeq
    let next ← add 64 seq 1
    some { s with
      nextWriteSeq := next
      writeQueue := s.writeQueue.insert seq ⟨chunk, now, 0⟩ }

/-- The same without the check. -/
def pollWrite (s : StreamState) (cx : Waker) (buf : Bytes) (now : Instant) :
    StreamState :=
  if s.writeQueue.len ≥ 1024 then { s with writeWaker := some cx }
  else
    let chunk := buf.take (min buf.length 1100)
    { s with
      nextWriteSeq := s.nextWriteSeq + 1
      writeQueue := s.writeQueue.insert s.nextWriteSeq ⟨chunk, now, 0⟩ }

/-- An open stream's `poll_write` does this to its state. -/
theorem state_pollWrite {u : UdpStream} {s : StreamState}
    (hs : u.state? = some s) (hopen : u.inner.closed = false) (cx : Waker)
    (buf : Bytes) (now : Instant) :
    (u.pollWrite cx buf now).1.state? = some (s.pollWrite cx buf now) := by
  have hset : ∀ s', (u.setState s').state? = some s' :=
    fun s' => AList.lookup_insert _
  have hsend : ∀ (u : UdpStream) item, (u.trySend item).state? = u.state? := by
    intro u item
    unfold UdpStream.trySend
    split <;> rfl
  unfold UdpStream.pollWrite pollWrite
  rw [hopen, hs]
  dsimp only
  rw [if_neg (by decide)]
  by_cases hfull : s.writeQueue.len ≥ 1024
  · rw [if_pos hfull, if_pos hfull]
    exact hset _
  · rw [if_neg hfull, if_neg hfull]
    exact (hsend _ _).trans (hset _)

/-! ## Each of them has the value the model gives -/

section

variable {s : StreamState} {ack bits seq : ℕ}

theorem buildAck?_eq (h : s.nextReadSeq + 63 < 2 ^ 64) :
    s.buildAck? = some s.buildAck := by
  have hscan := foldlM_eq (l := List.range 64) (b := 0)
    (f := fun bits i => do
      let next ← add 64 (s.nextReadSeq - 1) 1
      let key ← add 64 next i
      if s.readBuffer.containsKey key then
        let bit ← shl 64 1 i
        some (bits ||| bit)
      else some bits)
    (g := fun bits i =>
      if s.readBuffer.containsKey (s.nextReadSeq - 1 + 1 + i) then
        bits ||| (1 <<< i)
      else bits) (by
    intro i hi bits
    have hi : i < 64 := List.mem_range.mp hi
    rw [add_eq (by omega), Option.bind_eq_bind, Option.bind_some,
      add_eq (by omega), Option.bind_some, one_shl_eq hi]
    split <;> rfl)
  unfold buildAck?
  dsimp only
  rw [hscan]
  rfl

/-- `ack + 1` is computed for a larger `seq` only. -/
theorem add_ack (hle : ¬ seq ≤ ack) (hseq : seq < 2 ^ 64) :
    add 64 ack 1 = some (ack + 1) := add_eq (by omega)

theorem unacked?_eq (hseq : seq < 2 ^ 64) :
    unacked? ack bits seq = some (unacked ack bits seq) := by
  unfold unacked? unacked
  by_cases hle : seq ≤ ack
  · rw [if_pos hle, if_pos hle]
  · rw [if_neg hle, if_neg hle, add_ack hle hseq, Option.bind_eq_bind,
      Option.bind_some]
    dsimp only
    by_cases hin : seq - (ack + 1) < 64
    · rw [if_pos hin, shr_eq hin, decide_eq_true hin]
      rfl
    · rw [if_neg hin, decide_eq_false hin]
      rfl

theorem gapScan?_eq {l : List (ℕ × SentPacket)} (h : ∀ x ∈ l, x.1 < 2 ^ 64) :
    gapScan? ack l = some (gapScan ack l) := by
  induction l with
  | nil => rfl
  | cons e rest ih =>
      obtain ⟨seq, p⟩ := e
      have hseq : seq < 2 ^ 64 := h _ List.mem_cons_self
      have ih := ih (fun x hx => h x (List.mem_cons_of_mem _ hx))
      unfold gapScan? gapScan
      by_cases hle : seq ≤ ack
      · rw [if_pos hle, if_pos hle, ih]
      · rw [if_neg hle, if_neg hle, add_ack hle hseq, Option.bind_eq_bind,
          Option.bind_some]
        by_cases hout : seq - (ack + 1) ≥ 64
        · rw [if_pos hout, if_pos hout]
        · rw [if_neg hout, if_neg hout, ih]
          rfl

theorem handleAck?_eq (h : ∀ x ∈ s.writeQueue.entries, x.1 < 2 ^ 64) :
    s.handleAck? ack bits = some (s.handleAck ack bits) := by
  have hkept := OrdMap.retain?_eq (m := s.writeQueue)
    (p := fun seq _ => unacked? ack bits seq)
    (q := fun seq _ => unacked ack bits seq)
    (fun x hx => unacked?_eq (h x hx))
  have hleft : ∀ x ∈ (s.writeQueue.retain
      (fun seq _ => unacked ack bits seq)).entries, x.1 < 2 ^ 64 :=
    fun x hx => h x (OrdMap.mem_retain.mp hx).1
  unfold handleAck? handleAck
  rw [hkept, Option.bind_eq_bind, Option.bind_some]
  dsimp only
  rw [gapScan?_eq hleft]
  rfl

theorem handleNack?_eq {start stop : ℕ} (h : stop < 2 ^ 64) :
    s.handleNack? start stop = some (s.handleNack start stop) := by
  unfold handleNack? handleNack
  rw [rangeInclusive_eq h]
  by_cases hmode : s.mode = .udp
  · rw [if_pos hmode, if_pos hmode]
    rfl
  · rw [if_neg hmode, if_neg hmode]
    rfl

theorem drain?_eq {fuel next : ℕ} {buf : OrdMap ℕ Bytes} {bytes : Bytes}
    (h : next + buf.len < 2 ^ 64) :
    drain? fuel next buf bytes = some (drain fuel next buf bytes) := by
  induction fuel generalizing next buf bytes with
  | zero => rfl
  | succ fuel ih =>
      unfold drain? drain
      cases hget : buf.get? next with
      | none => rfl
      | some data =>
          have hlt := OrdMap.len_erase_lt (OrdMap.get?_eq_some.mp hget)
          dsimp only
          rw [add_eq (by omega), Option.bind_eq_bind, Option.bind_some]
          exact ih (by omega)

/-- What is delivered has left the buffer. -/
theorem drain_count (fuel next : ℕ) (buf : OrdMap ℕ Bytes) (bytes : Bytes) :
    (drain fuel next buf bytes).1 + (drain fuel next buf bytes).2.1.len ≤
      next + buf.len := by
  induction fuel generalizing next buf bytes with
  | zero => exact Nat.le_refl _
  | succ fuel ih =>
      unfold drain
      cases hget : buf.get? next with
      | none => exact Nat.le_refl _
      | some data =>
          have hlt := OrdMap.len_erase_lt (OrdMap.get?_eq_some.mp hget)
          have ih := ih (next + 1) (buf.erase next) (bytes ++ data)
          dsimp only
          omega

theorem pushData?_eq {data : Bytes}
    (h : s.nextReadSeq + s.readBuffer.len + 1 < 2 ^ 64) :
    s.pushData? seq data = some (s.pushData seq data) := by
  have hlen : (s.readBuffer.insert seq data).len ≤ s.readBuffer.len + 1 :=
    OrdMap.len_insert_le
  unfold pushData? pushData
  by_cases hold : seq < s.nextReadSeq ∨ s.readBuffer.containsKey seq = true
  · rw [if_pos hold, if_pos hold]
  · rw [if_neg hold, if_neg hold]
    dsimp only
    rw [drain?_eq (by omega)]
    by_cases hgap : s.mode = .udp ∧ seq > s.nextReadSeq
    · rw [if_pos hgap, if_pos hgap, sub_eq (by omega)]
      rfl
    · rw [if_neg hgap, if_neg hgap]
      rfl

theorem pushData_count (s : StreamState) (seq : ℕ) (data : Bytes) :
    (s.pushData seq data).1.nextReadSeq +
        (s.pushData seq data).1.readBuffer.len ≤
      s.nextReadSeq + s.readBuffer.len + 1 := by
  have hlen : (s.readBuffer.insert seq data).len ≤ s.readBuffer.len + 1 :=
    OrdMap.len_insert_le
  unfold pushData
  split
  · exact Nat.le_succ _
  · have hcount := drain_count (s.readBuffer.insert seq data).len
      s.nextReadSeq (s.readBuffer.insert seq data) s.readBufBytes
    dsimp only
    omega

theorem pollWrite?_eq {cx : Waker} {buf : Bytes} {now : Instant}
    (h : s.nextWriteSeq + 1 < 2 ^ 64) :
    s.pollWrite? cx buf now = some (s.pollWrite cx buf now) := by
  unfold pollWrite? pollWrite
  by_cases hfull : s.writeQueue.len ≥ 1024
  · rw [if_pos hfull, if_pos hfull]
  · rw [if_neg hfull, if_neg hfull]
    dsimp only
    rw [add_eq h]
    rfl

end

/-! ## Runs -/

/-- What happens to the state of a stream; the numbers are a peer's, and any
64-bit words. -/
inductive StreamOp where
  | pushData (seq : UInt64) (data : Bytes)
  | buildAck
  | handleAck (ack ackBits : UInt64)
  | handleNack (start stop : UInt64)
  | pollWrite (cx : Waker) (buf : Bytes) (now : Instant)
  | getRetransmissions (now : Instant)
  /-- `sent_at` of a chunk that a Sack or a Nack asks for. -/
  | resent (seq : ℕ) (now : Instant)
  /-- `poll_read` takes bytes, -/
  | read (n : ℕ)
  /-- or parks the reader. -/
  | parkReader (cx : Waker)
  | takeReader
  | takeWriter
  | establish
  | setMode (mode : StreamMode)
deriving DecidableEq

/-- The model's step. -/
def act (s : StreamState) : StreamOp → StreamState
  | .pushData seq data => (s.pushData seq.toNat data).1
  | .buildAck => s
  | .handleAck ack bits => (s.handleAck ack.toNat bits.toNat).1
  | .handleNack start stop => (s.handleNack start.toNat stop.toNat).1
  | .pollWrite cx buf now => s.pollWrite cx buf now
  | .getRetransmissions now => (s.getRetransmissions now).1
  | .resent seq now =>
      { s with
        writeQueue := s.writeQueue.modify seq
          (fun q => { q with sentAt := now }) }
  | .read n => { s with readBufBytes := s.readBufBytes.drop n }
  | .parkReader cx => { s with readWaker := some cx }
  | .takeReader => { s with readWaker := none }
  | .takeWriter => { s with writeWaker := none }
  | .establish => { s with established := true }
  | .setMode mode => { s with mode := mode }

/-! ### Whatever happens at an endpoint is such steps -/

/-- `t` comes of `s` by such steps. -/
def Becomes (s t : StreamState) : Prop :=
  ∃ ops : List StreamOp, t = ops.foldl act s

theorem becomes_refl (s : StreamState) : s.Becomes s := ⟨[], rfl⟩

theorem becomes_act (s : StreamState) (op : StreamOp) : s.Becomes (s.act op) :=
  ⟨[op], rfl⟩

theorem Becomes.trans {s t u : StreamState} (h : s.Becomes t)
    (h' : t.Becomes u) : s.Becomes u := by
  obtain ⟨ops, rfl⟩ := h
  obtain ⟨ops', rfl⟩ := h'
  exact ⟨ops ++ ops', List.foldl_append.symm⟩

theorem becomes_unparked (s : StreamState) : s.Becomes s.unparked :=
  (becomes_act s .takeReader).trans (becomes_act _ .takeWriter)

theorem becomes_resend (now : Instant) (s : StreamState) (l : List ℕ) :
    s.Becomes (UdpStreamInner.resend now s l).1 := by
  induction l generalizing s with
  | nil => exact becomes_refl s
  | cons seq rest ih =>
      unfold UdpStreamInner.resend
      cases s.writeQueue.get? seq with
      | none => exact ih s
      | some p => exact (becomes_act s (.resent seq now)).trans (ih _)

theorem becomes_afterAck (now : Instant)
    (r : StreamState × List ℕ × List Waker) :
    r.1.Becomes (UdpStreamInner.afterAck now r).1 := by
  have hresend := becomes_resend now r.1 r.2.1
  unfold UdpStreamInner.afterAck
  dsimp only
  split
  · exact hresend.trans (becomes_act _ .takeWriter)
  · exact hresend

theorem becomes_dispatch {s : StreamState} {pkt : IncomingPacket}
    {now : Instant} (hfit : pkt.header.Fits) :
    s.Becomes (UdpStreamInner.dispatch s pkt now).1 := by
  have hseq := UInt64.toNat_ofNat_of_lt' hfit.seq
  have hack := UInt64.toNat_ofNat_of_lt' hfit.ack
  have hbits := UInt64.toNat_ofNat_of_lt' hfit.ackBits
  unfold UdpStreamInner.dispatch
  cases pkt.header.packetKind with
  | stream =>
      have hpush := becomes_act s
        (.pushData (UInt64.ofNat pkt.header.seq) pkt.payload)
      simp only [act, hseq] at hpush
      exact hpush.trans (becomes_act _ .takeReader)
  | sack =>
      have hacked := becomes_act s
        (.handleAck (UInt64.ofNat pkt.header.ack)
          (UInt64.ofNat pkt.header.ackBits))
      simp only [act, hack, hbits] at hacked
      exact hacked.trans (becomes_afterAck now _)
  | nack =>
      have hnack := becomes_act s
        (.handleNack (UInt64.ofNat pkt.header.seq)
          (UInt64.ofNat pkt.header.ack))
      simp only [act, hseq, hack] at hnack
      exact hnack.trans (becomes_afterAck now _)
  | streamOpen => exact becomes_act s .establish
  | streamOpenAck => exact becomes_act s .establish
  | streamClose => exact becomes_unparked s
  | _ => exact becomes_refl s

/-- Whatever an operation does to the state of its stream, it does by such
steps; a packet's numbers are words, as `decode` makes them. -/
theorem becomes_of_effect {sid : UInt32} {v v' : View} {op : Op} {out : Output}
    (h : Effect sid v op v' out)
    (hfit : ∀ pkt now, op = .incoming pkt now → pkt.header.Fits) :
    v.st.Becomes v'.st := by
  cases h with
  | wrote hopen hroom hch =>
      rename_i cx buf now ch'
      have hwrite := becomes_act v.st (.pollWrite cx buf now)
      simp only [act, pollWrite] at hwrite
      rw [if_neg (by omega), Nat.min_comm, ← List.take_eq_take_min] at hwrite
      exact hwrite
  | writeParked hopen hfull =>
      rename_i cx buf now
      have hwrite := becomes_act v.st (.pollWrite cx buf now)
      simp only [act, pollWrite] at hwrite
      rw [if_pos hfull] at hwrite
      exact hwrite
  | read n => exact becomes_act v.st (.read n)
  | readParked hopen hempty => exact becomes_act v.st (.parkReader _)
  | nackMode => exact becomes_act v.st (.setMode .udp)
  | incoming hopen hrun => exact becomes_dispatch (hfit _ _ rfl)
  | ticked pings hopen hpings halive =>
      exact becomes_act v.st (.getRetransmissions _)
  | tickTimedOut hopen hdead =>
      exact (becomes_act v.st (.getRetransmissions _)).trans
        (becomes_unparked _)
  | tickEnded hcause => exact becomes_unparked v.st
  | failed => exact becomes_unparked v.st
  | ended hrun => exact becomes_unparked v.st
  | _ => exact becomes_refl v.st

/-! ### In 64 bits -/

/-- The step in 64 bits: there is none if it would overflow. -/
def act? (s : StreamState) : StreamOp → Option StreamState
  | .pushData seq data => (s.pushData? seq.toNat data).map Prod.fst
  | .buildAck => s.buildAck?.map (fun _ => s)
  | .handleAck ack bits => (s.handleAck? ack.toNat bits.toNat).map Prod.fst
  | .handleNack start stop =>
      (s.handleNack? start.toNat stop.toNat).map Prod.fst
  | .pollWrite cx buf now => s.pollWrite? cx buf now
  | op => some (s.act op)

/-- The counters after `n` steps. -/
structure Counted (n : ℕ) (s : StreamState) : Prop where
  read : s.nextReadSeq + s.readBuffer.len ≤ n + 1
  write : s.nextWriteSeq ≤ n + 1
  /-- What is queued has been numbered. -/
  queued : ∀ x ∈ s.writeQueue.entries, x.1 < s.nextWriteSeq

theorem counted_new (mode : StreamMode) : Counted 0 (new mode) where
  read := Nat.le_refl _
  write := Nat.le_refl _
  queued := fun _ hx => absurd hx List.not_mem_nil

theorem act?_eq {n : ℕ} {s : StreamState} (hs : s.Counted n)
    (hn : n < 2 ^ 64 - 64) (op : StreamOp) : s.act? op = some (s.act op) := by
  obtain ⟨hread, hwrite, hqueued⟩ := hs
  cases op with
  | pushData seq data =>
      simp only [act?, act]
      rw [pushData?_eq (by omega)]
      rfl
  | buildAck =>
      simp only [act?, act]
      rw [buildAck?_eq (by omega)]
      rfl
  | handleAck ack bits =>
      simp only [act?, act]
      rw [handleAck?_eq (fun x hx => by have := hqueued x hx; omega)]
      rfl
  | handleNack start stop =>
      simp only [act?, act]
      rw [handleNack?_eq stop.toNat_lt]
      rfl
  | pollWrite cx buf now => exact pollWrite?_eq (by omega)
  | _ => rfl

/-- What a step that leaves the counters alone has to show. -/
theorem Counted.of_queue {n : ℕ} {s t : StreamState} (hs : s.Counted n)
    (hread : t.nextReadSeq = s.nextReadSeq)
    (hbuf : t.readBuffer = s.readBuffer)
    (hwrite : t.nextWriteSeq = s.nextWriteSeq)
    (hqueue : ∀ x ∈ t.writeQueue.entries,
      ∃ p, (x.1, p) ∈ s.writeQueue.entries) :
    t.Counted (n + 1) := by
  refine ⟨?_, ?_, ?_⟩
  · rw [hread, hbuf]
    exact Nat.le_succ_of_le hs.read
  · rw [hwrite]
    exact Nat.le_succ_of_le hs.write
  · intro x hx
    obtain ⟨p, hp⟩ := hqueue x hx
    rw [hwrite]
    exact hs.queued (x.1, p) hp

theorem Counted.act {n : ℕ} {s : StreamState} (hs : s.Counted n)
    (op : StreamOp) : (s.act op).Counted (n + 1) := by
  -- most steps leave the queue as it is
  have hsame : ∀ x ∈ s.writeQueue.entries,
      ∃ p, (x.1, p) ∈ s.writeQueue.entries := fun x hx => ⟨x.2, hx⟩
  cases op with
  | pushData seq data =>
      obtain ⟨-, hwrite, hqueue, -⟩ := s.pushData_frame seq.toNat data
      refine ⟨?_, ?_, ?_⟩
      · have hcount := s.pushData_count seq.toNat data
        have hread := hs.read
        simp only [StreamState.act]
        omega
      · simp only [StreamState.act]
        rw [hwrite]
        exact Nat.le_succ_of_le hs.write
      · simp only [StreamState.act]
        rw [hwrite, hqueue]
        exact hs.queued
  | handleAck ack bits =>
      obtain ⟨ww, hack⟩ :=
        UdpStreamInner.handleAck_frame s ack.toNat bits.toNat
      simp only [StreamState.act]
      rw [hack]
      exact hs.of_queue rfl rfl rfl
        (fun x hx => ⟨x.2, (OrdMap.mem_retain.mp hx).1⟩)
  | handleNack start stop =>
      obtain ⟨ww, hnack⟩ :=
        UdpStreamInner.handleNack_frame s start.toNat stop.toNat
      simp only [StreamState.act]
      rw [hnack]
      exact hs.of_queue rfl rfl rfl hsame
  | pollWrite cx buf now =>
      simp only [StreamState.act, pollWrite]
      split
      · exact hs.of_queue rfl rfl rfl hsame
      · refine ⟨Nat.le_succ_of_le hs.read, Nat.succ_le_succ hs.write, ?_⟩
        intro x hx
        dsimp only at hx ⊢
        rcases OrdMap.mem_insert.mp hx with rfl | ⟨hold, -⟩
        · exact Nat.lt_succ_self _
        · exact Nat.lt_succ_of_lt (hs.queued x hold)
  | getRetransmissions now =>
      obtain ⟨wq, hframe⟩ := s.getRetransmissions_frame now
      have hqueue : ∀ x ∈ wq.entries,
          ∃ p, (x.1, p) ∈ s.writeQueue.entries := by
        intro x hx
        have hmem : (x.1, x.2) ∈
            (s.getRetransmissions now).1.writeQueue.entries := by
          rw [hframe]
          exact hx
        obtain ⟨p, hp, -⟩ := mem_getRetransmissions hmem
        exact ⟨p, hp⟩
      simp only [StreamState.act]
      rw [hframe]
      exact hs.of_queue rfl rfl rfl hqueue
  | resent seq now =>
      apply hs.of_queue (t := s.act (.resent seq now)) rfl rfl rfl
      intro x hx
      obtain ⟨p, hp, -⟩ := UdpStreamInner.mem_stamp hx
      exact ⟨p, hp⟩
  | buildAck => exact hs.of_queue rfl rfl rfl hsame
  | read n' => exact hs.of_queue (t := s.act (.read n')) rfl rfl rfl hsame
  | parkReader cx =>
      exact hs.of_queue (t := s.act (.parkReader cx)) rfl rfl rfl hsame
  | takeReader => exact hs.of_queue (t := s.act .takeReader) rfl rfl rfl hsame
  | takeWriter => exact hs.of_queue (t := s.act .takeWriter) rfl rfl rfl hsame
  | establish => exact hs.of_queue (t := s.act .establish) rfl rfl rfl hsame
  | setMode mode =>
      exact hs.of_queue (t := s.act (.setMode mode)) rfl rfl rfl hsame

/-- No step takes a counter back. -/
theorem counters_le_act (s : StreamState) (op : StreamOp) :
    s.nextReadSeq ≤ (s.act op).nextReadSeq ∧
      s.nextWriteSeq ≤ (s.act op).nextWriteSeq := by
  cases op with
  | pushData seq data =>
      refine ⟨s.pushData_next_le seq.toNat data, ?_⟩
      exact (s.pushData_frame seq.toNat data).2.1.ge
  | handleAck ack bits =>
      obtain ⟨ww, hack⟩ :=
        UdpStreamInner.handleAck_frame s ack.toNat bits.toNat
      simp only [act]
      rw [hack]
      exact ⟨Nat.le_refl _, Nat.le_refl _⟩
  | handleNack start stop =>
      obtain ⟨ww, hnack⟩ :=
        UdpStreamInner.handleNack_frame s start.toNat stop.toNat
      simp only [act]
      rw [hnack]
      exact ⟨Nat.le_refl _, Nat.le_refl _⟩
  | pollWrite cx buf now =>
      simp only [act, pollWrite]
      split
      · exact ⟨Nat.le_refl _, Nat.le_refl _⟩
      · exact ⟨Nat.le_refl _, Nat.le_succ _⟩
  | getRetransmissions now =>
      obtain ⟨wq, hframe⟩ := s.getRetransmissions_frame now
      simp only [act]
      rw [hframe]
      exact ⟨Nat.le_refl _, Nat.le_refl _⟩
  | _ => exact ⟨Nat.le_refl _, Nat.le_refl _⟩

theorem counters_le_foldl (s : StreamState) (ops : List StreamOp) :
    s.nextReadSeq ≤ (ops.foldl act s).nextReadSeq ∧
      s.nextWriteSeq ≤ (ops.foldl act s).nextWriteSeq := by
  induction ops generalizing s with
  | nil => exact ⟨Nat.le_refl _, Nat.le_refl _⟩
  | cons op ops ih =>
      obtain ⟨hread, hwrite⟩ := counters_le_act s op
      obtain ⟨hread', hwrite'⟩ := ih (s.act op)
      exact ⟨hread.trans hread', hwrite.trans hwrite'⟩

/-- **Sequence arithmetic never overflows** in fewer than `2 ^ 64 - 64` steps,
whatever the peer sends: the run in 64 bits is the model's, and its counters
never decrease. -/
theorem run_act? (mode : StreamMode) (ops : List StreamOp)
    (hlen : ops.length < 2 ^ 64 - 64) :
    Run act? (new mode) ops (ops.foldl act (new mode)) ∧
    ∀ before after, ops = before ++ after →
      (before.foldl act (new mode)).nextReadSeq ≤
        (ops.foldl act (new mode)).nextReadSeq ∧
      (before.foldl act (new mode)).nextWriteSeq ≤
        (ops.foldl act (new mode)).nextWriteSeq := by
  constructor
  · apply run_foldl (I := Counted) (n := 0) (N := 2 ^ 64 - 64) _ (by omega)
      (counted_new mode)
    intro n s op hn hs
    exact ⟨act?_eq hs hn op, hs.act op⟩
  · rintro before after rfl
    rw [List.foldl_append]
    exact counters_le_foldl _ after

/-- A peer that acknowledges everything, asks for everything and sends the
last number there is. -/
def extremes : List StreamOp :=
  [.pollWrite 0 [1] 0, .handleAck (2 ^ 64 - 1) (2 ^ 64 - 1),
    .pollWrite 0 [2] 0, .handleNack (2 ^ 64 - 2) (2 ^ 64 - 1),
    .pushData (2 ^ 64 - 1) [0], .buildAck, .pushData 0 [0], .pushData 1 [0],
    .handleAck 0 (2 ^ 64 - 1), .buildAck]

theorem run_act?_extremes : extremes.length < 2 ^ 64 - 64 ∧
    Run act? (new .udp) extremes (extremes.foldl act (new .udp)) :=
  ⟨by decide, (run_act? .udp extremes (by decide)).1⟩

end StreamState

end Rathole
