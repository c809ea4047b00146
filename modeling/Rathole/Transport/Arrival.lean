import Rathole.Lib.Runs
import Rathole.Transport.UdpStream
import Mathlib.Data.Finset.Basic

/-!
# The order of arrival

A receiver is determined by what it has received: the next number is the least
one missing, and the buffer and the bytes are the contents of the rest. So two
arrivals of the same packets, in any order and with any repetition, leave it
the same.

The range a NACK asks for is read off the newest packet alone. With a packet
buffered below it the range has an end that is not missing.
-/

namespace Rathole

namespace StreamState

/-- Push packets as they arrive. -/
def arrive (s : StreamState) (l : List (ℕ × Bytes)) : StreamState :=
  l.foldl (fun s p => (s.pushData p.1 p.2).1) s

theorem arrive_snoc (s : StreamState) (l : List (ℕ × Bytes))
    (p : ℕ × Bytes) :
    s.arrive (l ++ [p]) = ((s.arrive l).pushData p.1 p.2).1 := by
  unfold arrive
  rw [List.foldl_append]
  rfl

/-! ## A receiver is what it has received -/

/-- The next number is the least one missing. -/
theorem Drained.not_received_next {s : StreamState} (hs : s.Drained) :
    ¬ s.Received s.nextReadSeq := by
  rintro (hlt | ⟨d, hd⟩)
  · exact Nat.lt_irrefl _ hlt
  · exact Nat.lt_irrefl _ (hs _ hd)

theorem nextReadSeq_le_of_received {s t : StreamState} (ht : t.Drained)
    (h : ∀ i, s.Received i → t.Received i) : s.nextReadSeq ≤ t.nextReadSeq := by
  by_contra hlt
  exact ht.not_received_next (h _ (Or.inl (by omega)))

/-- `t` is what `s` becomes when the numbers in `keys` arrive, where `c` says
what each position of the stream holds. -/
structure Took (s : StreamState) (c : ℕ → Bytes) (keys : List ℕ)
    (t : StreamState) : Prop where
  drained : t.Drained
  received : ∀ i, t.Received i ↔ s.Received i ∨ i ∈ keys
  buffered : ∀ x ∈ t.readBuffer.entries, x.2 = c x.1
  le : s.nextReadSeq ≤ t.nextReadSeq
  bytes : t.readBufBytes = s.readBufBytes ++
    ((List.range' s.nextReadSeq (t.nextReadSeq - s.nextReadSeq)).map c).flatten

/-- **Step lemma**: one packet whose content `c` knows. -/
theorem Took.pushData {s t : StreamState} {c : ℕ → Bytes} {keys : List ℕ}
    (h : Took s c keys t) {seq : ℕ} {data : Bytes}
    (hc : ¬ s.Received seq → data = c seq) :
    Took s c (keys ++ [seq]) (t.pushData seq data).1 := by
  have hreceived : ∀ i, (t.pushData seq data).1.Received i ↔
      s.Received i ∨ i ∈ keys ++ [seq] := by
    intro i
    rw [pushData_received, h.received, List.mem_append, List.mem_singleton,
      or_assoc]
  refine ⟨pushData_drained h.drained, hreceived, ?_, ?_, ?_⟩
  all_goals by_cases hrec : t.Received seq
  · rw [pushData_stale hrec]
    exact h.buffered
  · rw [pushData_fresh hrec]
    intro x hx
    rcases OrdMap.mem_insert.mp ((mem_drain _ _ _ _).mp hx).1 with rfl | ⟨hx', -⟩
    · exact hc (fun hr => hrec ((h.received seq).mpr (Or.inl hr)))
    · exact h.buffered x hx'
  · rw [pushData_stale hrec]
    exact h.le
  · exact Nat.le_trans h.le (pushData_next_le t seq data)
  · rw [pushData_stale hrec]
    exact h.bytes
  · have hdata : data = c seq :=
      hc (fun hr => hrec ((h.received seq).mpr (Or.inl hr)))
    have hle := h.le
    rw [pushData_fresh hrec]
    dsimp only
    have hdrain := drain_bytes c (t.readBuffer.insert seq data).len
      t.nextReadSeq (t.readBuffer.insert seq data) t.readBufBytes (by
        intro x hx
        rcases OrdMap.mem_insert.mp hx with rfl | ⟨hx', -⟩
        · exact hdata
        · exact h.buffered x hx')
    have hnext := drain_next_le (t.readBuffer.insert seq data).len
      t.nextReadSeq (t.readBuffer.insert seq data) t.readBufBytes
    generalize drain (t.readBuffer.insert seq data).len t.nextReadSeq
      (t.readBuffer.insert seq data) t.readBufBytes = r at hdrain hnext ⊢
    -- the range up to the old counter, then the range just drained
    rw [hdrain, h.bytes, List.append_assoc, ← List.flatten_append,
      ← List.map_append, show r.1 - s.nextReadSeq =
        (t.nextReadSeq - s.nextReadSeq) + (r.1 - t.nextReadSeq) by omega,
      List.range'_append.symm,
      show s.nextReadSeq + 1 * (t.nextReadSeq - s.nextReadSeq) = t.nextReadSeq
        by omega]

/-- **Run lemma**: any sequence of arrivals. -/
theorem took_arrive {s : StreamState} {c : ℕ → Bytes} (hs : s.Drained)
    (hbuf : ∀ x ∈ s.readBuffer.entries, x.2 = c x.1)
    (l : List (ℕ × Bytes)) (hl : ∀ x ∈ l, ¬ s.Received x.1 → x.2 = c x.1) :
    Took s c (l.map Prod.fst) (s.arrive l) := by
  induction l using List.reverseRecOn with
  | nil =>
      refine ⟨hs, ?_, hbuf, Nat.le_refl _, ?_⟩
      · simp [arrive]
      · simp [arrive]
  | append_singleton l p ih =>
      have ih := ih (fun x hx => hl x (List.mem_append_left _ hx))
      rw [arrive_snoc, List.map_append]
      exact ih.pushData (hl p (List.mem_append_right _ List.mem_cons_self))

/-- Two ends of arrivals with the same numbers agree on the reading half. -/
theorem Took.unique {s t t' : StreamState} {c : ℕ → Bytes}
    {keys keys' : List ℕ} (h : Took s c keys t) (h' : Took s c keys' t')
    (hkeys : ∀ i, i ∈ keys ↔ i ∈ keys') :
    t.nextReadSeq = t'.nextReadSeq ∧ t.readBuffer = t'.readBuffer ∧
      t.readBufBytes = t'.readBufBytes := by
  have hrec : ∀ i, t.Received i ↔ t'.Received i := by
    intro i
    rw [h.received, h'.received, hkeys]
  have hnext : t.nextReadSeq = t'.nextReadSeq := by
    apply Nat.le_antisymm
    · exact nextReadSeq_le_of_received h'.drained (fun i => (hrec i).mp)
    · exact nextReadSeq_le_of_received h.drained (fun i => (hrec i).mpr)
  refine ⟨hnext, ?_, by rw [h.bytes, h'.bytes, hnext]⟩
  -- what is buffered is what is received beyond the counter
  have hmem : ∀ {u u' : StreamState} {ks ks' : List ℕ}, Took s c ks u →
      Took s c ks' u' → u.nextReadSeq = u'.nextReadSeq →
      (∀ i, u.Received i → u'.Received i) →
      ∀ x ∈ u.readBuffer.entries, x ∈ u'.readBuffer.entries := by
    intro u u' ks ks' hu hu' hn hr x hx
    have hlt := hu.drained x hx
    rcases hr x.1 (Or.inr ⟨x.2, hx⟩) with hlt' | ⟨d, hd⟩
    · omega
    · have hd' : d = x.2 := (hu'.buffered _ hd).trans (hu.buffered x hx).symm
      rw [hd'] at hd
      exact hd
  apply OrdMap.ext_mem
  intro x
  constructor
  · exact hmem h h' hnext (fun i => (hrec i).mp) x
  · exact hmem h' h hnext.symm (fun i => (hrec i).mpr) x

/-! ## The longest gap-free run -/

/-- `run` is the longest gap-free run from the next expected number among
the chunks buffered in `s` and those of `packets`; where both have a number,
the buffered one counts. -/
structure GapFreeRun (s : StreamState) (packets : Finset (ℕ × Bytes))
    (run : List (ℕ × Bytes)) : Prop where
  consecutive : run.map Prod.fst = List.range' s.nextReadSeq run.length
  held : ∀ x ∈ run, x ∈ s.readBuffer.entries ∨
    (x ∈ packets ∧ ∀ d, (x.1, d) ∉ s.readBuffer.entries)
  longest : ∀ d, (s.nextReadSeq + run.length, d) ∉ s.readBuffer.entries ∧
    (s.nextReadSeq + run.length, d) ∉ packets

/-- What each position of the stream holds once `l` has arrived at `s`. -/
def content (s : StreamState) (l : List (ℕ × Bytes)) (i : ℕ) : Bytes :=
  match s.readBuffer.get? i with
  | some d => d
  | none => (l.lookup i).getD []

theorem content_of_buffered {s : StreamState} {l : List (ℕ × Bytes)}
    {x : ℕ × Bytes} (hx : x ∈ s.readBuffer.entries) :
    x.2 = s.content l x.1 := by
  unfold content
  rw [OrdMap.get?_eq_some.mpr hx]

theorem content_of_arrived {s : StreamState} {l : List (ℕ × Bytes)}
    (hl : ∀ x ∈ l, ∀ y ∈ l, x.1 = y.1 → x = y) {x : ℕ × Bytes} (hx : x ∈ l)
    (hnew : ¬ s.Received x.1) : x.2 = s.content l x.1 := by
  have hnone : s.readBuffer.get? x.1 = none :=
    OrdMap.get?_eq_none.mpr (fun d hd => hnew (Or.inr ⟨d, hd⟩))
  have hlookup : l.lookup x.1 = some x.2 := by
    cases hlk : l.lookup x.1 with
    | none =>
        have := List.lookup_eq_none_iff.mp hlk x hx
        simp at this
    | some d =>
        have hmem : (x.1, d) ∈ l := by
          obtain ⟨l₁, l₂, heq, -⟩ := List.lookup_eq_some_iff.mp hlk
          rw [heq]
          exact List.mem_append_right _ List.mem_cons_self
        rw [hl x hx _ hmem rfl]
  unfold content
  rw [hnone, hlookup]
  rfl

/-- What arrived is the longest gap-free run, moved to the byte stream. -/
theorem Took.gapFreeRun {s t : StreamState} {packets : Finset (ℕ × Bytes)}
    {c : ℕ → Bytes} {l : List (ℕ × Bytes)} (h : Took s c (l.map Prod.fst) t)
    (hl : ∀ x, x ∈ l ↔ x ∈ packets)
    (hbuf : ∀ x ∈ s.readBuffer.entries, x.2 = c x.1)
    (hnew : ∀ x ∈ l, ¬ s.Received x.1 → x.2 = c x.1) :
    ∃ run, GapFreeRun s packets run ∧
      t.nextReadSeq = s.nextReadSeq + run.length ∧
      t.readBufBytes = s.readBufBytes ++ (run.map Prod.snd).flatten := by
  have hle := h.le
  let run := (List.range' s.nextReadSeq (t.nextReadSeq - s.nextReadSeq)).map
    (fun i => (i, c i))
  have hlen : run.length = t.nextReadSeq - s.nextReadSeq := by
    simp [run]
  have hnext : t.nextReadSeq = s.nextReadSeq + run.length := by omega
  refine ⟨run, ⟨?_, ?_, ?_⟩, hnext, ?_⟩
  · rw [hlen, List.map_map]
    exact List.map_id _
  · intro x hx
    obtain ⟨i, hi, rfl⟩ := List.mem_map.mp hx
    obtain ⟨hge, hlt⟩ := List.mem_range'_1.mp hi
    by_cases hrec : s.Received i
    · rcases hrec with hlt' | ⟨d, hd⟩
      · omega
      · have hd' : d = c i := hbuf _ hd
        subst hd'
        exact Or.inl hd
    · -- not buffered at the start, so it came with the packets
      rcases (h.received i).mp (Or.inl (by omega)) with hr | hkey
      · exact absurd hr hrec
      · obtain ⟨y, hy, rfl⟩ := List.mem_map.mp hkey
        have hy' : (y.1, c y.1) = y := by rw [← hnew y hy hrec]
        refine Or.inr ⟨?_, fun d hd => hrec (Or.inr ⟨d, hd⟩)⟩
        rw [hy']
        exact (hl y).mp hy
  · intro d
    have hmissing : ¬ (s.Received t.nextReadSeq ∨
        t.nextReadSeq ∈ l.map Prod.fst) := by
      rw [← h.received]
      exact h.drained.not_received_next
    rw [← hnext]
    refine ⟨fun hd => hmissing (Or.inl (Or.inr ⟨d, hd⟩)), ?_⟩
    intro hd
    exact hmissing (Or.inr (List.mem_map.mpr ⟨_, (hl _).mpr hd, rfl⟩))
  · rw [h.bytes, List.map_map]
    rfl

/-- **Arrival order does not matter.** Two arrivals of the same set of packets
leave the same reading half, no packet changes anything when it arrives again,
and the reader gets the longest gap-free run. With numbers below `2 ^ 64 - 1`
the counter stays in `u64`. -/
theorem arrive_order (s : StreamState) (hs : s.Drained)
    (packets : Finset (ℕ × Bytes))
    (hdist : ∀ x ∈ packets, ∀ y ∈ packets, x.1 = y.1 → x = y)
    (hfit : s.nextReadSeq < 2 ^ 64 ∧
      (∀ x ∈ s.readBuffer.entries, x.1 < 2 ^ 64 - 1) ∧
      ∀ x ∈ packets, x.1 < 2 ^ 64 - 1)
    (as bs : List (ℕ × Bytes)) (has : ∀ x, x ∈ as ↔ x ∈ packets)
    (hbs : ∀ x, x ∈ bs ↔ x ∈ packets) :
    ((s.arrive as).nextReadSeq = (s.arrive bs).nextReadSeq ∧
      (s.arrive as).readBuffer = (s.arrive bs).readBuffer ∧
      (s.arrive as).readBufBytes = (s.arrive bs).readBufBytes) ∧
    (∀ x ∈ packets, (s.arrive as).pushData x.1 x.2 = (s.arrive as, none, [])) ∧
    (∃ run, GapFreeRun s packets run ∧
      (s.arrive as).nextReadSeq = s.nextReadSeq + run.length ∧
      (s.arrive as).readBufBytes =
        s.readBufBytes ++ (run.map Prod.snd).flatten) ∧
    (s.arrive as).nextReadSeq < 2 ^ 64 := by
  have hbuf : ∀ x ∈ s.readBuffer.entries, x.2 = s.content as x.1 :=
    fun x hx => content_of_buffered hx
  have hdist' : ∀ x ∈ as, ∀ y ∈ as, x.1 = y.1 → x = y :=
    fun x hx y hy => hdist x ((has x).mp hx) y ((has y).mp hy)
  have hnew : ∀ x ∈ as, ¬ s.Received x.1 → x.2 = s.content as x.1 :=
    fun x hx => content_of_arrived hdist' hx
  have hsame : ∀ x, x ∈ bs ↔ x ∈ as := fun x => (hbs x).trans (has x).symm
  have htook := took_arrive hs hbuf as hnew
  have htook' := took_arrive hs hbuf bs
    (fun x hx => hnew x ((hsame x).mp hx))
  have hrun := htook.gapFreeRun has hbuf hnew
  refine ⟨?_, ?_, hrun, ?_⟩
  · apply htook.unique htook'
    intro i
    simp only [List.mem_map, hsame]
  · intro x hx
    apply pushData_stale
    apply (htook.received x.1).mpr
    exact Or.inr (List.mem_map.mpr ⟨x, (has x).mpr hx, rfl⟩)
  · obtain ⟨hnext, hbuffered, hpackets⟩ := hfit
    obtain ⟨run, hgap, heq, -⟩ := hrun
    -- the last chunk of the run bounds the counter
    rcases List.eq_nil_or_concat run with rfl | ⟨init, x, rfl⟩
    · rw [heq]
      exact hnext
    · have hx : x ∈ init.concat x := by simp
      have hlast : x.1 = s.nextReadSeq + init.length := by
        have hcons := hgap.consecutive
        rw [List.concat_eq_append, List.map_append, List.length_append,
          List.length_singleton, List.range'_concat, Nat.one_mul] at hcons
        have htail := (List.append_inj' hcons rfl).2
        exact List.head_eq_of_cons_eq htail
      have hlt : x.1 < 2 ^ 64 - 1 := by
        rcases hgap.held x hx with hb | ⟨hp, -⟩
        · exact hbuffered x hb
        · exact hpackets x hp
      rw [heq, List.concat_eq_append, List.length_append,
        List.length_singleton]
      omega

/-- A receiver that has 1 and waits for 2 and 3 with 4 buffered. -/
def holeAtTwo : StreamState :=
  { StreamState.new .tcp with
    nextReadSeq := 2
    readBuffer := OrdMap.empty.insert 4 [4]
    readBufBytes := [1] }

theorem holeAtTwo_drained : holeAtTwo.Drained := by
  unfold Drained
  decide

theorem arrive_order_holeAtTwo :
    (holeAtTwo.arrive [(3, [3]), (2, [2]), (3, [3])]).readBufBytes =
      (holeAtTwo.arrive [(2, [2]), (3, [3])]).readBufBytes := by
  have h := arrive_order holeAtTwo holeAtTwo_drained {(2, [2]), (3, [3])}
    (by decide) ⟨by decide, by decide, by decide⟩
    [(3, [3]), (2, [2]), (3, [3])] [(2, [2]), (3, [3])]
    (by intro x; simp; tauto) (by intro x; simp)
  exact h.1.2.2

end StreamState

/-! ## NACKs -/

section Nacks

open UdpStreamInner

/-- A packet handed to `handle_incoming` at some instant. -/
def arrivalStep (st : StreamState) (a : IncomingPacket × Instant) :
    Option StreamState :=
  some (dispatch st a.1 a.2).1

/-- Every number the answering NACK asks for is missing when the NACK leaves,
and no sender resends anything else on it. -/
def AsksOnlyMissing (st : StreamState) (a : IncomingPacket × Instant) : Prop :=
  a.1.header.packetKind = .stream →
    ∀ start stop, (st.pushData a.1.header.seq a.1.payload).2.1 =
        some (start, stop) →
      (∀ i, start ≤ i → i ≤ stop →
        ¬ (st.pushData a.1.header.seq a.1.payload).1.Received i) ∧
      ∀ sender : StreamState, ∀ i ∈ (sender.handleNack start stop).2.1,
        ¬ (st.pushData a.1.header.seq a.1.payload).1.Received i

/-- A data packet new to the receiver has nothing buffered below it. -/
def NothingBufferedBelow (st : StreamState) (a : IncomingPacket × Instant) :
    Prop :=
  a.1.header.packetKind = .stream → ¬ st.Received a.1.header.seq →
    ∀ x ∈ st.readBuffer.entries, a.1.header.seq < x.1

/-- The NACK a new packet is answered with. -/
theorem pushData_nack {st : StreamState} {seq : ℕ} {data : Bytes}
    {start stop : ℕ} (hmode : st.mode = .udp) :
    (st.pushData seq data).2.1 = some (start, stop) ↔
      ¬ st.Received seq ∧ st.nextReadSeq < seq ∧ start = st.nextReadSeq ∧
        stop = seq - 1 := by
  by_cases hrec : st.Received seq
  · rw [StreamState.pushData_stale hrec]
    constructor
    · intro h
      cases h
    · exact fun h => absurd hrec h.1
  · have hcond : ¬ (seq < st.nextReadSeq ∨
        st.readBuffer.containsKey seq = true) := by
      rintro (hlt | hkey)
      · exact hrec (Or.inl hlt)
      · exact hrec (Or.inr (OrdMap.containsKey_iff.mp hkey))
    unfold StreamState.pushData
    rw [if_neg hcond]
    dsimp only
    split
    · rename_i hgap
      constructor
      · intro h
        cases h
        exact ⟨hrec, hgap.2, rfl, rfl⟩
      · rintro ⟨-, -, rfl, rfl⟩
        rfl
    · rename_i hgap
      constructor
      · intro h
        cases h
      · exact fun h => absurd ⟨hmode, h.2.1⟩ hgap

/-- One arrival at a receiver in NACK mode. -/
theorem asksOnlyMissing_iff {st : StreamState} {a : IncomingPacket × Instant}
    (hmode : st.mode = .udp) (hdr : st.Drained) :
    AsksOnlyMissing st a ↔ NothingBufferedBelow st a := by
  constructor
  · intro h hk hnew x hx
    by_contra hle
    have hlt := hdr x hx
    have hnext : st.nextReadSeq < a.1.header.seq := by omega
    have hne : x.1 ≠ a.1.header.seq := by
      intro heq
      exact hnew (Or.inr ⟨x.2, heq ▸ hx⟩)
    -- the buffered number lies inside the range asked for
    have hnack := (h hk _ _ ((pushData_nack hmode).mpr
      ⟨hnew, hnext, rfl, rfl⟩)).1 x.1 (by omega) (by omega)
    exact hnack (StreamState.pushData_received.mpr
      (Or.inl (Or.inr ⟨x.2, hx⟩)))
  · intro h hk start stop hnack
    obtain ⟨hnew, hnext, rfl, rfl⟩ := (pushData_nack hmode).mp hnack
    have hmissing : ∀ i, st.nextReadSeq ≤ i → i ≤ a.1.header.seq - 1 →
        ¬ (st.pushData a.1.header.seq a.1.payload).1.Received i := by
      intro i hge hle hrec
      rcases StreamState.pushData_received.mp hrec with (hlt | ⟨d, hd⟩) | heq
      · omega
      · have := h hk hnew _ hd
        omega
      · omega
    refine ⟨hmissing, ?_⟩
    intro sender i hi
    unfold StreamState.handleNack at hi
    dsimp only at hi
    split at hi
    · have hrange := List.mem_range'_1.mp (List.mem_filter.mp hi).1
      exact hmissing i hrange.1 (by omega)
    · cases hi

/-- No packet leaves a chunk buffered at or below the counter. -/
theorem dispatch_drained {st : StreamState} {pkt : IncomingPacket}
    {now : Instant} (h : st.Drained) : (dispatch st pkt now).1.Drained := by
  by_cases hk : pkt.header.packetKind = .stream
  · have hpush : (st.pushData pkt.header.seq pkt.payload).1.Drained :=
      StreamState.pushData_drained h
    unfold dispatch
    rw [hk]
    exact hpush
  · obtain ⟨hnext, hbuf, -⟩ := @dispatch_reading now pkt st hk
    unfold StreamState.Drained
    rw [hnext, hbuf]
    exact h

/-- **NACKs ask only for what is missing**, along a whole run of arrivals,
exactly when every new data packet finds nothing buffered below it. -/
theorem nacks_only_missing_iff (st : StreamState) (hmode : st.mode = .udp)
    (hdr : st.Drained) (as : List (IncomingPacket × Instant)) :
    Runs.Meets arrivalStep AsksOnlyMissing st as ↔
      Runs.Meets arrivalStep NothingBufferedBelow st as := by
  apply Runs.meets_congr (I := fun st => st.mode = .udp ∧ st.Drained)
  · rintro st a ⟨hmode, hdr⟩
    exact asksOnlyMissing_iff hmode hdr
  · rintro st a t ⟨hmode, hdr⟩ - hstep
    cases hstep
    exact ⟨(dispatch_frame st a.1 a.2).1.trans hmode, dispatch_drained hdr⟩
  · exact ⟨hmode, hdr⟩

/-- A data packet of stream 7. -/
def dataPacket (seq : ℕ) : IncomingPacket × Instant :=
  (⟨⟨7, .stream, seq, 0, 0⟩, [UInt8.ofNat seq], connectorAddr⟩, 0)

/-- One packet lost and recovered: 3 arrives before 2. -/
theorem nacks_only_missing_swap :
    Runs.Meets arrivalStep AsksOnlyMissing (StreamState.new .udp)
      [dataPacket 1, dataPacket 3, dataPacket 2] := by
  apply (nacks_only_missing_iff (StreamState.new .udp) rfl
    (by unfold StreamState.Drained; decide) _).mpr
  refine ⟨fun _ _ => by decide, fun t ht => ?_⟩
  cases ht
  refine ⟨fun _ _ => by decide, fun t ht => ?_⟩
  cases ht
  refine ⟨fun _ _ => by decide, fun t ht => trivial⟩

/-- With 1, 2 and 4 outstanding, the NACK that 5 causes asks for 3 as well. -/
theorem nack_asks_for_buffered :
    ((StreamState.new .udp).arrive [(3, [3])]).pushData 5 [5] |>.2.1 =
      some (1, 4) ∧
    ¬ Runs.Meets arrivalStep AsksOnlyMissing (StreamState.new .udp)
      [dataPacket 3, dataPacket 5] := by
  refine ⟨by decide, ?_⟩
  rintro ⟨-, h⟩
  obtain ⟨hasks, -⟩ := h _ rfl
  have hmissing := (hasks rfl 1 4 (by decide)).1 3 (by decide) (by decide)
  exact hmissing (StreamState.pushData_received.mpr
    (Or.inl (Or.inr ⟨[3], by decide⟩)))

end Nacks

end Rathole
