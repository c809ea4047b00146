import Rathole.Transport.Connection

/-!
# Stream integrity

What one end returns to its reader is a prefix of what the other end accepted
from its writer, whatever the network and the modes do. The invariant has two
halves. `Sends` ties the sender's queues and every datagram in flight to the
chunks `poll_write` accepted; `Receives` ties the receiver's buffers to the
same list. The halves meet in one place, the arrival of a Stream packet.
-/

namespace Rathole

/-! ## The accepted chunks as a numbered list -/

/-- The bytes of the chunks numbered below `n`, in the order accepted. -/
def bytesBelow (acc : List (ℕ × Bytes)) (n : ℕ) : Bytes :=
  ((acc.filter (fun c => decide (c.1 < n))).map Prod.snd).flatten

/-- The chunks carry the numbers 1, 2, 3, …, in order. -/
def Numbered (acc : List (ℕ × Bytes)) : Prop :=
  acc.map Prod.fst = List.range' 1 acc.length

/-- The chunk numbered `i`. -/
def chunkAt (acc : List (ℕ × Bytes)) (i : ℕ) : Bytes :=
  (acc[i - 1]?.map Prod.snd).getD []

theorem filter_lt_eq_take (n : ℕ) (acc : List (ℕ × Bytes)) (a : ℕ)
    (h : acc.map Prod.fst = List.range' a acc.length) :
    acc.filter (fun c => decide (c.1 < n)) = acc.take (n - a) := by
  induction acc generalizing a with
  | nil => simp
  | cons c rest ih =>
      obtain ⟨i, d⟩ := c
      rw [List.length_cons, List.range'_succ, List.map_cons,
        List.cons.injEq] at h
      obtain ⟨hi, hrest⟩ := h
      have ih := ih (a + 1) hrest
      dsimp only at hi
      subst hi
      by_cases hlt : i < n
      · rw [List.filter_cons_of_pos (by simpa using hlt), ih,
          show n - i = (n - (i + 1)) + 1 by omega, List.take_succ_cons]
      · rw [List.filter_cons_of_neg (by simpa using hlt), ih,
          show n - i = 0 by omega, show n - (i + 1) = 0 by omega]
        rfl

theorem Numbered.bytesBelow_eq {acc : List (ℕ × Bytes)} (h : Numbered acc)
    (n : ℕ) : bytesBelow acc n = ((acc.take (n - 1)).map Prod.snd).flatten := by
  unfold bytesBelow
  rw [filter_lt_eq_take n acc 1 h]

theorem Numbered.mem {acc : List (ℕ × Bytes)} (h : Numbered acc) {i : ℕ}
    {d : Bytes} (hm : (i, d) ∈ acc) :
    1 ≤ i ∧ i ≤ acc.length ∧ chunkAt acc i = d := by
  obtain ⟨j, hj, hget⟩ := List.getElem_of_mem hm
  have hi : i = 1 + j := by
    have hfst : (acc.map Prod.fst)[j]? = some i := by
      rw [List.getElem?_map, List.getElem?_eq_getElem hj, hget]
      rfl
    rw [h, List.getElem?_range' (by omega)] at hfst
    have := Option.some.inj hfst
    omega
  refine ⟨by omega, by omega, ?_⟩
  unfold chunkAt
  rw [show i - 1 = j by omega, List.getElem?_eq_getElem hj, hget]
  rfl

/-- The list goes on being numbered when the next number is appended. -/
theorem Numbered.snoc {acc : List (ℕ × Bytes)} (h : Numbered acc) {n : ℕ}
    (hn : n = acc.length + 1) (d : Bytes) : Numbered (acc ++ [(n, d)]) := by
  unfold Numbered at *
  rw [List.map_append, h, List.length_append, List.length_singleton,
    List.range'_concat, hn]
  simp [Nat.add_comm]

/-- Bytes below `n` are those below `m` and the chunks from `m` on. -/
theorem Numbered.bytesBelow_split {acc : List (ℕ × Bytes)} (h : Numbered acc)
    {m : ℕ} (hm : 1 ≤ m) (k : ℕ) (hk : m + k ≤ acc.length + 1) :
    bytesBelow acc (m + k) = bytesBelow acc m ++
      ((List.range' m k).map (chunkAt acc)).flatten := by
  induction k with
  | zero => simp
  | succ k ih =>
      have ih := ih (by omega)
      rw [List.range'_concat, List.map_append, List.flatten_append,
        ← List.append_assoc, ← ih, h.bytesBelow_eq, h.bytesBelow_eq,
        show m + (k + 1) - 1 = (m + k - 1) + 1 by omega, List.take_add_one,
        List.map_append, List.flatten_append]
      congr 1
      have hlt : m + k - 1 < acc.length := by omega
      simp [chunkAt, List.getElem?_eq_getElem hlt]

theorem bytesBelow_snoc {acc : List (ℕ × Bytes)} {n k : ℕ} (d : Bytes)
    (hk : k ≤ n) : bytesBelow (acc ++ [(n, d)]) k = bytesBelow acc k := by
  unfold bytesBelow
  rw [List.filter_append, List.filter_cons_of_neg (by simpa using hk)]
  simp

/-! ## The sending half -/

structure Sends (v : View) (net : List Datagram) : Prop where
  numbered : Numbered v.accepted
  next : v.st.nextWriteSeq = v.accepted.length + 1
  queued : ∀ x ∈ v.st.writeQueue.entries, (x.1, x.2.data) ∈ v.accepted
  offered : ∀ x ∈ v.writeCh, x.1 ≠ 0 → x ∈ v.accepted
  inFlight : ∀ d ∈ net, d.header.packetKind = .stream →
    (d.header.seq, d.payload) ∈ v.accepted

/-- **Step lemma for the sender.** -/
theorem Sends.effect {sid : UInt32} {v v' : View} {op : Op} {out : Output}
    {net : List Datagram} (h : Sends v net) (heff : Effect sid v op v' out) :
    Sends v' (net ++ out.sent) := by
  have hold : ∀ x ∈ v.accepted, x ∈ v'.accepted := by
    intro x hx
    rcases heff.accepted with ⟨hacc, -⟩ | ⟨d, hacc, -⟩
    · rw [hacc]
      exact hx
    · rw [hacc]
      exact List.mem_append_left _ hx
  refine ⟨?_, ?_, ?_, ?_, ?_⟩
  · rcases heff.accepted with ⟨hacc, -⟩ | ⟨d, hacc, -⟩
    · rw [hacc]
      exact h.numbered
    · rw [hacc]
      exact h.numbered.snoc h.next d
  · rcases heff.accepted with ⟨hacc, hnext⟩ | ⟨d, hacc, hnext⟩
    · rw [hacc, hnext, h.next]
    · rw [hacc, hnext, h.next, List.length_append, List.length_singleton]
  · intro x hx
    rcases heff.queued hx with ⟨p, hp, hpd⟩ | ⟨-, hacc⟩
    · rw [← hpd]
      exact hold _ (h.queued _ hp)
    · rw [hacc]
      exact List.mem_append_right _ (List.mem_singleton.mpr rfl)
  · intro x hx h0
    rcases heff.offered hx with hx' | hzero | ⟨-, hacc⟩
    · exact hold _ (h.offered x hx' h0)
    · exact absurd hzero h0
    · rw [hacc]
      exact List.mem_append_right _ (List.mem_singleton.mpr rfl)
  · intro d hd hk
    rcases List.mem_append.mp hd with hd' | hd'
    · exact hold _ (h.inFlight d hd' hk)
    · rcases heff.chunk_sent hd' hk with ⟨p, hp, hpd⟩ | ⟨hch, h0⟩
      · rw [← hpd]
        exact hold _ (h.queued _ hp)
      · exact hold _ (h.offered _ hch h0)

theorem Sends.sub {v : View} {net net' : List Datagram} (h : Sends v net)
    (hsub : ∀ d ∈ net', d.header.packetKind = .stream → d ∈ net) :
    Sends v net' where
  numbered := h.numbered
  next := h.next
  queued := h.queued
  offered := h.offered
  inFlight := fun d hd hk => h.inFlight d (hsub d hd hk) hk

/-! ## The receiving half -/

structure Receives (acc : List (ℕ × Bytes)) (v : View) : Prop where
  pos : 1 ≤ v.st.nextReadSeq
  bound : v.st.nextReadSeq ≤ acc.length + 1
  drained : v.st.Drained
  buffered : ∀ x ∈ v.st.readBuffer.entries, x ∈ acc
  bytes : v.returned ++ v.st.readBufBytes = bytesBelow acc v.st.nextReadSeq

/-- The reading half is all `Receives` looks at. -/
theorem Receives.congr {acc : List (ℕ × Bytes)} {v v' : View}
    (h : Receives acc v) (hnext : v'.st.nextReadSeq = v.st.nextReadSeq)
    (hbuf : v'.st.readBuffer = v.st.readBuffer)
    (hbytes : v'.st.readBufBytes = v.st.readBufBytes)
    (hret : v'.returned = v.returned) : Receives acc v' where
  pos := hnext ▸ h.pos
  bound := hnext ▸ h.bound
  drained := by
    unfold StreamState.Drained
    rw [hnext, hbuf]
    exact h.drained
  buffered := by
    rw [hbuf]
    exact h.buffered
  bytes := by
    rw [hnext, hbytes, hret]
    exact h.bytes

/-- A chunk that the writer did accept is taken in correctly; one that has a
number already received is not taken in. -/
theorem Receives.pushData {acc : List (ℕ × Bytes)} {v : View} {seq : ℕ}
    {data : Bytes} (h : Receives acc v) (hnum : Numbered acc)
    (hmem : ¬ v.st.Received seq → (seq, data) ∈ acc) :
    Receives acc { v with st := (v.st.pushData seq data).1 } := by
  by_cases hrec : v.st.Received seq
  · rw [StreamState.pushData_stale hrec]
    exact h
  · have hdr : (v.st.pushData seq data).1.Drained :=
      StreamState.pushData_drained h.drained
    rw [StreamState.pushData_fresh hrec] at hdr ⊢
    dsimp only at hdr ⊢
    have hbuf : ∀ x ∈ (v.st.readBuffer.insert seq data).entries, x ∈ acc := by
      intro x hx
      rcases OrdMap.mem_insert.mp hx with rfl | ⟨hx', -⟩
      · exact hmem hrec
      · exact h.buffered x hx'
    have hle := StreamState.drain_next_le (v.st.readBuffer.insert seq data).len
      v.st.nextReadSeq (v.st.readBuffer.insert seq data) v.st.readBufBytes
    have hlast := fun i hge hlt => StreamState.buffered_of_drained (i := i)
      (v.st.readBuffer.insert seq data).len v.st.nextReadSeq
      (v.st.readBuffer.insert seq data) v.st.readBufBytes hge hlt
    have hkept := fun x => StreamState.mem_drain (x := x)
      (v.st.readBuffer.insert seq data).len v.st.nextReadSeq
      (v.st.readBuffer.insert seq data) v.st.readBufBytes
    have hdrain := StreamState.drain_bytes (chunkAt acc)
      (v.st.readBuffer.insert seq data).len v.st.nextReadSeq
      (v.st.readBuffer.insert seq data) v.st.readBufBytes
      (fun x hx => ((hnum.mem (hbuf x hx)).2.2).symm)
    generalize StreamState.drain (v.st.readBuffer.insert seq data).len
      v.st.nextReadSeq (v.st.readBuffer.insert seq data) v.st.readBufBytes = r
      at hdr hle hlast hkept hdrain ⊢
    have hpos := h.pos
    have hold := h.bound
    have hbound : r.1 ≤ acc.length + 1 := by
      by_cases hgt : v.st.nextReadSeq < r.1
      · obtain ⟨d, hd⟩ := hlast (r.1 - 1) (by omega) (by omega)
        have := (hnum.mem (hbuf _ hd)).2.1
        omega
      · omega
    refine ⟨by dsimp only; omega, hbound, hdr,
      fun x hx => hbuf x ((hkept x).mp hx).1, ?_⟩
    have hsplit := hnum.bytesBelow_split hpos (r.1 - v.st.nextReadSeq)
      (by omega)
    rw [show v.st.nextReadSeq + (r.1 - v.st.nextReadSeq) = r.1 by omega]
      at hsplit
    show v.returned ++ r.2.2 = bytesBelow acc r.1
    rw [hdrain, hsplit, ← h.bytes, List.append_assoc]

/-- **Step lemma for the receiver.** -/
theorem Receives.effect {sid : UInt32} {acc : List (ℕ × Bytes)} {v v' : View}
    {op : Op} {out : Output} (h : Receives acc v) (hnum : Numbered acc)
    (heff : Effect sid v op v' out)
    (hpkt : ∀ pkt now, op = .incoming pkt now →
      pkt.header.packetKind = .stream → ¬ v.st.Received pkt.header.seq →
        (pkt.header.seq, pkt.payload) ∈ acc) :
    Receives acc v' := by
  cases heff with
  | read n =>
      refine ⟨h.pos, h.bound, h.drained, h.buffered, ?_⟩
      show v.returned ++ v.st.readBufBytes.take n ++
        v.st.readBufBytes.drop n = _
      rw [List.append_assoc, List.take_append_drop]
      exact h.bytes
  | incoming hopen hrun =>
      rename_i pkt now
      by_cases hk : pkt.header.packetKind = .stream
      · have hpush := h.pushData hnum (hpkt pkt now rfl hk)
        refine hpush.congr ?_ ?_ ?_ rfl
        · simp only [UdpStreamInner.dispatch, hk]
        · simp only [UdpStreamInner.dispatch, hk]
        · simp only [UdpStreamInner.dispatch, hk]
      · obtain ⟨h1, h2, h3⟩ := @UdpStreamInner.dispatch_reading now pkt v.st hk
        exact h.congr h1 h2 h3 rfl
  | ticked pings hopen hpings halive =>
      rename_i now
      obtain ⟨wq, hwq⟩ := StreamState.getRetransmissions_frame v.st now
      refine h.congr ?_ ?_ ?_ rfl <;> rw [hwq]
  | tickTimedOut hopen hdead =>
      rename_i now
      obtain ⟨wq, hwq⟩ := StreamState.getRetransmissions_frame v.st now
      refine h.congr ?_ ?_ ?_ rfl <;> rw [hwq] <;> rfl
  | _ => exact h.congr rfl rfl rfl rfl

/-- The receiver does not notice that the writer accepts one more chunk. -/
theorem Receives.snoc {acc : List (ℕ × Bytes)} {v : View} (h : Receives acc v)
    {n : ℕ} (hn : n = acc.length + 1) (d : Bytes) :
    Receives (acc ++ [(n, d)]) v where
  pos := h.pos
  bound := by
    have := h.bound
    rw [List.length_append]
    omega
  drained := h.drained
  buffered := fun x hx => List.mem_append_left _ (h.buffered x hx)
  bytes := by rw [bytesBelow_snoc d (hn ▸ h.bound)]; exact h.bytes

/-! ## The connection -/

/-- Both halves, in both directions. -/
def Intact (w : Connection) : Prop :=
  ∀ s, Sends (w.on s).snap (w.net s) ∧
    Receives (w.on s).accepted (w.on s.other).snap

theorem intact_init (sid : UInt32) (client server : SocketAddr)
    (t t' : Instant) : Intact (Connection.init sid client server t t') := by
  intro s
  obtain ⟨a, ta, hA⟩ := Connection.snap_init sid client server t t' s
  obtain ⟨b, tb, hB⟩ := Connection.snap_init sid client server t t' s.other
  have hacc : ((Connection.init sid client server t t').on s).accepted = [] :=
    congrArg View.accepted hA
  rw [Connection.net_init, hacc, hA, hB]
  constructor
  · refine ⟨?_, ?_, ?_, ?_, ?_⟩ <;> simp [StreamState.new, Numbered]
  · refine ⟨?_, ?_, ?_, ?_, ?_⟩ <;>
      simp [StreamState.new, bytesBelow, StreamState.Drained]

theorem intact_moves (w : Connection) (a : Action) (w' : Connection)
    (h : Intact w) (hm : w.Moves a w') : Intact w' := by
  intro s'
  cases hm with
  | act hop hacts =>
      rename_i s op out
      rcases s.eq_or_eq_other s' with rfl | rfl
      · -- the mover sends in this direction
        rw [hacts.sent, hacts.other]
        refine ⟨(h s').1.effect hacts.effect, ?_⟩
        rcases hacts.effect.accepted with ⟨hacc, -⟩ | ⟨d, hacc, -⟩
        · have hacc' : (w'.on s').accepted = (w.on s').accepted := hacc
          rw [hacc']
          exact (h s').2
        · have hacc' : (w'.on s').accepted = (w.on s').accepted ++ [_] := hacc
          rw [hacc']
          exact (h s').2.snoc (h s').1.next d
      · -- the mover receives in this direction
        have hdir := h s.other
        rw [Side.other_other] at hdir ⊢
        rw [hacts.otherNet, hacts.other]
        refine ⟨hdir.1, hdir.2.effect hdir.1.numbered hacts.effect ?_⟩
        intro pkt now hop hk _
        obtain ⟨d, hd, hh, hp⟩ := hacts.fromNet pkt now hop
        have := hdir.1.inFlight d hd (hh ▸ hk)
        rwa [hh, hp] at this
  | quiet hop hq =>
      rw [hq.on, hq.on]
      refine ⟨(h s').1.sub ?_, (h s').2⟩
      intro d hd hk
      rcases hq.net s' d hd with hd' | hclose
      · exact hd'
      · rw [hk] at hclose
        cases hclose

theorem Connection.Reachable.intact {w : Connection} (h : w.Reachable) :
    w.WF ∧ Intact w :=
  h.invariant intact_init intact_moves

/-- **Stream integrity.** The chunks one end accepted are numbered 1, 2, 3, …;
what the other end has returned to its reader and what it holds ready are
together the chunks below its next expected number, in order. -/
theorem stream_integrity {w : Connection} (h : w.Reachable) (s : Side) :
    (w.on s).accepted.map Prod.fst =
      List.range' 1 (w.on s).accepted.length ∧
    (w.on s.other).stream.state? = some (w.on s.other).st ∧
    1 ≤ (w.on s.other).st.nextReadSeq ∧
    (w.on s.other).st.nextReadSeq - 1 ≤ (w.on s).accepted.length ∧
    (w.on s.other).returned ++ (w.on s.other).st.readBufBytes =
      (((w.on s).accepted.filter
        (fun c => decide (c.1 < (w.on s.other).st.nextReadSeq))).map
          Prod.snd).flatten := by
  obtain ⟨hwf, hint⟩ := h.intact
  obtain ⟨hsend, hrecv⟩ := hint s
  refine ⟨hsend.numbered, (hwf s.other).state?, hrecv.pos, ?_, hrecv.bytes⟩
  have hbound := hrecv.bound
  show (w.on s.other).st.nextReadSeq - 1 ≤ _
  change (w.on s.other).st.nextReadSeq ≤ _ at hbound
  omega

theorem stream_integrity_run : ∃ w : Connection,
    w.Reachable ∧ (w.on .acceptor).returned = [1, 2] ∧
    (w.on .acceptor).returned ++ (w.on .acceptor).st.readBufBytes =
      (((w.on .connector).accepted.filter
        (fun c => decide (c.1 < (w.on .acceptor).st.nextReadSeq))).map
          Prod.snd).flatten := by
  have hreach := Connection.reachable_of_opening
    [.act .connector (.pollWrite 0 [1, 2, 3] 5),
      .act .connector (.writeRx 6),
      .deliver .acceptor
        ⟨⟨7, .stream, 1, 0, 0⟩, [1, 2, 3], .v4 #v[10, 0, 0, 2] 2333⟩
        (.v4 #v[10, 0, 0, 1] 40000) 7,
      .act .acceptor (.pollRead 0 2)] rfl
  exact ⟨_, hreach, rfl, (stream_integrity hreach .connector).2.2.2.2⟩

end Rathole
