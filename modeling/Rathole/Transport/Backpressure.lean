import Rathole.Transport.Window

/-!
# What a slow reader costs

A chunk is acknowledged when the receiving task takes it, not when the
application reads it. The writer is therefore held back by the task alone:
what it has been allowed to write exceeds what lies ready in the reader's
`read_buf_bytes` by at most 1087 chunks, and what lies ready there is bounded
by nothing.
-/

namespace Rathole

/-- All that `poll_write` has accepted. -/
def Endpoint.written (e : Endpoint) : Bytes := (e.accepted.map Prod.snd).flatten

/-- How much of what `s` has accepted the other end has not yet returned. -/
def Connection.outstanding (w : Connection) (s : Side) : ℕ :=
  (w.on s).written.length - (w.on s.other).returned.length

/-! ## The bound that holds -/

theorem Effect.chunk_le {sid : UInt32} {v v' : View} {op : Op} {out : Output}
    (heff : Effect sid v op v' out) (h : ∀ x ∈ v.accepted, x.2.length ≤ 1100) :
    ∀ x ∈ v'.accepted, x.2.length ≤ 1100 := by
  cases heff with
  | wrote hopen hroom hch =>
      intro x hx
      rcases List.mem_append.mp hx with hold | hnew
      · exact h x hold
      · rw [List.mem_singleton.mp hnew]
        exact List.length_take_le _ _
  | _ => exact h

theorem Connection.Reachable.chunk_le {w : Connection} (h : w.Reachable)
    (s : Side) : ∀ x ∈ (w.on s).accepted, x.2.length ≤ 1100 := by
  refine (h.invariant (I := fun w => ∀ s, ∀ x ∈ (w.on s).snap.accepted,
    x.2.length ≤ 1100) ?_ ?_).2 s
  · intro sid client server t t' s x hx
    obtain ⟨addr, last, hv⟩ := Connection.snap_init sid client server t t' s
    rw [hv] at hx
    cases hx
  · intro w a w' hw hm s'
    cases hm with
    | act hop hacts =>
        rename_i s op out
        rcases s.eq_or_eq_other s' with rfl | rfl
        · exact hacts.effect.chunk_le (hw s')
        · rw [hacts.other]
          exact hw _
    | quiet hop hq =>
        rw [hq.on]
        exact hw s'

theorem length_flatten_le {n : ℕ} (l : List Bytes)
    (h : ∀ d ∈ l, d.length ≤ n) : l.flatten.length ≤ n * l.length := by
  induction l with
  | nil => simp
  | cons d l ih =>
      have hd := h d List.mem_cons_self
      have hl := ih (fun d' hd' => h d' (List.mem_cons_of_mem _ hd'))
      rw [List.flatten_cons, List.length_append, List.length_cons,
        Nat.mul_add, Nat.mul_one]
      omega

/-- **The writer waits for the task, not for the reader.** What has been
accepted and not returned exceeds what lies ready for the reader by at most
1087 chunks. -/
theorem outstanding_le (w : Connection) (h : w.Reachable) (s : Side)
    (hmode : (w.on s).st.mode = .tcp) :
    w.outstanding s ≤
      (w.on s.other).st.readBufBytes.length + 1087 * 1100 := by
  have hin := h.inWindow
  obtain ⟨hsend, hrecv⟩ := hin.1.1 s
  have hnext : (w.on s).st.nextWriteSeq = (w.on s).accepted.length + 1 :=
    hsend.next
  have hnumbered : Numbered (w.on s).accepted := hsend.numbered
  have hahead := ahead_le hin hmode
  let n := (w.on s.other).st.nextReadSeq
  -- what is below the expected chunk, and the chunks from there on
  have hsplit : (w.on s).written = bytesBelow (w.on s).accepted n ++
      (((w.on s).accepted.drop (n - 1)).map Prod.snd).flatten := by
    rw [hnumbered.bytesBelow_eq, ← List.flatten_append,
      ← List.map_append, List.take_append_drop]
    rfl
  have hbytes : (w.on s.other).returned ++ (w.on s.other).st.readBufBytes =
      bytesBelow (w.on s).accepted n := hrecv.bytes
  have hrest := length_flatten_le (n := 1100)
    (((w.on s).accepted.drop (n - 1)).map Prod.snd) (by
      intro d hd
      obtain ⟨x, hx, rfl⟩ := List.mem_map.mp hd
      exact h.chunk_le s x (List.mem_of_mem_drop hx))
  rw [List.length_map, List.length_drop] at hrest
  have hpos : 1 ≤ n := hrecv.pos
  have hlen : (w.on s).written.length = (w.on s.other).returned.length +
      (w.on s.other).st.readBufBytes.length +
      (((w.on s).accepted.drop (n - 1)).map Prod.snd).flatten.length := by
    rw [hsplit, ← hbytes, List.length_append, List.length_append]
  unfold Connection.outstanding
  have hcount : (w.on s).accepted.length - (n - 1) ≤ 1087 := by omega
  have hmul := Nat.mul_le_mul_left 1100 hcount
  omega

/-- Three bytes arrive and one of them is read. -/
theorem outstanding_le_read : ∃ w : Connection,
    w.Reachable ∧ w.outstanding .connector = 2 ∧
    (w.on .acceptor).st.readBufBytes = [2, 3] ∧
    w.outstanding .connector ≤
      (w.on .acceptor).st.readBufBytes.length + 1087 * 1100 := by
  have hreach := Connection.reachable_of_opening
    [.act .connector (.pollWrite 0 [1, 2, 3] 5),
      .act .connector (.writeRx 6),
      .deliver .acceptor
        ⟨⟨7, .stream, 1, 0, 0⟩, [1, 2, 3], .v4 #v[10, 0, 0, 2] 2333⟩
        (.v4 #v[10, 0, 0, 1] 40000) 7,
      .act .acceptor (.pollRead 0 1)] rfl
  exact ⟨_, hreach, rfl, rfl, outstanding_le _ hreach .connector rfl⟩

/-! ## No bound without the reader -/

namespace Connection

/-- The connector has nothing queued; `n` bytes were written and none read. -/
structure Unread (n : ℕ) (w : Connection) : Prop where
  reach : w.Reachable
  isOpen : ∀ r, (w.on r).snap.closed = false
  tcp : ∀ r, (w.on r).st.mode = .tcp
  alive : (w.on .connector).dropped = false
  empty : (w.on .connector).st.writeQueue.entries = []
  written : (w.on .connector).written.length = n
  unread : (w.on .acceptor).returned = []

theorem Unread.openAt {n : ℕ} {w : Connection} (h : w.Unread n) (r : Side) :
    w.OpenAt r :=
  ⟨h.reach.recoverable.1, h.reach.linked, h.isOpen r⟩

/-- One byte is written. -/
theorem Unread.write {n : ℕ} {w : Connection} (h : w.Unread n) :
    ∃ w', w.step (.act .connector (.pollWrite 0 [0] 0)) = some w' ∧
      (∀ r, (w'.on r).snap.closed = false) ∧
      (∀ r, (w'.on r).st.mode = .tcp) ∧
      (w'.on .connector).snap.dropped = false ∧
      (w'.on .connector).st.writeQueue.entries =
        [((w.on .connector).st.nextWriteSeq, ⟨[0], 0, 0⟩)] ∧
      (w'.on .connector).st.nextWriteSeq =
        (w.on .connector).st.nextWriteSeq + 1 ∧
      (w'.on .connector).written.length = n + 1 ∧
      w'.on .acceptor = w.on .acceptor := by
  have hstep : ∃ e out, (w.on .connector).step (.pollWrite 0 [0] 0) =
      some (e, out) := by
    refine ⟨_, _, if_neg ?_⟩
    rw [h.alive]
    decide
  obtain ⟨e, out, hstep⟩ := hstep
  obtain ⟨w', hstep', hwf, hlink, hacts⟩ := act_step (h.openAt .connector) rfl hstep
  have hlen : (w.on .connector).st.writeQueue.len = 0 := by
    unfold OrdMap.len
    rw [h.empty]
    rfl
  obtain ⟨ch', hv⟩ := hacts.effect.write_inv (h.isOpen .connector) (by
    show (w.on .connector).st.writeQueue.len < 1024
    omega)
  have hother : w'.on .acceptor = w.on .acceptor := hacts.other
  refine ⟨w', hstep', ?_, ?_, ?_, ?_, congrArg (·.st.nextWriteSeq) hv, ?_,
    hother⟩
  · intro r
    cases r with
    | connector =>
        rw [hv]
        exact h.isOpen .connector
    | acceptor =>
        rw [hother]
        exact h.isOpen .acceptor
  · intro r
    cases r with
    | connector => exact (congrArg (·.st.mode) hv).trans (h.tcp .connector)
    | acceptor =>
        rw [hother]
        exact h.tcp .acceptor
  · rw [hv]
    exact h.alive
  · refine (congrArg (·.st.writeQueue.entries) hv).trans ?_
    show OrdMap.insertEntry _ _ (w.on .connector).st.writeQueue.entries = _
    rw [h.empty]
    rfl
  · show ((w'.on .connector).snap.accepted.map Prod.snd).flatten.length = n + 1
    rw [hv, List.map_append, List.flatten_append, List.length_append]
    show (w.on .connector).written.length + 1 = n + 1
    rw [h.written]

theorem exists_acceptsFrom (e : Endpoint) : ∃ src, e.AcceptsFrom src := by
  unfold Endpoint.AcceptsFrom
  cases e.dest with
  | none => exact ⟨.v4 #v[0, 0, 0, 0] 0, nofun⟩
  | some a => exact ⟨a, fun b hb => Option.some.inj hb⟩

/-- A tick that leaves the stream open changes the queue only. -/
theorem tick_open {w w' : Connection} {s : Side} {now : Instant} {out : Output}
    (hacts : w.Acts s (.tick now) out w') (hopen : (w.on s).snap.closed = false)
    (hopen' : (w'.on s).snap.closed = false) :
    (w'.on s).snap =
      { (w.on s).snap with st := ((w.on s).st.getRetransmissions now).1 } := by
  rcases hacts.effect.tick_inv hopen with ⟨-, hv, -⟩ | ⟨-, -, -, hv⟩ |
    ⟨-, -, hv⟩
  · exact hv
  · rw [hv] at hopen'
    cases hopen'
  · rw [hv] at hopen'
    cases hopen'

/-- The connector has numbered one chunk more than `w` and it is in flight,
as `d`. -/
structure OneSent (n : ℕ) (w w' : Connection) (d : Datagram) : Prop where
  reach : w'.Reachable
  isOpen : ∀ r, (w'.on r).snap.closed = false
  tcp : ∀ r, (w'.on r).st.mode = .tcp
  alive : (w'.on .connector).snap.dropped = false
  written : (w'.on .connector).written.length = n + 1
  next : (w'.on .connector).st.nextWriteSeq =
    (w.on .connector).st.nextWriteSeq + 1
  acceptor : w'.on .acceptor = w.on .acceptor
  inFlight : d ∈ w'.net .connector
  kind : d.header.packetKind = .stream
  id : d.header.channelId = (w'.on .connector).stream.streamId
  seq : d.header.seq = (w.on .connector).st.nextWriteSeq

/-- The byte is written and the next tick sends it. -/
theorem Unread.send {n : ℕ} {w : Connection} (h : w.Unread n) :
    ∃ w' d, OneSent n w w' d := by
  obtain ⟨w₁, hstep₁, hopen₁, htcp₁, halive₁, hqueue₁, hnext₁, hwritten₁,
    hacceptor₁⟩ := h.write
  have hreach₁ : w₁.Reachable :=
    h.reach.run (Runs.run_cons.mpr ⟨w₁, hstep₁, Runs.run_nil.mpr rfl⟩)
  have hone : ∀ x ∈ (w₁.on .connector).st.writeQueue.entries,
      x = ((w.on .connector).st.nextWriteSeq, ⟨[0], 0, 0⟩) := by
    intro x hx
    rw [hqueue₁] at hx
    exact List.mem_singleton.mp hx
  have hlim : ∀ x ∈ (w₁.on .connector).st.writeQueue.entries,
      x.2.retransmits < 100 := by
    intro x hx
    rw [hone x hx]
    show 0 < 100
    decide
  have hdue : ∀ x ∈ (w₁.on .connector).st.writeQueue.entries,
      millis 201 - x.2.sentAt > millis 200 := by
    intro x hx
    rw [hone x hx]
    show millis 201 - 0 > millis 200
    decide
  obtain ⟨w₂, out₂, hstep₂, hwf₂, hlink₂, hacts₂, hchunk, hall, hstill⟩ :=
    tick_round ⟨hreach₁.recoverable.1, hreach₁.linked, hopen₁ .connector⟩
      (htcp₁ .connector) hlim hdue
  have hopen₂ := hstill (by rw [hqueue₁]; simp)
  have hv₂ := tick_open hacts₂ (hopen₁ .connector) hopen₂
  have hacceptor₂ : w₂.on .acceptor = w₁.on .acceptor := hacts₂.other
  obtain ⟨wq, hwq⟩ := (w₁.on .connector).st.getRetransmissions_frame (millis 201)
  have hst₂ : (w₂.on .connector).st =
      { (w₁.on .connector).st with writeQueue := wq } :=
    (congrArg View.st hv₂).trans hwq
  obtain ⟨d, hd, hdk, hdseq⟩ := hall _
    (by rw [hqueue₁]; exact List.mem_singleton.mpr rfl)
  refine ⟨w₂, d, ?_, ?_, ?_, ?_, ?_, ?_, ?_, ?_, hdk, ?_, hdseq⟩
  · exact hreach₁.run (Runs.run_cons.mpr ⟨w₂, hstep₂, Runs.run_nil.mpr rfl⟩)
  · intro r
    cases r with
    | connector => exact hopen₂
    | acceptor =>
        rw [hacceptor₂]
        exact hopen₁ .acceptor
  · intro r
    cases r with
    | connector =>
        rw [hst₂]
        exact htcp₁ .connector
    | acceptor =>
        rw [hacceptor₂]
        exact htcp₁ .acceptor
  · rw [hv₂]
    exact halive₁
  · have hacc : (w₂.on .connector).accepted = (w₁.on .connector).accepted :=
      congrArg View.accepted hv₂
    unfold Endpoint.written
    rw [hacc]
    exact hwritten₁
  · rw [hst₂]
    exact hnext₁
  · rw [hacceptor₂, hacceptor₁]
  · rw [hacts₂.sent]
    exact List.mem_append_right _ hd
  · rw [hacts₂.ident.1]
    exact (hchunk d hd hdk).1

/-- With nothing queued before, the reader has every chunk once the new one
has arrived. -/
theorem Unread.level {n : ℕ} {w w' : Connection} (h : w.Unread n)
    (hreach : w'.Reachable)
    (hnext : (w'.on .connector).st.nextWriteSeq =
      (w.on .connector).st.nextWriteSeq + 1)
    (hrec : ∀ i, (w.on .acceptor).st.Received i ∨
      i = (w.on .connector).st.nextWriteSeq → (w'.on .acceptor).st.Received i) :
    (w'.on .acceptor).st.nextReadSeq = (w'.on .connector).st.nextWriteSeq := by
  refine (level_of_received hreach.intact.2 .connector ?_).1
  intro i h1 hi
  apply hrec
  by_cases hlast : i = (w.on .connector).st.nextWriteSeq
  · exact Or.inr hlast
  · left
    rcases (h.reach.recoverable.2.2 .connector).kept (h.tcp .connector) i h1
      (show i < (w.on .connector).st.nextWriteSeq by omega) with ⟨p, hp⟩ | hr
    · have hp : (i, p) ∈ (w.on .connector).st.writeQueue.entries := hp
      rw [h.empty] at hp
      cases hp
    · exact hr

/-- **One more byte**: it is written, arrives and is acknowledged, and nobody
reads it. -/
theorem Unread.round {n : ℕ} {w : Connection} (h : w.Unread n) :
    ∃ w', Unread (n + 1) w' := by
  obtain ⟨w₂, d, hs⟩ := h.send
  have hwf₂ := hs.reach.recoverable.1
  -- the chunk arrives
  obtain ⟨src, hsrc⟩ := exists_acceptsFrom (w₂.on .acceptor)
  have hdel : w₂.Deliverable .acceptor .stream ⟨d, src, 0⟩ :=
    ⟨hs.inFlight, hs.kind,
      hs.id.trans (hs.reach.linked.sameId .connector).symm, hsrc⟩
  obtain ⟨w₃, out₃, d', hstep₃, hopen₃, hacts₃, htcp₃, hsent₃, hsack, hid₃,
    hack, hrec₃⟩ := take_chunk ⟨hwf₂, hs.reach.linked, hs.isOpen .acceptor⟩
      (hs.tcp .acceptor) hdel
  have hconnector₃ : w₃.on .connector = w₂.on .connector := hacts₃.other
  have hreach₃ : w₃.Reachable :=
    hs.reach.run (Runs.run_cons.mpr ⟨w₃, hstep₃, Runs.run_nil.mpr rfl⟩)
  have hlevel := h.level hreach₃ (by rw [hconnector₃, hs.next]) (by
    intro i hi
    rw [hrec₃, hs.acceptor, ← hs.seq] at *
    exact hi)
  -- and so does its Sack
  obtain ⟨src', hsrc'⟩ := exists_acceptsFrom (w₃.on .connector)
  have hdel' : w₃.Deliverable .connector .sack ⟨d', src', 0⟩ := by
    refine ⟨?_, hsack, ?_, hsrc'⟩
    · show d' ∈ w₃.net .acceptor
      rw [hacts₃.sent, hsent₃]
      exact List.mem_append_right _ (List.mem_singleton.mpr rfl)
    · rw [hconnector₃]
      exact hid₃.trans (hs.reach.linked.sameId .connector)
  obtain ⟨w₄, out₄, hstep₄, hopen₄, hacts₄, hst₄⟩ := take_sack
    ⟨hreach₃.recoverable.1, hreach₃.linked, by
      rw [hconnector₃]
      exact hs.isOpen .connector⟩ hdel'
  have hacceptor₄ : w₄.on .acceptor = w₃.on .acceptor := hacts₄.other
  have hopenC : (w₃.on .connector).snap.closed = false := by
    rw [hconnector₃]
    exact hs.isOpen .connector
  obtain ⟨hv₄, -⟩ := hacts₄.effect.incoming_inv hopenC
  obtain ⟨hv₃, -⟩ := hacts₃.effect.incoming_inv (hs.isOpen .acceptor)
  refine ⟨w₄, ?_, ?_, ?_, ?_, ?_, ?_, ?_⟩
  · exact hreach₃.run (Runs.run_cons.mpr ⟨w₄, hstep₄, Runs.run_nil.mpr rfl⟩)
  · intro r
    cases r with
    | connector => exact hopen₄.isOpen
    | acceptor =>
        rw [hacceptor₄]
        exact hopen₃.isOpen
  · intro r
    cases r with
    | connector =>
        rw [hst₄, (UdpStreamInner.dispatch_frame _ _ _).1, hconnector₃]
        exact hs.tcp .connector
    | acceptor =>
        rw [hacceptor₄]
        exact htcp₃
  · have hdrop := congrArg View.dropped hv₄
    rw [hconnector₃] at hdrop
    exact hdrop.trans hs.alive
  · have hqueue : ∀ y ∈ (w₄.on .connector).st.writeQueue.entries,
        (∃ p, (y.1, p) ∈ (w₃.on .connector).st.writeQueue.entries) ∧
          ∀ x ∈ [(⟨d', src', 0⟩ : Arrival)],
            ¬ StreamState.Acked x.d.header.ack x.d.header.ackBits y.1 := by
      intro y hy
      rw [hst₄] at hy
      obtain ⟨q, hq, -⟩ := UdpStreamInner.mem_dispatch_queue hy
      refine ⟨⟨q, hq⟩, ?_⟩
      intro x hx
      rw [List.mem_singleton.mp hx]
      exact UdpStreamInner.not_acked_of_mem_dispatch hsack hy
    have hempty := emptied_of_last_sack (s := .connector) hreach₃.intact.2
      hlevel hqueue (List.mem_singleton.mpr rfl) (congrArg Prod.fst hack)
    exact List.isEmpty_iff.mp hempty
  · have hacc : (w₄.on .connector).accepted = (w₃.on .connector).accepted :=
      congrArg View.accepted hv₄
    unfold Endpoint.written
    rw [hacc, hconnector₃]
    exact hs.written
  · have hret : (w₃.on .acceptor).returned = (w₂.on .acceptor).returned :=
      congrArg View.returned hv₃
    rw [hacceptor₄, hret, hs.acceptor]
    exact h.unread

theorem exists_unread (n : ℕ) : ∃ w, Unread n w := by
  induction n with
  | zero =>
      have hreach := reachable_of_opening [] (rfl : Runs.Run step sample
        (opening ++ []) _)
      refine ⟨_, hreach, ?_, ?_, rfl, rfl, rfl, rfl⟩
      · intro r
        cases r <;> rfl
      · intro r
        cases r <;> rfl
  | succ n ih =>
      obtain ⟨w, hw⟩ := ih
      exact hw.round

/-- **No constant bounds what a slow reader lets pile up.** -/
theorem no_backpressure : ¬ ∃ K : ℕ, ∀ w : Connection, w.Reachable →
    (∀ r, (w.on r).st.mode = .tcp) → ∀ s, w.outstanding s ≤ K := by
  rintro ⟨K, hK⟩
  obtain ⟨w, hw⟩ := exists_unread (K + 1)
  have hle := hK w hw.reach hw.tcp .connector
  unfold outstanding at hle
  have hret : (w.on (Side.other .connector)).returned = [] := hw.unread
  rw [hw.written, hret, List.length_nil] at hle
  omega

end Connection

end Rathole
