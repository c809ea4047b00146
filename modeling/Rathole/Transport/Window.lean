import Rathole.Transport.Recovery

/-!
# How far the two ends can be apart

No field of a packet announces a receive window, and no code looks at one. The
sender stops at 1024 chunks in its queue, and a chunk leaves the queue only
for a Sack, which reaches 64 chunks beyond the chunk the receiver expects; the
expected chunk itself is queued. So the writer is at most 1087 chunks ahead of
the reader, whatever the network does to packets and Sacks.
-/

namespace Rathole

open StreamState (Acked)

/-- `A` writes to `B`; `back` is what `B` has in flight to `A`. -/
structure Windowed (A B : View) (back : List Datagram) : Prop where
  queue : A.st.writeQueue.len ≤ 1024
  /-- A Sack is as old as its ack, and the receiver never goes back. -/
  acks : ∀ d ∈ back, d.header.packetKind = .sack →
    d.header.ack < B.st.nextReadSeq
  /-- What has left the queue was in the window of some Sack. -/
  window : Accounted (· < B.st.nextReadSeq + 64) A.st

/-- What an ack acknowledges is at most 64 chunks beyond it. -/
theorem Acked.lt {ack bits i : ℕ} (h : Acked ack bits i) : i < ack + 65 := by
  rcases h with hle | ⟨hlt, -⟩
  · omega
  · omega

section Steps

variable {sid : UInt32} {v v' : View} {op : Op} {out : Output}

/-- The queue grows by a write that found room, and by nothing else. -/
theorem Effect.queue_le (heff : Effect sid v op v' out)
    (h : v.st.writeQueue.len ≤ 1024) : v'.st.writeQueue.len ≤ 1024 := by
  have htick (now : Instant) :
      (v.st.getRetransmissions now).1.writeQueue.len ≤ 1024 := by
    refine (OrdMap.len_le_of_keys fun x hx => ?_).trans h
    obtain ⟨p, hp, -⟩ := StreamState.mem_getRetransmissions hx
    exact ⟨p, hp⟩
  cases heff with
  | wrote hopen hroom hch =>
      exact OrdMap.len_insert_le.trans (Nat.succ_le_of_lt hroom)
  | incoming hopen hrun =>
      refine (OrdMap.len_le_of_keys fun x hx => ?_).trans h
      obtain ⟨p, hp, -⟩ := UdpStreamInner.mem_dispatch_queue hx
      exact ⟨p, hp⟩
  | ticked pings hopen hpings halive => exact htick _
  | tickTimedOut hopen hdead => exact htick _
  | _ => exact h

/-- A receiver never goes back. -/
theorem Effect.next_le (heff : Effect sid v op v' out) :
    v.st.nextReadSeq ≤ v'.st.nextReadSeq := by
  have htick (now : Instant) :
      (v.st.getRetransmissions now).1.nextReadSeq = v.st.nextReadSeq := by
    obtain ⟨wq, hwq⟩ := v.st.getRetransmissions_frame now
    rw [hwq]
  cases heff with
  | incoming hopen hrun =>
      rename_i pkt now
      by_cases hk : pkt.header.packetKind = .stream
      · show _ ≤ (UdpStreamInner.dispatch v.st pkt now).1.nextReadSeq
        unfold UdpStreamInner.dispatch
        rw [hk]
        exact v.st.pushData_next_le pkt.header.seq pkt.payload
      · exact (UdpStreamInner.dispatch_reading hk).1.ge
  | ticked pings hopen hpings halive => exact (htick _).ge
  | tickTimedOut hopen hdead => exact (htick _).ge
  | _ => exact Nat.le_refl _

end Steps

/-- **Step lemma for the sender.** -/
theorem Windowed.sender {sid : UInt32} {A A' B : View} {op : Op} {out : Output}
    {back : List Datagram} (h : Windowed A B back)
    (heff : Effect sid A op A' out) (hnet : Connection.FromNet back op) :
    Windowed A' B back := by
  refine ⟨heff.queue_le h.queue, h.acks, heff.accounted h.window ?_⟩
  intro pkt now hop hk i hacked
  obtain ⟨d, hd, hh, -⟩ := hnet pkt now hop
  have hack := h.acks d hd (hh ▸ hk)
  have hlt := Acked.lt hacked
  rw [← hh] at hlt
  omega

/-- **Step lemma for the receiver.** -/
theorem Windowed.receiver {sid : UInt32} {A B B' : View} {op : Op}
    {out : Output} {back : List Datagram} (h : Windowed A B back)
    (heff : Effect sid B op B' out) (hpos : 1 ≤ B'.st.nextReadSeq) :
    Windowed A B' (back ++ out.sent) where
  queue := h.queue
  acks := by
    intro d hd hk
    rcases List.mem_append.mp hd with hold | hnew
    · exact (h.acks d hold hk).trans_le heff.next_le
    · have hack : d.header.ack = B'.st.nextReadSeq - 1 :=
        congrArg Prod.fst (heff.sack_sent hnew hk)
      omega
  window := h.window.mono
    (fun _ hi => hi.trans_le (Nat.add_le_add_right heff.next_le 64))

/-- Recovery and, in both directions, the window. -/
def InWindow (w : Connection) : Prop :=
  Recoverable w ∧ ∀ s, Windowed (w.on s).snap (w.on s.other).snap (w.net s.other)

theorem inWindow_init (sid : UInt32) (client server : SocketAddr)
    (t t' : Instant) : InWindow (Connection.init sid client server t t') := by
  refine ⟨recoverable_init sid client server t t', fun s => ?_⟩
  obtain ⟨addr, last, hv⟩ := Connection.snap_init sid client server t t' s
  rw [hv, Connection.net_init]
  refine ⟨Nat.zero_le _, ?_, ?_⟩
  · intro d hd
    cases hd
  · intro _ i h1 hi
    simp only [StreamState.new] at hi
    omega

theorem inWindow_moves (w : Connection) (a : Action) (w' : Connection)
    (h : InWindow w) (hm : w.Moves a w') : InWindow w' := by
  have hrec := recoverable_moves w a w' h.1 hm
  refine ⟨hrec, fun s' => ?_⟩
  cases hm with
  | act hop hacts =>
      rename_i s op out
      rcases s.eq_or_eq_other s' with rfl | rfl
      · rw [hacts.other, hacts.otherNet]
        exact (h.2 s').sender hacts.effect hacts.fromNet
      · have hdir := h.2 s.other
        have hpos := (hrec.1 s.other).2.pos
        rw [Side.other_other] at hdir hpos ⊢
        rw [hacts.other, hacts.sent]
        exact hdir.receiver hacts.effect hpos
  | quiet hop hq =>
      rw [hq.on, hq.on]
      refine ⟨(h.2 s').queue, ?_, (h.2 s').window⟩
      intro d hd hk
      rcases hq.net _ d hd with hold | hclose
      · exact (h.2 s').acks d hold hk
      · rw [hk] at hclose
        cases hclose

theorem Connection.Reachable.inWindow {w : Connection} (h : w.Reachable) :
    InWindow w :=
  (h.invariant inWindow_init inWindow_moves).2

/-! ## The bound -/

/-- The chunk the receiver expects is still queued. -/
theorem expected_queued {w : Connection} (h : Recoverable w) {s : Side}
    (hmode : (w.on s).st.mode = .tcp)
    (hlt : (w.on s.other).st.nextReadSeq < (w.on s).st.nextWriteSeq) :
    ∃ p, ((w.on s.other).st.nextReadSeq, p) ∈
      (w.on s).st.writeQueue.entries := by
  have hrecv := (h.1 s).2
  rcases (h.2 s).kept hmode _ hrecv.pos hlt with hq | hbelow | ⟨d, hd⟩
  · exact hq
  · exact absurd hbelow (Nat.lt_irrefl _)
  · exact absurd (hrecv.drained _ hd) (Nat.lt_irrefl _)

/-- The expected chunk and all that no Sack reaches are in the queue. -/
theorem ahead_le {w : Connection} (h : InWindow w) {s : Side}
    (hmode : (w.on s).st.mode = .tcp) :
    (w.on s).st.nextWriteSeq ≤ (w.on s.other).st.nextReadSeq + 1087 := by
  rcases Nat.lt_or_ge ((w.on s.other).st.nextReadSeq + 64)
    (w.on s).st.nextWriteSeq with hfar | hnear
  · have hpos : 1 ≤ (w.on s.other).st.nextReadSeq := (h.1.1 s).2.pos
    let beyond := List.range' ((w.on s.other).st.nextReadSeq + 64)
      ((w.on s).st.nextWriteSeq - ((w.on s.other).st.nextReadSeq + 64))
    have hsub : (w.on s.other).st.nextReadSeq :: beyond ⊆
        (w.on s).st.writeQueue.entries.map Prod.fst := by
      intro i hi
      rcases List.mem_cons.mp hi with rfl | hi
      · obtain ⟨p, hp⟩ := expected_queued h.1 hmode (by omega)
        exact List.mem_map.mpr ⟨_, hp, rfl⟩
      · have hi := List.mem_range'_1.mp hi
        rcases (h.2 s).window hmode i (by omega) (by
          show i < (w.on s).st.nextWriteSeq
          omega) with ⟨p, hp⟩ | hwin
        · exact List.mem_map.mpr ⟨_, hp, rfl⟩
        · have hwin : i < (w.on s.other).st.nextReadSeq + 64 := hwin
          omega
    have hnodup : ((w.on s.other).st.nextReadSeq :: beyond).Nodup := by
      refine List.nodup_cons.mpr ⟨?_, List.nodup_range'⟩
      intro hmem
      have hle := (List.mem_range'_1.mp hmem).1
      omega
    have hle := (hnodup.subperm hsub).length_le
    have hqueue : (w.on s).st.writeQueue.entries.length ≤ 1024 := (h.2 s).queue
    simp only [List.length_cons, beyond, List.length_range', List.length_map]
      at hle
    omega
  · omega

/-- What the receiver buffers lies between the two ends. -/
theorem buffered_between {w : Connection} (h : Recoverable w) {s : Side}
    {x : ℕ × Bytes} (hx : x ∈ (w.on s.other).st.readBuffer.entries) :
    (w.on s.other).st.nextReadSeq < x.1 ∧ x.1 < (w.on s).st.nextWriteSeq := by
  obtain ⟨hsend, hrecv⟩ := h.1 s
  have hnext : (w.on s).st.nextWriteSeq = (w.on s).accepted.length + 1 :=
    hsend.next
  have hle : x.1 ≤ (w.on s).accepted.length :=
    (hsend.numbered.mem (hrecv.buffered x hx)).2.1
  exact ⟨hrecv.drained x hx, by omega⟩

theorem buffered_le {w : Connection} (h : Recoverable w) (s : Side) :
    (w.on s.other).st.readBuffer.len ≤
      (w.on s).st.nextWriteSeq - 1 - (w.on s.other).st.nextReadSeq := by
  let between := List.range' ((w.on s.other).st.nextReadSeq + 1)
    ((w.on s).st.nextWriteSeq - 1 - (w.on s.other).st.nextReadSeq)
  have hsub : (w.on s.other).st.readBuffer.entries.map Prod.fst ⊆ between := by
    intro i hi
    obtain ⟨x, hx, rfl⟩ := List.mem_map.mp hi
    have hbetween := buffered_between h hx
    exact List.mem_range'_1.mpr ⟨by omega, by omega⟩
  have hle := ((w.on s.other).st.readBuffer.keys_nodup.subperm hsub).length_le
  rw [List.length_map, List.length_range'] at hle
  exact hle

/-- **Bounded reordering.** In every reachable connection whose writer is in
TCP mode, the writer has numbered at most 1086 chunks beyond the one its
reader expects; the reader buffers at most 1086 chunks, all of them between
the two; the writer queues at most 1024, all of which it has numbered. -/
theorem reordering_bounded (w : Connection) (h : w.Reachable) (s : Side)
    (hmode : (w.on s).st.mode = .tcp) :
    (w.on s).st.nextWriteSeq - 1 ≤ (w.on s.other).st.nextReadSeq + 1086 ∧
    (w.on s.other).st.readBuffer.len ≤ 1086 ∧
    (∀ x ∈ (w.on s.other).st.readBuffer.entries,
      (w.on s.other).st.nextReadSeq < x.1 ∧
        x.1 < (w.on s).st.nextWriteSeq) ∧
    (w.on s).st.writeQueue.len ≤ 1024 ∧
    ∀ x ∈ (w.on s).st.writeQueue.entries,
      1 ≤ x.1 ∧ x.1 < (w.on s).st.nextWriteSeq := by
  have hin := h.inWindow
  have hahead := ahead_le hin hmode
  have hbuf := buffered_le hin.1 s
  refine ⟨by omega, by omega, fun x hx => buffered_between hin.1 hx,
    (hin.2 s).queue, ?_⟩
  intro x hx
  have hsend := (hin.1.1 s).1
  have hnext : (w.on s).st.nextWriteSeq = (w.on s).accepted.length + 1 :=
    hsend.next
  obtain ⟨h1, hle, -⟩ := hsend.numbered.mem (hsend.queued x hx)
  have hle : x.1 ≤ (w.on s).accepted.length := hle
  exact ⟨h1, by omega⟩

/-- The second of two chunks overtakes the first. -/
theorem reordering_bounded_overtaken : ∃ w : Connection,
    w.Reachable ∧ (w.on .acceptor).st.readBuffer.entries = [(2, [4])] ∧
    (w.on .connector).st.nextWriteSeq - 1 ≤
      (w.on .acceptor).st.nextReadSeq + 1086 ∧
    (w.on .acceptor).st.readBuffer.len ≤ 1086 ∧
    (w.on .connector).st.writeQueue.len ≤ 1024 := by
  have hreach := Connection.reachable_of_opening
    [.act .connector (.pollWrite 0 [1, 2, 3] 5),
      .act .connector (.pollWrite 0 [4] 5),
      .act .connector (.writeRx 6), .act .connector (.writeRx 6),
      .deliver .acceptor
        ⟨⟨7, .stream, 2, 0, 0⟩, [4], .v4 #v[10, 0, 0, 2] 2333⟩
        (.v4 #v[10, 0, 0, 1] 40000) 7] rfl
  obtain ⟨hahead, hbuf, -, hqueue, -⟩ :=
    reordering_bounded _ hreach .connector rfl
  exact ⟨_, hreach, rfl, hahead, hbuf, hqueue⟩

end Rathole
