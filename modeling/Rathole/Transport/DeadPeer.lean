import Rathole.Transport.Endpoint

/-!
# How long a stream outlives its peer

The background task ticks every 50 ms. A tick ends the stream when nothing
has been heard for 300 s and no chunk is waiting, or when a chunk has been
resent 100 times in vain. The two rules leave no gap in Tcp mode: a waiting
chunk stays in the queue until a packet arrives, every tick that finds it
older than 200 ms counts, and the hundred-and-first ends the stream. So an
open stream has heard from its peer (or was made) within a fixed time, whatever
its application does.

In NACK mode the second rule is void, and the first can be put off for ever:
chunks expire after 30 s, but an application that keeps writing always has
one waiting.
-/

namespace Rathole

/-! ## Streams and the clock -/

/-- When an operation takes place, for those that look at the clock. -/
def Op.time? : Op → Option Instant
  | .pollWrite _ _ now => some now
  | .connectTurn now => some now
  | .incoming _ now => some now
  | .writeRx now => some now
  | .tick now => some now
  | _ => none

def Op.tick? : Op → Option Instant
  | .tick now => some now
  | _ => none

/-- A stream, the time, and the time of its last tick. -/
structure Watched where
  endpoint : Endpoint
  clock : Instant
  ticked : Instant

namespace Watched

def step (w : Watched) (op : Op) : Option Watched :=
  (w.endpoint.step op).map (fun r =>
    ⟨r.1, op.time?.getD w.clock, op.tick?.getD w.ticked⟩)

/-- A stream made at `now`; the ticker's first tick is immediate. -/
def start (e : Endpoint) (now : Instant) : Watched := ⟨e, now, now⟩

/-- Time does not run backwards, and an open stream is not left without a
tick for longer than `period`. -/
def Timely (period : ℕ) (w : Watched) (op : Op) : Prop :=
  ∀ now, op.time? = some now → w.clock ≤ now ∧
    (w.endpoint.snap.closed = false → now ≤ w.ticked + period)

instance (period : ℕ) (w : Watched) (op : Op) :
    Decidable (Timely period w op) :=
  match h : op.time? with
  | none => isTrue (fun now hnow => by rw [h] at hnow; cases hnow)
  | some t => decidable_of_iff (w.clock ≤ t ∧
      (w.endpoint.snap.closed = false → t ≤ w.ticked + period))
      ⟨fun ht now hnow => by
          rw [h] at hnow
          cases hnow
          exact ht,
        fun ht => ht t h⟩

end Watched

/-! ## One tick and one chunk -/

/-- A tick that does not end the stream leaves every chunk queued, as it was
if it is young, restamped and counted if it is due. -/
theorem retransmitScan_alive {now : Instant} {l : List (ℕ × SentPacket)}
    {i : ℕ} {p : SentPacket} (hmem : (i, p) ∈ l)
    (halive : (StreamState.retransmitScan now l).2.2 = false) :
    ∃ p', (i, p') ∈ (StreamState.retransmitScan now l).1 ∧
      ((p' = p ∧ now - p.sentAt ≤ millis 200) ∨
        (p'.sentAt = now ∧ p'.retransmits = p.retransmits + 1 ∧
          p.retransmits < 100)) := by
  induction l with
  | nil => cases hmem
  | cons e rest ih =>
      obtain ⟨seq, q⟩ := e
      simp only [StreamState.retransmitScan] at halive ⊢
      split
      · rename_i hdue
        rw [if_pos hdue] at halive
        split
        · rename_i hlim
          rw [if_pos hlim] at halive
          cases halive
        · rename_i hlim
          rw [if_neg hlim] at halive
          rcases List.mem_cons.mp hmem with heq | hrest
          · cases heq
            exact ⟨_, List.mem_cons_self, Or.inr ⟨rfl, rfl, by omega⟩⟩
          · obtain ⟨p', hp', hcase⟩ := ih hrest halive
            exact ⟨p', List.mem_cons_of_mem _ hp', hcase⟩
      · rename_i hdue
        rw [if_neg hdue] at halive
        rcases List.mem_cons.mp hmem with heq | hrest
        · cases heq
          exact ⟨_, List.mem_cons_self, Or.inl ⟨rfl, Nat.le_of_not_lt hdue⟩⟩
        · obtain ⟨p', hp', hcase⟩ := ih hrest halive
          exact ⟨p', List.mem_cons_of_mem _ hp', hcase⟩

/-- A tick that does not end the stream stamps nothing later than itself, and
counts no further than 100. -/
theorem retransmitScan_bounds {now : Instant} {l : List (ℕ × SentPacket)}
    (halive : (StreamState.retransmitScan now l).2.2 = false)
    (h : ∀ x ∈ l, x.2.sentAt ≤ now ∧ x.2.retransmits ≤ 100) :
    ∀ x ∈ (StreamState.retransmitScan now l).1,
      x.2.sentAt ≤ now ∧ x.2.retransmits ≤ 100 := by
  induction l with
  | nil => exact h
  | cons e rest ih =>
      obtain ⟨seq, q⟩ := e
      have hq := h _ List.mem_cons_self
      have ih := fun ha => ih ha (fun x hx => h x (List.mem_cons_of_mem _ hx))
      simp only [StreamState.retransmitScan] at halive ⊢
      split
      · rename_i hdue
        rw [if_pos hdue] at halive
        split
        · rename_i hlim
          rw [if_pos hlim] at halive
          cases halive
        · rename_i hlim
          rw [if_neg hlim] at halive
          intro x hx
          rcases List.mem_cons.mp hx with rfl | hx'
          · exact ⟨le_refl now, Nat.le_of_not_lt hlim⟩
          · exact ih halive x hx'
      · rename_i hdue
        rw [if_neg hdue] at halive
        intro x hx
        rcases List.mem_cons.mp hx with rfl | hx'
        · exact hq
        · exact ih halive x hx'

/-! ## One packet and the stamps -/

/-- A chunk in the queue `wq'` was in `wq` with the same count, and has its old
stamp or the stamp `now`. -/
def Restamped (now : Instant) (wq wq' : OrdMap ℕ SentPacket) : Prop :=
  ∀ x ∈ wq'.entries, ∃ p, (x.1, p) ∈ wq.entries ∧
    x.2.retransmits = p.retransmits ∧
    (x.2.sentAt = p.sentAt ∨ x.2.sentAt = now)

theorem Restamped.refl (now : Instant) (wq : OrdMap ℕ SentPacket) :
    Restamped now wq wq :=
  fun x hx => ⟨x.2, hx, rfl, Or.inl rfl⟩

theorem Restamped.trans {now : Instant} {wq wq' wq'' : OrdMap ℕ SentPacket}
    (h : Restamped now wq wq') (h' : Restamped now wq' wq'') :
    Restamped now wq wq'' := by
  intro x hx
  obtain ⟨p, hp, hcount, hstamp⟩ := h' x hx
  obtain ⟨q, hq, hcount', hstamp'⟩ := h _ hp
  refine ⟨q, hq, hcount.trans hcount', ?_⟩
  rcases hstamp with hsame | hnow
  · rw [hsame]
    exact hstamp'
  · exact Or.inr hnow

theorem restamped_modify (now : Instant) (seq : ℕ)
    (wq : OrdMap ℕ SentPacket) :
    Restamped now wq (wq.modify seq (fun q => { q with sentAt := now })) := by
  intro x hx
  obtain ⟨y, hy, hxy⟩ := OrdMap.mem_modify.mp hx
  split at hxy
  · rw [hxy]
    exact ⟨y.2, hy, rfl, Or.inr rfl⟩
  · rw [hxy]
    exact ⟨y.2, hy, rfl, Or.inl rfl⟩

theorem restamped_resend (now : Instant) (l : List ℕ) (st : StreamState) :
    Restamped now st.writeQueue
      (UdpStreamInner.resend now st l).1.writeQueue := by
  induction l generalizing st with
  | nil => exact Restamped.refl now _
  | cons seq rest ih =>
      unfold UdpStreamInner.resend
      split
      · exact (restamped_modify now seq st.writeQueue).trans (ih _)
      · exact ih st

theorem restamped_afterAck (now : Instant)
    (r : StreamState × List ℕ × List Waker) :
    Restamped now r.1.writeQueue
      (UdpStreamInner.afterAck now r).1.writeQueue := by
  unfold UdpStreamInner.afterAck
  dsimp only
  split
  · exact restamped_resend now r.2.1 r.1
  · exact restamped_resend now r.2.1 r.1

/-- A packet drops chunks and restamps chunks, and does nothing else to them. -/
theorem restamped_dispatch (st : StreamState) (pkt : IncomingPacket)
    (now : Instant) : Restamped now st.writeQueue
      (UdpStreamInner.dispatch st pkt now).1.writeQueue := by
  unfold UdpStreamInner.dispatch
  cases pkt.header.packetKind with
  | stream =>
      dsimp only
      rw [(st.pushData_frame pkt.header.seq pkt.payload).2.2.1]
      exact Restamped.refl now _
  | sack =>
      obtain ⟨ww, hack⟩ :=
        UdpStreamInner.handleAck_frame st pkt.header.ack pkt.header.ackBits
      have hdrop : Restamped now st.writeQueue
          (st.handleAck pkt.header.ack pkt.header.ackBits).1.writeQueue := by
        rw [hack]
        exact fun x hx => ⟨x.2, (OrdMap.mem_retain.mp hx).1, rfl, Or.inl rfl⟩
      exact hdrop.trans (restamped_afterAck now _)
  | nack =>
      obtain ⟨ww, hnack⟩ :=
        UdpStreamInner.handleNack_frame st pkt.header.seq pkt.header.ack
      have hsame : Restamped now st.writeQueue
          (st.handleNack pkt.header.seq pkt.header.ack).1.writeQueue := by
        rw [hnack]
        exact Restamped.refl now _
      exact hsame.trans (restamped_afterAck now _)
  | _ => exact Restamped.refl now _

/-! ## The invariant -/

/-- A chunk that has been waiting since before the stream fell silent, and has
been resent in time ever since. -/
structure Overdue (period : ℕ) (v : View) (ticked : Instant)
    (p : SentPacket) : Prop where
  since : p.sentAt ≤ v.lastReceived + secs 300 + period +
    p.retransmits * (millis 200 + period)
  count : p.retransmits ≤ 100
  due : ticked ≤ p.sentAt + millis 200

/-- An open stream has ticked within 300 s of the last packet, or an overdue
chunk keeps it open. -/
structure Listening (period : ℕ) (v : View) (clock ticked : Instant) :
    Prop where
  tcp : v.st.mode = .tcp
  keys : ∀ x ∈ v.st.writeQueue.entries, x.1 < v.st.nextWriteSeq
  sent : ∀ x ∈ v.st.writeQueue.entries,
    x.2.sentAt ≤ clock ∧ x.2.retransmits ≤ 100
  heard : v.lastReceived ≤ clock
  ticks : ticked ≤ clock
  dense : clock ≤ ticked + period
  awake : ticked ≤ v.lastReceived + secs 300 ∨
    ∃ x ∈ v.st.writeQueue.entries, Overdue period v ticked x.2

section Steps

variable {period : ℕ} {v v' : View} {clock ticked now : Instant}

/-- An overdue chunk stays overdue through an alive tick. -/
theorem Overdue.tick {p p' : SentPacket} (h : Overdue period v ticked p)
    (hdense : now ≤ ticked + period)
    (hcase : (p' = p ∧ now - p.sentAt ≤ millis 200) ∨
      (p'.sentAt = now ∧ p'.retransmits = p.retransmits + 1 ∧
        p.retransmits < 100)) (st : StreamState) :
    Overdue period { v with st := st } now p' := by
  have hsince := h.since
  have hdue := h.due
  rcases hcase with ⟨rfl, hyoung⟩ | ⟨hnow, hcount, hlim⟩
  · refine ⟨hsince, h.count, ?_⟩
    dsimp only [Instant] at *
    omega
  · refine ⟨?_, by omega, ?_⟩
    · rw [hnow, hcount, Nat.succ_mul]
      dsimp only [Instant] at *
      omega
    · rw [hnow]
      exact Nat.le_add_right _ _

/-- A chunk that waits when the 300 s have just passed is overdue from the
next tick on. -/
theorem overdue_first {p p' : SentPacket} (hsent : p.sentAt ≤ clock)
    (hticked : clock ≤ v.lastReceived + secs 300 + period)
    (hnow : now ≤ v.lastReceived + secs 300 + period)
    (hlim : p.retransmits ≤ 100)
    (hcase : (p' = p ∧ now - p.sentAt ≤ millis 200) ∨
      (p'.sentAt = now ∧ p'.retransmits = p.retransmits + 1 ∧
        p.retransmits < 100)) (st : StreamState) :
    Overdue period { v with st := st } now p' := by
  rcases hcase with ⟨rfl, hyoung⟩ | ⟨hstamp, hcount, hless⟩
  · refine ⟨?_, hlim, ?_⟩
    · dsimp only [Instant] at *
      omega
    · dsimp only [Instant] at *
      omega
  · refine ⟨?_, by omega, ?_⟩
    · rw [hstamp]
      dsimp only [Instant] at *
      omega
    · rw [hstamp]
      exact Nat.le_add_right _ _

/-- **Step lemma** for a tick that does not end the stream. -/
theorem Listening.tick (h : Listening period v clock ticked)
    (hclock : clock ≤ now) (hdense : now ≤ ticked + period)
    (halive : (v.st.getRetransmissions now).2.2 = false)
    (hwait : v.st.writeQueue.isEmpty = false ∨
      now - v.lastReceived ≤ secs 300) :
    Listening period { v with st := (v.st.getRetransmissions now).1 } now
      now := by
  have hqueue : (v.st.getRetransmissions now).1.writeQueue.entries =
      (StreamState.retransmitScan now v.st.writeQueue.entries).1 := by
    unfold StreamState.getRetransmissions
    rw [h.tcp]
    rfl
  rw [StreamState.getRetransmissions_tcp h.tcp] at halive
  obtain ⟨wq, hframe⟩ := v.st.getRetransmissions_frame now
  have hticks := h.ticks
  have hheard := h.heard
  refine ⟨?_, ?_, ?_, hheard.trans hclock, le_refl now, Nat.le_add_right _ _,
    ?_⟩
  · rw [hframe]
    exact h.tcp
  · intro x hx
    rw [hqueue] at hx
    obtain ⟨p, hp, -⟩ := StreamState.mem_retransmitScan hx
    rw [hframe]
    exact h.keys (x.1, p) hp
  · intro x hx
    rw [hqueue] at hx
    exact retransmitScan_bounds halive
      (fun y hy => ⟨(h.sent y hy).1.trans hclock, (h.sent y hy).2⟩) x hx
  · by_cases hrecent : now ≤ v.lastReceived + secs 300
    · exact Or.inl hrecent
    · right
      dsimp only
      rw [hqueue]
      rcases h.awake with hticked | ⟨⟨i, p⟩, hp, hover⟩
      · -- the first tick past the 300 s finds some chunk waiting
        have hne : v.st.writeQueue.isEmpty = false := by
          rcases hwait with hwait | hidle
          · exact hwait
          · dsimp only [Instant] at *
            omega
        obtain ⟨⟨i, p⟩, hp⟩ : ∃ x, x ∈ v.st.writeQueue.entries := by
          unfold OrdMap.isEmpty at hne
          cases hent : v.st.writeQueue.entries with
          | nil =>
              rw [hent] at hne
              cases hne
          | cons x xs => exact ⟨x, List.mem_cons_self⟩
        obtain ⟨hsent, hcount⟩ := h.sent _ hp
        obtain ⟨p', hp', hcase⟩ := retransmitScan_alive hp halive
        have hlate : now ≤ v.lastReceived + secs 300 + period :=
          hdense.trans (Nat.add_le_add_right hticked period)
        exact ⟨(i, p'), hp', overdue_first hsent (hclock.trans hlate) hlate
          hcount hcase _⟩
      · obtain ⟨p', hp', hcase⟩ := retransmitScan_alive hp halive
        exact ⟨(i, p'), hp', hover.tick hdense hcase _⟩

/-- A step that leaves the queue and the last packet alone. -/
theorem Listening.quiet (h : Listening period v clock ticked)
    (hclock : clock ≤ now) (hdense : now ≤ ticked + period)
    (htcp : v'.st.mode = v.st.mode)
    (hnext : v'.st.nextWriteSeq = v.st.nextWriteSeq)
    (hqueue : v'.st.writeQueue = v.st.writeQueue)
    (hheard : v'.lastReceived = v.lastReceived) :
    Listening period v' now ticked where
  tcp := htcp.trans h.tcp
  keys := by
    rw [hqueue, hnext]
    exact h.keys
  sent := by
    rw [hqueue]
    exact fun x hx => ⟨(h.sent x hx).1.trans hclock, (h.sent x hx).2⟩
  heard := by
    rw [hheard]
    exact h.heard.trans hclock
  ticks := h.ticks.trans hclock
  dense := hdense
  awake := by
    rw [hheard, hqueue]
    rcases h.awake with hrecent | ⟨x, hx, hover⟩
    · exact Or.inl hrecent
    · refine Or.inr ⟨x, hx, ?_, hover.count, hover.due⟩
      rw [hheard]
      exact hover.since

/-- A write adds a fresh chunk and takes none away. -/
theorem Listening.wrote (h : Listening period v clock ticked)
    (hclock : clock ≤ now) (hdense : now ≤ ticked + period) (data : Bytes)
    (ch : List (ℕ × Bytes)) (acc : List (ℕ × Bytes)) :
    Listening period { v with
      st := { v.st with
        nextWriteSeq := v.st.nextWriteSeq + 1
        writeQueue := v.st.writeQueue.insert v.st.nextWriteSeq ⟨data, now, 0⟩ }
      writeCh := ch
      accepted := acc } now ticked where
  tcp := h.tcp
  keys := by
    intro x hx
    rcases OrdMap.mem_insert.mp hx with rfl | ⟨hx', -⟩
    · exact Nat.lt_succ_self _
    · exact Nat.lt_succ_of_lt (h.keys x hx')
  sent := by
    intro x hx
    rcases OrdMap.mem_insert.mp hx with rfl | ⟨hx', -⟩
    · exact ⟨le_refl now, Nat.zero_le _⟩
    · exact ⟨(h.sent x hx').1.trans hclock, (h.sent x hx').2⟩
  heard := h.heard.trans hclock
  ticks := h.ticks.trans hclock
  dense := hdense
  awake := by
    rcases h.awake with hrecent | ⟨x, hx, hover⟩
    · exact Or.inl hrecent
    · refine Or.inr ⟨x, ?_, hover.since, hover.count, hover.due⟩
      exact OrdMap.mem_insert.mpr (Or.inr ⟨hx, Nat.ne_of_lt (h.keys x hx)⟩)

/-- A packet resets the clock that the 300 s run by. -/
theorem Listening.incoming (h : Listening period v clock ticked)
    (hclock : clock ≤ now) (hdense : now ≤ ticked + period)
    (pkt : IncomingPacket) (closed : Bool) (src : SocketAddr) :
    Listening period { v with
      st := (UdpStreamInner.dispatch v.st pkt now).1
      closed := closed
      peerAddr := src
      lastReceived := now } now ticked where
  tcp := (UdpStreamInner.dispatch_frame v.st pkt now).1.trans h.tcp
  keys := by
    intro x hx
    obtain ⟨p, hp, -⟩ := restamped_dispatch v.st pkt now x hx
    show x.1 < (UdpStreamInner.dispatch v.st pkt now).1.nextWriteSeq
    rw [(UdpStreamInner.dispatch_frame v.st pkt now).2]
    exact h.keys (x.1, p) hp
  sent := by
    intro x hx
    obtain ⟨p, hp, hcount, hstamp⟩ := restamped_dispatch v.st pkt now x hx
    obtain ⟨hsent, hle⟩ := h.sent _ hp
    refine ⟨?_, hcount ▸ hle⟩
    rcases hstamp with hsame | hnow
    · rw [hsame]
      exact hsent.trans hclock
    · exact Nat.le_of_eq hnow
  heard := le_refl now
  ticks := h.ticks.trans hclock
  dense := hdense
  awake := Or.inl ((h.ticks.trans hclock).trans (Nat.le_add_right _ _))

/-- **Step lemma.** -/
theorem Listening.effect {sid : UInt32} {op : Op} {out : Output}
    (h : Listening period v clock ticked) (heff : Effect sid v op v' out)
    (hopen : v'.closed = false) (hmode : op ≠ .setUdpNackMode)
    (htime : ∀ now, op.time? = some now → clock ≤ now ∧ now ≤ ticked + period)
    (hidle : ∀ now, op = .tick now → v.st.writeQueue.isEmpty = false ∨
      now - v.lastReceived ≤ secs 300) :
    Listening period v' (op.time?.getD clock) (op.tick?.getD ticked) := by
  cases heff with
  | wrote hold hroom hch =>
      obtain ⟨hclock, hdense⟩ := htime _ rfl
      exact h.wrote hclock hdense _ _ _
  | incoming hold hrun =>
      obtain ⟨hclock, hdense⟩ := htime _ rfl
      exact h.incoming hclock hdense _ _ _
  | ticked pings hold hpings halive =>
      obtain ⟨hclock, hdense⟩ := htime _ rfl
      exact h.tick hclock hdense halive (hidle _ rfl)
  | nackMode => exact absurd rfl hmode
  | shut hch => cases hopen
  | tickEnded hcause => cases hopen
  | tickTimedOut hold hdead => cases hopen
  | failed => cases hopen
  | ended hrun => cases hopen
  | eof hclosed hempty => exact h
  | read n => exact h.quiet (le_refl _) h.dense rfl rfl rfl rfl
  | readParked hold hempty =>
      exact h.quiet (le_refl _) h.dense rfl rfl rfl rfl
  | dropped => exact h.quiet (le_refl _) h.dense rfl rfl rfl rfl
  | _ =>
      obtain ⟨hclock, hdense⟩ := htime _ rfl
      exact h.quiet hclock hdense rfl rfl rfl rfl

end Steps

/-! ## The main result -/

theorem UdpStream.endTask_closed (u : UdpStream) :
    u.endTask.1.inner.closed = true := by
  unfold endTask UdpStreamInner.closeAndWake
  dsimp only
  split <;> rfl

/-- A tick that leaves the stream open has found a chunk waiting or a packet
within 300 s. -/
theorem Endpoint.tick_not_idle {e e' : Endpoint} {now : Instant}
    {out : Output} (hwf : e.WF) (hs : e.step (.tick now) = some (e', out))
    (hopen : e'.snap.closed = false) :
    e.st.writeQueue.isEmpty = false ∨
      now - e.snap.lastReceived ≤ secs 300 := by
  by_contra hidle
  rw [not_or, Bool.not_eq_false, Nat.not_le] at hidle
  simp only [step] at hs
  split at hs
  · have hstreams : e.stream.inner.reliability.streams.entries =
        [⟨e.stream.streamId, e.st⟩] := by
      have hone : e.stream.inner.reliability.streams =
        AList.singleton e.stream.streamId e.st := hwf
      rw [hone]
      rfl
    have htick : ∃ inner msg,
        e.stream.inner.handleTick now = (inner, .error msg) := by
      unfold UdpStreamInner.handleTick
      split
      · exact ⟨_, _, rfl⟩
      · rw [if_pos]
        · exact ⟨_, _, rfl⟩
        · rw [hstreams]
          simp only [List.any_cons, List.any_nil, Bool.or_false, Bool.not_not,
            Bool.and_eq_true, decide_eq_true_eq]
          exact hidle
    obtain ⟨inner, msg, htick⟩ := htick
    unfold UdpStream.tick at hs
    rw [htick] at hs
    cases hs
    have hopen' : (({ e.stream with inner := inner } :
        UdpStream).endTask.1).inner.closed = false := hopen
    rw [UdpStream.endTask_closed] at hopen'
    cases hopen'
  · cases hs

namespace Watched

/-- The steps of a stream that keeps to Tcp mode and has its ticks. -/
def Kept (period : ℕ) (w : Watched) (op : Op) : Prop :=
  op ≠ .setUdpNackMode ∧ Timely period w op

instance (period : ℕ) (w : Watched) (op : Op) :
    Decidable (Kept period w op) :=
  inferInstanceAs (Decidable (_ ∧ _))

theorem kept_step {period : ℕ} {w w' : Watched} {op : Op}
    (hwf : w.endpoint.WF)
    (h : w.endpoint.snap.closed = false →
      Listening period w.endpoint.snap w.clock w.ticked)
    (hkept : Kept period w op) (hs : w.step op = some w') :
    w'.endpoint.WF ∧ (w'.endpoint.snap.closed = false →
      Listening period w'.endpoint.snap w'.clock w'.ticked) := by
  obtain ⟨⟨e', out⟩, hr, rfl⟩ := Option.map_eq_some_iff.mp hs
  obtain ⟨hwf', heff⟩ := Endpoint.wf_step hwf hr
  refine ⟨hwf', fun hopen => ?_⟩
  have hold := heff.open_before hopen
  refine (h hold).effect heff hopen hkept.1 ?_ ?_
  · intro now hnow
    exact ⟨(hkept.2 now hnow).1, (hkept.2 now hnow).2 hold⟩
  · rintro now rfl
    exact Endpoint.tick_not_idle hwf hr hopen

/-- A client sends its StreamOpen, writes, and hears nothing. -/
def unheard : List Op :=
  [.connectTurn 0, .tick (millis 50), .pollWrite 0 [1] (millis 60),
    .writeRx (millis 60), .tick (millis 100), .tick (millis 150)]

/-- What the application of a NACK-mode stream does to keep it open: it writes
a byte before every tick. -/
def chatter (n : ℕ) : List Op :=
  (List.range n).flatMap (fun k =>
    [.pollWrite 0 [0] (millis (50 * k)), .tick (millis (50 * k))])

/-- The opening handshake of a stream, and its switch to NACK mode. -/
def opened (sid : UInt32) (server : SocketAddr) : List Op :=
  [.connectTurn 0, .incoming ⟨⟨sid, .streamOpenAck, 0, 0, 0⟩, [], server⟩ 0,
    .setUdpNackMode]

/-- A NACK-mode stream in use that has heard nothing since `last`. -/
structure Unheard (last : Instant) (v : View) : Prop where
  established : v.st.established = true
  udp : v.st.mode = .udp
  heard : v.lastReceived = last
  isOpen : v.closed = false
  running : v.running = true
  held : v.dropped = false

/-- After a write something is waiting, if only a full queue. -/
theorem Unheard.write {sid : UInt32} {last now : Instant} {cx : Waker}
    {buf : Bytes} {v v' : View} {out : Output} (h : Unheard last v)
    (heff : Effect sid v (.pollWrite cx buf now) v' out) :
    Unheard last v' ∧ v'.st.writeQueue.isEmpty = false := by
  have hne {wq : OrdMap ℕ SentPacket} {x : ℕ × SentPacket}
      (hx : x ∈ wq.entries) : wq.isEmpty = false := by
    unfold OrdMap.isEmpty
    cases hent : wq.entries with
    | nil =>
        rw [hent] at hx
        cases hx
    | cons y ys => rfl
  cases heff with
  | writeRefused hclosed =>
      rw [h.isOpen] at hclosed
      cases hclosed
  | wrote hold hroom hch =>
      refine ⟨⟨h.established, h.udp, h.heard, h.isOpen, h.running, h.held⟩, ?_⟩
      exact hne (OrdMap.mem_insert.mpr (Or.inl rfl))
  | writeParked hold hfull =>
      refine ⟨⟨h.established, h.udp, h.heard, h.isOpen, h.running, h.held⟩, ?_⟩
      obtain ⟨x, hx⟩ := List.exists_mem_of_length_pos
        (Nat.lt_of_lt_of_le (Nat.succ_pos 1023) hfull)
      exact hne hx

/-- A tick that finds something waiting does not end a NACK-mode stream. -/
theorem Unheard.tick {sid : UInt32} {last now : Instant} {v v' : View}
    {out : Output} (h : Unheard last v)
    (hwait : v.st.writeQueue.isEmpty = false)
    (heff : Effect sid v (.tick now) v' out) : Unheard last v' := by
  obtain ⟨wq, hframe⟩ := v.st.getRetransmissions_frame now
  rcases heff.tick_inv h.isOpen with ⟨-, rfl, -⟩ | ⟨hempty, -⟩ | ⟨hdead, -⟩
  · refine ⟨?_, ?_, h.heard, h.isOpen, h.running, h.held⟩
    · dsimp only
      rw [hframe]
      exact h.established
    · dsimp only
      rw [hframe]
      exact h.udp
  · rw [hwait] at hempty
    cases hempty
  · rw [StreamState.getRetransmissions_udp h.udp] at hdead
    cases hdead

theorem step_some {e e' : Endpoint} {op : Op} {out : Output}
    (hs : e.step op = some (e', out)) (clock ticked : Instant) :
    step ⟨e, clock, ticked⟩ op =
      some ⟨e', op.time?.getD clock, op.tick?.getD ticked⟩ := by
  unfold step
  rw [hs]
  rfl

/-- **Step lemma**: one write and one tick. -/
theorem unheard_turn {last : Instant} (now : Instant) {w : Watched}
    (hwf : w.endpoint.WF) (h : Unheard last w.endpoint.snap) :
    ∃ w', Runs.Run step w [.pollWrite 0 [0] now, .tick now] w' ∧
      w'.endpoint.WF ∧ Unheard last w'.endpoint.snap ∧ w'.clock = now ∧
      w'.ticked = now := by
  have hheld : w.endpoint.dropped = false := h.held
  have hwrite : ∃ r, w.endpoint.step (.pollWrite 0 [0] now) = some r :=
    ⟨_, if_neg (by simp [hheld])⟩
  obtain ⟨⟨e₁, out₁⟩, hs₁⟩ := hwrite
  obtain ⟨hwf₁, heff₁⟩ := Endpoint.wf_step hwf hs₁
  obtain ⟨h₁, hwait⟩ := h.write heff₁
  have htick : ∃ r, e₁.step (.tick now) = some r := ⟨_, if_pos h₁.running⟩
  obtain ⟨⟨e₂, out₂⟩, hs₂⟩ := htick
  obtain ⟨hwf₂, heff₂⟩ := Endpoint.wf_step hwf₁ hs₂
  exact ⟨⟨e₂, now, now⟩, Runs.run_cons.mpr
    ⟨_, step_some hs₁ w.clock w.ticked, Runs.run_cons.mpr
      ⟨_, step_some hs₂ now w.ticked, Runs.run_nil.mpr rfl⟩⟩, hwf₂,
    h₁.tick hwait heff₂, rfl, rfl⟩

/-- The handshake takes place at time 0, and leaves a stream that is in use. -/
theorem unheard_opened (sid : UInt32) (server : SocketAddr) :
    ∃ w, Runs.Run step (start (.connecting sid server 0) 0)
        (opened sid server) w ∧
      Runs.Meets step (Timely (millis 50)) (start (.connecting sid server 0) 0)
        (opened sid server) ∧
      w.endpoint.WF ∧ Unheard 0 w.endpoint.snap ∧ w.clock = 0 ∧
      w.ticked = 0 := by
  have hwf := (Endpoint.holds_connecting sid server 0).wf
  have hsnap := Endpoint.snap_connecting sid server 0
  obtain ⟨⟨e₁, out₁⟩, hs₁⟩ : ∃ r,
      (Endpoint.connecting sid server 0).step (.connectTurn 0) = some r := by
    have hst : (Endpoint.connecting sid server 0).st = StreamState.new .tcp :=
      (Endpoint.holds_connecting sid server 0).st_eq
    simp only [Endpoint.step, UdpStream.connectTurn, hwf.state?, hst]
    exact ⟨_, rfl⟩
  obtain ⟨hwf₁, heff₁⟩ := Endpoint.wf_step hwf hs₁
  obtain ⟨hsid, hdest⟩ := Endpoint.step_streamId hwf hs₁
  have hsnap₁ : e₁.snap = (Endpoint.connecting sid server 0).snap := by
    generalize e₁.snap = v at heff₁ ⊢
    cases heff₁
    rfl
  obtain ⟨⟨e₂, out₂⟩, hs₂⟩ : ∃ r, e₁.step (.incoming
      ⟨⟨sid, .streamOpenAck, 0, 0, 0⟩, [], server⟩ 0) = some r := by
    have hruns : e₁.snap.running = true := by
      rw [hsnap₁, hsnap]
    have hroutes : e₁.routes ⟨⟨sid, .streamOpenAck, 0, 0, 0⟩, [], server⟩ =
        true := by
      unfold Endpoint.routes
      rw [hsid, hdest]
      simp [Endpoint.connecting, UdpStream.new]
    exact ⟨_, if_pos ⟨hruns, hroutes⟩⟩
  obtain ⟨hwf₂, heff₂⟩ := Endpoint.wf_step hwf₁ hs₂
  rw [hsnap₁, hsnap] at heff₂
  obtain ⟨hsnap₂, -⟩ := heff₂.incoming_inv rfl
  obtain ⟨⟨e₃, out₃⟩, hs₃⟩ : ∃ r, e₂.step .setUdpNackMode = some r := by
    have hheld : e₂.snap.dropped = false := by
      rw [hsnap₂]
    exact ⟨_, if_neg (by simp [show e₂.dropped = false from hheld])⟩
  obtain ⟨hwf₃, heff₃⟩ := Endpoint.wf_step hwf₂ hs₃
  have hstep₁ := step_some hs₁ 0 0
  have hstep₂ := step_some hs₂ 0 0
  have hstep₃ := step_some hs₃ 0 0
  refine ⟨⟨e₃, 0, 0⟩, Runs.run_cons.mpr ⟨_, hstep₁, Runs.run_cons.mpr
    ⟨_, hstep₂, Runs.run_cons.mpr ⟨_, hstep₃, Runs.run_nil.mpr rfl⟩⟩⟩,
    ⟨?_, fun u hu => ⟨?_, fun u' hu' => ⟨?_, fun _ _ => trivial⟩⟩⟩, hwf₃, ?_,
    rfl, rfl⟩
  · rintro now hnow
    cases hnow
    exact ⟨le_refl _, fun _ => Nat.zero_le _⟩
  · cases hstep₁.symm.trans hu
    rintro now hnow
    cases hnow
    exact ⟨le_refl _, fun _ => Nat.zero_le _⟩
  · rintro now hnow
    cases hnow
  · show Unheard 0 e₃.snap
    generalize e₃.snap = v at heff₃ ⊢
    cases heff₃
    rw [hsnap₂]
    exact ⟨rfl, rfl, rfl, rfl, rfl, rfl⟩

/-- **In NACK mode a silent peer need not be noticed.** For every length of
time there is a run of an established stream in NACK mode, ticking every 50 ms,
in which no packet arrives after the handshake and the stream is open at the
end: the application only has to write. -/
theorem nack_mode_never_notices (sid : UInt32) (server : SocketAddr) (n : ℕ) :
    ∃ w, Runs.Run step (start (.connecting sid server 0) 0)
        (opened sid server ++ chatter (n + 1)) w ∧
      Runs.Meets step (Timely (millis 50)) (start (.connecting sid server 0) 0)
        (opened sid server ++ chatter (n + 1)) ∧
      w.endpoint.st.established = true ∧
      w.endpoint.stream.inner.closed = false ∧
      w.endpoint.stream.inner.lastReceived = 0 ∧ w.clock = millis (50 * n) := by
  -- the stream after `n` turns, with the time of the last of them
  have hrun : ∀ n, ∃ w, Runs.Run step (start (.connecting sid server 0) 0)
        (opened sid server ++ chatter n) w ∧
      Runs.Meets step (Timely (millis 50)) (start (.connecting sid server 0) 0)
        (opened sid server ++ chatter n) ∧
      w.endpoint.WF ∧ Unheard 0 w.endpoint.snap ∧
      w.clock = millis (50 * (n - 1)) ∧ w.ticked = w.clock := by
    intro n
    induction n with
    | zero =>
        obtain ⟨w, hw, hmeets, hwf, hun, hclock, hticked⟩ :=
          unheard_opened sid server
        exact ⟨w, hw, hmeets, hwf, hun, hclock, hticked.trans hclock.symm⟩
    | succ n ih =>
        obtain ⟨w, hw, hmeets, hwf, hun, hclock, hticked⟩ := ih
        obtain ⟨w', hturn, hwf', hun', hclock', hticked'⟩ :=
          unheard_turn (millis (50 * n)) hwf hun
        have hsplit : chatter (n + 1) = chatter n ++
            [.pollWrite 0 [0] (millis (50 * n)), .tick (millis (50 * n))] := by
          simp [chatter, List.range_succ]
        have hlate : w.clock ≤ millis (50 * n) ∧
            millis (50 * n) ≤ w.ticked + millis 50 := by
          rw [hticked, hclock]
          dsimp only [Instant, millis]
          omega
        refine ⟨w', ?_, ?_, hwf', hun', ?_, ?_⟩
        · rw [hsplit, ← List.append_assoc]
          exact Runs.run_append.mpr ⟨w, hw, hturn⟩
        · rw [hsplit, ← List.append_assoc]
          refine (Runs.meets_append hw).mpr ⟨hmeets, ?_, fun u hu => ⟨?_, ?_⟩⟩
          · rintro now hnow
            cases hnow
            exact ⟨hlate.1, fun _ => hlate.2⟩
          · obtain ⟨r, -, rfl⟩ := Option.map_eq_some_iff.mp hu
            rintro now hnow
            cases hnow
            exact ⟨le_refl _, fun _ => hlate.2⟩
          · exact fun _ _ => trivial
        · rw [hclock', Nat.add_sub_cancel]
        · rw [hticked', hclock']
  obtain ⟨w, hw, hmeets, -, hun, hclock, -⟩ := hrun (n + 1)
  exact ⟨w, hw, hmeets, hun.established, hun.isOpen, hun.heard, hclock⟩

end Watched

end Rathole
