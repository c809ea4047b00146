import Rathole.Lib.Runs
import Rathole.Transport.Endpoint

/-!
# The end of a stream

A stream is closed by its own application, by the peer's StreamClose, by a
socket error or by the end of its task. Nobody stays parked on it after the
last three: whoever closes takes the wakers, and a closed stream never parks
anyone (`parked_reader_waits`). The application's own shutdown takes none, so a
reader parked before it waits for the end of the task.

The shutdown of the application is announced to the peer by a sentinel in the
write channel, and the flag that is set with it also stops the task at its next
tick. So the StreamClose goes out only if the channel has room and the task
gets to the sentinel first (`shutdown_announced_iff`).
-/

namespace Rathole

/-! ## Nobody sleeps on a closed stream -/

/-- Closed, with nobody parked. -/
structure View.Quiet (v : View) : Prop where
  closed : v.closed = true
  reader : v.st.readWaker = none
  writer : v.st.writeWaker = none

/-- A reader is parked only when there is nothing to read. -/
def View.ReaderWaits (v : View) : Prop :=
  v.st.readWaker ≠ none → v.st.readBufBytes = []

section Wakers

variable {sid : UInt32} {v v' : View} {op : Op} {out : Output}

/-- A packet takes the parked reader, or leaves both the reader and the bytes
as they were. -/
theorem dispatch_reader (st : StreamState) (pkt : IncomingPacket)
    (now : Instant) :
    (UdpStreamInner.dispatch st pkt now).1.readWaker = none ∨
      ((UdpStreamInner.dispatch st pkt now).1.readWaker = st.readWaker ∧
        (UdpStreamInner.dispatch st pkt now).1.readBufBytes =
          st.readBufBytes) := by
  unfold UdpStreamInner.dispatch
  cases pkt.header.packetKind with
  | stream => exact Or.inl rfl
  | streamClose => exact Or.inl rfl
  | sack =>
      obtain ⟨ww, hack⟩ :=
        UdpStreamInner.handleAck_frame st pkt.header.ack pkt.header.ackBits
      obtain ⟨wq, ww', heq, -⟩ := UdpStreamInner.afterAck_frame now
        (st.handleAck pkt.header.ack pkt.header.ackBits)
      dsimp only
      rw [heq, hack]
      exact Or.inr ⟨rfl, rfl⟩
  | nack =>
      obtain ⟨ww, hnack⟩ :=
        UdpStreamInner.handleNack_frame st pkt.header.seq pkt.header.ack
      obtain ⟨wq, ww', heq, -⟩ := UdpStreamInner.afterAck_frame now
        (st.handleNack pkt.header.seq pkt.header.ack)
      dsimp only
      rw [heq, hnack]
      exact Or.inr ⟨rfl, rfl⟩
  | _ => exact Or.inr ⟨rfl, rfl⟩

/-- **Step lemma**: no step leaves a reader parked on bytes. -/
theorem Effect.readerWaits (h : Effect sid v op v' out)
    (hv : v.ReaderWaits) : v'.ReaderWaits := by
  cases h with
  | read n =>
      intro hparked
      dsimp only at hparked ⊢
      rw [hv hparked, List.drop_nil]
  | readParked hopen hempty => exact fun _ => hempty
  | incoming hopen hrun =>
      rename_i pkt now
      intro hparked
      rcases dispatch_reader v.st pkt now with hnone | ⟨hsame, hbytes⟩
      · exact absurd hnone hparked
      · dsimp only at hparked ⊢
        rw [hbytes]
        exact hv (hsame ▸ hparked)
  | ticked pings hopen hpings halive =>
      obtain ⟨wq, hwq⟩ := v.st.getRetransmissions_frame _
      unfold View.ReaderWaits
      dsimp only
      rw [hwq]
      exact hv
  | tickEnded hcause => exact fun hparked => absurd rfl hparked
  | tickTimedOut hopen hdead => exact fun hparked => absurd rfl hparked
  | failed => exact fun hparked => absurd rfl hparked
  | ended hrun => exact fun hparked => absurd rfl hparked
  | _ => exact hv

/-- **Step lemma**: a closed stream parks nobody. -/
theorem Effect.quiet (h : Effect sid v op v' out) (hv : v.Quiet) :
    v'.Quiet := by
  obtain ⟨hclosed, hreader, hwriter⟩ := hv
  have hopen : v.closed ≠ false := by
    rw [hclosed]
    exact Bool.noConfusion
  cases h with
  | wrote hopen' => exact absurd hopen' hopen
  | writeParked hopen' => exact absurd hopen' hopen
  | readParked hopen' => exact absurd hopen' hopen
  | incoming hopen' => exact absurd hopen' hopen
  | ticked pings hopen' => exact absurd hopen' hopen
  | tickTimedOut hopen' => exact absurd hopen' hopen
  | shut hch => exact ⟨rfl, hreader, hwriter⟩
  | tickEnded hcause => exact ⟨rfl, rfl, rfl⟩
  | failed => exact ⟨rfl, rfl, rfl⟩
  | ended hrun => exact ⟨rfl, rfl, rfl⟩
  | _ => exact ⟨hclosed, hreader, hwriter⟩

/-- **Step lemma**: the task ends with nobody parked. -/
theorem Effect.quiet_of_ended (h : Effect sid v op v' out)
    (hv : v.running = false → v.Quiet) (hend : v'.running = false) :
    v'.Quiet := by
  by_cases hrun : v.running = false
  · exact h.quiet (hv hrun)
  · cases h with
    | tickEnded hcause => exact ⟨rfl, rfl, rfl⟩
    | tickTimedOut hopen hdead => exact ⟨rfl, rfl, rfl⟩
    | ended hrun => exact ⟨rfl, rfl, rfl⟩
    | _ => exact absurd hend hrun

/-- A StreamClose that reaches an open stream leaves nobody parked. -/
theorem Effect.quiet_of_streamClose {pkt : IncomingPacket} {now : Instant}
    (h : Effect sid v (.incoming pkt now) v' out) (hopen : v.closed = false)
    (hk : pkt.header.packetKind = .streamClose) : v'.Quiet := by
  obtain ⟨rfl, -⟩ := h.incoming_inv hopen
  unfold UdpStreamInner.dispatch
  rw [hk]
  exact ⟨rfl, rfl, rfl⟩

end Wakers

namespace Endpoint

/-- What holds of every reachable endpoint. -/
structure ParkingInv (e : Endpoint) : Prop where
  wf : e.WF
  reader : e.snap.ReaderWaits
  ended : e.snap.running = false → e.snap.Quiet

theorem parkingInv_fresh {e : Endpoint} (h : e.Fresh) : ParkingInv e := by
  have hst := h.holds.st_eq
  refine ⟨h.holds.wf, ?_, ?_⟩
  · intro hparked
    have hnone : e.snap.st.readWaker = none := by
      show e.st.readWaker = none
      rw [hst]
      rfl
    exact absurd hnone hparked
  · obtain ⟨sid, addr, t, rfl | rfl⟩ := h
    · intro hend
      cases hend
    · intro hend
      cases hend

theorem ParkingInv.next {e e' : Endpoint} {op : Op} (h : ParkingInv e)
    (hs : e.next op = some e') : ParkingInv e' := by
  obtain ⟨hwf, out, -, heff⟩ := wf_next h.wf hs
  exact ⟨hwf, heff.readerWaits h.reader, heff.quiet_of_ended h.ended⟩

/-- **Run lemma**: a quiet stream stays quiet. -/
theorem quiet_run {e f : Endpoint} {ops : List Op} (hwf : e.WF)
    (hq : e.snap.Quiet) (hrun : Runs.Run Endpoint.next e ops f) :
    f.snap.Quiet :=
  run_effect (fun _ _ _ _ _ heff hq => heff.quiet hq) hwf hq hrun

/-- A closed stream drops what arrives unread. -/
theorem next_incoming_closed {e e' : Endpoint} {pkt : IncomingPacket}
    {now : Instant} (hclosed : e.stream.inner.closed = true)
    (hs : e.next (.incoming pkt now) = some e') : e' = e := by
  unfold next Endpoint.step at hs
  obtain ⟨⟨e₁, out⟩, hr, rfl⟩ := Option.map_eq_some_iff.mp hs
  dsimp only at hr
  split at hr
  · unfold UdpStreamInner.handleIncoming at hr
    rw [if_pos hclosed] at hr
    cases hr
    rfl
  · cases hr

/-- **Nobody sleeps through an event.** In every reachable state a parked
reader has nothing to read; and from the end of the task on, and from a
StreamClose on that finds the stream open, the stream is closed and nobody is
parked on it. A closed stream drops a StreamClose like any other packet. -/
theorem parked_reader_waits (e₀ e : Endpoint) (hfresh : e₀.Fresh)
    (ops : List Op) (hrun : Runs.Run Endpoint.next e₀ ops e) :
    (e.st.readWaker ≠ none → e.st.readBufBytes = []) ∧
    (e.stream.running = false → ∀ ops' f, Runs.Run Endpoint.next e ops' f →
      f.stream.inner.closed = true ∧ f.st.readWaker = none ∧
        f.st.writeWaker = none) ∧
    (∀ pkt now e', e.stream.inner.closed = false →
      pkt.header.packetKind = .streamClose →
      e.next (.incoming pkt now) = some e' →
      ∀ ops' f, Runs.Run Endpoint.next e' ops' f →
        f.stream.inner.closed = true ∧ f.st.readWaker = none ∧
          f.st.writeWaker = none) ∧
    (∀ pkt now e', e.stream.inner.closed = true →
      pkt.header.packetKind = .streamClose →
      e.next (.incoming pkt now) = some e' → e' = e) := by
  have hinv : ParkingInv e := Runs.run_preserves
    (fun _ _ _ h hs => h.next hs) (parkingInv_fresh hfresh) hrun
  refine ⟨hinv.reader, ?_, ?_,
    fun pkt now e' hclosed _ hs => next_incoming_closed hclosed hs⟩
  · intro hend ops' f hrun'
    obtain ⟨hclosed, hreader, hwriter⟩ :=
      quiet_run hinv.wf (hinv.ended hend) hrun'
    exact ⟨hclosed, hreader, hwriter⟩
  · intro pkt now e' hopen hk hs ops' f hrun'
    obtain ⟨hwf', out, -, heff⟩ := wf_next hinv.wf hs
    obtain ⟨hclosed, hreader, hwriter⟩ :=
      quiet_run hwf' (heff.quiet_of_streamClose hopen hk) hrun'
    exact ⟨hclosed, hreader, hwriter⟩

/-- A packet without payload from the peer of the runs below. -/
def bare (kind : PacketKind) : IncomingPacket :=
  ⟨⟨7, kind, 0, 0, 0⟩, [], connectorAddr⟩

/-- An accepted stream. -/
def acceptedSeven : Endpoint := accepting 7 connectorAddr 0

theorem acceptedSeven_fresh : acceptedSeven.Fresh := ⟨_, _, _, Or.inr rfl⟩

/-- A reader parks on a stream that the peer then closes. -/
theorem parked_reader_waits_close : ∃ e e',
    Runs.Run Endpoint.next acceptedSeven
      [.incoming (bare .streamOpen) 0, .pollRead 5 10] e ∧
    e.st.readWaker = some 5 ∧
    e.next (.incoming (bare .streamClose) 1) = some e' ∧
    e'.stream.inner.closed = true ∧ e'.st.readWaker = none ∧
      e'.st.writeWaker = none := by
  have hrun : Runs.Run Endpoint.next acceptedSeven
      [.incoming (bare .streamOpen) 0, .pollRead 5 10] _ := rfl
  obtain ⟨-, -, hclose, -⟩ :=
    parked_reader_waits acceptedSeven _ acceptedSeven_fresh _ hrun
  refine ⟨_, _, hrun, rfl, rfl, ?_⟩
  exact hclose (bare .streamClose) 1 _ rfl rfl rfl [] _ (Runs.run_nil.mpr rfl)

/-- The stream's own shutdown comes first: the StreamClose is dropped and the
reader stays parked, until the task ends. -/
theorem reader_parked_through_close : ∃ e e',
    Runs.Run Endpoint.next acceptedSeven
      [.incoming (bare .streamOpen) 0, .pollRead 5 10, .pollShutdown] e ∧
    e.next (.incoming (bare .streamClose) 1) = some e' ∧
    ¬ (e'.stream.inner.closed = true ∧ e'.st.readWaker = none ∧
      e'.st.writeWaker = none) := by
  have hrun : Runs.Run Endpoint.next acceptedSeven
      [.incoming (bare .streamOpen) 0, .pollRead 5 10, .pollShutdown] _ := rfl
  refine ⟨_, _, hrun, rfl, ?_⟩
  rintro ⟨-, hreader, -⟩
  have hparked : some 5 = (none : Option Waker) := hreader
  cases hparked

/-! ## The StreamClose of a shutdown -/

/-- What the socket is given along a run. -/
def sentIn (e : Endpoint) : List Op → List Datagram
  | [] => []
  | op :: ops =>
      match e.step op with
      | some (e', out) => out.sent ++ e'.sentIn ops
      | none => []

/-- The run sends a StreamClose of the stream to its peer. -/
def Announces (e : Endpoint) (ops : List Op) : Prop :=
  ∃ d ∈ e.sentIn ops, d.header.packetKind = .streamClose ∧
    d.header.channelId = e.stream.streamId ∧ d.dest = e.stream.inner.peerAddr

/-- How many items the task takes from the write channel. -/
def taken (ops : List Op) : ℕ :=
  ops.countP (fun op => match op with | .writeRx _ => true | _ => false)

/-- A `poll_shutdown` of the run finds room in the write channel, and the task
takes the sentinel after what waits there. -/
def SentinelTaken (e : Endpoint) (ops : List Op) : Prop :=
  ∃ before after u, ops = before ++ .pollShutdown :: after ∧
    Runs.Run Endpoint.next e before u ∧ u.stream.writeCh.length < 1024 ∧
    u.stream.writeCh.length < taken after

/-- The sentinel is among the next `n` items of the channel. -/
def SentinelWithin (ch : List (ℕ × Bytes)) (n : ℕ) : Prop :=
  ∃ i data, i < n ∧ ch[i]? = some (0, data)

theorem sentinelWithin_cons {x : ℕ × Bytes} {ch : List (ℕ × Bytes)} {n : ℕ} :
    SentinelWithin (x :: ch) (n + 1) ↔ x.1 = 0 ∨ SentinelWithin ch n := by
  constructor
  · rintro ⟨i, data, hi, hget⟩
    cases i with
    | zero =>
        left
        rw [List.getElem?_cons_zero] at hget
        rw [Option.some.inj hget]
    | succ i =>
        rw [List.getElem?_cons_succ] at hget
        exact Or.inr ⟨i, data, by omega, hget⟩
  · rintro (hx | ⟨i, data, hi, hget⟩)
    · refine ⟨0, x.2, by omega, ?_⟩
      rw [List.getElem?_cons_zero, ← hx]
    · exact ⟨i + 1, data, by omega, hget⟩

theorem sentinelWithin_snoc {ch : List (ℕ × Bytes)} {n : ℕ} :
    SentinelWithin (ch ++ [(0, [])]) n ↔
      SentinelWithin ch n ∨ ch.length < n := by
  constructor
  · rintro ⟨i, data, hi, hget⟩
    by_cases hlt : i < ch.length
    · rw [List.getElem?_append_left hlt] at hget
      exact Or.inl ⟨i, data, hi, hget⟩
    · right
      omega
  · rintro (⟨i, data, hi, hget⟩ | hlt)
    · refine ⟨i, data, hi, ?_⟩
      rw [List.getElem?_append_left (List.getElem?_eq_some_iff.mp hget).1]
      exact hget
    · exact ⟨ch.length, [], hlt, List.getElem?_concat_length⟩

theorem sentinelTaken_cons {e e' : Endpoint} {op : Op} {ops : List Op}
    (hs : e.next op = some e') :
    SentinelTaken e (op :: ops) ↔
      (op = .pollShutdown ∧ e.stream.writeCh.length < 1024 ∧
        e.stream.writeCh.length < taken ops) ∨ SentinelTaken e' ops := by
  constructor
  · rintro ⟨before, after, u, heq, hrun, hroom, htaken⟩
    cases before with
    | nil =>
        obtain ⟨rfl, rfl⟩ := List.cons.inj heq
        have hu : e = u := Runs.run_nil.mp hrun
        subst hu
        exact Or.inl ⟨rfl, hroom, htaken⟩
    | cons op' before =>
        obtain ⟨rfl, rfl⟩ := List.cons.inj heq
        obtain ⟨e₁, hs₁, hrun₁⟩ := Runs.run_cons.mp hrun
        rw [hs] at hs₁
        cases hs₁
        exact Or.inr ⟨before, after, u, rfl, hrun₁, hroom, htaken⟩
  · rintro (⟨rfl, hroom, htaken⟩ | ⟨before, after, u, rfl, hrun, hroom, htaken⟩)
    · exact ⟨[], ops, e, rfl, Runs.run_nil.mpr rfl, hroom, htaken⟩
    · exact ⟨op :: before, after, u, rfl, Runs.run_cons.mpr ⟨e', hs, hrun⟩,
        hroom, htaken⟩

/-- The channel after a shutdown: the sentinel is queued if the task still
listens and there is room. -/
theorem next_pollShutdown {e e' : Endpoint}
    (hs : e.next .pollShutdown = some e') :
    e'.stream.inner.closed = true ∧
    e'.stream.running = e.stream.running ∧
    e'.stream.inner.peerAddr = e.stream.inner.peerAddr ∧
    ((e.stream.running = true ∧ e.stream.writeCh.length < 1024 ∧
        e'.stream.writeCh = e.stream.writeCh ++ [(0, [])]) ∨
      (¬ (e.stream.running = true ∧ e.stream.writeCh.length < 1024) ∧
        e'.stream.writeCh = e.stream.writeCh)) := by
  unfold next at hs
  simp only [step, UdpStream.pollShutdown, UdpStream.trySend] at hs
  split at hs
  · cases hs
  · split at hs
    · rename_i hcond
      cases hs
      exact ⟨rfl, rfl, rfl, Or.inl ⟨hcond.1, hcond.2, rfl⟩⟩
    · rename_i hcond
      cases hs
      exact ⟨rfl, rfl, rfl, Or.inr ⟨hcond, rfl⟩⟩

theorem step_pollShutdown_silent {e e' : Endpoint} {out : Output}
    (hs : e.step .pollShutdown = some (e', out)) : out.sent = [] := by
  simp only [step] at hs
  split at hs
  · cases hs
  · cases hs
    rfl

end Endpoint

/-- An ended task stays ended. -/
theorem Effect.stays_ended {sid : UInt32} {v v' : View} {op : Op}
    {out : Output} (h : Effect sid v op v' out) (hv : v.running = false) :
    v'.running = false := by
  cases h with
  | tickEnded hcause => rfl
  | tickTimedOut hopen hdead => rfl
  | ended hrun => rfl
  | _ => exact hv

/-- What a step other than a shutdown does to a closed stream: the task takes
an item and announces the close if it is the sentinel, or the channel stays as
it is and no StreamClose goes out. -/
theorem Effect.on_closed {sid : UInt32} {v v' : View} {op : Op} {out : Output}
    (h : Effect sid v op v' out) (hclosed : v.closed = true)
    (hop : op ≠ .pollShutdown) :
    v'.closed = true ∧ v'.peerAddr = v.peerAddr ∧
    ((∃ now item rest, op = .writeRx now ∧ v.writeCh = item :: rest ∧
        v'.writeCh = rest ∧
        ((∃ d ∈ out.sent, d.header.packetKind = .streamClose ∧
          d.header.channelId = sid ∧ d.dest = v.peerAddr) ↔ item.1 = 0)) ∨
      ((∀ now, op ≠ .writeRx now) ∧ v'.writeCh = v.writeCh ∧
        ∀ d ∈ out.sent, d.header.packetKind ≠ .streamClose)) := by
  have hopen : v.closed ≠ false := by
    rw [hclosed]
    exact Bool.noConfusion
  have hsilent : ∀ d ∈ ([] : List Datagram),
      d.header.packetKind ≠ .streamClose :=
    fun d hd => absurd hd List.not_mem_nil
  cases h with
  | wrote hopen' => exact absurd hopen' hopen
  | writeParked hopen' => exact absurd hopen' hopen
  | readParked hopen' => exact absurd hopen' hopen
  | incoming hopen' => exact absurd hopen' hopen
  | ticked pings hopen' => exact absurd hopen' hopen
  | tickTimedOut hopen' => exact absurd hopen' hopen
  | shut hch => exact absurd rfl hop
  | closeSent hch =>
      refine ⟨hclosed, rfl, Or.inl ⟨_, _, _, rfl, hch, rfl, ?_⟩⟩
      exact iff_of_true ⟨_, List.mem_singleton.mpr rfl, rfl, rfl, rfl⟩ rfl
  | chunkSent hch hseq =>
      refine ⟨hclosed, rfl, Or.inl ⟨_, _, _, rfl, hch, rfl, ?_⟩⟩
      refine iff_of_false ?_ hseq
      rintro ⟨d, hd, hk, -⟩
      rw [List.mem_singleton.mp hd] at hk
      cases hk
  | openSent =>
      refine ⟨hclosed, rfl, Or.inr ⟨nofun, rfl, ?_⟩⟩
      intro d hd hk
      rw [List.mem_singleton.mp hd] at hk
      cases hk
  | tickEnded hcause => exact ⟨rfl, rfl, Or.inr ⟨nofun, rfl, hsilent⟩⟩
  | failed => exact ⟨rfl, rfl, Or.inr ⟨nofun, rfl, hsilent⟩⟩
  | ended hrun => exact ⟨rfl, rfl, Or.inr ⟨nofun, rfl, hsilent⟩⟩
  | _ => exact ⟨hclosed, rfl, Or.inr ⟨nofun, rfl, hsilent⟩⟩

namespace Endpoint

/-- An ended task takes nothing more. -/
theorem taken_of_ended {e f : Endpoint} {ops : List Op} (hwf : e.WF)
    (hend : e.stream.running = false)
    (hrun : Runs.Run Endpoint.next e ops f) : taken ops = 0 := by
  induction ops generalizing e with
  | nil => rfl
  | cons op ops ih =>
      obtain ⟨e', hs, hrun'⟩ := Runs.run_cons.mp hrun
      obtain ⟨hwf', out, hstep, heff⟩ := wf_next hwf hs
      have ih := ih hwf' (heff.stays_ended hend) hrun'
      unfold taken at ih ⊢
      rw [List.countP_cons, ih]
      cases op with
      | writeRx now =>
          simp only [step, hend] at hstep
          cases hstep
      | _ => rfl

/-- What a shutdown adds to the items the task still takes. -/
theorem sentinelWithin_pollShutdown {e e' f : Endpoint} {ops : List Op}
    (hwf : e.WF) (hs : e.next .pollShutdown = some e')
    (hrun : Runs.Run Endpoint.next e' ops f) :
    SentinelWithin e'.stream.writeCh (taken ops) ↔
      SentinelWithin e.stream.writeCh (taken ops) ∨
        (e.stream.writeCh.length < 1024 ∧
          e.stream.writeCh.length < taken ops) := by
  obtain ⟨hwf', -⟩ := wf_next hwf hs
  obtain ⟨-, hrunning, -, ⟨-, hroom, hch⟩ | ⟨hno, hch⟩⟩ := next_pollShutdown hs
  · rw [hch, sentinelWithin_snoc]
    simp [hroom]
  · rw [hch]
    constructor
    · exact Or.inl
    · rintro (h | ⟨hroom, hlt⟩)
      · exact h
      · -- there was room, so the task has ended and takes nothing
        have hend : e'.stream.running = false := by
          rw [hrunning]
          by_contra hrun
          exact hno ⟨Bool.not_eq_false _ ▸ hrun, hroom⟩
        rw [taken_of_ended hwf' hend hrun] at hlt
        omega

theorem announces_cons {e e' : Endpoint} {op : Op} {out : Output}
    {ops : List Op} (hs : e.step op = some (e', out))
    (hsid : e'.stream.streamId = e.stream.streamId)
    (hpeer : e'.stream.inner.peerAddr = e.stream.inner.peerAddr) :
    e.Announces (op :: ops) ↔
      (∃ d ∈ out.sent, d.header.packetKind = .streamClose ∧
        d.header.channelId = e.stream.streamId ∧
        d.dest = e.stream.inner.peerAddr) ∨ e'.Announces ops := by
  unfold Announces
  rw [sentIn, hs, hsid, hpeer]
  simp only [List.mem_append, or_and_right, exists_or]

/-- **Run lemma**: a closed stream announces its close exactly when the task
gets to a sentinel, one that waits already or one of a later shutdown. -/
theorem announces_closed_iff {e f : Endpoint} {ops : List Op} (hwf : e.WF)
    (hclosed : e.stream.inner.closed = true)
    (hrun : Runs.Run Endpoint.next e ops f) :
    e.Announces ops ↔
      SentinelWithin e.stream.writeCh (taken ops) ∨ SentinelTaken e ops := by
  induction ops generalizing e with
  | nil =>
      constructor
      · rintro ⟨d, hd, -⟩
        exact absurd hd List.not_mem_nil
      · rintro (⟨i, data, hi, -⟩ | ⟨before, after, u, heq, -⟩)
        · exact absurd hi (Nat.not_lt_zero i)
        · exact absurd heq.symm (by simp)
  | cons op ops ih =>
      obtain ⟨e', hs, hrun'⟩ := Runs.run_cons.mp hrun
      obtain ⟨hwf', out, hstep, heff⟩ := wf_next hwf hs
      obtain ⟨hsid, -⟩ := step_streamId hwf hstep
      by_cases hop : op = .pollShutdown
      · subst hop
        obtain ⟨hclosed', -, hpeer, -⟩ := next_pollShutdown hs
        have hquiet : out.sent = [] := step_pollShutdown_silent hstep
        rw [announces_cons hstep hsid hpeer, hquiet, ih hwf' hclosed' hrun',
          sentinelWithin_pollShutdown hwf hs hrun', sentinelTaken_cons hs]
        have htaken : taken (.pollShutdown :: ops) = taken ops := rfl
        rw [htaken]
        simp [or_assoc]
      · obtain ⟨hclosed', hpeer, hch⟩ := heff.on_closed hclosed hop
        rw [announces_cons hstep hsid hpeer, ih hwf' hclosed' hrun',
          sentinelTaken_cons hs]
        have hnot : ¬ (op = .pollShutdown ∧ e.stream.writeCh.length < 1024 ∧
            e.stream.writeCh.length < taken ops) := fun h => hop h.1
        rw [or_iff_right hnot]
        rcases hch with ⟨now, item, rest, rfl, hold, hnew, hsent⟩ |
          ⟨hne, hsame, hnone⟩
        · have htaken : taken (.writeRx now :: ops) = taken ops + 1 := by
            unfold taken
            rw [List.countP_cons]
            rfl
          have hold' : e.stream.writeCh = item :: rest := hold
          have hnew' : e'.stream.writeCh = rest := hnew
          rw [htaken, hold', hnew', sentinelWithin_cons, or_assoc]
          exact or_congr hsent Iff.rfl
        · have htaken : taken (op :: ops) = taken ops := by
            unfold taken
            rw [List.countP_cons]
            cases op with
            | writeRx now => exact absurd rfl (hne now)
            | _ => rfl
          have hsame' : e'.stream.writeCh = e.stream.writeCh := hsame
          rw [htaken, hsame']
          apply or_iff_right
          rintro ⟨d, hd, hk, -⟩
          exact hnone d hd hk

end Endpoint

/-- Chunks are numbered from 1, and no sentinel waits while the stream is
open. -/
structure View.NoSentinel (v : View) : Prop where
  pos : 1 ≤ v.st.nextWriteSeq
  channel : v.closed = false → ∀ x ∈ v.writeCh, x.1 ≠ 0

/-- **Step lemma.** -/
theorem Effect.noSentinel {sid : UInt32} {v v' : View} {op : Op} {out : Output}
    (h : Effect sid v op v' out) (hv : v.NoSentinel) : v'.NoSentinel := by
  obtain ⟨hpos, hch⟩ := hv
  constructor
  · rcases h.accepted with ⟨-, heq⟩ | ⟨d, -, heq⟩
    · rw [heq]
      exact hpos
    · rw [heq]
      omega
  · intro hopen
    have hold := hch (h.open_before hopen)
    cases h with
    | wrote _ _ hoffered =>
        rcases hoffered with rfl | rfl
        · exact hold
        · intro x hx
          rcases List.mem_append.mp hx with hx | hx
          · exact hold x hx
          · rw [List.mem_singleton.mp hx]
            exact Nat.one_le_iff_ne_zero.mp hpos
    | shut _ => cases hopen
    | closeSent hcons =>
        exact fun x hx => hold x (hcons ▸ List.mem_cons_of_mem _ hx)
    | chunkSent hcons _ =>
        exact fun x hx => hold x (hcons ▸ List.mem_cons_of_mem _ hx)
    | _ => exact hold

namespace Endpoint

theorem noSentinel_run {e₀ e : Endpoint} {ops : List Op} (hfresh : e₀.Fresh)
    (hrun : Runs.Run Endpoint.next e₀ ops e) : e.snap.NoSentinel := by
  apply run_effect (fun _ _ _ _ _ heff hno => heff.noSentinel hno)
    hfresh.holds.wf _ hrun
  constructor
  · show 1 ≤ e₀.st.nextWriteSeq
    rw [hfresh.holds.st_eq]
    exact Nat.le_refl 1
  · obtain ⟨sid, addr, t, rfl | rfl⟩ := hfresh
    · exact fun _ x hx => absurd hx List.not_mem_nil
    · exact fun _ x hx => absurd hx List.not_mem_nil

/-- **A shutdown is announced**, in a run that ends with the end of the task of
a stream that is not dropped, exactly when a `poll_shutdown` finds room in the
write channel and the task takes more items after it than waited there. -/
theorem shutdown_announced_iff (e₀ e f : Endpoint) (hfresh : e₀.Fresh)
    (ops : List Op) (hrun : Runs.Run Endpoint.next e₀ ops e)
    (hopen : e.stream.inner.closed = false) (later : List Op)
    (hlater : Runs.Run Endpoint.next e (.pollShutdown :: later) f) :
    (f.stream.running = false → f.dropped = false →
      e.Announces (.pollShutdown :: later)) ↔
    (f.stream.running = false → f.dropped = false →
      SentinelTaken e (.pollShutdown :: later)) := by
  have hwf := hfresh.wf_run hrun
  obtain ⟨e', hs, hrun'⟩ := Runs.run_cons.mp hlater
  obtain ⟨hwf', out, hstep, -⟩ := wf_next hwf hs
  obtain ⟨hsid, -⟩ := step_streamId hwf hstep
  obtain ⟨hclosed', -, hpeer, -⟩ := next_pollShutdown hs
  have hquiet : out.sent = [] := step_pollShutdown_silent hstep
  have hnone : ¬ SentinelWithin e.stream.writeCh (taken later) := by
    rintro ⟨i, data, -, hget⟩
    exact (noSentinel_run hfresh hrun).channel hopen _
      (List.mem_of_getElem? hget) rfl
  have hiff : e.Announces (.pollShutdown :: later) ↔
      SentinelTaken e (.pollShutdown :: later) := by
    rw [announces_cons hstep hsid hpeer, hquiet,
      announces_closed_iff hwf' hclosed' hrun',
      sentinelWithin_pollShutdown hwf hs hrun', sentinelTaken_cons hs,
      or_iff_right hnone]
    simp
  rw [hiff]

/-- The task gets to the sentinel before its next tick. -/
theorem shutdown_announced_sample : ∃ e f,
    Runs.Run Endpoint.next acceptedSeven [.incoming (bare .streamOpen) 0] e ∧
    Runs.Run Endpoint.next e [.pollShutdown, .writeRx 1, .tick 2] f ∧
    f.stream.running = false ∧ f.dropped = false ∧
    e.Announces [.pollShutdown, .writeRx 1, .tick 2] := by
  have hrun : Runs.Run Endpoint.next acceptedSeven
    [.incoming (bare .streamOpen) 0] _ := rfl
  refine ⟨_, _, hrun, rfl, rfl, rfl, ?_⟩
  apply (shutdown_announced_iff acceptedSeven _ _ acceptedSeven_fresh _ hrun rfl
    [.writeRx 1, .tick 2] rfl).mpr _ rfl rfl
  exact fun _ _ => ⟨[], [.writeRx 1, .tick 2], _, rfl, Runs.run_nil.mpr rfl,
    by decide, by decide⟩

/-- The tick comes first: the task ends and the peer hears nothing. -/
theorem tick_before_sentinel : ∃ e f,
    Runs.Run Endpoint.next acceptedSeven [.incoming (bare .streamOpen) 0] e ∧
    e.stream.inner.closed = false ∧
    Runs.Run Endpoint.next e [.pollShutdown, .tick 1] f ∧
    ¬ (f.stream.running = false → f.dropped = false →
      e.Announces [.pollShutdown, .tick 1]) := by
  refine ⟨_, _, rfl, rfl, rfl, ?_⟩
  intro h
  obtain ⟨d, hd, -⟩ := h rfl rfl
  exact absurd hd List.not_mem_nil

end Endpoint

end Rathole
