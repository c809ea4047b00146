import Rathole.Lib.Runs
import Rathole.Transport.Endpoint

/-!
# Parked writers

`poll_write` parks the writer when 1024 chunks are outstanding. A writer may
stay parked only while the queue stays full, so every step that takes the
queue below 1024 entries has to take and wake it. Acks do; the 30 s expiry of
NACK mode does not. `writerSafe_iff` says that this is the only exception.
-/

namespace Rathole

/-- A parked writer of an open stream faces a full queue. -/
def Endpoint.NoLostWakeup (e : Endpoint) : Prop :=
  e.stream.inner.closed = false → e.st.writeWaker ≠ none →
    1024 ≤ e.st.writeQueue.len

/-- After the step no wakeup is lost, and if the step takes the queue below
1024 entries it has taken and woken the parked writer. -/
def WriterSafe (e : Endpoint) (op : Op) : Prop :=
  ∀ e' out, e.step op = some (e', out) →
    e'.NoLostWakeup ∧
    ∀ wk, e.st.writeWaker = some wk → 1024 ≤ e.st.writeQueue.len →
      e'.st.writeQueue.len < 1024 →
        e'.st.writeWaker = none ∧ wk ∈ out.woken

/-- The step is not a tick of an open NACK-mode stream that finds a parked
writer and a queued chunk at least 30 s old. -/
def NoExpiryWhileParked (e : Endpoint) (op : Op) : Prop :=
  ∀ now, op = .tick now → e.stream.running = true →
    e.stream.inner.closed = false → e.st.mode = .udp →
    e.st.writeWaker ≠ none →
    ∀ x ∈ e.st.writeQueue.entries, now - x.2.sentAt < secs 30

/-! ## What a step does to the parked writer -/

/-- The queue has not grown; the writer was taken and woken, or it is still
parked and the queue is as long as it was, or full. -/
structure WriterKept (st st' : StreamState) (woken : List Waker) : Prop where
  len_le : st'.writeQueue.len ≤ st.writeQueue.len
  waker : (st'.writeWaker = none ∧ ∀ wk, st.writeWaker = some wk → wk ∈ woken) ∨
    (st'.writeWaker = st.writeWaker ∧
      (1024 ≤ st'.writeQueue.len ∨ st'.writeQueue.len = st.writeQueue.len))

theorem WriterKept.same {st st' : StreamState} {woken : List Waker}
    (hlen : st'.writeQueue.len = st.writeQueue.len)
    (hww : st'.writeWaker = st.writeWaker) : WriterKept st st' woken :=
  ⟨Nat.le_of_eq hlen, Or.inr ⟨hww, Or.inr hlen⟩⟩

theorem WriterKept.unparked {st st' : StreamState}
    (hlen : st'.writeQueue.len ≤ st.writeQueue.len)
    (hww : st'.writeWaker = none) : WriterKept st st' st.parked := by
  refine ⟨hlen, Or.inl ⟨hww, ?_⟩⟩
  intro wk hwk
  refine List.mem_append_right _ ?_
  rw [hwk]
  exact List.mem_singleton.mpr rfl

theorem len_eq_of_keys {m m' : OrdMap ℕ SentPacket}
    (h : m'.entries.map Prod.fst = m.entries.map Prod.fst) :
    m'.len = m.len := by
  have hlen := congrArg List.length h
  rw [List.length_map, List.length_map] at hlen
  exact hlen

/-- The end of `handle_ack` and `handle_nack`, on a queue that has shrunk. -/
theorem writerKept_wakeWriter {st kept : StreamState}
    (hlen : kept.writeQueue.len ≤ st.writeQueue.len)
    (hww : kept.writeWaker = st.writeWaker) :
    WriterKept st kept.wakeWriter.1 kept.wakeWriter.2 := by
  unfold StreamState.wakeWriter
  split
  · refine ⟨hlen, Or.inl ⟨rfl, ?_⟩⟩
    intro wk hwk
    rw [hww, hwk]
    exact List.mem_singleton.mpr rfl
  · rename_i hfull
    exact ⟨hlen, Or.inr ⟨hww, Or.inl (Nat.le_of_not_lt hfull)⟩⟩

/-- The resend loop after an ack leaves the queue's length alone and wakes at
most once more. -/
theorem WriterKept.afterAck {st : StreamState} {now : Instant}
    {r : StreamState × List ℕ × List Waker} (h : WriterKept st r.1 r.2.2) :
    WriterKept st (UdpStreamInner.afterAck now r).1
      (UdpStreamInner.afterAck now r).2.2 := by
  obtain ⟨wq, heq, hkeys, -⟩ := UdpStreamInner.resend_frame now r.2.1 r.1
  have hlen : wq.len = r.1.writeQueue.len := len_eq_of_keys hkeys
  unfold UdpStreamInner.afterAck
  dsimp only
  rw [heq]
  split
  · refine ⟨hlen ▸ h.len_le, Or.inl ⟨rfl, ?_⟩⟩
    intro wk hwk
    rcases h.waker with ⟨-, hin⟩ | ⟨hsame, -⟩
    · exact List.mem_append_left _ (hin wk hwk)
    · refine List.mem_append_right _ ?_
      rw [hsame, hwk]
      exact List.mem_singleton.mpr rfl
  · refine ⟨hlen ▸ h.len_le, ?_⟩
    rcases h.waker with hwoken | ⟨hsame, hfull⟩
    · exact Or.inl hwoken
    · exact Or.inr ⟨hsame, hlen ▸ hfull⟩

theorem writerKept_dispatch (st : StreamState) (pkt : IncomingPacket)
    (now : Instant) :
    WriterKept st (UdpStreamInner.dispatch st pkt now).1
      (UdpStreamInner.dispatch st pkt now).2.2.2 := by
  unfold UdpStreamInner.dispatch
  cases pkt.header.packetKind with
  | stream =>
      obtain ⟨-, -, hwq, hww⟩ := st.pushData_frame pkt.header.seq pkt.payload
      exact .same (congrArg OrdMap.len hwq) hww
  | streamClose => exact .unparked (Nat.le_refl _) rfl
  | sack =>
      refine WriterKept.afterAck (writerKept_wakeWriter ?_ rfl)
      exact OrdMap.len_retain_le
  | nack => exact WriterKept.afterAck (writerKept_wakeWriter (Nat.le_refl _) rfl)
  | _ => exact .same rfl rfl

/-- A tick, unless it lets a chunk expire under a parked writer. -/
theorem writerKept_tick {st : StreamState} {now : Instant} {woken : List Waker}
    (h : st.mode = .udp → st.writeWaker ≠ none →
      ∀ x ∈ st.writeQueue.entries, now - x.2.sentAt < secs 30) :
    WriterKept st (st.getRetransmissions now).1 woken := by
  cases hmode : st.mode with
  | tcp =>
      obtain ⟨wq, hwq⟩ := st.getRetransmissions_frame now
      refine .same (len_eq_of_keys
        (StreamState.getRetransmissions_keys hmode)) ?_
      rw [hwq]
  | udp =>
      rw [StreamState.getRetransmissions_udp hmode]
      by_cases hww : st.writeWaker = none
      · refine ⟨OrdMap.len_retain_le, Or.inl ⟨hww, ?_⟩⟩
        intro wk hwk
        rw [hww] at hwk
        cases hwk
      · have hyoung := h hmode hww
        have hall : st.writeQueue.retain
            (fun _ p => decide (now - p.sentAt < secs 30)) = st.writeQueue :=
          OrdMap.retain_eq_self (fun x hx => decide_eq_true (hyoung x hx))
        exact .same (congrArg OrdMap.len hall) rfl

/-- What a step does to the writer, if nothing expires under it: it keeps it,
or it is a `poll_write` with room, or one that parks. -/
theorem Effect.writer {sid : UInt32} {v v' : View} {op : Op} {out : Output}
    (heff : Effect sid v op v' out)
    (hexp : ∀ now, op = .tick now → v.closed = false → v.st.mode = .udp →
      v.st.writeWaker ≠ none →
      ∀ x ∈ v.st.writeQueue.entries, now - x.2.sentAt < secs 30) :
    WriterKept v.st v'.st out.woken ∨
    (v.closed = false ∧ v.st.writeQueue.len < 1024 ∧
      v'.st.writeQueue.len ≤ v.st.writeQueue.len + 1 ∧
      v'.st.writeWaker = v.st.writeWaker) ∨
    (1024 ≤ v.st.writeQueue.len ∧ v'.st.writeQueue = v.st.writeQueue) := by
  cases heff with
  | wrote hopen hroom hch =>
      exact Or.inr (Or.inl ⟨hopen, hroom, OrdMap.len_insert_le, rfl⟩)
  | writeParked hopen hfull => exact Or.inr (Or.inr ⟨hfull, rfl⟩)
  | incoming hopen hrun => exact Or.inl (writerKept_dispatch v.st _ _)
  | ticked pings hopen hpings halive =>
      exact Or.inl (writerKept_tick (hexp _ rfl hopen))
  | tickEnded hcause => exact Or.inl (.unparked (Nat.le_refl _) rfl)
  | tickTimedOut hopen hdead =>
      rename_i now
      have hkept : WriterKept v.st (v.st.getRetransmissions now).1 [] :=
        writerKept_tick (hexp _ rfl hopen)
      exact Or.inl (.unparked hkept.len_le rfl)
  | failed => exact Or.inl (.unparked (Nat.le_refl _) rfl)
  | ended hrun => exact Or.inl (.unparked (Nat.le_refl _) rfl)
  | _ => exact Or.inl (.same rfl rfl)

/-! ## Runs -/

/-- What keeps wakeups from getting lost: one stream, never more than 1024
chunks outstanding, no wakeup lost so far. -/
structure WriterInv (e : Endpoint) : Prop where
  wf : e.WF
  bounded : e.st.writeQueue.len ≤ 1024
  safe : e.NoLostWakeup

theorem writerInv_fresh {e : Endpoint} (h : e.Fresh) : WriterInv e := by
  refine ⟨h.holds.wf, ?_, ?_⟩
  · rw [h.holds.st_eq]
    exact Nat.zero_le _
  · intro _ hww
    rw [h.holds.st_eq] at hww
    exact absurd rfl hww

/-- **Step lemma**: without an expiry under a parked writer a step keeps the
invariant and wakes whom it must. -/
theorem WriterInv.step {e e' : Endpoint} {op : Op} {out : Output}
    (h : WriterInv e) (hexp : NoExpiryWhileParked e op)
    (hs : e.step op = some (e', out)) :
    WriterInv e' ∧
    ∀ wk, e.st.writeWaker = some wk → 1024 ≤ e.st.writeQueue.len →
      e'.st.writeQueue.len < 1024 →
        e'.st.writeWaker = none ∧ wk ∈ out.woken := by
  obtain ⟨hwf', heff⟩ := Endpoint.wf_step h.wf hs
  have hrun : ∀ now, op = .tick now → e.stream.running = true := by
    rintro now rfl
    by_contra hoff
    simp only [Endpoint.step, if_neg hoff] at hs
    cases hs
  have hbound := h.bounded
  rcases heff.writer (fun now hop hopen => hexp now hop (hrun now hop) hopen)
    with hkept | ⟨hopen, hroom, hlen, hww⟩ | ⟨hfull, hwq⟩
  · have hlen : e'.st.writeQueue.len ≤ e.st.writeQueue.len := hkept.len_le
    refine ⟨⟨hwf', Nat.le_trans hlen hbound, ?_⟩, ?_⟩
    · intro hopen' hparked
      rcases hkept.waker with ⟨hnone, -⟩ | ⟨hsame, hlong⟩
      · exact absurd hnone hparked
      · have hsame' : e'.st.writeWaker = e.st.writeWaker := hsame
        have hlong' : 1024 ≤ e'.st.writeQueue.len ∨
            e'.st.writeQueue.len = e.st.writeQueue.len := hlong
        have := h.safe (heff.open_before hopen') (hsame' ▸ hparked)
        omega
    · intro wk hwk hfull hroom
      rcases hkept.waker with ⟨hnone, hwoken⟩ | ⟨-, hlong⟩
      · exact ⟨hnone, hwoken wk hwk⟩
      · have hlong' : 1024 ≤ e'.st.writeQueue.len ∨
            e'.st.writeQueue.len = e.st.writeQueue.len := hlong
        omega
  · -- a write with room: nobody was parked
    have hlen' : e'.st.writeQueue.len ≤ e.st.writeQueue.len + 1 := hlen
    have hroom' : e.st.writeQueue.len < 1024 := hroom
    refine ⟨⟨hwf', by omega, ?_⟩, fun wk _ hfull => absurd hfull (by omega)⟩
    intro _ hparked
    have hww' : e'.st.writeWaker = e.st.writeWaker := hww
    have := h.safe hopen (hww' ▸ hparked)
    omega
  · have hwq' : e'.st.writeQueue = e.st.writeQueue := hwq
    have hfull' : 1024 ≤ e.st.writeQueue.len := hfull
    refine ⟨⟨hwf', hwq' ▸ hbound, fun _ _ => hwq' ▸ hfull'⟩, ?_⟩
    intro wk _ _ hroom
    rw [hwq'] at hroom
    omega

/-- A chunk that expires under a parked writer is a lost wakeup. -/
theorem WriterInv.lost {e e' : Endpoint} {now : Instant} {out : Output}
    (h : WriterInv e) (hs : e.step (.tick now) = some (e', out))
    (hopen : e.stream.inner.closed = false) (hmode : e.st.mode = .udp)
    (hparked : e.st.writeWaker ≠ none) {x : ℕ × SentPacket}
    (hx : x ∈ e.st.writeQueue.entries) (hold : ¬ now - x.2.sentAt < secs 30) :
    ¬ e'.NoLostWakeup := by
  have hret := StreamState.getRetransmissions_udp hmode now
  rcases (Endpoint.wf_step h.wf hs).2.tick_inv hopen with
    ⟨-, hv, -⟩ | ⟨hempty, -⟩ | ⟨hdead, -⟩
  · have hst' : e'.st = (e.st.getRetransmissions now).1 := congrArg View.st hv
    rw [hret] at hst'
    have hopen' : e'.stream.inner.closed = e.stream.inner.closed :=
      congrArg View.closed hv
    have hlt : (e.st.writeQueue.retain
        (fun _ p => decide (now - p.sentAt < secs 30))).len <
          e.st.writeQueue.len :=
      OrdMap.len_retain_lt hx (decide_eq_false hold)
    intro hsafe
    have hfull := hsafe (hopen'.trans hopen) (by rw [hst']; exact hparked)
    have hbound := h.bounded
    rw [hst'] at hfull
    dsimp only at hfull
    omega
  · have hnil : e.st.writeQueue.entries = [] := List.isEmpty_iff.mp hempty
    rw [hnil] at hx
    cases hx
  · change (e.st.getRetransmissions now).2.2 = true at hdead
    rw [hret] at hdead
    cases hdead

theorem writerSafe_iff {e : Endpoint} (op : Op) (h : WriterInv e) :
    WriterSafe e op ↔ NoExpiryWhileParked e op := by
  constructor
  · rintro hsafe now rfl hrun hopen hmode hparked x hx
    by_contra hold
    have hstep : ∃ e' out, e.step (.tick now) = some (e', out) :=
      ⟨_, _, if_pos hrun⟩
    obtain ⟨e', out, hs⟩ := hstep
    exact h.lost hs hopen hmode hparked hx hold (hsafe e' out hs).1
  · intro hexp e' out hs
    obtain ⟨hinv, hwakes⟩ := h.step hexp hs
    exact ⟨hinv.safe, hwakes⟩

/-- **No lost wakeup, exactly when nothing expires under a parked writer.** -/
theorem no_lost_wakeup_iff {e₀ : Endpoint} (hfresh : e₀.Fresh)
    (ops : List Op) :
    Runs.Meets Endpoint.next WriterSafe e₀ ops ↔
      Runs.Meets Endpoint.next NoExpiryWhileParked e₀ ops := by
  refine Runs.meets_congr (I := WriterInv) (fun e op h => writerSafe_iff op h)
    ?_ (writerInv_fresh hfresh)
  intro e op e' h hsafe hs
  obtain ⟨-, out, hstep, -⟩ := Endpoint.wf_next h.wf hs
  exact (h.step ((writerSafe_iff op h).mp hsafe) hstep).1

/-! ## A writer that is never woken -/

/-- An open NACK-mode endpoint with `n` chunks outstanding, all sent at 0. -/
structure Filled (e : Endpoint) (n : ℕ) : Prop where
  wf : e.WF
  mode : e.st.mode = .udp
  present : e.dropped = false
  isOpen : e.stream.inner.closed = false
  running : e.stream.running = true
  len : e.st.writeQueue.len = n
  below : ∀ x ∈ e.st.writeQueue.entries, x.1 < e.st.nextWriteSeq
  sent : ∀ x ∈ e.st.writeQueue.entries, x.2.sentAt = 0

theorem Filled.write {e : Endpoint} {n : ℕ} (h : Filled e n) (hn : n < 1024) :
    ∃ e', e.next (.pollWrite 0 [1] 0) = some e' ∧ Filled e' (n + 1) := by
  have hstep : ∃ e', e.next (.pollWrite 0 [1] 0) = some e' := by
    unfold Endpoint.next Endpoint.step
    rw [h.present]
    exact ⟨_, rfl⟩
  obtain ⟨e', hs⟩ := hstep
  obtain ⟨hwf', out, -, heff⟩ := Endpoint.wf_next h.wf hs
  refine ⟨e', hs, ?_⟩
  have hlen := h.len
  have hv : ∃ ch', e'.snap = { e.snap with
      st := { e.st with
        nextWriteSeq := e.st.nextWriteSeq + 1
        writeQueue := e.st.writeQueue.insert e.st.nextWriteSeq ⟨[1], 0, 0⟩ }
      writeCh := ch'
      accepted := e.accepted ++ [(e.st.nextWriteSeq, [1])] } := by
    generalize e'.snap = v' at heff
    cases heff with
    | writeRefused hclosed =>
        have hopen : e.snap.closed = false := h.isOpen
        rw [hopen] at hclosed
        cases hclosed
    | wrote hopen hroom hch => exact ⟨_, rfl⟩
    | writeParked hopen hfull =>
        change e.st.writeQueue.len ≥ 1024 at hfull
        omega
  obtain ⟨ch', hv⟩ := hv
  have hst : e'.st = _ := congrArg View.st hv
  refine ⟨hwf', (congrArg StreamState.mode hst).trans h.mode,
    (congrArg View.dropped hv).trans h.present,
    (congrArg View.closed hv).trans h.isOpen,
    (congrArg View.running hv).trans h.running, ?_, ?_, ?_⟩
  · rw [hst, ← hlen]
    exact OrdMap.len_insert_new (fun x hx => Nat.ne_of_lt (h.below x hx))
  · rw [hst]
    intro x hx
    rcases OrdMap.mem_insert.mp hx with rfl | ⟨hx', -⟩
    · exact Nat.lt_succ_self _
    · exact Nat.lt_succ_of_lt (h.below x hx')
  · rw [hst]
    intro x hx
    rcases OrdMap.mem_insert.mp hx with rfl | ⟨hx', -⟩
    · rfl
    · exact h.sent x hx'

/-- Filling the queue. -/
theorem Filled.writes {e : Endpoint} {m : ℕ} (h : Filled e m) (n : ℕ)
    (hn : m + n ≤ 1024) : ∃ e', Runs.Run Endpoint.next e
      (List.replicate n (.pollWrite 0 [1] 0)) e' ∧ Filled e' (m + n) := by
  induction n with
  | zero => exact ⟨e, Runs.run_nil.mpr rfl, h⟩
  | succ n ih =>
      obtain ⟨e', hrun, hfilled⟩ := ih (by omega)
      obtain ⟨e'', hs, hfilled'⟩ := hfilled.write (by omega)
      refine ⟨e'', ?_, hfilled'⟩
      rw [List.replicate_succ']
      exact Runs.run_snoc.mpr ⟨e', hrun, hs⟩

/-- One more write parks. -/
theorem Filled.park {e : Endpoint} (h : Filled e 1024) :
    ∃ e', e.next (.pollWrite 1 [1] 0) = some e' ∧ e'.WF ∧
      e'.snap = { e.snap with st := { e.st with writeWaker := some 1 } } := by
  have hstep : ∃ e', e.next (.pollWrite 1 [1] 0) = some e' := by
    unfold Endpoint.next Endpoint.step
    rw [h.present]
    exact ⟨_, rfl⟩
  obtain ⟨e', hs⟩ := hstep
  obtain ⟨hwf', out, -, heff⟩ := Endpoint.wf_next h.wf hs
  refine ⟨e', hs, hwf', ?_⟩
  generalize e'.snap = v' at heff ⊢
  cases heff with
  | writeRefused hclosed =>
      have hopen : e.snap.closed = false := h.isOpen
      rw [hopen] at hclosed
      cases hclosed
  | wrote hopen hroom hch =>
      change e.st.writeQueue.len < 1024 at hroom
      rw [h.len] at hroom
      omega
  | writeParked hopen hfull => rfl

/-- An endpoint of the concrete runs below. -/
def sampleEndpoint : Endpoint :=
  .connecting 7 listenerAddr 0

theorem sampleEndpoint_fresh : sampleEndpoint.Fresh :=
  ⟨7, .v4 #v[10, 0, 0, 2] 2333, 0, Or.inl rfl⟩

/-- The handshake of a client's stream, and the switch to NACK mode. -/
def switchFirst : List Op :=
  [.connectTurn 0,
    .incoming ⟨⟨7, .streamOpenAck, 0, 0, 0⟩, [], listenerAddr⟩ 0,
    .setUdpNackMode]

theorem filled_switchFirst : ∃ e,
    Runs.Run Endpoint.next sampleEndpoint switchFirst e ∧ Filled e 0 := by
  have hrun : Runs.Run Endpoint.next sampleEndpoint switchFirst _ := rfl
  refine ⟨_, hrun, sampleEndpoint_fresh.wf_run hrun, rfl, rfl, rfl, rfl, rfl,
    ?_, ?_⟩
  · exact fun _ hx => absurd hx List.not_mem_nil
  · exact fun _ hx => absurd hx List.not_mem_nil

theorem no_lost_wakeup_iff_sample :
    Runs.Meets Endpoint.next WriterSafe sampleEndpoint
      [.pollWrite 0 [1] 0, .setUdpNackMode, .tick (secs 31)] := by
  refine (no_lost_wakeup_iff ⟨7, _, 0, Or.inl rfl⟩ _).mpr ⟨?_, ?_⟩
  · intro now hop
    cases hop
  · intro e₁ hs₁
    cases hs₁
    refine ⟨fun now hop => (by cases hop), ?_⟩
    intro e₂ hs₂
    cases hs₂
    exact ⟨fun now _ _ _ _ hparked => absurd rfl hparked, fun _ _ => trivial⟩

/-- In NACK mode 1024 chunks, a parked writer and a tick 31 s later: all
chunks expire and the writer sleeps on. -/
theorem expiry_loses_wakeup :
    ¬ ∀ (e₀ : Endpoint) (ops : List Op), e₀.Fresh →
      Runs.Meets Endpoint.next WriterSafe e₀ ops := by
  intro hall
  obtain ⟨e₁, hrun₁, hempty⟩ := filled_switchFirst
  obtain ⟨e₂, hrun₂, hfilled⟩ := hempty.writes 1024 (by omega)
  obtain ⟨e₃, hs, hwf, hv⟩ := hfilled.park
  have hst : e₃.st = _ := congrArg View.st hv
  have hopen : e₃.stream.inner.closed = false :=
    (congrArg View.closed hv).trans hfilled.isOpen
  have hrunning : e₃.stream.running = true :=
    (congrArg View.running hv).trans hfilled.running
  have hmode : e₃.st.mode = .udp :=
    (congrArg StreamState.mode hst).trans hfilled.mode
  have hlen : e₃.st.writeQueue.len = 1024 := by
    rw [hst]
    exact hfilled.len
  have hinv : WriterInv e₃ :=
    ⟨hwf, Nat.le_of_eq hlen, fun _ _ => Nat.le_of_eq hlen.symm⟩
  have hmeets := hall sampleEndpoint
    (switchFirst ++ (List.replicate 1024 (.pollWrite 0 [1] 0) ++
      [.pollWrite 1 [1] 0, .tick (secs 31)])) sampleEndpoint_fresh
  have hsafe : WriterSafe e₃ (.tick (secs 31)) :=
    ((((hmeets.after hrun₁).after hrun₂).2 e₃ hs).1 :)
  have hquiet := (writerSafe_iff _ hinv).mp hsafe (secs 31) rfl hrunning hopen
    hmode (by rw [hst]; exact Option.some_ne_none 1)
  have hpos : 0 < e₃.st.writeQueue.entries.length :=
    Nat.lt_of_lt_of_eq (Nat.succ_pos 1023) hlen.symm
  obtain ⟨x, hx⟩ := List.exists_mem_of_length_pos hpos
  have hyoung := hquiet x hx
  have hsent : x.2.sentAt = 0 := by
    rw [hst] at hx
    exact hfilled.sent x hx
  rw [hsent] at hyoung
  exact absurd hyoung (by decide)

end Rathole
