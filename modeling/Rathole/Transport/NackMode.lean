import Rathole.Transport.Integrity

/-!
# NACK mode

After `set_udp_nack_mode` the timer of an end resends nothing and forgets what
is 30 s old. Two things follow. A chunk that was accepted before the switch
and is lost is not resent by any tick; and once the sender has forgotten a
chunk the receiver still waits for, no continuation of the run moves the
reader past it.
-/

namespace Rathole

/-! ## A forgotten chunk stalls the stream -/

/-- The chunk `i` of the end `s` is nowhere: not queued, not waiting in the
write channel, not in flight; and the other end expects it next. -/
structure Abandoned (w : Connection) (s : Side) (i : ℕ) : Prop where
  numbered : i < (w.on s).st.nextWriteSeq
  expected : (w.on s.other).st.nextReadSeq = i
  notQueued : ∀ p, (i, p) ∉ (w.on s).st.writeQueue.entries
  notOffered : ∀ d, (i, d) ∉ (w.on s).stream.writeCh
  notInFlight : ∀ d ∈ w.net s, d.header.packetKind = .stream → d.header.seq ≠ i

/-- A receiver waits until the chunk it expects arrives. -/
theorem Effect.waits {sid : UInt32} {v v' : View} {op : Op} {out : Output}
    (heff : Effect sid v op v' out) (hdr : v.st.Drained)
    (hpkt : ∀ pkt now, op = .incoming pkt now →
      pkt.header.packetKind = .stream → pkt.header.seq ≠ v.st.nextReadSeq) :
    v'.st.nextReadSeq = v.st.nextReadSeq := by
  cases heff with
  | incoming hopen hrun =>
      rename_i pkt now
      by_cases hk : pkt.header.packetKind = .stream
      · have hle : v.st.nextReadSeq ≤
            (UdpStreamInner.dispatch v.st pkt now).1.nextReadSeq := by
          unfold UdpStreamInner.dispatch
          rw [hk]
          exact v.st.pushData_next_le pkt.header.seq pkt.payload
        by_contra hne
        -- passing the expected chunk means having received it
        have hrec : (UdpStreamInner.dispatch v.st pkt now).1.Received
            v.st.nextReadSeq := Or.inl (by dsimp only at hne; omega)
        rcases UdpStreamInner.dispatch_received.mp hrec with
          (hlt | ⟨d, hd⟩) | ⟨-, hseq⟩
        · exact Nat.lt_irrefl _ hlt
        · exact Nat.lt_irrefl _ (hdr _ hd)
        · exact hpkt pkt now rfl hk hseq.symm
      · exact (@UdpStreamInner.dispatch_reading now pkt v.st hk).1
  | ticked pings hopen hpings halive =>
      obtain ⟨wq, hwq⟩ := v.st.getRetransmissions_frame _
      dsimp only
      rw [hwq]
  | tickTimedOut hopen hdead =>
      obtain ⟨wq, hwq⟩ := v.st.getRetransmissions_frame _
      dsimp only
      rw [hwq]
      rfl
  | _ => rfl

/-- **Step lemma**: what is abandoned stays abandoned. -/
theorem abandoned_moves {w w' : Connection} {a : Action} {s : Side} {i : ℕ}
    (hint : Intact w) (h : Abandoned w s i) (hm : w.Moves a w') :
    Abandoned w' s i := by
  have hpos : 1 ≤ i := h.expected ▸ (hint s).2.pos
  cases hm with
  | act hop hacts =>
      rename_i s' op out
      rcases s'.eq_or_eq_other s with rfl | rfl
      · -- the writer moves: it has no copy left to send
        have hnum := h.numbered
        refine ⟨?_, ?_, ?_, ?_, ?_⟩
        · rcases hacts.effect.accepted with ⟨-, hnext⟩ | ⟨d, -, hnext⟩
          · exact (Nat.lt_of_lt_of_eq hnum hnext.symm :)
          · exact (Nat.lt_of_lt_of_eq (Nat.lt_succ_of_lt hnum) hnext.symm :)
        · rw [hacts.other]
          exact h.expected
        · intro p hp
          rcases hacts.effect.queued hp with ⟨q, hq, -⟩ | ⟨heq, -⟩
          · exact h.notQueued q hq
          · exact Nat.ne_of_lt hnum heq
        · intro d hd
          rcases hacts.effect.offered hd with hd' | h0 | ⟨heq, -⟩
          · exact h.notOffered d hd'
          · exact absurd h0 (by dsimp only; omega)
          · exact Nat.ne_of_lt hnum heq
        · intro d hd hk hseq
          rw [hacts.sent] at hd
          rcases List.mem_append.mp hd with hd' | hd'
          · exact h.notInFlight d hd' hk hseq
          · rcases hacts.effect.chunk_sent hd' hk with ⟨p, hp, -⟩ | ⟨hch, -⟩
            · exact h.notQueued p (hseq ▸ hp)
            · exact h.notOffered d.payload (hseq ▸ hch)
      · -- the reader moves: what it gets is not the chunk it expects
        have hexp := h.expected
        have hdr := (hint s'.other).2.drained
        rw [Side.other_other] at hexp hdr
        refine ⟨?_, ?_, ?_, ?_, ?_⟩
        · rw [hacts.other]
          exact h.numbered
        · rw [Side.other_other]
          refine (hacts.effect.waits hdr ?_).trans hexp
          intro pkt now hop hk hseq
          obtain ⟨d, hd, hh, -⟩ := hacts.fromNet pkt now hop
          refine h.notInFlight d hd (hh ▸ hk) ?_
          rw [hh, hseq]
          exact hexp
        · rw [hacts.other]
          exact h.notQueued
        · rw [hacts.other]
          exact h.notOffered
        · rw [hacts.otherNet]
          exact h.notInFlight
  | quiet hop hq =>
      refine ⟨?_, ?_, ?_, ?_, ?_⟩
      · rw [hq.on]
        exact h.numbered
      · rw [hq.on]
        exact h.expected
      · rw [hq.on]
        exact h.notQueued
      · rw [hq.on]
        exact h.notOffered
      · intro d hd hk
        rcases hq.net s d hd with hd' | hclose
        · exact h.notInFlight d hd' hk
        · rw [hk] at hclose
          cases hclose

/-- **Run lemma**: in every continuation the reader still waits for `i`. -/
theorem Abandoned.run {w w' : Connection} {as : List Action} {s : Side} {i : ℕ}
    (h : Abandoned w s i) (hreach : w.Reachable)
    (hr : Runs.Run Connection.step w as w') :
    w'.Reachable ∧ Abandoned w' s i := by
  refine Runs.run_preserves (I := fun w => w.Reachable ∧ Abandoned w s i)
    ?_ ⟨hreach, h⟩ hr
  intro u a u' hu hstep
  obtain ⟨hwf, hint⟩ := hu.1.intact
  refine ⟨hu.1.run (Runs.run_cons.mpr ⟨u', hstep, Runs.run_nil.mpr rfl⟩), ?_⟩
  exact abandoned_moves hint hu.2 (Connection.step_moves hwf hstep).2

/-- The other end's reader has been given bytes of the chunk `j` of `s`, or of
a later one. -/
def Obtained (w : Connection) (s : Side) (j : ℕ) : Prop :=
  (bytesBelow (w.on s).accepted j).length < (w.on s.other).returned.length

theorem bytesBelow_length_mono {acc : List (ℕ × Bytes)} (h : Numbered acc)
    {m n : ℕ} (hmn : m ≤ n) :
    (bytesBelow acc m).length ≤ (bytesBelow acc n).length := by
  have hle : m - 1 ≤ n - 1 := by omega
  obtain ⟨rest, hrest⟩ : acc.take (m - 1) <+: acc.take (n - 1) :=
    List.take_prefix_take_left hle
  rw [h.bytesBelow_eq, h.bytesBelow_eq, ← hrest, List.map_append,
    List.flatten_append, List.length_append]
  omega

theorem Abandoned.not_obtained {w : Connection} {s : Side} {i j : ℕ}
    (h : Abandoned w s i) (hreach : w.Reachable) (hij : i < j) :
    ¬ Obtained w s j := by
  obtain ⟨hsend, hrecv⟩ := hreach.intact.2 s
  have hbytes : (w.on s.other).returned ++ (w.on s.other).st.readBufBytes =
      bytesBelow (w.on s).accepted (w.on s.other).st.nextReadSeq := hrecv.bytes
  rw [h.expected] at hbytes
  have hlen : (w.on s.other).returned.length ≤
      (bytesBelow (w.on s).accepted i).length := by
    rw [← hbytes, List.length_append]
    omega
  have hmono : (bytesBelow (w.on s).accepted i).length ≤
      (bytesBelow (w.on s).accepted j).length :=
    bytesBelow_length_mono hsend.numbered (Nat.le_of_lt hij)
  unfold Obtained
  omega

/-- **A forgotten chunk stalls a NACK-mode stream for ever.** From no state in
which the expected chunk is abandoned does any continuation give the reader a
byte of a later one. -/
theorem lost_chunk_stalls {w : Connection} (h : w.Reachable) (s : Side) (i : ℕ)
    (hlost : Abandoned w s i) :
    ¬ ∃ as w', Runs.Run Connection.step w as w' ∧
      ∃ j, i < j ∧ Obtained w' s j := by
  rintro ⟨as, w', hr, j, hij, hgot⟩
  obtain ⟨hreach', hlost'⟩ := hlost.run h hr
  exact hlost'.not_obtained hreach' hij hgot

/-- Both ends in NACK mode, one chunk lost on its way, and a tick 31 s later. -/
def lossyRun : List Action :=
  [.act .connector .setUdpNackMode, .act .acceptor .setUdpNackMode,
    .act .connector (.pollWrite 0 [1] 0), .act .connector (.writeRx 0),
    .lose .connector ⟨⟨7, .stream, 1, 0, 0⟩, [1], listenerAddr⟩,
    .act .connector (.tick (secs 31))]

theorem lossyRun_abandons : ∃ w,
    Runs.Run Connection.step .sample (Connection.opening ++ lossyRun) w ∧
    (∀ r, (w.on r).st.mode = .udp) ∧
    (∀ r, (w.on r).stream.inner.closed = false) ∧
    Abandoned w .connector 1 := by
  refine ⟨_, rfl, fun r => by cases r <;> rfl, fun r => by cases r <;> rfl,
    by decide +kernel, rfl, fun p hp => ?_, fun d hd => ?_, ?_⟩
  · exact List.not_mem_nil hp
  · exact List.not_mem_nil hd
  · decide +kernel

theorem lost_chunk_stalls_lossyRun : ∃ w, w.Reachable ∧
    (∀ r, (w.on r).st.mode = .udp) ∧
    (∀ r, (w.on r).stream.inner.closed = false) ∧
    ¬ ∃ as w', Runs.Run Connection.step w as w' ∧
      ∃ j, 1 < j ∧ Obtained w' .connector j := by
  obtain ⟨w, hr, hmode, hopen, hlost⟩ := lossyRun_abandons
  have hreach := Connection.reachable_of_opening lossyRun hr
  exact ⟨w, hreach, hmode, hopen, lost_chunk_stalls hreach .connector 1 hlost⟩

theorem stream_not_resumed_after_expiry :
    ¬ ∀ w : Connection, w.Reachable → (∀ r, (w.on r).st.mode = .udp) →
      (∀ r, (w.on r).stream.inner.closed = false) →
      ∀ s i, Abandoned w s i →
        ∃ as w', Runs.Run Connection.step w as w' ∧
          ∃ j, i < j ∧ Obtained w' s j := by
  intro hall
  obtain ⟨w, hr, hmode, hopen, hlost⟩ := lossyRun_abandons
  have hreach := Connection.reachable_of_opening lossyRun hr
  obtain ⟨as, w', hrun, j, hij, hgot⟩ := hall w hreach hmode hopen _ 1 hlost
  obtain ⟨hreach', hlost'⟩ := hlost.run hreach hrun
  exact hlost'.not_obtained hreach' hij hgot

/-! ## The switch leaves what was sent before it unprotected -/

/-- A tick at `now` owes the chunk `i` a retransmission: the stream is open,
the chunk is queued, was last sent more than 200 ms ago and has not reached the
limit. -/
def Owed (e : Endpoint) (now : Instant) (i : ℕ) : Prop :=
  e.stream.running = true ∧ e.stream.inner.closed = false ∧
    ∃ p, (i, p) ∈ e.st.writeQueue.entries ∧ now - p.sentAt > millis 200 ∧
      p.retransmits < 100

/-- If the step is a tick, it resends every owed chunk numbered below `k`,
unless it closes the stream. -/
def ResendsOwed (k : ℕ) (e : Endpoint) (op : Op) : Prop :=
  ∀ now e' out, op = .tick now → e.step op = some (e', out) →
    ∀ i, i < k → Owed e now i →
      (∃ d ∈ out.sent, d.header.packetKind = .stream ∧ d.header.seq = i) ∨
        e'.stream.inner.closed = true

/-- If the step is a tick, it owes nothing numbered below `k`. -/
def NothingOwed (k : ℕ) (e : Endpoint) (op : Op) : Prop :=
  ∀ now, op = .tick now → ∀ i, i < k → ¬ Owed e now i

/-- In TCP mode a tick pays what it owes or closes the stream. -/
theorem tick_resends_tcp {e e' : Endpoint} {now : Instant} {out : Output}
    {i : ℕ} (hwf : e.WF) (hmode : e.st.mode = .tcp)
    (hs : e.step (.tick now) = some (e', out)) (howed : Owed e now i) :
    (∃ d ∈ out.sent, d.header.packetKind = .stream ∧ d.header.seq = i) ∨
      e'.stream.inner.closed = true := by
  obtain ⟨-, hopen, p, hp, hdue, hlim⟩ := howed
  have hscan := StreamState.getRetransmissions_tcp hmode now
  rcases (Endpoint.wf_step hwf hs).2.tick_inv hopen with
    ⟨halive, -, pings, -, hsent⟩ | ⟨-, -, -, hv⟩ | ⟨-, -, hv⟩
  · left
    change (e.st.getRetransmissions now).2.2 = false at halive
    rcases StreamState.retransmitScan_due hp hdue hlim with hout | hdead
    · rw [← hscan] at hout
      refine ⟨_, hsent ▸ List.mem_map_of_mem (List.mem_append_right _
        (List.mem_map_of_mem hout)), rfl, rfl⟩
    · rw [hscan, hdead] at halive
      cases halive
  · exact Or.inr (congrArg View.closed hv)
  · exact Or.inr (congrArg View.closed hv)

/-- In NACK mode a tick that owes something neither pays nor closes. -/
theorem tick_udp_resends_nothing {e e' : Endpoint} {now : Instant}
    {out : Output} {i : ℕ} (hwf : e.WF) (hmode : e.st.mode = .udp)
    (hs : e.step (.tick now) = some (e', out)) (howed : Owed e now i) :
    (∀ d ∈ out.sent, d.header.packetKind ≠ .stream) ∧
      e'.stream.inner.closed = false := by
  obtain ⟨-, hopen, p, hp, -, -⟩ := howed
  have hnone := StreamState.getRetransmissions_udp hmode now
  rcases (Endpoint.wf_step hwf hs).2.tick_inv hopen with
    ⟨-, hv, pings, hpings, hsent⟩ | ⟨hempty, -⟩ | ⟨hdead, -⟩
  · change out.sent = List.map _ (pings ++
      (e.st.getRetransmissions now).2.1.map _) at hsent
    rw [hnone] at hsent
    refine ⟨?_, (congrArg View.closed hv).trans hopen⟩
    intro d hd hk
    rw [hsent] at hd
    obtain ⟨q, hq, rfl⟩ := List.mem_map.mp hd
    rcases List.mem_append.mp hq with hq' | hq'
    · rw [ToSend.datagram_kind, hpings q hq'] at hk
      cases hk
    · cases hq'
  · have hnil : e.st.writeQueue.entries = [] := List.isEmpty_iff.mp hempty
    rw [hnil] at hp
    cases hp
  · change (e.st.getRetransmissions now).2.2 = true at hdead
    rw [hnone] at hdead
    cases hdead

/-- **Step lemma**: in NACK mode a tick meets its debts exactly if it has
none. -/
theorem resendsOwed_iff (k : ℕ) (e : Endpoint) (op : Op) (hwf : e.WF)
    (hmode : e.st.mode = .udp) :
    ResendsOwed k e op ↔ NothingOwed k e op := by
  constructor
  · rintro hres now rfl i hi howed
    have hstep : ∃ e' out, e.step (.tick now) = some (e', out) :=
      ⟨_, _, if_pos howed.1⟩
    obtain ⟨e', out, hs⟩ := hstep
    obtain ⟨hsent, hopen⟩ := tick_udp_resends_nothing hwf hmode hs howed
    rcases hres now e' out rfl hs i hi howed with ⟨d, hd, hk, -⟩ | hclosed
    · exact hsent d hd hk
    · rw [hopen] at hclosed
      cases hclosed
  · rintro hnone now e' out rfl hs i hi howed
    exact absurd howed (hnone now rfl i hi)

/-- No step leaves NACK mode. -/
theorem Effect.stays_udp {sid : UInt32} {v v' : View} {op : Op} {out : Output}
    (heff : Effect sid v op v' out) (hmode : v.st.mode = .udp) :
    v'.st.mode = .udp := by
  cases heff with
  | nackMode => rfl
  | incoming hopen hrun =>
      exact (UdpStreamInner.dispatch_frame v.st _ _).1.trans hmode
  | ticked pings hopen hpings halive =>
      obtain ⟨wq, hwq⟩ := v.st.getRetransmissions_frame _
      dsimp only
      rw [hwq]
      exact hmode
  | tickTimedOut hopen hdead =>
      obtain ⟨wq, hwq⟩ := v.st.getRetransmissions_frame _
      dsimp only
      rw [hwq]
      exact hmode
  | _ => exact hmode

/-- **The switch to NACK mode.** Let `e₁` be the endpoint before the switch and
`e₂` after it: the chunks accepted before the switch are those numbered below
the next number of `e₁`. The ticks that follow resend what they owe of these
exactly if they owe none of them. -/
theorem nack_switch_resends_iff {e₀ e₁ e₂ : Endpoint} {before : List Op}
    (hfresh : e₀.Fresh) (hrun : Runs.Run Endpoint.next e₀ before e₁)
    (hswitch : e₁.next .setUdpNackMode = some e₂) (after : List Op) :
    Runs.Meets Endpoint.next (ResendsOwed e₁.st.nextWriteSeq) e₂ after ↔
      Runs.Meets Endpoint.next (NothingOwed e₁.st.nextWriteSeq) e₂ after := by
  have hwf₁ : e₁.WF := hfresh.wf_run hrun
  obtain ⟨hwf₂, out, -, heff⟩ := Endpoint.wf_next hwf₁ hswitch
  have hmode₂ : e₂.snap.st.mode = .udp := by
    generalize e₂.snap = v at heff ⊢
    cases heff
    rfl
  refine Runs.meets_congr (I := fun e => e.WF ∧ e.st.mode = .udp) ?_ ?_
    ⟨hwf₂, hmode₂⟩
  · exact fun e op ⟨hwf, hmode⟩ => resendsOwed_iff _ e op hwf hmode
  · intro e op e' ⟨hwf, hmode⟩ _ hs
    obtain ⟨hwf', out', -, heff'⟩ := Endpoint.wf_next hwf hs
    exact ⟨hwf', heff'.stays_udp hmode⟩

/-- A client connects and writes its hello. -/
def lostHello : List Op :=
  [.connectTurn 0,
    .incoming ⟨⟨7, .streamOpenAck, 0, 0, 0⟩, [], listenerAddr⟩ 0,
    .pollWrite 0 [1, 2] 0, .writeRx 0]

theorem nack_switch_resends_iff_lostHello : ∃ e₁ e₂,
    Runs.Run Endpoint.next Connection.sample.connector lostHello e₁ ∧
    e₁.next .setUdpNackMode = some e₂ ∧
    (Runs.Meets Endpoint.next (ResendsOwed e₁.st.nextWriteSeq) e₂
      [.tick (millis 300)] ↔
    Runs.Meets Endpoint.next (NothingOwed e₁.st.nextWriteSeq) e₂
      [.tick (millis 300)]) := by
  have hfresh : Connection.sample.connector.Fresh := ⟨_, _, _, Or.inl rfl⟩
  have hrun : Runs.Run Endpoint.next Connection.sample.connector lostHello _ :=
    rfl
  exact ⟨_, _, hrun, rfl, nack_switch_resends_iff hfresh hrun rfl _⟩

/-- The hello is queued, due and below the limit; the tick sends nothing. -/
theorem lost_hello_not_resent :
    ¬ ∀ (e₀ e₁ e₂ : Endpoint) (before after : List Op), e₀.Fresh →
      Runs.Run Endpoint.next e₀ before e₁ →
      e₁.next .setUdpNackMode = some e₂ →
      Runs.Meets Endpoint.next (ResendsOwed e₁.st.nextWriteSeq) e₂ after := by
  intro hall
  have hmeets := hall Connection.sample.connector _ _ lostHello
    [.tick (millis 300)] ⟨_, _, _, Or.inl rfl⟩ rfl rfl
  have hres := hmeets.1 (millis 300) _ _ rfl rfl 1 (by decide +kernel)
    ⟨rfl, rfl, ⟨[1, 2], 0, 0⟩, by decide +kernel, by decide +kernel,
      by decide +kernel⟩
  rcases hres with ⟨d, hd, -⟩ | hclosed
  · exact List.not_mem_nil hd
  · exact Bool.noConfusion hclosed

end Rathole
