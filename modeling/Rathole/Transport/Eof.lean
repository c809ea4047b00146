import Rathole.Transport.Integrity

/-!
# End of file

`poll_read` reports end of file when the stream is closed and nothing is left
to read. The close signal is a packet without a sequence number, and the same
flag is set by timeouts, by socket errors and by the reader's own shutdown, so
end of file may come too early. `eof_complete` names the runs in which it does
not: those in which the reader's end is closed only once it has everything and
the writer has shut down.
-/

namespace Rathole

/-- A read with room in the buffer returns no bytes. -/
def Endpoint.ReportsEof (e : Endpoint) : Prop :=
  e.dropped = false ∧
    ∃ cx n, 0 < n ∧ (e.stream.pollRead cx n).2 = .ready (.ok [])

theorem Endpoint.ReportsEof.closed {e : Endpoint} (hwf : e.WF)
    (h : e.ReportsEof) :
    e.stream.inner.closed = true ∧ e.st.readBufBytes = [] := by
  obtain ⟨-, cx, n, hn, hread⟩ := h
  unfold UdpStream.pollRead at hread
  rw [Endpoint.Holds.state? hwf] at hread
  dsimp only at hread
  split at hread
  · rename_i hne
    injection hread with hbytes
    injection hbytes with hnil
    rw [List.take_eq_nil_iff] at hnil
    have hpos := List.length_pos_of_ne_nil hne
    rcases hnil with hzero | hempty
    · omega
    · exact absurd hempty hne
  · rename_i hempty
    split at hread
    · rename_i hclosed
      exact ⟨hclosed, not_not.mp hempty⟩
    · cases hread

/-- The end `r` has received all that the other end, which has shut down, will
ever have accepted. -/
def Connection.Finished (w : Connection) (r : Side) : Prop :=
  (w.on r.other).shutdown = true ∧
    (w.on r).st.nextReadSeq = (w.on r.other).st.nextWriteSeq

/-- `handle_tick` gives the open stream up: silence for 300 s with nothing
outstanding, or a chunk at its retransmission limit. -/
def Endpoint.GivesUp (e : Endpoint) (now : Instant) : Prop :=
  (e.st.writeQueue.isEmpty = true ∧
    now - e.stream.inner.lastReceived > secs 300) ∨
  (e.st.mode = .tcp ∧ ∃ x ∈ e.st.writeQueue.entries,
    now - x.2.sentAt > millis 200 ∧ 100 ≤ x.2.retransmits)

/-- The step does not close the open end `r` under its reader, unless by a
StreamClose or by the reader's own shutdown once the connection is finished. -/
def ClosesCleanly (r : Side) (w : Connection) (a : Action) : Prop :=
  ∀ op, a.op? = some (r, op) → (w.on r).stream.inner.closed = false →
    (w.on r).dropped = false →
    match op with
    | .pollShutdown => w.Finished r
    | .incoming pkt _ =>
        pkt.header.packetKind = .streamClose → w.Finished r
    | .tick now => ¬ (w.on r).GivesUp now
    | .socketError => False
    | .endTask => False
    | _ => True

/-- The ways in which an open stream is closed; none of them takes a chunk. -/
theorem Effect.closing {sid : UInt32} {v v' : View} {op : Op} {out : Output}
    (heff : Effect sid v op v' out) (hopen : v.closed = false)
    (hclosed : v'.closed = true) :
    v'.st.nextReadSeq = v.st.nextReadSeq ∧
    (op = .pollShutdown ∨
    (∃ pkt now, op = .incoming pkt now ∧
      pkt.header.packetKind = .streamClose) ∨
    (∃ now, op = .tick now ∧
      ((v.st.writeQueue.isEmpty = true ∧ now - v.lastReceived > secs 300) ∨
        (v.st.getRetransmissions now).2.2 = true)) ∨
    op = .socketError ∨ op = .endTask) := by
  cases heff with
  | shut hch => exact ⟨rfl, Or.inl rfl⟩
  | incoming hold hrun =>
      rename_i pkt now
      have hk : pkt.header.packetKind = .streamClose := by
        unfold UdpStreamInner.dispatch at hclosed
        cases hk : pkt.header.packetKind with
        | streamClose => rfl
        | _ =>
            rw [hk] at hclosed
            cases hclosed
      have hread := @UdpStreamInner.dispatch_reading now pkt v.st
        (by rw [hk]; exact PacketKind.noConfusion)
      exact ⟨hread.1, Or.inr (Or.inl ⟨pkt, now, rfl, hk⟩)⟩
  | tickEnded hcause =>
      rename_i now
      rcases hcause with hc | hidle
      · rw [hopen] at hc
        cases hc
      · exact ⟨rfl, Or.inr (Or.inr (Or.inl ⟨now, rfl, Or.inl hidle⟩))⟩
  | tickTimedOut hold hdead =>
      rename_i now
      obtain ⟨wq, hwq⟩ := v.st.getRetransmissions_frame now
      refine ⟨?_, Or.inr (Or.inr (Or.inl ⟨now, rfl, Or.inr hdead⟩))⟩
      show (v.st.getRetransmissions now).1.nextReadSeq = _
      rw [hwq]
  | failed => exact ⟨rfl, Or.inr (Or.inr (Or.inr (Or.inl rfl)))⟩
  | ended hrun => exact ⟨rfl, Or.inr (Or.inr (Or.inr (Or.inr rfl)))⟩
  | _ =>
      rw [hopen] at hclosed
      cases hclosed

theorem givesUp_of_tick {e : Endpoint} {now : Instant}
    (h : (e.st.writeQueue.isEmpty = true ∧
      now - e.stream.inner.lastReceived > secs 300) ∨
        (e.st.getRetransmissions now).2.2 = true) : e.GivesUp now := by
  rcases h with hidle | hdead
  · exact Or.inl hidle
  · cases hmode : e.st.mode with
    | tcp =>
        rw [StreamState.getRetransmissions_tcp hmode] at hdead
        exact Or.inr ⟨hmode, StreamState.retransmitScan_timeout hdead⟩
    | udp =>
        rw [StreamState.getRetransmissions_udp hmode] at hdead
        cases hdead

/-- A closed stream neither takes nor accepts chunks. -/
theorem Effect.closed_frame {sid : UInt32} {v v' : View} {op : Op}
    {out : Output} (heff : Effect sid v op v' out) (hclosed : v.closed = true) :
    v'.closed = true ∧ v'.st.nextReadSeq = v.st.nextReadSeq ∧
      v'.st.nextWriteSeq = v.st.nextWriteSeq := by
  have hstays : v'.closed = true := by
    by_contra hopen
    rw [heff.open_before (Bool.not_eq_true _ ▸ hopen)] at hclosed
    cases hclosed
  refine ⟨hstays, ?_⟩
  cases heff with
  | wrote hopen _ _ =>
      rw [hclosed] at hopen
      cases hopen
  | incoming hopen _ =>
      rw [hclosed] at hopen
      cases hopen
  | ticked _ hopen _ _ =>
      rw [hclosed] at hopen
      cases hopen
  | tickTimedOut hopen _ =>
      rw [hclosed] at hopen
      cases hopen
  | _ => exact ⟨rfl, rfl⟩

/-- What the application has done stays done. -/
theorem Effect.sticky {sid : UInt32} {v v' : View} {op : Op} {out : Output}
    (heff : Effect sid v op v' out) :
    (v.shutdown = true → v'.shutdown = true) ∧
      (v.dropped = true → v'.dropped = true) := by
  cases heff with
  | shut hch => exact ⟨fun _ => rfl, id⟩
  | dropped => exact ⟨id, fun _ => rfl⟩
  | _ => exact ⟨id, id⟩

/-- Closed and finished, the end `r` stays so. -/
theorem finished_moves {w w' : Connection} {a : Action} {r : Side}
    (hlink : w.Linked) (hclosed : (w.on r).snap.closed = true)
    (hfin : w.Finished r) (hm : w.Moves a w') :
    (w'.on r).snap.closed = true ∧ w'.Finished r := by
  cases hm with
  | act hop hacts =>
      rename_i s op out
      rcases s.eq_or_eq_other r with rfl | rfl
      · obtain ⟨hstays, hnext, -⟩ := hacts.effect.closed_frame hclosed
        refine ⟨hstays, ?_⟩
        unfold Connection.Finished
        rw [hacts.other]
        exact ⟨hfin.1, (hnext.trans hfin.2 :)⟩
      · unfold Connection.Finished at hfin ⊢
        rw [Side.other_other] at hfin ⊢
        obtain ⟨-, -, hnext⟩ := hacts.effect.closed_frame
          (hlink.shut s hfin.1)
        rw [hacts.other]
        exact ⟨hclosed, hacts.effect.sticky.1 hfin.1,
          (hfin.2.trans hnext.symm :)⟩
  | quiet hop hq =>
      unfold Connection.Finished
      rw [hq.on, hq.on]
      exact ⟨hclosed, hfin⟩

theorem Finished.run {w w' : Connection} {as : List Action} {r : Side}
    (hreach : w.Reachable) (hclosed : (w.on r).snap.closed = true)
    (hfin : w.Finished r) (hr : Runs.Run Connection.step w as w') :
    w'.Finished r := by
  have hinv := Runs.run_preserves (I := fun u : Connection =>
    u.Reachable ∧ (u.on r).snap.closed = true ∧ u.Finished r) ?_
    ⟨hreach, hclosed, hfin⟩ hr
  · exact hinv.2.2
  · intro u a u' ⟨hu, hc, hf⟩ hstep
    have hm := (Connection.step_moves hu.intact.1 hstep).2
    exact ⟨hu.run (Runs.run_cons.mpr ⟨u', hstep, Runs.run_nil.mpr rfl⟩),
      finished_moves hu.linked hc hf hm⟩

theorem dropped_run {w w' : Connection} {as : List Action} {r : Side}
    (hwf : w.WF) (hr : Runs.Run Connection.step w as w')
    (hpresent : (w'.on r).dropped = false) : (w.on r).dropped = false := by
  by_contra hdrop
  have hinv := Runs.run_preserves (I := fun u : Connection =>
    u.WF ∧ (u.on r).snap.dropped = true) ?_
    ⟨hwf, Bool.not_eq_false _ ▸ hdrop⟩ hr
  · have hgone : (w'.on r).dropped = true := hinv.2
    rw [hpresent] at hgone
    cases hgone
  · intro u a u' ⟨hu, hd⟩ hstep
    obtain ⟨hwf', hm⟩ := Connection.step_moves hu hstep
    refine ⟨hwf', ?_⟩
    cases hm with
    | act hop hacts =>
        rename_i s op out
        rcases s.eq_or_eq_other r with rfl | rfl
        · exact hacts.effect.sticky.2 hd
        · rw [hacts.other]
          exact hd
    | quiet hop hq =>
        rw [hq.on]
        exact hd

/-- A finished reader that has read everything ready has read everything. -/
theorem returned_of_finished {w : Connection} {r : Side} (hreach : w.Reachable)
    (hfin : w.Finished r) (hempty : (w.on r).st.readBufBytes = []) :
    (w.on r).returned = ((w.on r.other).accepted.map Prod.snd).flatten := by
  obtain ⟨hsend, hrecv⟩ := hreach.intact.2 r.other
  rw [Side.other_other] at hrecv
  have hbytes : (w.on r).returned ++ (w.on r).st.readBufBytes =
      bytesBelow (w.on r.other).accepted (w.on r).st.nextReadSeq := hrecv.bytes
  have hnext : (w.on r.other).st.nextWriteSeq =
      (w.on r.other).accepted.length + 1 := hsend.next
  have hnum : Numbered (w.on r.other).accepted := hsend.numbered
  rw [hempty, List.append_nil, hfin.2, hnext, hnum.bytesBelow_eq,
    Nat.add_sub_cancel, List.take_length] at hbytes
  exact hbytes

/-- **End of file means complete, in every run that closes cleanly.** When the
reader of `r` is told end of file, the other end has shut down and every byte
it accepted has been read; and what closed `r` was a StreamClose or the
reader's own shutdown, after the other end's shutdown. -/
theorem eof_complete {sid : UInt32} {client server : SocketAddr}
    {t t' : Instant} {as : List Action} {w : Connection} (r : Side)
    (hrun : Runs.Run Connection.step
      (Connection.init sid client server t t') as w)
    (hclean : Runs.Meets Connection.step (ClosesCleanly r)
      (Connection.init sid client server t t') as)
    (heof : (w.on r).ReportsEof) :
    (w.on r.other).shutdown = true ∧
    (w.on r).returned = ((w.on r.other).accepted.map Prod.snd).flatten ∧
    ∃ as₁ a as₂ u, as = as₁ ++ a :: as₂ ∧
      Runs.Run Connection.step (Connection.init sid client server t t') as₁ u ∧
      (u.on r).stream.inner.closed = false ∧
      (u.on r.other).shutdown = true ∧
      (a.op? = some (r, .pollShutdown) ∨ ∃ pkt now,
        a.op? = some (r, .incoming pkt now) ∧
          pkt.header.packetKind = .streamClose) := by
  have hreach : w.Reachable := ⟨sid, client, server, t, t', as, hrun⟩
  obtain ⟨hclosed, hempty⟩ := heof.closed (hreach.intact.1 r)
  have hstart : ¬ ((Connection.init sid client server t t').on r).snap.closed =
      true := by
    obtain ⟨addr, last, hv⟩ := Connection.snap_init sid client server t t' r
    rw [hv]
    exact Bool.false_ne_true
  obtain ⟨as₁, a, as₂, u, u', rfl, hrun₁, hstep, hrun₂, hopen, hclosed'⟩ :=
    Runs.Run.flips (P := fun w : Connection => (w.on r).snap.closed = true)
      hrun hstart hclosed
  have hu : u.Reachable := ⟨sid, client, server, t, t', as₁, hrun₁⟩
  have hu' : u'.Reachable :=
    hu.run (Runs.run_cons.mpr ⟨u', hstep, Runs.run_nil.mpr rfl⟩)
  have hopen' : (u.on r).stream.inner.closed = false :=
    Bool.not_eq_true _ ▸ hopen
  have hpresent : (u.on r).dropped = false :=
    dropped_run hu.intact.1 (Runs.run_cons.mpr ⟨u', hstep, hrun₂⟩) heof.1
  have hcond := (hclean.after hrun₁).1
  have hm := (Connection.step_moves hu.intact.1 hstep).2
  -- the closing step is one of the two that `ClosesCleanly` allows
  have hcause : u.Finished r ∧ u'.Finished r ∧
      (a.op? = some (r, .pollShutdown) ∨ ∃ pkt now,
        a.op? = some (r, .incoming pkt now) ∧
          pkt.header.packetKind = .streamClose) := by
    cases hm with
    | act hop hacts =>
        rename_i s op out
        rcases s.eq_or_eq_other r with rfl | rfl
        · have hallowed := hcond op hop hopen' hpresent
          obtain ⟨hnext, hway⟩ := hacts.effect.closing hopen' hclosed'
          have hlater : u.Finished r → u'.Finished r := by
            intro hfin
            unfold Connection.Finished
            rw [hacts.other]
            exact ⟨hfin.1, (hnext.trans hfin.2 :)⟩
          rcases hway with rfl | ⟨pkt, now, rfl, hk⟩ | ⟨now, rfl, hup⟩ | rfl | rfl
          · exact ⟨hallowed, hlater hallowed, Or.inl hop⟩
          · exact ⟨hallowed hk, hlater (hallowed hk),
              Or.inr ⟨pkt, now, hop, hk⟩⟩
          · exact absurd (givesUp_of_tick hup) hallowed
          · exact hallowed.elim
          · exact hallowed.elim
        · rw [hacts.other] at hclosed'
          exact absurd hclosed' hopen
    | quiet hop hq =>
        rw [hq.on] at hclosed'
        exact absurd hclosed' hopen
  obtain ⟨hfin, hfin', hway⟩ := hcause
  have hfinal : w.Finished r := Finished.run hu' hclosed' hfin' hrun₂
  exact ⟨hfinal.1, returned_of_finished hreach hfinal hempty,
    as₁, a, as₂, u, rfl, hrun₁, hopen', hfin.1, hway⟩

/-- One chunk, read before the writer's StreamClose arrives. -/
def cleanRun : List Action :=
  [.act .connector (.pollWrite 0 [1, 2] 0), .act .connector (.writeRx 0),
    .deliver .acceptor ⟨⟨7, .stream, 1, 0, 0⟩, [1, 2], listenerAddr⟩
      connectorAddr 1,
    .act .acceptor (.pollRead 0 8), .act .connector .pollShutdown,
    .act .connector (.writeRx 2),
    .deliver .acceptor
      ⟨⟨7, .streamClose, 0, 0, 0⟩, [], listenerAddr⟩
      connectorAddr 3]

theorem eof_complete_cleanRun : ∃ w,
    Runs.Run Connection.step .sample (Connection.opening ++ cleanRun) w ∧
    (w.on .acceptor).ReportsEof ∧ (w.on .connector).shutdown = true ∧
    (w.on .acceptor).returned = [1, 2] := by
  have hrun : Runs.Run Connection.step .sample
      (Connection.opening ++ cleanRun) _ := rfl
  have hclean : Runs.Meets Connection.step (ClosesCleanly .acceptor) .sample
      (Connection.opening ++ cleanRun) := by
    -- the handshake
    refine ⟨fun op hop => (by cases hop), fun w₁ h₁ => ?_⟩
    cases h₁
    refine ⟨?_, fun w₂ h₂ => ?_⟩
    · intro op hop _ _
      cases hop
      exact fun hk => by cases hk
    cases h₂
    refine ⟨fun op hop => (by cases hop), fun w₃ h₃ => ?_⟩
    cases h₃
    -- the chunk and its reading
    refine ⟨fun op hop => (by cases hop), fun w₄ h₄ => ?_⟩
    cases h₄
    refine ⟨fun op hop => (by cases hop), fun w₅ h₅ => ?_⟩
    cases h₅
    refine ⟨?_, fun w₆ h₆ => ?_⟩
    · intro op hop _ _
      cases hop
      exact fun hk => by cases hk
    cases h₆
    refine ⟨?_, fun w₇ h₇ => ?_⟩
    · intro op hop _ _
      cases hop
      exact trivial
    cases h₇
    -- the close
    refine ⟨fun op hop => (by cases hop), fun w₈ h₈ => ?_⟩
    cases h₈
    refine ⟨fun op hop => (by cases hop), fun w₉ h₉ => ?_⟩
    cases h₉
    refine ⟨?_, fun _ _ => trivial⟩
    intro op hop _ _
    cases hop
    exact fun _ => ⟨rfl, rfl⟩
  obtain ⟨hshut, hread, -⟩ := eof_complete .acceptor hrun hclean
    ⟨rfl, 0, 8, by decide, rfl⟩
  exact ⟨_, hrun, ⟨rfl, 0, 8, by decide, rfl⟩, hshut, hread⟩

/-- The StreamClose overtakes the only chunk. -/
theorem close_overtakes_data :
    ¬ ∀ (w : Connection) (r : Side), w.Reachable →
      (∀ s, (w.on s).st.mode = .tcp) → (w.on r).ReportsEof →
      (w.on r.other).shutdown = true ∧
      (w.on r).returned =
        ((w.on r.other).accepted.map Prod.snd).flatten := by
  intro hall
  have hreach := Connection.reachable_of_opening
    [.act .connector (.pollWrite 0 [1, 2] 0), .act .connector (.writeRx 0),
      .act .connector .pollShutdown, .act .connector (.writeRx 2),
      .deliver .acceptor
        ⟨⟨7, .streamClose, 0, 0, 0⟩, [], .v4 #v[10, 0, 0, 2] 2333⟩
        (.v4 #v[10, 0, 0, 1] 40000) 3] rfl
  have heof := hall _ .acceptor hreach (fun s => by cases s <;> rfl)
    ⟨rfl, 0, 8, by decide, rfl⟩
  have hbytes : ([] : Bytes) = [1, 2] := heof.2
  cases hbytes

end Rathole
