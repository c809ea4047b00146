import Rathole.Transport.Recovery

/-!
# Shutdown and the other direction

`poll_shutdown` is the end of one direction only: the peer may go on sending,
and `copy_bidirectional` counts on it. The flag it sets is the one that stops
`handle_incoming` and the timer as well, so a stream whose application has
shut down takes no chunk any more. `half_close_iff` says that the only runs in
which the other direction stays intact are those that have nothing to deliver
in it.
-/

namespace Rathole

open StreamState (Acked)

/-- A chunk of the other end, whose application has not shut down, arrives at
`s`, whose application has. -/
structure LateArrival (s : Side) (w : Connection) (x : Arrival) : Prop where
  shut : (w.on s).shutdown = true
  peerOpen : (w.on s.other).shutdown = false
  arrives : w.Deliverable s .stream x

/-- A late chunk is taken and acknowledged, and the reader gets the bytes of
the other end in order. -/
def TakesLateChunks (s : Side) (w : Connection) (a : Action) : Prop :=
  ∀ x : Arrival, a = x.action s → LateArrival s w x →
    ∃ w' sent, w.step a = some w' ∧ w'.net s = w.net s ++ sent ∧
      (w'.on s).st.Received x.d.header.seq ∧
      (∃ d ∈ sent, d.header.packetKind = .sack ∧
        Acked d.header.ack d.header.ackBits x.d.header.seq) ∧
      (w'.on s).returned ++ (w'.on s).st.readBufBytes =
        bytesBelow (w'.on s.other).accepted (w'.on s).st.nextReadSeq

/-- No chunk comes late. -/
def NothingLate (s : Side) (w : Connection) (a : Action) : Prop :=
  ∀ x : Arrival, a = x.action s → ¬ LateArrival s w x

/-- After the shutdown a packet changes nothing at `s` and is not answered. -/
theorem shut_ignores {w w' : Connection} {s : Side} {x : Arrival}
    (hreach : w.Reachable) (hshut : (w.on s).shutdown = true)
    (hstep : w.step (x.action s) = some w') :
    (w'.on s).snap = (w.on s).snap ∧ w'.net s = w.net s := by
  have hclosed : (w.on s).snap.closed = true := hreach.linked.shut s hshut
  cases (Connection.step_moves hreach.intact.1 hstep).2 with
  | act hop hacts =>
      cases hop
      obtain ⟨hv, rfl⟩ := hacts.effect.incoming_closed hclosed
      exact ⟨hv, hacts.sent.trans (List.append_nil _)⟩
  | quiet hop _ => cases hop

/-- **Step lemma**: late chunks are taken exactly if there are none. -/
theorem takesLateChunks_iff {w : Connection} (hreach : w.Reachable) (s : Side)
    (a : Action) : TakesLateChunks s w a ↔ NothingLate s w a := by
  constructor
  · rintro htakes x rfl hlate
    obtain ⟨w', sent, hstep, hnet, -, ⟨d, hd, -⟩, -⟩ := htakes x rfl hlate
    have hquiet : w.net s ++ sent = w.net s :=
      hnet.symm.trans (shut_ignores hreach hlate.shut hstep).2
    have hsent : sent = [] := by simpa using hquiet
    subst hsent
    simp at hd
  · intro hnone x ha hlate
    exact absurd hlate (hnone x ha)

/-- **Half-close.** In a run of a connection every chunk that arrives at `s`
after the shutdown there and before one at the other end is taken and
acknowledged exactly if no chunk arrives then. -/
theorem half_close_iff (sid : UInt32) (client server : SocketAddr)
    (t t' : Instant) (s : Side) (as : List Action) :
    Runs.Meets Connection.step (TakesLateChunks s)
        (Connection.init sid client server t t') as ↔
      Runs.Meets Connection.step (NothingLate s)
        (Connection.init sid client server t t') as := by
  refine Runs.meets_congr (I := Connection.Reachable) ?_ ?_
    ⟨sid, client, server, t, t', [], Runs.run_nil.mpr rfl⟩
  · exact fun w a hreach => takesLateChunks_iff hreach s a
  · intro w a w' hreach _ hstep
    exact hreach.run (Runs.run_cons.mpr ⟨w', hstep, Runs.run_nil.mpr rfl⟩)

/-- The client has sent its request and shuts down; the server answers. -/
def answered : List Action :=
  Connection.opening ++
    [.act .connector .pollShutdown, .act .acceptor (.pollWrite 0 [5] 1),
      .act .acceptor (.writeRx 1)]

/-- The answer. -/
def answer : Arrival :=
  ⟨⟨⟨7, .stream, 1, 0, 0⟩, [5], connectorAddr⟩,
    listenerAddr, 2⟩

theorem late_answer_dropped :
    ¬ Runs.Meets Connection.step (TakesLateChunks .connector) .sample
      (answered ++ [answer.action .connector]) := by
  intro hmeets
  have hrun : ∃ w, Runs.Run Connection.step .sample answered w ∧
      LateArrival .connector w answer := by
    refine ⟨_, rfl, rfl, rfl, ⟨?_, rfl, rfl, ?_⟩⟩
    · decide +kernel
    · intro a ha
      exact Option.some.inj ha
  obtain ⟨w, hrun, hlate⟩ := hrun
  have hreach : w.Reachable := ⟨7, .v4 #v[10, 0, 0, 1] 40000,
    .v4 #v[10, 0, 0, 2] 2333, 0, 0, answered, hrun⟩
  have hlast := (hmeets.after hrun).1
  exact (takesLateChunks_iff hreach .connector _).mp hlast answer rfl hlate

end Rathole
