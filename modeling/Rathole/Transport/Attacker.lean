import Rathole.Transport.Integrity

/-!
# A network attacker

The attacker records every datagram of a connection and hands any of them to
either end, with any source address and any number of times. It cannot forge:
what it injects one of the two ends has sent. Both directions share one key
and one header layout, and no handler checks the direction of a packet, so the
attacker can hand a datagram back to the end that sent it. That is the only
way to make an end take something its peer did not write.
-/

namespace Rathole

inductive Attack where
  /-- The application or the task of one end acts. -/
  | act (side : Side) (op : Op)
  /-- The attacker hands a recorded datagram to `side`. -/
  | inject (side : Side) (d : Datagram) (src : SocketAddr) (now : Instant)
  /-- The listener answers a packet for the stream it has forgotten. -/
  | strayClose (d : Datagram) (src : SocketAddr)
deriving DecidableEq

namespace Connection

/-- What the attacker has seen: here the datagrams in flight are never lost. -/
def recorded (w : Connection) : List Datagram := w.fromConnector ++ w.fromAcceptor

def attack (w : Connection) : Attack → Option Connection
  | .act side op => w.step (.act side op)
  | .inject side d src now =>
      if d ∈ w.recorded then
        ((w.on side).step (.incoming ⟨d.header, d.payload, src⟩ now)).map
          (fun r => w.put side r.1 r.2.sent)
      else none
  | .strayClose d src =>
      if w.acceptor.stream.running = false ∧ d ∈ w.recorded ∧
          d.header.packetKind ≠ .streamOpen then
        some (w.put .acceptor w.acceptor [closeReply d src])
      else none

theorem mem_recorded {w : Connection} {d : Datagram} (s : Side) :
    d ∈ w.recorded ↔ d ∈ w.net s ∨ d ∈ w.net s.other := by
  unfold recorded
  rw [List.mem_append]
  cases s with
  | connector => exact Iff.rfl
  | acceptor => exact or_comm

/-! ## What a step under attack can do -/

/-- The end `s` takes a step, whoever sent what it receives. -/
structure Advances (w : Connection) (s : Side) (op : Op) (out : Output)
    (w' : Connection) : Prop where
  wf : w'.WF
  effect : Effect (w.on s).stream.streamId (w.on s).snap op (w'.on s).snap out
  sent : w'.net s = w.net s ++ out.sent
  other : w'.on s.other = w.on s.other
  otherNet : w'.net s.other = w.net s.other
  ident : (w'.on s).stream.streamId = (w.on s).stream.streamId

/-- The packet reaches the task of the end `s`. -/
structure Takes (w : Connection) (s : Side) (d : Datagram) (src : SocketAddr) :
    Prop where
  running : (w.on s).stream.running = true
  routes : (w.on s).routes ⟨d.header, d.payload, src⟩ = true

inductive Attacked (w : Connection) : Attack → Connection → Prop where
  | own {s : Side} {op : Op} {out : Output} {w' : Connection}
      (hop : op.isIncoming = false) (h : w.Advances s op out w') :
      Attacked w (.act s op) w'
  | injected {s : Side} {d : Datagram} {src : SocketAddr} {now : Instant}
      {out : Output} {w' : Connection} (hd : d ∈ w.recorded)
      (htakes : w.Takes s d src)
      (h : w.Advances s (.incoming ⟨d.header, d.payload, src⟩ now) out w') :
      Attacked w (.inject s d src now) w'
  | stray {d : Datagram} {src : SocketAddr} :
      Attacked w (.strayClose d src)
        (w.put .acceptor w.acceptor [closeReply d src])

theorem advances_put {w : Connection} {s : Side} {op : Op} {w' : Connection}
    (hwf : w.WF) (hs : ((w.on s).step op).map
      (fun r => w.put s r.1 r.2.sent) = some w') :
    ∃ out, w.Advances s op out w' := by
  obtain ⟨⟨e, out⟩, hr, rfl⟩ := Option.map_eq_some_iff.mp hs
  obtain ⟨hwf', heff⟩ := Endpoint.wf_step (hwf s) hr
  refine ⟨out, hwf.put hwf' _, ?_, net_put_same .., on_put_other ..,
    net_put_other .., ?_⟩
  · rw [on_put_same]
    exact heff
  · rw [on_put_same]
    exact (Endpoint.step_streamId (hwf s) hr).1

theorem takes_of_step {w w' : Connection} {s : Side} {d : Datagram}
    {src : SocketAddr} {now : Instant}
    (hs : ((w.on s).step (.incoming ⟨d.header, d.payload, src⟩ now)).map
      (fun r => w.put s r.1 r.2.sent) = some w') : w.Takes s d src := by
  obtain ⟨r, hr, -⟩ := Option.map_eq_some_iff.mp hs
  simp only [Endpoint.step] at hr
  split at hr
  · rename_i hcond
    exact ⟨hcond.1, hcond.2⟩
  · cases hr

theorem Takes.attack {w : Connection} {s : Side} {d : Datagram}
    {src : SocketAddr} (h : w.Takes s d src) (hd : d ∈ w.recorded)
    (now : Instant) : ∃ w', w.attack (.inject s d src now) = some w' := by
  have hstep : ∃ r, (w.on s).step (.incoming ⟨d.header, d.payload, src⟩ now) =
      some r := ⟨_, if_pos ⟨h.running, h.routes⟩⟩
  obtain ⟨r, hr⟩ := hstep
  refine ⟨w.put s r.1 r.2.sent, ?_⟩
  simp only [Connection.attack]
  rw [if_pos hd, hr]
  rfl

theorem Takes.id {w : Connection} {s : Side} {d : Datagram} {src : SocketAddr}
    (h : w.Takes s d src) :
    d.header.channelId = (w.on s).stream.streamId := by
  have hroutes := h.routes
  unfold Endpoint.routes at hroutes
  rw [Bool.and_eq_true, decide_eq_true_eq] at hroutes
  exact hroutes.1

/-- **Every step under attack is one of these.** -/
theorem attack_cases {w w' : Connection} {a : Attack} (hwf : w.WF)
    (hs : w.attack a = some w') : w.Attacked a w' := by
  cases a with
  | act side op =>
      simp only [attack, step] at hs
      split at hs
      · cases hs
      · rename_i hop
        obtain ⟨out, h⟩ := advances_put hwf hs
        exact .own (Bool.not_eq_true _ ▸ hop) h
  | inject side d src now =>
      simp only [attack] at hs
      split at hs
      · rename_i hd
        obtain ⟨out, h⟩ := advances_put hwf hs
        exact .injected hd (takes_of_step hs) h
      · cases hs
  | strayClose d src =>
      simp only [attack] at hs
      split at hs
      · cases hs
        exact .stray
      · cases hs

/-- The attacker forgets nothing. -/
theorem Attacked.remembers {w w' : Connection} {a : Attack}
    (h : w.Attacked a w') {s : Side} {d : Datagram} (hd : d ∈ w.net s) :
    d ∈ w'.net s := by
  have hadv {s' : Side} {op : Op} {out : Output} {w' : Connection}
      (hadv : w.Advances s' op out w') : d ∈ w'.net s := by
    rcases s'.eq_or_eq_other s with rfl | rfl
    · rw [hadv.sent]
      exact List.mem_append_left _ hd
    · rw [hadv.otherNet]
      exact hd
  cases h with
  | own hop h => exact hadv h
  | injected _ _ h => exact hadv h
  | stray =>
      cases s with
      | connector => exact hd
      | acceptor => exact List.mem_append_left _ hd

end Connection

/-! ## What the two ends keep under any attack -/

/-- An end that answers a StreamOpen is established. -/
theorem Effect.openAck_sent {sid : UInt32} {v v' : View} {op : Op}
    {out : Output} (heff : Effect sid v op v' out) {d : Datagram}
    (hd : d ∈ out.sent) (hk : d.header.packetKind = .streamOpenAck) :
    v'.st.established = true := by
  cases heff with
  | incoming hopen hrun =>
      rename_i pkt now
      obtain ⟨p, hp, rfl⟩ := List.mem_map.mp hd
      have hkind : p.kind = .streamOpenAck := hk
      apply UdpStreamInner.dispatch_established.mpr
      unfold UdpStreamInner.dispatch at hp
      cases hpk : pkt.header.packetKind with
      | streamOpen => exact Or.inr (Or.inl rfl)
      | sack =>
          rw [hpk] at hp
          rw [(UdpStreamInner.mem_afterAck hp).1] at hkind
          cases hkind
      | nack =>
          rw [hpk] at hp
          rw [(UdpStreamInner.mem_afterAck hp).1] at hkind
          cases hkind
      | stream =>
          rw [hpk] at hp
          dsimp only at hp
          split at hp
          · rw [List.mem_singleton.mp hp] at hkind
            cases hkind
          · split at hp
            · rw [List.mem_singleton.mp hp] at hkind
              cases hkind
            · cases hp
      | keepalivePing =>
          rw [hpk] at hp
          rw [List.mem_singleton.mp hp] at hkind
          cases hkind
      | _ =>
          rw [hpk] at hp
          cases hp
  | openSent =>
      rw [List.mem_singleton.mp hd] at hk
      cases hk
  | closeSent hch =>
      rw [List.mem_singleton.mp hd] at hk
      cases hk
  | chunkSent hch hseq =>
      rw [List.mem_singleton.mp hd] at hk
      cases hk
  | ticked pings hopen hpings halive =>
      obtain ⟨p, hp, rfl⟩ := List.mem_map.mp hd
      have hkind : p.kind = .streamOpenAck := hk
      rcases List.mem_append.mp hp with hp' | hp'
      · rw [hpings p hp'] at hkind
        cases hkind
      · obtain ⟨q, -, rfl⟩ := List.mem_map.mp hp'
        cases hkind
  | _ => cases hd

/-- Both ends follow the protocol: their chunks are the ones they accepted,
and who answered an open is established. -/
structure Honest (w : Connection) : Prop where
  wf : w.WF
  sameId : ∀ s, (w.on s.other).stream.streamId = (w.on s).stream.streamId
  sends : ∀ s, Sends (w.on s).snap (w.net s)
  answered : ∀ s, ∀ d ∈ w.net s, d.header.packetKind = .streamOpenAck →
    (w.on s).snap.st.established = true

theorem honest_init (sid : UInt32) (client server : SocketAddr)
    (t t' : Instant) : Honest (Connection.init sid client server t t') where
  wf := Connection.wf_init sid client server t t'
  sameId := (Connection.linked_init sid client server t t').sameId
  sends := fun s => (intact_init sid client server t t' s).1
  answered := by
    intro s d hd
    rw [Connection.net_init] at hd
    cases hd

theorem Honest.advances {w w' : Connection} {s : Side} {op : Op} {out : Output}
    (h : Honest w) (hadv : w.Advances s op out w') : Honest w' where
  wf := hadv.wf
  sameId := by
    intro s'
    rcases s.eq_or_eq_other s' with rfl | rfl
    · rw [hadv.other, hadv.ident]
      exact h.sameId s'
    · rw [Side.other_other, hadv.other, hadv.ident]
      exact (h.sameId s).symm
  sends := by
    intro s'
    rcases s.eq_or_eq_other s' with rfl | rfl
    · rw [hadv.sent]
      exact (h.sends s').effect hadv.effect
    · rw [hadv.other, hadv.otherNet]
      exact h.sends _
  answered := by
    intro s' d hd hk
    rcases s.eq_or_eq_other s' with rfl | rfl
    · rw [hadv.sent] at hd
      rcases List.mem_append.mp hd with hd' | hd'
      · exact hadv.effect.established.mpr (Or.inl (h.answered s' d hd' hk))
      · exact hadv.effect.openAck_sent hd' hk
    · rw [hadv.otherNet] at hd
      rw [hadv.other]
      exact h.answered _ d hd hk

theorem Honest.stray {w : Connection} (h : Honest w) (d : Datagram)
    (src : SocketAddr) :
    Honest (w.put .acceptor w.acceptor [Connection.closeReply d src]) := by
  have hnew {s : Side} {x : Datagram} (hx : x ∈ (w.put .acceptor w.acceptor
      [Connection.closeReply d src]).net s)
      (hk : x.header.packetKind ≠ .streamClose) : x ∈ w.net s := by
    cases s with
    | connector => exact hx
    | acceptor =>
        rcases List.mem_append.mp hx with hx' | hx'
        · exact hx'
        · rw [List.mem_singleton.mp hx'] at hk
          exact absurd rfl hk
  have hon : ∀ s, (w.put .acceptor w.acceptor
      [Connection.closeReply d src]).on s = w.on s := by
    intro s
    cases s <;> rfl
  refine ⟨h.wf.put (h.wf .acceptor) _, fun s => ?_, fun s => ?_,
    fun s x hx hk => ?_⟩
  · rw [hon, hon]
    exact h.sameId s
  · rw [hon]
    exact (h.sends s).sub (fun x hx hk => hnew hx (by simp [hk]))
  · rw [hon]
    exact h.answered s x (hnew hx (by simp [hk])) hk

/-- **Step lemma**: no attack changes what the ends themselves do. -/
theorem honest_attack {w w' : Connection} {a : Attack} (h : Honest w)
    (hs : w.attack a = some w') : Honest w' := by
  cases Connection.attack_cases h.wf hs with
  | own hop hadv => exact h.advances hadv
  | injected hd htakes hadv => exact h.advances hadv
  | stray => exact h.stray _ _

/-! ## Reflection -/

/-- The end `t` has sent an open for the stream or has processed one, which it
answers at once. -/
def Connection.Opened (w : Connection) (t : Side) : Prop :=
  ∃ d ∈ w.net t, d.header.channelId = (w.on t).stream.streamId ∧
    (d.header.packetKind = .streamOpen ∨ d.header.packetKind = .streamOpenAck)

/-- A step takes in at `s` only chunks that the other end accepted, from
datagrams of the other end, and establishes `s` only if the other end takes
part. -/
def DeliversPeerData (w : Connection) (a : Attack) : Prop :=
  ∀ w', w.attack a = some w' → ∀ s,
    (∀ i, ¬ (w.on s).st.Received i → (w'.on s).st.Received i →
      ∃ d src now, a = .inject s d src now ∧ d ∈ w.net s.other ∧
        d.header.seq = i ∧ (i, d.payload) ∈ (w.on s.other).accepted) ∧
    ((w.on s).st.established = false → (w'.on s).st.established = true →
      w.Opened s.other)

/-- The open end `s` is handed a datagram of its own that it takes for news. -/
structure Reflects (w : Connection) (s : Side) (d : Datagram)
    (src : SocketAddr) : Prop where
  own : d ∈ w.net s
  foreign : d ∉ w.net s.other
  takes : w.Takes s d src
  isOpen : (w.on s).stream.inner.closed = false
  news : (d.header.packetKind = .stream ∧
      ¬ (w.on s).st.Received d.header.seq) ∨
    (d.header.packetKind = .streamOpen ∧ (w.on s).st.established = false ∧
      ¬ w.Opened s.other)

def NoReflection (w : Connection) (a : Attack) : Prop :=
  ∀ s d src now, a = .inject s d src now → ¬ Reflects w s d src

/-- A chunk becomes received by arriving. -/
theorem Effect.received_inv {sid : UInt32} {v v' : View} {op : Op}
    {out : Output} (heff : Effect sid v op v' out) {i : ℕ}
    (hi : v'.st.Received i) :
    v.st.Received i ∨ ∃ pkt now, op = .incoming pkt now ∧ v.closed = false ∧
      pkt.header.packetKind = .stream ∧ pkt.header.seq = i := by
  cases heff with
  | incoming hopen hrun =>
      rcases UdpStreamInner.dispatch_received.mp hi with hold | ⟨hk, hseq⟩
      · exact Or.inl hold
      · exact Or.inr ⟨_, _, rfl, hopen, hk, hseq.symm⟩
  | ticked pings hopen hpings halive =>
      rename_i now
      obtain ⟨wq, hwq⟩ := v.st.getRetransmissions_frame now
      change (v.st.getRetransmissions now).1.Received i at hi
      rw [hwq] at hi
      exact Or.inl hi
  | tickTimedOut hopen hdead =>
      rename_i now
      obtain ⟨wq, hwq⟩ := v.st.getRetransmissions_frame now
      change (v.st.getRetransmissions now).1.Received i at hi
      rw [hwq] at hi
      exact Or.inl hi
  | _ => exact Or.inl hi

/-- A recorded datagram reaches the open end `s`. -/
structure Arrives (w : Connection) (s : Side) (d : Datagram)
    (src : SocketAddr) : Prop where
  recorded : d ∈ w.recorded
  takes : w.Takes s d src
  isOpen : (w.on s).snap.closed = false

namespace Connection.Attacked

variable {w w' : Connection} {a : Attack} {s : Side}

/-- Seen from one end: nothing happens, it acts, or a datagram reaches it. -/
theorem at_side (h : w.Attacked a w') (s : Side) :
    w'.on s = w.on s ∨
    ∃ op out, Effect (w.on s).stream.streamId (w.on s).snap op (w'.on s).snap
        out ∧
      ∀ pkt now, op = .incoming pkt now →
        ∃ d src, pkt = ⟨d.header, d.payload, src⟩ ∧
          a = .inject s d src now ∧ d ∈ w.recorded ∧ w.Takes s d src := by
  cases h with
  | own hop hadv =>
      rename_i side op out
      rcases side.eq_or_eq_other s with rfl | rfl
      · refine Or.inr ⟨op, out, hadv.effect, ?_⟩
        rintro pkt now rfl
        cases hop
      · exact Or.inl hadv.other
  | injected hd htakes hadv =>
      rename_i side d src now out
      rcases side.eq_or_eq_other s with rfl | rfl
      · refine Or.inr ⟨_, out, hadv.effect, ?_⟩
        rintro pkt now' heq
        cases heq
        exact ⟨d, src, rfl, rfl, hd, htakes⟩
      · exact Or.inl hadv.other
  | stray =>
      left
      cases s <;> rfl

theorem received (h : w.Attacked a w') {i : ℕ}
    (hi : (w'.on s).st.Received i) :
    (w.on s).st.Received i ∨ ∃ d src now, a = .inject s d src now ∧
      Arrives w s d src ∧ d.header.packetKind = .stream ∧
      d.header.seq = i := by
  rcases h.at_side s with hsame | ⟨op, out, heff, hin⟩
  · rw [hsame] at hi
    exact Or.inl hi
  · rcases heff.received_inv hi with hold | ⟨pkt, now, hop, hopen, hk, hseq⟩
    · exact Or.inl hold
    · obtain ⟨d, src, rfl, ha, hd, htakes⟩ := hin pkt now hop
      exact Or.inr ⟨d, src, now, ha, ⟨hd, htakes, hopen⟩, hk, hseq⟩

theorem established (h : w.Attacked a w')
    (hest : (w'.on s).st.established = true) :
    (w.on s).st.established = true ∨ ∃ d src now, a = .inject s d src now ∧
      Arrives w s d src ∧ (d.header.packetKind = .streamOpen ∨
        d.header.packetKind = .streamOpenAck) := by
  rcases h.at_side s with hsame | ⟨op, out, heff, hin⟩
  · rw [hsame] at hest
    exact Or.inl hest
  · rcases heff.established.mp hest with hold | ⟨pkt, now, hop, hopen, hk⟩
    · exact Or.inl hold
    · obtain ⟨d, src, rfl, ha, hd, htakes⟩ := hin pkt now hop
      exact Or.inr ⟨d, src, now, ha, ⟨hd, htakes, hopen⟩, hk⟩

end Connection.Attacked

/-- A chunk that an end takes in without reflection is the other end's. -/
theorem Honest.takes_chunk {w : Connection} (h : Honest w) {s : Side}
    {d : Datagram} {src : SocketAddr} (hnone : ¬ Reflects w s d src)
    (harr : Arrives w s d src) (hk : d.header.packetKind = .stream)
    (hnew : ¬ (w.on s).st.Received d.header.seq) :
    d ∈ w.net s.other ∧
      (d.header.seq, d.payload) ∈ (w.on s.other).accepted := by
  have hother : d ∈ w.net s.other := by
    rcases (Connection.mem_recorded s).mp harr.recorded with hown | hother
    · by_contra hforeign
      exact hnone ⟨hown, hforeign, harr.takes, harr.isOpen, Or.inl ⟨hk, hnew⟩⟩
    · exact hother
  exact ⟨hother, (h.sends s.other).inFlight d hother hk⟩

theorem Honest.takes_open {w : Connection} (h : Honest w) {s : Side}
    {d : Datagram} {src : SocketAddr} (hnone : ¬ Reflects w s d src)
    (harr : Arrives w s d src)
    (hk : d.header.packetKind = .streamOpen ∨
      d.header.packetKind = .streamOpenAck)
    (hnew : (w.on s).st.established = false) : w.Opened s.other := by
  have hid := harr.takes.id.trans (h.sameId s).symm
  by_cases hother : d ∈ w.net s.other
  · exact ⟨d, hother, hid, hk⟩
  · have hown : d ∈ w.net s :=
      ((Connection.mem_recorded s).mp harr.recorded).resolve_right hother
    rcases hk with hk | hk
    · by_contra hclosed
      exact hnone ⟨hown, hother, harr.takes, harr.isOpen,
        Or.inr ⟨hk, hnew, hclosed⟩⟩
    · -- who has sent a StreamOpenAck is established
      have hest : (w.on s).st.established = true := h.answered s d hown hk
      rw [hnew] at hest
      cases hest

/-- **Step lemma**: reflection is the only way. -/
theorem deliversPeerData_iff {w : Connection} (h : Honest w) (a : Attack) :
    DeliversPeerData w a ↔ NoReflection w a := by
  constructor
  · rintro hdel s d src now rfl hrefl
    obtain ⟨w', hs⟩ := hrefl.takes.attack
      ((Connection.mem_recorded s).mpr (Or.inl hrefl.own)) now
    obtain ⟨hchunk, hest⟩ := hdel w' hs s
    cases Connection.attack_cases h.wf hs with
    | injected hd htakes hadv =>
        obtain ⟨hv, -⟩ := hadv.effect.incoming_inv hrefl.isOpen
        have hst : (w'.on s).st = _ := congrArg View.st hv
        rcases hrefl.news with ⟨hk, hnew⟩ | ⟨hk, hnew, hclosed⟩
        · obtain ⟨d', src', now', ha, hmem, -⟩ := hchunk d.header.seq hnew (by
            rw [hst]
            exact UdpStreamInner.dispatch_received.mpr (Or.inr ⟨hk, rfl⟩))
          cases ha
          exact hrefl.foreign hmem
        · apply hclosed
          apply hest hnew
          rw [hst]
          exact UdpStreamInner.dispatch_established.mpr (Or.inr (Or.inl hk))
  · intro hnone w' hs s
    have hatt := Connection.attack_cases h.wf hs
    refine ⟨fun i hn hr => ?_, fun hf ht => ?_⟩
    · rcases hatt.received hr with hold | ⟨d, src, now, rfl, harr, hk, rfl⟩
      · exact absurd hold hn
      · obtain ⟨hmem, hacc⟩ := h.takes_chunk (hnone s d src now rfl) harr hk hn
        exact ⟨d, src, now, rfl, hmem, rfl, hacc⟩
    · rcases hatt.established ht with hold | ⟨d, src, now, rfl, harr, hk⟩
      · rw [hf] at hold
        cases hold
      · exact h.takes_open (hnone s d src now rfl) harr hk hf

/-! ## Runs under attack -/

/-- What a connection keeps as long as nothing is reflected. -/
structure Genuine (w : Connection) : Prop where
  honest : Honest w
  receives : ∀ s, Receives (w.on s.other).accepted (w.on s).snap
  opened : ∀ s, (w.on s).st.established = true → w.Opened s.other

theorem genuine_init (sid : UInt32) (client server : SocketAddr)
    (t t' : Instant) : Genuine (Connection.init sid client server t t') where
  honest := honest_init sid client server t t'
  receives := by
    intro s
    have h := (intact_init sid client server t t' s.other).2
    rwa [Side.other_other] at h
  opened := by
    intro s hest
    obtain ⟨addr, last, hv⟩ := Connection.snap_init sid client server t t' s
    have hnew : ((Connection.init sid client server t t').on s).st =
      StreamState.new .tcp := congrArg View.st hv
    rw [hnew] at hest
    cases hest

theorem Connection.Opened.attacked {w w' : Connection} {a : Attack}
    (h : w.Attacked a w') {t : Side} (hopened : w.Opened t) : w'.Opened t := by
  obtain ⟨d, hd, hid, hk⟩ := hopened
  refine ⟨d, h.remembers hd, ?_, hk⟩
  have hadv {s : Side} {op : Op} {out : Output} {u : Connection}
      (hadv : w.Advances s op out u) :
      (u.on t).stream.streamId = (w.on t).stream.streamId := by
    rcases s.eq_or_eq_other t with rfl | rfl
    · exact hadv.ident
    · rw [hadv.other]
  rw [hid]
  cases h with
  | own hop h => exact (hadv h).symm
  | injected _ _ h => exact (hadv h).symm
  | stray => cases t <;> rfl

/-- The receiving half at `s`, after a step of `s`. -/
theorem Genuine.receives_effect {w : Connection} (h : Genuine w) {s : Side}
    {op : Op} {out : Output} {v' : View}
    (heff : Effect (w.on s).stream.streamId (w.on s).snap op v' out)
    (hin : ∀ pkt now, op = .incoming pkt now →
      (w.on s).snap.closed = false → pkt.header.packetKind = .stream →
      ¬ (w.on s).st.Received pkt.header.seq →
        (pkt.header.seq, pkt.payload) ∈ (w.on s.other).accepted) :
    Receives (w.on s.other).accepted v' := by
  cases hclosed : (w.on s).snap.closed with
  | false =>
      exact (h.receives s).effect (h.honest.sends s.other).numbered heff
        (fun pkt now hop => hin pkt now hop hclosed)
  | true =>
      by_cases hop : ∃ pkt now, op = .incoming pkt now
      · obtain ⟨pkt, now, rfl⟩ := hop
        rw [(heff.incoming_closed hclosed).1]
        exact h.receives s
      · refine (h.receives s).effect (h.honest.sends s.other).numbered heff ?_
        exact fun pkt now heq => absurd ⟨pkt, now, heq⟩ hop

/-- **Step lemma**: without reflection a step keeps both directions apart. -/
theorem genuine_attack {w w' : Connection} {a : Attack} (h : Genuine w)
    (hnone : NoReflection w a) (hs : w.attack a = some w') : Genuine w' := by
  have hatt := Connection.attack_cases h.honest.wf hs
  have hadv {side : Side} {op : Op} {out : Output}
      (hadv : w.Advances side op out w')
      (hin : ∀ pkt now, op = .incoming pkt now →
        (w.on side).snap.closed = false → pkt.header.packetKind = .stream →
        ¬ (w.on side).st.Received pkt.header.seq →
          (pkt.header.seq, pkt.payload) ∈ (w.on side.other).accepted)
      (s : Side) : Receives (w'.on s.other).accepted (w'.on s).snap := by
    rcases side.eq_or_eq_other s with rfl | rfl
    · -- the mover receives
      rw [hadv.other]
      exact h.receives_effect hadv.effect hin
    · -- the mover sends
      rw [Side.other_other, hadv.other]
      have hold := h.receives side.other
      rw [Side.other_other] at hold
      rcases hadv.effect.accepted with ⟨hacc, -⟩ | ⟨d, hacc, -⟩
      · have hacc' : (w'.on side).accepted = (w.on side).accepted := hacc
        rw [hacc']
        exact hold
      · have hacc' : (w'.on side).accepted = (w.on side).accepted ++ [_] := hacc
        rw [hacc']
        exact hold.snoc (h.honest.sends side).next d
  refine ⟨honest_attack h.honest hs, ?_, fun s hest => ?_⟩
  · cases hatt with
    | own hop h' =>
        refine hadv h' ?_
        rintro pkt now rfl
        cases hop
    | injected hd htakes h' =>
        rename_i side d src now out
        refine hadv h' ?_
        rintro pkt now' heq hopen hk hnew
        cases heq
        exact (h.honest.takes_chunk (hnone side d src now rfl)
          ⟨hd, htakes, hopen⟩ hk hnew).2
    | stray =>
        intro s
        have hold := h.receives s
        cases s <;> exact hold
  · rcases hatt.established hest with hold | ⟨d, src, now, rfl, harr, hk⟩
    · exact (h.opened s hold).attacked hatt
    · cases hbefore : (w.on s).st.established with
      | true => exact (h.opened s hbefore).attacked hatt
      | false =>
          exact (h.honest.takes_open (hnone s d src now rfl) harr hk
            hbefore).attacked hatt

/-- **Peer data.** Under any attack the chunks an end takes in and its
becoming established are the other end's doing exactly if no datagram that an
end takes for news is handed back to it; and in every state reached without
such a reflection, what an end buffers and has returned is what the other end
accepted. -/
theorem peer_data_iff (sid : UInt32) (client server : SocketAddr)
    (t t' : Instant) (as : List Attack) :
    (Runs.Meets Connection.attack DeliversPeerData
        (Connection.init sid client server t t') as ↔
      Runs.Meets Connection.attack NoReflection
        (Connection.init sid client server t t') as) ∧
    (Runs.Meets Connection.attack NoReflection
        (Connection.init sid client server t t') as →
      ∀ w, Runs.Run Connection.attack
        (Connection.init sid client server t t') as w → ∀ s,
        (∀ x ∈ (w.on s).st.readBuffer.entries,
          x ∈ (w.on s.other).accepted) ∧
        (w.on s).returned ++ (w.on s).st.readBufBytes =
          bytesBelow (w.on s.other).accepted (w.on s).st.nextReadSeq ∧
        ((w.on s).st.established = true → w.Opened s.other)) := by
  constructor
  · exact Runs.meets_congr (I := Honest)
      (fun w a hw => deliversPeerData_iff hw a)
      (fun w a w' hw _ hs => honest_attack hw hs)
      (honest_init sid client server t t')
  · intro hmeets w hrun s
    have hw : Genuine w := Runs.run_preserves_of_meets
      (fun u a u' hu hnone hs => genuine_attack hu hnone hs)
      (genuine_init sid client server t t') hmeets hrun
    exact ⟨(hw.receives s).buffered, (hw.receives s).bytes, hw.opened s⟩

/-- The client writes a chunk before the server has written anything. -/
def written : List Attack :=
  [.act .connector (.connectTurn 0),
    .inject .acceptor
      ⟨⟨7, .streamOpen, 0, 0, 0⟩, [], listenerAddr⟩
      connectorAddr 0,
    .inject .connector
      ⟨⟨7, .streamOpenAck, 0, 0, 0⟩, [], connectorAddr⟩
      listenerAddr 0,
    .act .connector (.pollWrite 0 [1, 2, 3] 5), .act .connector (.writeRx 6)]

/-- Its own chunk comes back to the client under the server's address. -/
theorem reflected_chunk :
    ¬ Runs.Meets Connection.attack DeliversPeerData .sample
      (written ++ [.inject .connector
        ⟨⟨7, .stream, 1, 0, 0⟩, [1, 2, 3], .v4 #v[10, 0, 0, 2] 2333⟩
        (.v4 #v[10, 0, 0, 2] 2333) 7]) := by
  intro hmeets
  have hrun : ∃ w w', Runs.Run Connection.attack .sample written w ∧
      w.attack (.inject .connector
        ⟨⟨7, .stream, 1, 0, 0⟩, [1, 2, 3], .v4 #v[10, 0, 0, 2] 2333⟩
        (.v4 #v[10, 0, 0, 2] 2333) 7) = some w' ∧
      (w.on .connector).st.nextReadSeq = 1 ∧
      (w.on .connector).st.readBuffer.entries = [] ∧
      (w'.on .connector).st.nextReadSeq = 2 ∧
      (w.on .acceptor).accepted = [] :=
    ⟨_, _, rfl, rfl, rfl, rfl, rfl, rfl⟩
  obtain ⟨w, w', hrun, hs, hnext, hbuf, hnext', hacc⟩ := hrun
  have hlast := ((hmeets.after hrun).1 w' hs .connector).1 1
    (by simp [StreamState.Received, hnext, hbuf])
    (by simp [StreamState.Received, hnext'])
  obtain ⟨d, src, now, -, -, -, hmem⟩ := hlast
  change _ ∈ (w.on .acceptor).accepted at hmem
  rw [hacc] at hmem
  cases hmem

end Rathole
