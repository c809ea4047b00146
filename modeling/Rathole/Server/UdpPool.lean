import Rathole.Client.Answers
import Rathole.Protocol.Framing

/-!
# A UDP service

The loop of `run_udp_connection_pool` and, at the other end of its data
channel, the tasks of `run_data_channel_for_udp`. The channel is a stream of
bytes in each direction. Either end may fail at any time, a write may get only
some of its bytes out, and a reader may never come to what is on its way.

The server takes a visitor's address from `recv_from` and gives the address of
an answer to `send_to`. In between it is written and read twice, with IP and
port only. So an answer goes back to the address its socket was opened for
exactly if that address has neither flow information nor a scope id
(`replies_returned_iff`).
-/

namespace Rathole.UdpService

open Codec Runs

structure State where
  client : UdpForward.State
  /-- The loop of the server has ended. -/
  stopped : Bool
  /-- Bytes on their way. -/
  toClient : Bytes
  toServer : Bytes
  /-- The calls of `send_to`, oldest first. -/
  sentTo : List UdpTraffic
  -- History: no step depends on what follows.
  /-- What the server has written and the client has not read. -/
  underway : List UdpTraffic
  /-- What the client has written and the server has not read. -/
  returning : List UdpTraffic
  /-- The visitor whose packet the client's main loop has read last. -/
  current : Option SocketAddr
  /-- For each forwarder, the visitor its socket was opened for. -/
  openedFor : List SocketAddr
  /-- The visitor of a packet, and the forwarder the packet was sent to. -/
  sentOn : List (SocketAddr × ℕ)
  /-- What the service has sent, with the visitor the socket was opened for. -/
  replies : List UdpTraffic

inductive Action where
  /-- A datagram of a visitor, written to the client whole or, before an
  error, in its first bytes. -/
  | recvFrom (data : Bytes) (source : SocketAddr) (failed : Option ℕ)
  /-- An answer is read and handed to `send_to`. -/
  | sendTo (ok : Bool)
  /-- The loop ends: shutdown, or an error. -/
  | stop
  /-- The client's main loop reads a packet. -/
  | clientRead
  /-- The client's outbound task writes, whole or not. -/
  | clientWrite (failed : Option ℕ)
  | client (a : UdpForward.Action)
deriving DecidableEq

def init : State where
  client := UdpForward.init
  stopped := false
  toClient := []
  toServer := []
  sentTo := []
  underway := []
  returning := []
  current := none
  openedFor := []
  sentOn := []
  replies := []

section

variable (s : State)

/-! What a step of the client adds to the history. -/

def State.opened : UdpForward.Action → List SocketAddr
  | .connected true => s.current.toList
  | _ => []

def State.sends : UdpForward.Action → List (SocketAddr × ℕ)
  | .main =>
      match s.client.main with
      | .send _ f => s.current.toList.map (fun a => (a, f))
      | _ => []
  | _ => []

def State.replied : UdpForward.Action → List UdpTraffic
  | .forwarder f (.reply data) =>
      s.openedFor[f]?.toList.map (fun a => ⟨a, data.take udpBufferSize⟩)
  | _ => []

end

def step (s : State) : Action → Option State
  | .recvFrom data source failed =>
      let data := data.take udpBufferSize
      let bytes := UdpTraffic.writeSlice source data
      if s.stopped then none
      else
        match failed with
        | none =>
            some { s with
              toClient := s.toClient ++ bytes
              underway := s.underway ++ [⟨source, data⟩] }
        | some n =>
            if n < bytes.length then
              some { s with
                toClient := s.toClient ++ bytes.take n
                stopped := true }
            else none
  | .sendTo ok =>
      if s.stopped then none
      else
        match UdpTraffic.readNext.run [s.toServer] with
        | .ok (t, rest) =>
            some { s with
              toServer := rest.flatten
              sentTo := s.sentTo ++ [t]
              stopped := !ok
              returning := s.returning.tail }
        | .error _ => none
  | .stop => some { s with stopped := true }
  | .clientRead =>
      match UdpTraffic.readNext.run [s.toClient] with
      | .ok (p, rest) =>
          (UdpForward.step s.client (.packet p)).map (fun c =>
            { s with
              client := c
              toClient := rest.flatten
              underway := s.underway.tail
              current := s.underway.head?.map UdpTraffic.fromAddr })
      | .error _ => none
  | .clientWrite failed =>
      match s.client.outbound with
      | [] => none
      | t :: _ =>
          match failed with
          | none =>
              (UdpForward.step s.client (.write true)).map (fun c =>
                { s with
                  client := c
                  toServer := s.toServer ++ t.write
                  returning := s.returning ++ [t] })
          | some n =>
              if n < t.write.length then
                (UdpForward.step s.client (.write false)).map (fun c =>
                  { s with
                    client := c
                    toServer := s.toServer ++ t.write.take n })
              else none
  | .client a =>
      match a with
      -- what the client reads and writes is on the stream
      | .packet _ | .write _ => none
      | a =>
          (UdpForward.step s.client a).map (fun c =>
            { s with
              client := c
              openedFor := s.openedFor ++ s.opened a
              sentOn := s.sentOn ++ s.sends a
              replies := s.replies ++ s.replied a })

/-! ## The invariant -/

/-- Datagrams on a stream, none longer than the buffers. -/
abbrev Stream (bytes : Bytes) (ts : List UdpTraffic) (ended : Bool) : Prop :=
  InFlight UdpTraffic.write (fun t => t.data.length ≤ udpBufferSize) bytes ts
    ended

theorem reads_of_le (t : UdpTraffic) (h : t.data.length ≤ udpBufferSize) :
    Reads UdpTraffic.readNext t.write t.received :=
  UdpTraffic.reads_readNext (h.trans_lt (by decide))

theorem write_ne_nil (t : UdpTraffic) : t.write ≠ [] := List.cons_ne_nil _ _

theorem stream_nil (ended : Bool) : Stream [] [] ended :=
  inFlight_nil (t := ⟨.v4 (.replicate 4 0) 0, []⟩) (Nat.zero_le _)
    (write_ne_nil _)

/-- What the client knows of an address is its IP and port, and every answer
of the service is on its way to the server, unless the client's outbound task
has ended. -/
structure Inv (s : State) : Prop where
  mapped : UdpForward.Mapped s.client
  chosen : s.client.Chosen
  current : ∀ p, s.client.main.packet? = some p →
    ∃ a, s.current = some a ∧ p.fromAddr = a.received
  opened : s.client.addrs = s.openedFor.map SocketAddr.received
  sentOn : ∀ a f, (a, f) ∈ s.sentOn →
    ∃ b, s.openedFor[f]? = some b ∧ b.received = a.received
  bounded : ∀ t ∈ s.replies, t.data.length ≤ udpBufferSize
  down : Stream s.toClient s.underway s.stopped
  up : Stream s.toServer s.returning s.client.outboundClosed
  conserved : ∃ lost, (s.replies.map UdpTraffic.received).Perm
      (s.sentTo ++ s.returning ++ s.client.answers ++ lost) ∧
    (s.client.outboundClosed = false → lost = [])

theorem inv_init : Inv init where
  mapped := UdpForward.mapped_init
  chosen := nofun
  current := nofun
  opened := rfl
  sentOn := nofun
  bounded := nofun
  down := stream_nil _
  up := stream_nil _
  conserved := ⟨[], .refl _, fun _ => rfl⟩

section

variable {s s' : State} {c : UdpForward.State} {a : UdpForward.Action}

/-- An answer that is not lost came from the service. -/
theorem Inv.of_mem (h : Inv s) {t : UdpTraffic}
    (ht : t ∈ s.sentTo ++ s.returning ++ s.client.answers) :
    t.data.length ≤ udpBufferSize ∧ t.received = t := by
  obtain ⟨lost, hperm, -⟩ := h.conserved
  have hmem := hperm.mem_iff.mpr (List.mem_append_left lost ht)
  obtain ⟨r, hr, rfl⟩ := List.mem_map.mp hmem
  exact ⟨h.bounded r hr, r.received_received⟩

/-- The socket of a forwarder and the visitor it was opened for. -/
theorem Inv.openedFor (h : Inv s) {f : ℕ} {addr : SocketAddr}
    (haddr : s.client.addrs[f]? = some addr) :
    ∃ b, s.openedFor[f]? = some b ∧ b.received = addr := by
  rw [h.opened, List.getElem?_map, Option.map_eq_some_iff] at haddr
  exact haddr

theorem Inv.opens (h : Inv s) (hs : UdpForward.step s.client a = some c) :
    s.client.opens a = (s.opened a).map SocketAddr.received := by
  cases UdpForward.shape_step hs with
  | connected hmain =>
      rename_i p ok
      cases ok with
      | false => rfl
      | true =>
          have hp : s.client.main.packet? = some p := by rw [hmain]; rfl
          obtain ⟨b, hb, haddr⟩ := h.current p hp
          simp [UdpForward.State.opens, State.opened, hp, hb, haddr]
  | returned ha => rcases ha with rfl | ⟨rfl, -⟩ <;> rfl
  | _ => rfl

theorem Inv.replied (h : Inv s) :
    s.client.replied a = (s.replied a).map UdpTraffic.received := by
  have hreply (f : ℕ) (data : Bytes) :
      s.client.replied (.forwarder f (.reply data)) =
        (s.replied (.forwarder f (.reply data))).map UdpTraffic.received := by
    have hopened := congrArg (fun l => l[f]?) h.opened
    simp only [UdpForward.State.addrs, List.getElem?_map] at hopened
    simp only [UdpForward.State.replied, State.replied]
    -- both lists are as long as the list of forwarders
    generalize s.client.forwarders[f]? = fw, s.openedFor[f]? = b at hopened ⊢
    cases fw <;> cases b <;> simp at hopened
    · rfl
    · simp [UdpTraffic.received, hopened]
  cases a with
  | forwarder f e =>
      cases e with
      | reply data => exact hreply f data
      | _ => rfl
  | _ => rfl

/-- Where a step of the main loop sends a packet. -/
theorem Inv.sends (h : Inv s) {addr : SocketAddr} {f : ℕ}
    (hmem : (addr, f) ∈ s.sends a) :
    ∃ b, s.openedFor[f]? = some b ∧ b.received = addr.received := by
  unfold State.sends at hmem
  split at hmem
  · split at hmem
    · rename_i p g hmain
      obtain ⟨b, hb, haddr⟩ := h.current p (by rw [hmain]; rfl)
      rw [hb] at hmem
      simp only [Option.toList_some, List.map_cons, List.map_nil,
        List.mem_singleton, Prod.mk.injEq] at hmem
      obtain ⟨rfl, rfl⟩ := hmem
      rw [← haddr]
      exact h.openedFor (h.chosen p f hmain)
    · cases hmem
  · cases hmem

theorem Inv.conserves (h : Inv s)
    (hs : UdpForward.step s.client a = some c) :
    ∃ lost, ((s.replies ++ s.replied a).map UdpTraffic.received).Perm
        (s.sentTo ++ (s.returning ++ s.client.written a) ++ c.answers ++ lost) ∧
      (c.outboundClosed = false → lost = []) := by
  obtain ⟨lost, hperm, hlost⟩ := h.conserved
  obtain ⟨lost', hperm', hlost'⟩ := UdpForward.conserves_step hs
  refine ⟨lost ++ lost', ?_, ?_⟩
  · rw [List.map_append, ← h.replied]
    rw [List.perm_iff_count] at hperm hperm' ⊢
    intro t
    have h₁ := hperm t
    have h₂ := hperm' t
    simp only [List.count_append] at h₁ h₂ ⊢
    omega
  · intro hopen
    rw [hlost (UdpForward.outboundClosed_mono hs hopen), hlost' hopen]
    rfl

theorem Inv.replied_le (h : Inv s) {t : UdpTraffic} (ht : t ∈ s.replied a) :
    t.data.length ≤ udpBufferSize := by
  have hmem : t.received ∈ s.client.replied a := by
    rw [h.replied]
    exact List.mem_map_of_mem ht
  unfold UdpForward.State.replied at hmem
  split at hmem
  · obtain ⟨fw, -, heq⟩ := List.mem_map.mp hmem
    have hdata : t.data = _ := (congrArg UdpTraffic.data heq).symm
    rw [hdata]
    exact List.length_take_le _ _
  · cases hmem

/-- **Step lemma**, for the client: what is left to say of a step is which
packet the main loop has and what happens to the streams. -/
theorem Inv.after (h : Inv s) (hs : UdpForward.step s.client a = some c)
    {toClient toServer : Bytes} {underway : List UdpTraffic}
    {current : Option SocketAddr}
    (hcurrent : ∀ p, c.main.packet? = some p →
      ∃ b, current = some b ∧ p.fromAddr = b.received)
    (hdown : Stream toClient underway s.stopped)
    (hup : Stream toServer (s.returning ++ s.client.written a)
      c.outboundClosed) :
    Inv { s with
      client := c
      toClient := toClient
      toServer := toServer
      underway := underway
      returning := s.returning ++ s.client.written a
      current := current
      openedFor := s.openedFor ++ s.opened a
      sentOn := s.sentOn ++ s.sends a
      replies := s.replies ++ s.replied a } where
  mapped := UdpForward.mapped_step h.mapped hs
  chosen := UdpForward.chosen_step h.mapped h.chosen hs
  current := hcurrent
  opened := by
    rw [List.map_append, ← h.opens hs, ← h.opened]
    exact UdpForward.addrs_step hs
  sentOn := by
    intro addr f hmem
    have hold : ∃ b, s.openedFor[f]? = some b ∧ b.received = addr.received := by
      rcases List.mem_append.mp hmem with hmem | hmem
      · exact h.sentOn addr f hmem
      · exact h.sends hmem
    obtain ⟨b, hb, haddr⟩ := hold
    refine ⟨b, ?_, haddr⟩
    rw [List.getElem?_append_left, hb]
    exact (List.getElem?_eq_some_iff.mp hb).1
  bounded := by
    intro t ht
    rcases List.mem_append.mp ht with ht | ht
    · exact h.bounded t ht
    · exact h.replied_le ht
  down := hdown
  up := hup
  conserved := h.conserves hs

/-- A main loop that reads no packet keeps the one it has. -/
theorem Inv.current_after (h : Inv s)
    (hs : UdpForward.step s.client a = some c) (hread : ∀ p, a ≠ .packet p) :
    ∀ p, c.main.packet? = some p →
      ∃ b, s.current = some b ∧ p.fromAddr = b.received := by
  intro p hp
  rcases UdpForward.packet?_step hs hp with hp | ha
  · exact h.current p hp
  · exact absurd ha (hread p)

theorem inv_client (h : Inv s) (hread : ∀ p, a ≠ .packet p)
    (hwrite : ∀ ok, a ≠ .write ok)
    (hs : UdpForward.step s.client a = some c) :
    Inv { s with
      client := c
      openedFor := s.openedFor ++ s.opened a
      sentOn := s.sentOn ++ s.sends a
      replies := s.replies ++ s.replied a } := by
  have hnone : s.client.written a = [] := by
    unfold UdpForward.State.written
    split
    · exact absurd rfl (hwrite true)
    · rfl
  have hup := h.up
  rw [← UdpForward.outboundClosed_step hs hwrite,
    ← List.append_nil s.returning, ← hnone] at hup
  have hafter := h.after hs (h.current_after hs hread) h.down hup
  rwa [hnone, List.append_nil] at hafter

theorem inv_clientRead (h : Inv s) (hs : step s .clientRead = some s') :
    Inv s' := by
  simp only [step] at hs
  split at hs
  · rename_i p rest hrun
    obtain ⟨c, hc, rfl⟩ := Option.map_eq_some_iff.mp hs
    obtain ⟨t, hts, rfl, hdown⟩ := h.down.read reads_of_le hrun
    have hcurrent : ∀ q, c.main.packet? = some q →
        ∃ b, s.underway.head?.map UdpTraffic.fromAddr = some b ∧
          q.fromAddr = b.received := by
      intro q hq
      cases UdpForward.shape_step hc with
      | returned ha => rcases ha with ha | ⟨ha, -⟩ <;> cases ha
      | packet hmain =>
          cases hq
          exact ⟨t.fromAddr, by rw [hts]; rfl, rfl⟩
    have hup := h.up
    rw [← UdpForward.outboundClosed_step hc nofun,
      ← List.append_nil s.returning] at hup
    have hafter := h.after hc hcurrent hdown hup
    simpa only [UdpForward.State.written, State.opened, State.sends,
      State.replied, List.append_nil] using hafter
  · cases hs

theorem inv_clientWrite (h : Inv s) {failed : Option ℕ}
    (hs : step s (.clientWrite failed) = some s') : Inv s' := by
  simp only [step] at hs
  split at hs
  · cases hs
  · rename_i t rest hout
    have ht : t.data.length ≤ udpBufferSize :=
      (h.of_mem (by simp [UdpForward.State.answers, hout])).1
    have hup := h.up
    split at hs
    · obtain ⟨c, hc, rfl⟩ := Option.map_eq_some_iff.mp hs
      obtain ⟨hopen, hopen'⟩ := UdpForward.write_step hc
      rw [hopen] at hup
      have hwritten : s.client.written (.write true) = [t] := by
        simp [UdpForward.State.written, hout]
      have hafter := h.after hc (h.current_after hc (by simp)) h.down (by
        rw [hwritten, hopen']
        exact hup.write ht (write_ne_nil t))
      simpa only [hwritten, State.opened, State.sends, State.replied,
        List.append_nil] using hafter
    · rename_i n
      split at hs
      · rename_i hn
        obtain ⟨c, hc, rfl⟩ := Option.map_eq_some_iff.mp hs
        obtain ⟨hopen, hclosed⟩ := UdpForward.write_step hc
        rw [hopen] at hup
        have hwritten : s.client.written (.write false) = [] := rfl
        have hafter := h.after hc (h.current_after hc (by simp)) h.down (by
          rw [hclosed, hwritten, List.append_nil]
          exact hup.fail ht hn)
        simpa only [hwritten, State.opened, State.sends, State.replied,
          List.append_nil] using hafter
      · cases hs

theorem inv_recvFrom (h : Inv s) {data : Bytes} {source : SocketAddr}
    {failed : Option ℕ}
    (hs : step s (.recvFrom data source failed) = some s') : Inv s' := by
  have hdown := h.down
  simp only [step] at hs
  split at hs
  · cases hs
  · rename_i hrunning
    rw [Bool.not_eq_true] at hrunning
    rw [hrunning] at hdown
    -- what counts is the datagram that fits the buffer
    have hlen : (data.take udpBufferSize).length ≤ udpBufferSize :=
      List.length_take_le _ _
    generalize data.take udpBufferSize = datagram at hlen hs
    split at hs
    · cases hs
      refine { h with down := ?_ }
      show Stream _ _ s.stopped
      rw [hrunning]
      have hwritten :=
        hdown.write (t := ⟨source, datagram⟩) hlen (write_ne_nil _)
      exact hwritten
    · rename_i n
      split at hs
      · rename_i hn
        cases hs
        have hfailed := hdown.fail (t := ⟨source, datagram⟩) hlen hn
        refine { h with down := ?_ }
        exact hfailed
      · cases hs

theorem inv_sendTo (h : Inv s) {ok : Bool}
    (hs : step s (.sendTo ok) = some s') : Inv s' := by
  simp only [step] at hs
  split at hs
  · cases hs
  · rename_i hrunning
    rw [Bool.not_eq_true] at hrunning
    split at hs
    · rename_i p rest hrun
      cases hs
      obtain ⟨t, hts, rfl, hup⟩ := h.up.read reads_of_le hrun
      have ht : t.received = t :=
        (h.of_mem (by rw [hts]; simp)).2
      obtain ⟨lost, hperm, hlost⟩ := h.conserved
      refine { h with down := ?_, up := hup, conserved := ⟨lost, ?_, hlost⟩ }
      · have hdown := h.down
        rw [hrunning] at hdown
        cases ok with
        | false => exact hdown.end
        | true => exact hdown
      · show List.Perm _ (s.sentTo ++ [t.received] ++ s.returning.tail ++ _ ++ _)
        rw [hts] at hperm
        rw [ht, List.append_assoc s.sentTo]
        exact hperm
    · cases hs

/-- **Step lemma.** -/
theorem inv_step {a : Action} (h : Inv s) (hs : step s a = some s') : Inv s' := by
  cases a with
  | recvFrom data source failed => exact inv_recvFrom h hs
  | sendTo ok => exact inv_sendTo h hs
  | stop =>
      cases hs
      exact { h with down := h.down.end }
  | clientRead => exact inv_clientRead h hs
  | clientWrite failed => exact inv_clientWrite h hs
  | client a =>
      simp only [step] at hs
      split at hs
      · cases hs
      · cases hs
      · rename_i hread hwrite
        obtain ⟨c, hc, rfl⟩ := Option.map_eq_some_iff.mp hs
        exact inv_client h hread hwrite hc

/-- **Run lemma.** -/
theorem inv_run {as : List Action} (hrun : Run step init as s) : Inv s :=
  run_preserves (fun _ _ _ h hs => inv_step h hs) inv_init hrun

/-! ## Answers arrive -/

/-- The steps that bring an answer nearer to `send_to`. -/
def Action.forwards : Action → Bool
  | .sendTo true | .clientWrite none | .client (.forwarder _ .push) => true
  | _ => false

/-- How many of them the answers still need. -/
def State.distance (s : State) : ℕ :=
  3 * (s.client.forwarders.flatMap UdpForward.Forwarder.answer).length +
    2 * s.client.outbound.length + s.returning.length

/-- Neither the server nor the client's outbound task has ended. -/
def State.Alive (s : State) : Prop :=
  s.stopped = false ∧ s.client.outboundClosed = false

theorem exists_reply {l : List UdpForward.Forwarder}
    (h : l.flatMap UdpForward.Forwarder.answer ≠ []) :
    ∃ (f : ℕ) (fw : UdpForward.Forwarder) (t : UdpTraffic),
      l[f]? = some fw ∧ fw.pc = .reply t := by
  obtain ⟨t, ht⟩ := List.exists_mem_of_ne_nil _ h
  obtain ⟨fw, hfw, ht⟩ := List.mem_flatMap.mp ht
  obtain ⟨f, hf⟩ := List.mem_iff_getElem?.mp hfw
  refine ⟨f, fw, ?_⟩
  unfold UdpForward.Forwarder.answer at ht
  split at ht
  · rename_i u hpc
    exact ⟨u, hf, hpc⟩
  · cases ht

/-- An answer is written and read as long as there is one. -/
theorem exists_forwards (h : Inv s) (halive : s.Alive) (hpos : 0 < s.distance) :
    ∃ a s', a.forwards = true ∧ step s a = some s' ∧ s'.Alive ∧
      s'.replies = s.replies ∧ s'.distance < s.distance := by
  obtain ⟨hrunning, hopen⟩ := halive
  cases hret : s.returning with
  | cons t ts =>
      have hup := h.up
      rw [hret] at hup
      obtain ⟨rest, hrun, -⟩ := hup.ready reads_of_le
      refine ⟨.sendTo true, { s with
        toServer := rest.flatten
        sentTo := s.sentTo ++ [t.received]
        stopped := false
        returning := ts }, rfl, ?_, ⟨rfl, hopen⟩, rfl, ?_⟩
      · simp [step, hrunning, hrun, hret]
      · simp [State.distance, hret]
  | nil =>
      cases hout : s.client.outbound with
      | cons t ts =>
          refine ⟨.clientWrite none, { s with
            client := { s.client with outbound := ts }
            toServer := s.toServer ++ t.write
            returning := [t] }, rfl, ?_, ⟨hrunning, hopen⟩, rfl, ?_⟩
          · simp [step, hout, UdpForward.step, hopen, hret]
          · simp [State.distance, hret, hout]
            omega
      | nil =>
          have hne : s.client.forwarders.flatMap UdpForward.Forwarder.answer ≠
              [] := by
            intro hnil
            simp [State.distance, hret, hout, hnil] at hpos
          obtain ⟨f, fw, t, hfw, hpc⟩ := exists_reply hne
          refine ⟨.client (.forwarder f .push), { s with
            client := { s.client.setForwarder f { fw with pc := .select } with
              outbound := [t] } }, rfl, ?_, ⟨hrunning, hopen⟩, rfl, ?_⟩
          · simp [step, UdpForward.step, hfw, UdpForward.forwarderStep, hpc,
              hopen, hout, UdpForward.udpSendqSize, State.opened, State.sends,
              State.replied]
          · have hperm := (UdpForward.flatMap_set_perm hfw
              { fw with pc := .select }).length_eq
            simp only [List.length_append, UdpForward.Forwarder.answer, hpc,
              List.length_nil, List.length_singleton] at hperm
            simp only [State.distance, hret, hout, UdpForward.State.setForwarder,
              List.length_nil, List.length_singleton]
            omega

/-- **Every answer arrives**: as long as nothing fails, what is on its way can
be brought to the server, and it is sent to the addresses the client knows. -/
theorem exists_arrival (h : Inv s) (halive : s.Alive) :
    ∃ as s', Run step s as s' ∧ (∀ a ∈ as, a.forwards = true) ∧
      s'.replies = s.replies ∧
      s'.sentTo.Perm (s.replies.map UdpTraffic.received) := by
  induction hd : s.distance using Nat.strong_induction_on generalizing s with
  | _ n ih =>
      rcases Nat.eq_zero_or_pos s.distance with hzero | hpos
      · refine ⟨[], s, run_nil.mpr rfl, by simp, rfl, ?_⟩
        unfold State.distance at hzero
        have hret : s.returning = [] := List.eq_nil_of_length_eq_zero (by omega)
        have hans : s.client.answers = [] :=
          List.eq_nil_of_length_eq_zero (by
            rw [UdpForward.State.answers, List.length_append]
            omega)
        obtain ⟨lost, hperm, hlost⟩ := h.conserved
        rw [hlost halive.2, hret, hans] at hperm
        simpa using hperm.symm
      · obtain ⟨a, s₁, ha, hs₁, halive₁, hreplies₁, hlt⟩ :=
          exists_forwards h halive hpos
        obtain ⟨as, s', hrun, has, hreplies, hsent⟩ :=
          ih s₁.distance (hd ▸ hlt) (inv_step h hs₁) halive₁ rfl
        refine ⟨a :: as, s', run_cons.mpr ⟨s₁, hs₁, hrun⟩, ?_,
          hreplies.trans hreplies₁, hreplies₁ ▸ hsent⟩
        intro b hb
        rcases List.mem_cons.mp hb with rfl | hb
        · exact ha
        · exact has b hb

/-! ## Visitors -/

/-- The visitors of a run are among `V`. -/
def Among (V : Set SocketAddr) (as : List Action) : Prop :=
  ∀ data source failed, .recvFrom data source failed ∈ as → source ∈ V

/-- So are the addresses of the history. -/
structure Visited (V : Set SocketAddr) (s : State) : Prop where
  underway : ∀ t ∈ s.underway, t.fromAddr ∈ V
  current : ∀ addr ∈ s.current, addr ∈ V
  openedFor : ∀ addr ∈ s.openedFor, addr ∈ V
  sentOn : ∀ x ∈ s.sentOn, x.1 ∈ V
  replies : ∀ t ∈ s.replies, t.fromAddr ∈ V

variable {V : Set SocketAddr}

theorem visited_client (h : Visited V s) :
    Visited V { s with
      client := c
      openedFor := s.openedFor ++ s.opened a
      sentOn := s.sentOn ++ s.sends a
      replies := s.replies ++ s.replied a } where
  underway := h.underway
  current := h.current
  openedFor addr haddr := by
    rcases List.mem_append.mp haddr with haddr | haddr
    · exact h.openedFor addr haddr
    · unfold State.opened at haddr
      split at haddr
      · exact h.current addr (Option.mem_toList.mp haddr)
      · cases haddr
  sentOn x hx := by
    rcases List.mem_append.mp hx with hx | hx
    · exact h.sentOn x hx
    · unfold State.sends at hx
      split at hx
      · split at hx
        · obtain ⟨addr, haddr, rfl⟩ := List.mem_map.mp hx
          exact h.current addr (Option.mem_toList.mp haddr)
        · cases hx
      · cases hx
  replies t ht := by
    rcases List.mem_append.mp ht with ht | ht
    · exact h.replies t ht
    · unfold State.replied at ht
      split at ht
      · obtain ⟨addr, haddr, rfl⟩ := List.mem_map.mp ht
        exact h.openedFor addr
          (List.mem_of_getElem? (Option.mem_toList.mp haddr))
      · cases ht

theorem visited_step {a : Action} (h : Visited V s) (ha : Among V [a])
    (hs : step s a = some s') : Visited V s' := by
  cases a with
  | recvFrom data source failed =>
      simp only [step] at hs
      split at hs
      · cases hs
      · split at hs
        · cases hs
          refine { h with underway := ?_ }
          intro t ht
          rcases List.mem_append.mp ht with ht | ht
          · exact h.underway t ht
          · rw [List.mem_singleton.mp ht]
            exact ha data source none (by simp)
        · split at hs
          · cases hs
            exact { h with }
          · cases hs
  | sendTo ok =>
      simp only [step] at hs
      split at hs
      · cases hs
      · split at hs
        · cases hs
          exact { h with }
        · cases hs
  | stop =>
      cases hs
      exact { h with }
  | clientRead =>
      simp only [step] at hs
      split at hs
      · obtain ⟨c, hc, rfl⟩ := Option.map_eq_some_iff.mp hs
        refine { h with underway := ?_, current := ?_ }
        · exact fun t ht => h.underway t (List.mem_of_mem_tail ht)
        · intro addr haddr
          obtain ⟨t, ht, rfl⟩ := Option.map_eq_some_iff.mp haddr
          exact h.underway t (List.mem_of_mem_head? ht)
      · cases hs
  | clientWrite failed =>
      simp only [step] at hs
      split at hs
      · cases hs
      · split at hs
        · obtain ⟨c, hc, rfl⟩ := Option.map_eq_some_iff.mp hs
          exact { h with }
        · split at hs
          · obtain ⟨c, hc, rfl⟩ := Option.map_eq_some_iff.mp hs
            exact { h with }
          · cases hs
  | client a =>
      simp only [step] at hs
      split at hs
      · cases hs
      · cases hs
      · obtain ⟨c, hc, rfl⟩ := Option.map_eq_some_iff.mp hs
        exact visited_client h

theorem visited_run {as : List Action} (hV : Among V as)
    (hrun : Run step init as s) : Visited V s := by
  have hmeets : Meets step (fun _ a => Among V [a]) init as := by
    refine meets_of_mem ?_ init
    intro a ha data source failed hmem
    rw [← List.mem_singleton.mp hmem] at ha
    exact hV data source failed ha
  refine run_preserves_of_meets (fun _ _ _ h ha hs => visited_step h ha hs) ?_
    hmeets hrun
  exact ⟨nofun, nofun, nofun, nofun, nofun⟩

end

/-! ## Where answers go -/

/-- What the service sends on the socket of a visitor goes back to the address
of that visitor, and visitors do not share sockets. -/
structure Returned (s : State) : Prop where
  /-- Each call of `send_to` is for an answer of its own, and for the visitor
  whose socket it came from. -/
  sentTo : s.sentTo.Subperm s.replies
  /-- The server gets to call it for every answer, unless one side fails. -/
  arrives : s.Alive → ∃ as s', Run step s as s' ∧
    (∀ a ∈ as, a.forwards = true) ∧ s'.replies = s.replies ∧
    s'.sentTo.Perm s.replies
  /-- The packets sent on a socket are those of the visitor it was opened
  for. -/
  sentOn : ∀ a f, (a, f) ∈ s.sentOn → s.openedFor[f]? = some a
  unshared : ∀ a b f, (a, f) ∈ s.sentOn → (b, f) ∈ s.sentOn → a = b

theorem returned_of_plain {s : State} {as : List Action}
    (hV : Among {a | a.Plain} as) (hrun : Run step init as s) : Returned s := by
  have h := inv_run hrun
  have hvisited := visited_run hV hrun
  have hreplies : s.replies.map UdpTraffic.received = s.replies := by
    apply (List.map_congr_left _).trans (List.map_id _)
    intro t ht
    have haddr := SocketAddr.received_eq_iff.mpr (hvisited.replies t ht)
    unfold UdpTraffic.received
    rw [haddr]
    rfl
  have hsentOn : ∀ a f, (a, f) ∈ s.sentOn → s.openedFor[f]? = some a := by
    intro a f hmem
    obtain ⟨b, hb, heq⟩ := h.sentOn a f hmem
    have ha := SocketAddr.received_eq_iff.mpr (hvisited.sentOn _ hmem)
    have hb' := SocketAddr.received_eq_iff.mpr
      (hvisited.openedFor b (List.mem_of_getElem? hb))
    rw [hb', ha] at heq
    rw [hb, heq]
  refine ⟨?_, ?_, hsentOn, ?_⟩
  · obtain ⟨lost, hperm, -⟩ := h.conserved
    rw [hreplies, List.append_assoc, List.append_assoc] at hperm
    exact (List.sublist_append_left _ _).subperm.trans hperm.symm.subperm
  · intro halive
    have harrival := exists_arrival h halive
    rwa [hreplies] at harrival
  · intro a b f ha hb
    exact Option.some.inj ((hsentOn a f ha).symm.trans (hsentOn b f hb))

/-- One visitor asks, and the service answers. -/
def exchange (a : SocketAddr) : List Action :=
  [.recvFrom [1] a none, .clientRead, .client .main, .client .main,
    .client (.connected true), .client .main, .client .main,
    .client (.forwarder 0 (.reply [2])), .client (.forwarder 0 .push),
    .clientWrite none, .sendTo true]

theorem step_clientRead {s : State} {p : UdpTraffic} {rest : List Bytes}
    (hread : UdpTraffic.readNext.run [s.toClient] = .ok (p, rest)) :
    step s .clientRead =
      (UdpForward.step s.client (.packet p)).map (fun c =>
        { s with
          client := c
          toClient := rest.flatten
          underway := s.underway.tail
          current := s.underway.head?.map UdpTraffic.fromAddr }) := by
  simp only [step]
  rw [hread]

theorem step_sendTo {s : State} {t : UdpTraffic} {rest : List Bytes} {ok : Bool}
    (hrunning : s.stopped = false)
    (hread : UdpTraffic.readNext.run [s.toServer] = .ok (t, rest)) :
    step s (.sendTo ok) =
      some { s with
        toServer := rest.flatten
        sentTo := s.sentTo ++ [t]
        stopped := !ok
        returning := s.returning.tail } := by
  simp only [step]
  rw [hrunning, hread]
  rfl

theorem run_exchange (a : SocketAddr) :
    ∃ s, Run step init (exchange a) s ∧ s.replies = [⟨a, [2]⟩] ∧
      s.sentTo = [⟨a.received, [2]⟩] := by
  let p : UdpTraffic := ⟨a.received, [1]⟩
  let c₁ : UdpForward.State := { UdpForward.init with
    main := .lockRead p
    lock := UdpForward.init.lock.request .main .read }
  let c₂ : UdpForward.State := { c₁ with
    main := .connect p
    lock := (c₁.lock.dropAll .main).request .main .write }
  let c₃ := UdpForward.connected c₂ p true
  let c₄ : UdpForward.State := { c₃ with main := .send p 0 }
  -- what is on the stream is read whole
  have hread (t : UdpTraffic) (ht : t.data.length ≤ udpBufferSize) :
      ∃ rest, UdpTraffic.readNext.run [t.write] = .ok (t.received, rest) := by
    obtain ⟨rest, hrun, -⟩ := (reads_of_le t ht).whole [t.write] [] (by simp)
    exact ⟨rest, hrun⟩
  obtain ⟨rest, hrun⟩ := hread ⟨a, [1]⟩ (by simp [udpBufferSize])
  obtain ⟨rest', hrun'⟩ := hread ⟨a.received, [2]⟩ (by simp [udpBufferSize])
  let s₁ : State := { init with
    client := c₁
    toClient := rest.flatten
    current := some a }
  let s₂ : State := { s₁ with client := c₃, openedFor := [a] }
  have h₁ : Run step init [.recvFrom [1] a none, .clientRead] s₁ := by
    refine run_cons.mpr ⟨_, rfl, run_cons.mpr ⟨s₁, ?_, run_nil.mpr rfl⟩⟩
    exact step_clientRead hrun
  have h₂ : Run step s₁
      [.client .main, .client .main, .client (.connected true)] s₂ := rfl
  have hentry : c₃.portMap.lookup p.fromAddr = some 0 := AList.lookup_insert _
  have h₃ : step s₂ (.client .main) = some { s₂ with client := c₄ } := by
    have hmain : UdpForward.step c₃ .main = some c₄ := by
      have hgot : c₃.lock.waits .main = false := rfl
      have hmain : c₃.main = .lockSend p false := rfl
      simp only [UdpForward.step, UdpForward.mainStep, hmain, hgot]
      rw [hentry]
      rfl
    show (UdpForward.step c₃ .main).map _ = _
    rw [hmain]
    rfl
  let s₃ : State := { s₂ with
    client := (c₄.setForwarder 0 ⟨a.received, [[1]], .select⟩).endRound
    sentOn := [(a, 0)]
    replies := [⟨a, [2]⟩]
    toServer := UdpTraffic.write ⟨a.received, [2]⟩
    returning := [⟨a.received, [2]⟩] }
  have h₄ : Run step { s₂ with client := c₄ } [.client .main,
      .client (.forwarder 0 (.reply [2])), .client (.forwarder 0 .push),
      .clientWrite none] s₃ := rfl
  let s₄ : State := { s₃ with
    toServer := rest'.flatten
    sentTo := [⟨a.received.received, [2]⟩]
    returning := [] }
  have h₅ : step s₃ (.sendTo true) = some s₄ := step_sendTo rfl hrun'
  refine ⟨s₄, ?_, rfl, ?_⟩
  · refine run_append.mpr ⟨s₁, h₁, ?_⟩
    refine run_append.mpr ⟨s₂, h₂, run_cons.mpr ⟨_, h₃, ?_⟩⟩
    exact run_append.mpr ⟨s₃, h₄, run_cons.mpr ⟨s₄, h₅, run_nil.mpr rfl⟩⟩
  · show [(⟨a.received.received, [2]⟩ : UdpTraffic)] = _
    rw [SocketAddr.received_received]

theorem received_of_returned {s : State} {a : SocketAddr} (h : Returned s)
    (hreplies : s.replies = [⟨a, [2]⟩])
    (hsentTo : s.sentTo = [⟨a.received, [2]⟩]) : a.received = a := by
  have hsub := h.sentTo
  rw [hreplies, hsentTo] at hsub
  have hmem := hsub.subset (List.mem_singleton_self _)
  exact congrArg UdpTraffic.fromAddr (List.mem_singleton.mp hmem)

/-- **Answers go back to their visitor.** They do so in every run of the
service with visitors in `V` exactly if no address in `V` has flow information
or a scope id. -/
theorem replies_returned_iff (V : Set SocketAddr) :
    (∀ as s, Run step init as s → Among V as → Returned s) ↔
      ∀ a ∈ V, a.Plain := by
  constructor
  · intro hreturned a ha
    obtain ⟨s, hrun, hreplies, hsentTo⟩ := run_exchange a
    have hV : Among V (exchange a) := by
      intro data source failed hmem
      simp only [exchange, List.mem_cons, Action.recvFrom.injEq, reduceCtorEq,
        List.not_mem_nil, or_false] at hmem
      rw [hmem.2.1]
      exact ha
    apply SocketAddr.received_eq_iff.mp
    exact received_of_returned (hreturned _ s hrun hV) hreplies hsentTo
  · intro hplain as s hrun hV
    refine returned_of_plain ?_ hrun
    intro data source failed hmem
    exact hplain source (hV data source failed hmem)

/-- `[fe80::1%2]:4000`, a visitor on a link of the server. -/
def linkLocal : SocketAddr :=
  .v6 #v[0xfe, 0x80, 0, 0, 0, 0, 0, 0, 0, 0, 0, 0, 0, 0, 0, 1] 4000 0 2

/-- The answer for a visitor on a link is sent to no link. -/
theorem scope_id_lost : ∃ s, Run step init (exchange linkLocal) s ∧
    s.replies = [⟨linkLocal, [2]⟩] ∧ (∃ t ∈ s.sentTo, t.fromAddr ≠ linkLocal) ∧
    ¬ Returned s := by
  obtain ⟨s, hrun, hreplies, hsentTo⟩ := run_exchange linkLocal
  have hne : linkLocal.received ≠ linkLocal := by decide
  refine ⟨s, hrun, hreplies, ⟨⟨linkLocal.received, [2]⟩, ?_, hne⟩, ?_⟩
  · rw [hsentTo]
    simp
  · intro hreturned
    exact hne (received_of_returned hreturned hreplies hsentTo)

end Rathole.UdpService
