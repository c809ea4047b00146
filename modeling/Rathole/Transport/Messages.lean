import Rathole.Lib.Channel
import Rathole.Protocol.Framing
import Rathole.Transport.Integrity

/-!
# Messages over a connection

`write_packet_message` polls until the length and then the bytes of a message
are written, `read_packet_message` polls until it has a length and then as
many bytes; either may wait between two polls, and everything else goes on
meanwhile. `MessageNet` puts such a writer and such a reader at each end of a
connection.

Seen from outside it is a pair of channels: what one end's calls of
`read_packet_message` have returned are the messages the other end has called
`write_packet_message` with, in order. The network, the splitting into chunks
and the splitting of the reads do not show, and no message is ever decoded
from the wrong bytes.
-/

open Codec

namespace Rathole

/-! ## The writing and the reading task -/

/-- The writing side of an application. -/
structure MessageWriter where
  /-- What is left of the two writes of the current message. -/
  todo : List Bytes
  /-- The messages `write_packet_message` was called with. -/
  written : List PacketMessage
  failed : Bool

/-- The reading side; `part` is what has arrived of the current message. -/
structure MessageReader where
  inbox : List PacketMessage
  part : Bytes
  failed : Option String

namespace MessageWriter

def idle : MessageWriter := ⟨[], [], false⟩

/-- `write_framed_packet` writes the length, then the bytes. -/
def begin (m : MessageWriter) (message : PacketMessage) : MessageWriter :=
  { m with
    todo := [toBe 4 ((encodePacketMessage message).length % 2 ^ 32),
      encodePacketMessage message]
    written := m.written ++ [message] }

/-- What a poll of the current write returned. -/
def after (m : MessageWriter) : Poll (Except IoError ℕ) → MessageWriter
  | .pending => m
  | .ready (.error _) => { m with failed := true }
  | .ready (.ok n) =>
      match m.todo with
      | [] => m
      | piece :: rest =>
          if piece.length ≤ n then { m with todo := rest }
          else { m with todo := piece.drop n :: rest }

end MessageWriter

namespace MessageReader

def idle : MessageReader := ⟨[], [], none⟩

/-- How many bytes the current `read_u32` or `read_exact` waits for. -/
def missing (part : Bytes) : ℕ :=
  if part.length < 4 then 4 - part.length
  else 4 + ofBe (part.take 4) - part.length

/-- The context of an error. -/
def context (part : Bytes) : String :=
  if part.length < 4 then "Failed to read packet length"
  else "Failed to read packet body"

/-- Bytes have arrived; with the last of them the message is decoded. -/
def take (r : MessageReader) (bytes : Bytes) : MessageReader :=
  let part := r.part ++ bytes
  if missing part = 0 then
    match decodePacketMessage (part.drop 4) with
    | .ok message => ⟨r.inbox ++ [message], [], none⟩
    | .error e => { r with part := part, failed := some e }
  else { r with part := part }

/-- What a poll returned; no bytes at all are an unexpected end of file. -/
def after (r : MessageReader) : Poll (Except IoError Bytes) → MessageReader
  | .pending => r
  | .ready (.error _) => { r with failed := some (context r.part) }
  | .ready (.ok bytes) =>
      if bytes = [] then { r with failed := some (context r.part) }
      else r.take bytes

end MessageReader

/-- The application at one end. -/
structure MessagePeer where
  writer : MessageWriter
  reader : MessageReader

structure MessageNet where
  conn : Connection
  connector : MessagePeer
  acceptor : MessagePeer

/-- The application's own reads and writes. -/
def Op.isIo : Op → Bool
  | .pollWrite _ _ _ => true
  | .pollRead _ _ => true
  | _ => false

def Action.isIo : Action → Bool
  | .act _ op => op.isIo
  | _ => false

namespace MessageNet

inductive Event where
  /-- `write_packet_message` is called. -/
  | begin (s : Side) (message : PacketMessage)
  | write (s : Side) (cx : Waker) (now : Instant)
  | read (s : Side) (cx : Waker)
  /-- Anything else that happens on the connection. -/
  | conn (a : Action)
deriving DecidableEq

def init (sid : UInt32) (client server : SocketAddr) (t t' : Instant) :
    MessageNet :=
  ⟨Connection.init sid client server t t', ⟨.idle, .idle⟩, ⟨.idle, .idle⟩⟩

def peer (w : MessageNet) : Side → MessagePeer
  | .connector => w.connector
  | .acceptor => w.acceptor

def setPeer (w : MessageNet) : Side → MessagePeer → MessageNet
  | .connector, p => { w with connector := p }
  | .acceptor, p => { w with acceptor := p }

def step (w : MessageNet) : Event → Option MessageNet
  | .begin s message =>
      if (w.peer s).writer.todo = [] ∧ (w.peer s).writer.failed = false then
        some (w.setPeer s
          { w.peer s with writer := (w.peer s).writer.begin message })
      else none
  | .write s cx now =>
      match (w.peer s).writer.todo with
      | [] => none
      | piece :: _ =>
          if (w.peer s).writer.failed = true then none
          else (w.conn.step (.act s (.pollWrite cx piece now))).map (fun c =>
            { w with conn := c }.setPeer s { w.peer s with
              writer := (w.peer s).writer.after
                ((w.conn.on s).stream.pollWrite cx piece now).2 })
  | .read s cx =>
      if (w.peer s).reader.failed.isSome then none
      else
        let n := MessageReader.missing (w.peer s).reader.part
        (w.conn.step (.act s (.pollRead cx n))).map (fun c =>
          { w with conn := c }.setPeer s { w.peer s with
            reader := (w.peer s).reader.after
              ((w.conn.on s).stream.pollRead cx n).2 })
  | .conn a =>
      if a.isIo then none
      else (w.conn.step a).map (fun c => { w with conn := c })

/-- A message whose encoding has a length that fits its field. -/
def Fits : Event → Prop
  | .begin _ message => (encodePacketMessage message).length < 2 ^ 32
  | _ => True

instance : (a : Event) → Decidable (Fits a)
  | .begin _ _ => inferInstanceAs (Decidable (_ < _))
  | .write _ _ _ => isTrue trivial
  | .read _ _ => isTrue trivial
  | .conn _ => isTrue trivial

@[simp] theorem peer_setPeer_same (w : MessageNet) (s : Side)
    (p : MessagePeer) : (w.setPeer s p).peer s = p := by
  cases s <;> rfl

@[simp] theorem peer_setPeer_other (w : MessageNet) (s : Side)
    (p : MessagePeer) : (w.setPeer s p).peer s.other = w.peer s.other := by
  cases s <;> rfl

@[simp] theorem conn_setPeer (w : MessageNet) (s : Side) (p : MessagePeer) :
    (w.setPeer s p).conn = w.conn := by
  cases s <;> rfl

@[simp] theorem peer_conn (w : MessageNet) (c : Connection) (s : Side) :
    ({ w with conn := c } : MessageNet).peer s = w.peer s := by
  cases s <;> rfl

end MessageNet

/-! ## One message -/

/-- The bytes of messages written one after the other. -/
def framesOf (ms : List PacketMessage) : Bytes :=
  (ms.map writePacketMessage).flatten

theorem framesOf_cons (m : PacketMessage) (ms : List PacketMessage) :
    framesOf (m :: ms) = writePacketMessage m ++ framesOf ms := by
  simp [framesOf]

theorem framesOf_append (ms ms' : List PacketMessage) :
    framesOf (ms ++ ms') = framesOf ms ++ framesOf ms' := by
  simp [framesOf]

namespace MessageReader

/-- Reads are never longer than what is missing, so that the last one ends
with the message. -/
theorem length_of_complete {part bytes : Bytes} (hpos : 0 < missing part)
    (hle : bytes.length ≤ missing part) (h0 : missing (part ++ bytes) = 0) :
    (part ++ bytes).length = 4 + ofBe ((part ++ bytes).take 4) := by
  unfold missing at *
  rw [List.length_append] at *
  by_cases hlt : part.length < 4
  · rw [if_pos hlt] at hle
    split at h0 <;> omega
  · rw [if_neg hlt] at hpos hle
    have htake : (part ++ bytes).take 4 = part.take 4 :=
      List.take_append_of_le_length (by omega)
    rw [htake] at h0 ⊢
    split at h0 <;> omega

/-- A prefix of the messages' bytes that is as long as its own length field
says is the first message. -/
theorem complete_is_first {part : Bytes} {ms : List PacketMessage}
    (hfit : ∀ m ∈ ms, (encodePacketMessage m).length < 2 ^ 32)
    (hpre : part <+: framesOf ms)
    (hlen : part.length = 4 + ofBe (part.take 4)) :
    ∃ m ms', ms = m :: ms' ∧ part = writePacketMessage m := by
  cases ms with
  | nil =>
      rw [List.prefix_nil.mp hpre, List.length_nil] at hlen
      omega
  | cons m ms' =>
      refine ⟨m, ms', rfl, ?_⟩
      have hm : (encodePacketMessage m).length < 2 ^ 32 :=
        hfit m List.mem_cons_self
      have hframe : writePacketMessage m =
          toBe 4 (encodePacketMessage m).length ++ encodePacketMessage m := by
        unfold writePacketMessage writeFramedPacket
        rw [Nat.mod_eq_of_lt hm]
      rw [framesOf_cons] at hpre
      have htake : part.take 4 = toBe 4 (encodePacketMessage m).length := by
        obtain ⟨rest, hrest⟩ := hpre
        have h4 : (part ++ rest).take 4 = part.take 4 :=
          List.take_append_of_le_length (by omega)
        rw [← h4, hrest, hframe, List.append_assoc,
          List.take_append_of_le_length (by simp)]
        exact List.take_of_length_le (by simp)
      rw [htake, ofBe_toBe_of_lt hm] at hlen
      refine (List.prefix_of_prefix_length_le hpre (List.prefix_append _ _)
        ?_).eq_of_length ?_ <;>
      · rw [hframe, List.length_append, length_toBe, hlen]

/-- The reader knows `k` messages and is inside the next one. -/
structure Follows (r : MessageReader) (written : List PacketMessage)
    (returned : Bytes) : Prop where
  known : r.inbox.length ≤ written.length
  inbox : r.inbox = (written.take r.inbox.length).map PacketMessage.received
  bytes : returned = framesOf (written.take r.inbox.length) ++ r.part
  waiting : 0 < missing r.part
  /-- It fails for want of bytes only. -/
  sound : ∀ e, r.failed = some e → e = context r.part

theorem Follows.fail {r : MessageReader} {written : List PacketMessage}
    {returned : Bytes} (h : r.Follows written returned) :
    Follows { r with failed := some (context r.part) } written returned where
  known := h.known
  inbox := h.inbox
  bytes := h.bytes
  waiting := h.waiting
  sound := fun _ he => (Option.some.inj he).symm

/-- **Step lemma**: bytes that continue the writer's leave the reader inside
the next message, or with it. -/
theorem Follows.take {r : MessageReader} {written : List PacketMessage}
    {returned bytes : Bytes} (h : r.Follows written returned)
    (hfit : ∀ m ∈ written, (encodePacketMessage m).length < 2 ^ 32)
    (hgo : r.failed = none) (hle : bytes.length ≤ missing r.part)
    (hpre : returned ++ bytes <+: framesOf written) :
    (r.take bytes).Follows written (returned ++ bytes) := by
  have hrest : r.part ++ bytes <+: framesOf (written.drop r.inbox.length) := by
    have hsplit : framesOf written = framesOf (written.take r.inbox.length) ++
        framesOf (written.drop r.inbox.length) := by
      rw [← framesOf_append, List.take_append_drop]
    rw [h.bytes, hsplit, List.append_assoc,
      List.prefix_append_right_inj] at hpre
    exact hpre
  unfold MessageReader.take
  dsimp only
  split
  · rename_i h0
    obtain ⟨m, ms', hdrop, hpart⟩ := complete_is_first
      (fun m hm => hfit m (List.mem_of_mem_drop hm)) hrest
      (length_of_complete h.waiting hle h0)
    have hlt : r.inbox.length < written.length := by
      have hlen := congrArg List.length hdrop
      rw [List.length_drop, List.length_cons] at hlen
      omega
    have hm : written[r.inbox.length]? = some m := by
      rw [← List.head?_drop, hdrop]
      rfl
    have hmem : m ∈ written := List.mem_of_getElem? hm
    have hdec : decodePacketMessage ((r.part ++ bytes).drop 4) =
        .ok m.received := by
      rw [hpart]
      unfold writePacketMessage writeFramedPacket
      rw [List.drop_left' (length_toBe 4 _)]
      exact decodePacketMessage_encode (hfit m hmem)
    have hnext : written.take (r.inbox ++ [m.received]).length =
        written.take r.inbox.length ++ [m] := by
      rw [List.length_append, List.length_singleton, List.take_add_one, hm]
      rfl
    rw [hdec]
    refine ⟨?_, ?_, ?_, Nat.succ_pos 3, fun e he => by cases he⟩
    · rw [List.length_append]
      exact hlt
    · dsimp only
      rw [hnext, List.map_append, ← h.inbox]
      rfl
    · dsimp only
      rw [hnext, framesOf_append, h.bytes, List.append_assoc, hpart]
      simp [framesOf]
  · rename_i h0
    refine ⟨h.known, h.inbox, ?_, Nat.pos_of_ne_zero h0, ?_⟩
    · dsimp only
      rw [h.bytes, List.append_assoc]
    · intro e he
      rw [hgo] at he
      cases he

theorem Follows.after {r : MessageReader} {written : List PacketMessage}
    {returned : Bytes} {p : Poll (Except IoError Bytes)}
    (h : r.Follows written returned)
    (hfit : ∀ m ∈ written, (encodePacketMessage m).length < 2 ^ 32)
    (hgo : r.failed = none)
    (hle : (Endpoint.returnedBy p).length ≤ missing r.part)
    (hpre : returned ++ Endpoint.returnedBy p <+: framesOf written) :
    (r.after p).Follows written (returned ++ Endpoint.returnedBy p) := by
  unfold Endpoint.returnedBy at *
  cases p with
  | pending => simpa [MessageReader.after] using h
  | ready res =>
      cases res with
      | error _ => simpa [MessageReader.after] using h.fail
      | ok bytes =>
          unfold MessageReader.after
          dsimp only at *
          split
          · rename_i hnil
            rw [hnil, List.append_nil]
            exact h.fail
          · exact h.take hfit hgo hle hpre

/-- A reader that has obtained everything knows every message. -/
theorem Follows.complete {r : MessageReader} {written : List PacketMessage}
    {returned : Bytes} (h : r.Follows written returned)
    (hfit : ∀ m ∈ written, (encodePacketMessage m).length < 2 ^ 32)
    (hall : returned = framesOf written) :
    r.inbox = written.map PacketMessage.received := by
  have hpart : r.part = framesOf (written.drop r.inbox.length) := by
    have hsplit : framesOf written = framesOf (written.take r.inbox.length) ++
        framesOf (written.drop r.inbox.length) := by
      rw [← framesOf_append, List.take_append_drop]
    rw [h.bytes, hsplit] at hall
    exact List.append_cancel_left hall
  cases hdrop : written.drop r.inbox.length with
  | nil =>
      have hlen := List.drop_eq_nil_iff.mp hdrop
      have hin := h.inbox
      rwa [List.take_of_length_le hlen] at hin
  | cons m ms =>
      -- the reader would have the whole next message and still wait for it
      have hm := hfit m (List.mem_of_mem_drop
        (hdrop ▸ List.mem_cons_self : m ∈ written.drop r.inbox.length))
      have hwait := h.waiting
      rw [hdrop, framesOf_cons, writePacketMessage, writeFramedPacket,
        Nat.mod_eq_of_lt hm, List.append_assoc] at hpart
      have htake : r.part.take 4 = toBe 4 (encodePacketMessage m).length := by
        rw [hpart, List.take_append_of_le_length (by simp)]
        exact List.take_of_length_le (by simp)
      have hlen := congrArg List.length hpart
      rw [List.length_append, List.length_append, length_toBe] at hlen
      unfold missing at hwait
      rw [htake, ofBe_toBe_of_lt hm] at hwait
      split at hwait <;> omega

/-- More messages to come do not matter. -/
theorem Follows.snoc {r : MessageReader} {written : List PacketMessage}
    {returned : Bytes} (h : r.Follows written returned) (m : PacketMessage) :
    r.Follows (written ++ [m]) returned where
  known := by
    have := h.known
    rw [List.length_append]
    omega
  inbox := by
    rw [List.take_append_of_le_length h.known]
    exact h.inbox
  bytes := by
    rw [List.take_append_of_le_length h.known]
    exact h.bytes
  waiting := h.waiting
  sound := h.sound

theorem after_inbox (r : MessageReader) (p : Poll (Except IoError Bytes)) :
    (r.after p).inbox = r.inbox ∨ ∃ m, (r.after p).inbox = r.inbox ++ [m] := by
  unfold MessageReader.after
  split
  · exact Or.inl rfl
  · exact Or.inl rfl
  · split
    · exact Or.inl rfl
    · unfold MessageReader.take
      dsimp only
      split
      · split
        · exact Or.inr ⟨_, rfl⟩
        · exact Or.inl rfl
      · exact Or.inl rfl

end MessageReader

/-! ## What polls do to an end -/

/-- The bytes that an end has accepted from its writer. -/
def Endpoint.acceptedBytes (e : Endpoint) : Bytes :=
  (e.accepted.map Prod.snd).flatten

/-- The bytes that a poll took from the buffer it was given. -/
def writtenBy (buf : Bytes) : Poll (Except IoError ℕ) → Bytes
  | .ready (.ok n) => buf.take n
  | _ => []

theorem Endpoint.acceptedBytes_pollWrite {e e' : Endpoint} {cx : Waker}
    {buf : Bytes} {now : Instant} {out : Output} (hwf : e.WF)
    (hs : e.step (.pollWrite cx buf now) = some (e', out)) :
    e'.acceptedBytes = e.acceptedBytes ++
        writtenBy buf (e.stream.pollWrite cx buf now).2 ∧
      e'.returned = e.returned := by
  simp only [step] at hs
  split at hs
  · cases hs
  · cases hs
    refine ⟨?_, rfl⟩
    have hst : e.stream.state? = some e.st := hwf.state?
    unfold acceptedBytes
    dsimp only
    generalize (e.stream.pollWrite cx buf now).2 = p
    cases p with
    | pending => simp [acceptedBy, writtenBy]
    | ready res =>
        cases res with
        | error err => simp [acceptedBy, writtenBy]
        | ok n => simp [acceptedBy, writtenBy, hst]

theorem UdpStream.length_pollRead {u : UdpStream} {cx : Waker} {remaining : ℕ}
    {bytes : Bytes} (h : (u.pollRead cx remaining).2 = .ready (.ok bytes)) :
    bytes.length ≤ remaining := by
  unfold pollRead at h
  split at h
  · cases h
  · split at h
    · cases h
      rw [List.length_take]
      omega
    · split at h
      · cases h
        exact Nat.zero_le _
      · cases h

theorem Endpoint.returned_pollRead {e e' : Endpoint} {cx : Waker}
    {remaining : ℕ} {out : Output}
    (hs : e.step (.pollRead cx remaining) = some (e', out)) :
    e'.acceptedBytes = e.acceptedBytes ∧
      e'.returned = e.returned ++
        returnedBy (e.stream.pollRead cx remaining).2 ∧
      (returnedBy (e.stream.pollRead cx remaining).2).length ≤ remaining := by
  simp only [step] at hs
  split at hs
  · cases hs
  · cases hs
    refine ⟨rfl, rfl, ?_⟩
    unfold returnedBy
    split
    · exact UdpStream.length_pollRead ‹_›
    · exact Nat.zero_le _

/-- Nothing else moves bytes between the application and its stream. -/
theorem Effect.quiet_io {sid : UInt32} {v v' : View} {op : Op} {out : Output}
    (h : Effect sid v op v' out) (hop : op.isIo = false) :
    v'.accepted = v.accepted ∧ v'.returned = v.returned := by
  cases h with
  | writeRefused _ => exact ⟨rfl, rfl⟩
  | eof _ _ => exact ⟨rfl, rfl⟩
  | wrote _ _ _ => cases hop
  | read _ => cases hop
  | _ => exact ⟨rfl, rfl⟩

theorem Connection.step_act {w c : Connection} {s : Side} {op : Op}
    (hs : w.step (.act s op) = some c) :
    ∃ out, (w.on s).step op = some (c.on s, out) ∧
      c.on s.other = w.on s.other := by
  simp only [step] at hs
  split at hs
  · cases hs
  · obtain ⟨⟨e, out⟩, hr, rfl⟩ := Option.map_eq_some_iff.mp hs
    rw [on_put_same, on_put_other]
    exact ⟨out, hr, rfl⟩

theorem Connection.quiet_io {w c : Connection} {a : Action} (hwf : w.WF)
    (hop : a.isIo = false) (hs : w.step a = some c) (s : Side) :
    (c.on s).acceptedBytes = (w.on s).acceptedBytes ∧
      (c.on s).returned = (w.on s).returned := by
  unfold Endpoint.acceptedBytes
  obtain ⟨-, hm⟩ := step_moves hwf hs
  cases hm with
  | act ha hacts =>
      rename_i s' op out
      have hio : op.isIo = false := by
        cases a with
        | act _ _ =>
            cases ha
            exact hop
        | deliver _ _ _ _ =>
            cases ha
            rfl
        | lose _ _ => cases ha
        | strayClose _ _ => cases ha
      rcases s'.eq_or_eq_other s with rfl | rfl
      · obtain ⟨hacc, hret⟩ := hacts.effect.quiet_io hio
        have hacc' : (c.on s).accepted = (w.on s).accepted := hacc
        exact ⟨by rw [hacc'], hret⟩
      · rw [hacts.other]
        exact ⟨rfl, rfl⟩
  | quiet _ hq =>
      rw [hq.on]
      exact ⟨rfl, rfl⟩

/-- What a reader has obtained is the beginning of what the writer's end has
accepted. -/
theorem Connection.Reachable.returned_prefix {w : Connection}
    (h : w.Reachable) (s : Side) :
    (w.on s.other).returned <+: (w.on s).acceptedBytes := by
  obtain ⟨hsend, hrecv⟩ := h.intact.2 s
  have hbytes : (w.on s.other).returned ++ (w.on s.other).st.readBufBytes =
      bytesBelow (w.on s).accepted (w.on s.other).st.nextReadSeq := hrecv.bytes
  have hnum : Numbered (w.on s).accepted := hsend.numbered
  rw [hnum.bytesBelow_eq] at hbytes
  have hpre := List.prefix_append (w.on s.other).returned
    (w.on s.other).st.readBufBytes
  rw [hbytes] at hpre
  refine hpre.trans ?_
  have hsplit := List.take_append_drop ((w.on s.other).st.nextReadSeq - 1)
    (w.on s).accepted
  unfold Endpoint.acceptedBytes
  rw [← congrArg (List.map Prod.snd) hsplit, List.map_append,
    List.flatten_append]
  exact List.prefix_append _ _

/-! ## The two ends -/

namespace MessageNet

/-- The bytes accepted and those still to be written are those of the messages
written; the reader at the other end follows them. -/
structure Sound (w : MessageNet) : Prop where
  reach : w.conn.Reachable
  fits : ∀ s, ∀ m ∈ (w.peer s).writer.written,
    (encodePacketMessage m).length < 2 ^ 32
  wrote : ∀ s, (w.conn.on s).acceptedBytes ++
    (w.peer s).writer.todo.flatten = framesOf (w.peer s).writer.written
  read : ∀ s, (w.peer s.other).reader.Follows (w.peer s).writer.written
    (w.conn.on s.other).returned

theorem sound_init (sid : UInt32) (client server : SocketAddr)
    (t t' : Instant) : (init sid client server t t').Sound where
  reach := ⟨sid, client, server, t, t', [], Runs.run_nil.mpr rfl⟩
  fits := by
    intro s m hm
    cases s <;> cases hm
  wrote := by
    intro s
    cases s <;> rfl
  read := by
    intro s
    cases s <;>
      exact ⟨Nat.zero_le _, rfl, rfl, Nat.succ_pos 3, fun e he => by cases he⟩

theorem writer_after {m : MessageWriter} {piece : Bytes} {rest : List Bytes}
    (htodo : m.todo = piece :: rest) (p : Poll (Except IoError ℕ)) :
    writtenBy piece p ++ (m.after p).todo.flatten = m.todo.flatten ∧
      (m.after p).written = m.written := by
  unfold writtenBy MessageWriter.after
  cases p with
  | pending => exact ⟨rfl, rfl⟩
  | ready res =>
      cases res with
      | error e => exact ⟨rfl, rfl⟩
      | ok n =>
          rw [htodo]
          dsimp only
          split
          · rename_i hle
            refine ⟨?_, rfl⟩
            rw [List.take_of_length_le hle]
            rfl
          · refine ⟨?_, rfl⟩
            rw [List.flatten_cons, List.flatten_cons, ← List.append_assoc,
              List.take_append_drop]

/-- A step on the connection that leaves the applications as they are. -/
theorem Sound.conn {w : MessageNet} {a : Action} {c : Connection}
    (h : w.Sound) (hop : a.isIo = false) (hs : w.conn.step a = some c) :
    Sound { w with conn := c } := by
  have hquiet := Connection.quiet_io h.reach.intact.1 hop hs
  refine ⟨h.reach.run (Runs.run_cons.mpr ⟨c, hs, Runs.run_nil.mpr rfl⟩), ?_,
    ?_, ?_⟩
  · intro s
    rw [peer_conn]
    exact h.fits s
  · intro s
    rw [peer_conn]
    show (c.on s).acceptedBytes ++ _ = _
    rw [(hquiet s).1]
    exact h.wrote s
  · intro s
    rw [peer_conn, peer_conn]
    show MessageReader.Follows _ _ (c.on s.other).returned
    rw [(hquiet s.other).2]
    exact h.read s

/-- A message is begun when the one before is written. -/
theorem Sound.begin {w : MessageNet} {s : Side} {message : PacketMessage}
    (h : w.Sound) (hidle : (w.peer s).writer.todo = [])
    (hfit : (encodePacketMessage message).length < 2 ^ 32) :
    (w.setPeer s
      { w.peer s with writer := (w.peer s).writer.begin message }).Sound := by
  refine ⟨by rw [conn_setPeer]; exact h.reach, ?_, ?_, ?_⟩
  · intro s'
    rcases s.eq_or_eq_other s' with rfl | rfl
    · rw [peer_setPeer_same]
      intro m hm
      rcases List.mem_append.mp hm with hold | hnew
      · exact h.fits s' m hold
      · rw [List.mem_singleton.mp hnew]
        exact hfit
    · rw [peer_setPeer_other]
      exact h.fits _
  · intro s'
    rw [conn_setPeer]
    rcases s.eq_or_eq_other s' with rfl | rfl
    · have hold := h.wrote s'
      rw [hidle, List.flatten_nil, List.append_nil] at hold
      rw [peer_setPeer_same, hold]
      unfold MessageWriter.begin
      rw [framesOf_append]
      simp [framesOf, writePacketMessage, writeFramedPacket]
    · rw [peer_setPeer_other]
      exact h.wrote _
  · intro s'
    rw [conn_setPeer]
    rcases s.eq_or_eq_other s' with rfl | rfl
    · rw [peer_setPeer_same, peer_setPeer_other]
      exact (h.read s').snoc message
    · have hread := h.read s.other
      rw [Side.other_other] at hread ⊢
      rw [peer_setPeer_same, peer_setPeer_other]
      exact hread

/-- A poll of the current write. -/
theorem Sound.write {w : MessageNet} {s : Side} {cx : Waker} {now : Instant}
    {piece : Bytes} {rest : List Bytes} {c : Connection} (h : w.Sound)
    (htodo : (w.peer s).writer.todo = piece :: rest)
    (hc : w.conn.step (.act s (.pollWrite cx piece now)) = some c) :
    ({ w with conn := c }.setPeer s { w.peer s with
      writer := (w.peer s).writer.after
        ((w.conn.on s).stream.pollWrite cx piece now).2 }).Sound := by
  obtain ⟨out, hstep, hother⟩ := Connection.step_act hc
  obtain ⟨hacc, hret⟩ :=
    Endpoint.acceptedBytes_pollWrite (h.reach.intact.1 s) hstep
  obtain ⟨hbytes, hwritten⟩ := writer_after htodo
    ((w.conn.on s).stream.pollWrite cx piece now).2
  refine ⟨?_, ?_, ?_, ?_⟩
  · rw [conn_setPeer]
    exact h.reach.run (Runs.run_cons.mpr ⟨c, hc, Runs.run_nil.mpr rfl⟩)
  · intro s'
    rcases s.eq_or_eq_other s' with rfl | rfl
    · rw [peer_setPeer_same, hwritten]
      exact h.fits s'
    · rw [peer_setPeer_other]
      exact h.fits _
  · intro s'
    rw [conn_setPeer]
    rcases s.eq_or_eq_other s' with rfl | rfl
    · rw [peer_setPeer_same, hwritten, hacc, List.append_assoc, hbytes]
      exact h.wrote s'
    · rw [peer_setPeer_other, hother]
      exact h.wrote _
  · intro s'
    rw [conn_setPeer]
    rcases s.eq_or_eq_other s' with rfl | rfl
    · rw [peer_setPeer_same, peer_setPeer_other, hwritten, hother]
      exact h.read s'
    · have hread := h.read s.other
      rw [Side.other_other] at hread ⊢
      rw [peer_setPeer_same, peer_setPeer_other, hret]
      exact hread

/-- A poll of the current read. -/
theorem Sound.poll {w : MessageNet} {s : Side} {cx : Waker} {c : Connection}
    (h : w.Sound) (hgo : (w.peer s).reader.failed = none)
    (hc : w.conn.step (.act s (.pollRead cx
      (MessageReader.missing (w.peer s).reader.part))) = some c) :
    ({ w with conn := c }.setPeer s { w.peer s with
      reader := (w.peer s).reader.after ((w.conn.on s).stream.pollRead cx
        (MessageReader.missing (w.peer s).reader.part)).2 }).Sound := by
  obtain ⟨out, hstep, hother⟩ := Connection.step_act hc
  obtain ⟨hacc, hret, hle⟩ := Endpoint.returned_pollRead hstep
  have hreach := h.reach.run
    (Runs.run_cons.mpr ⟨c, hc, Runs.run_nil.mpr rfl⟩)
  refine ⟨by rw [conn_setPeer]; exact hreach, ?_, ?_, ?_⟩
  · intro s'
    rcases s.eq_or_eq_other s' with rfl | rfl
    · rw [peer_setPeer_same]
      exact h.fits s'
    · rw [peer_setPeer_other]
      exact h.fits _
  · intro s'
    rw [conn_setPeer]
    rcases s.eq_or_eq_other s' with rfl | rfl
    · rw [peer_setPeer_same, hacc]
      exact h.wrote s'
    · rw [peer_setPeer_other, hother]
      exact h.wrote _
  · intro s'
    rw [conn_setPeer]
    rcases s.eq_or_eq_other s' with rfl | rfl
    · rw [peer_setPeer_same, peer_setPeer_other, hother]
      exact h.read s'
    · -- the reader's new bytes are more of what the other end accepted
      have hread := h.read s.other
      have hpre := hreach.returned_prefix s.other
      rw [Side.other_other] at hread hpre ⊢
      rw [peer_setPeer_same, peer_setPeer_other, hret]
      refine hread.after (h.fits s.other) hgo hle ?_
      rw [hret, hother] at hpre
      refine hpre.trans ?_
      rw [← h.wrote s.other]
      exact List.prefix_append _ _

/-- **Step lemma.** -/
theorem sound_step {w w' : MessageNet} {a : Event} (h : w.Sound)
    (hfit : Fits a) (hs : w.step a = some w') : w'.Sound := by
  cases a with
  | begin s message =>
      simp only [step] at hs
      split at hs
      · rename_i hidle
        cases hs
        exact h.begin hidle.1 hfit
      · cases hs
  | write s cx now =>
      simp only [step] at hs
      split at hs
      · cases hs
      · rename_i piece rest htodo
        split at hs
        · cases hs
        · obtain ⟨c, hc, rfl⟩ := Option.map_eq_some_iff.mp hs
          exact h.write htodo hc
  | read s cx =>
      simp only [step] at hs
      split at hs
      · cases hs
      · rename_i hgo
        obtain ⟨c, hc, rfl⟩ := Option.map_eq_some_iff.mp hs
        exact h.poll (Option.not_isSome_iff_eq_none.mp hgo) hc
  | conn a =>
      simp only [step] at hs
      split at hs
      · cases hs
      · rename_i hop
        obtain ⟨c, hc, rfl⟩ := Option.map_eq_some_iff.mp hs
        exact h.conn (Bool.not_eq_true _ ▸ hop) hc

/-! ## The channel that the users see -/

/-- From `s` to the other end, `w` looks like the channel `c`. -/
structure Shows (s : Side) (w : MessageNet) (c : Channel PacketMessage) :
    Prop where
  sound : w.Sound
  sent : c.sent = (w.peer s).writer.written.map PacketMessage.received
  received : c.received = (w.peer s.other).reader.inbox

/-- What a step changes for the users: nothing, a message written or a message
read. -/
theorem step_shows {w w' : MessageNet} {a : Event} (hs : w.step a = some w')
    (s : Side) :
    ((w'.peer s).writer.written = (w.peer s).writer.written ∨
      ∃ m, (w'.peer s).writer.written = (w.peer s).writer.written ++ [m]) ∧
    ((w'.peer s.other).reader.inbox = (w.peer s.other).reader.inbox ∨
      (w'.peer s).writer.written = (w.peer s).writer.written ∧
      ∃ m, (w'.peer s.other).reader.inbox =
        (w.peer s.other).reader.inbox ++ [m]) := by
  cases a with
  | begin s' message =>
      simp only [step] at hs
      split at hs
      · cases hs
        rcases s'.eq_or_eq_other s with rfl | rfl
        · rw [peer_setPeer_same, peer_setPeer_other]
          exact ⟨Or.inr ⟨message, rfl⟩, Or.inl rfl⟩
        · rw [Side.other_other, peer_setPeer_same, peer_setPeer_other]
          exact ⟨Or.inl rfl, Or.inl rfl⟩
      · cases hs
  | write s' cx now =>
      simp only [step] at hs
      split at hs
      · cases hs
      · rename_i piece rest htodo
        split at hs
        · cases hs
        · obtain ⟨c, hc, rfl⟩ := Option.map_eq_some_iff.mp hs
          have hwritten := (writer_after htodo
            ((w.conn.on s').stream.pollWrite cx piece now).2).2
          rcases s'.eq_or_eq_other s with rfl | rfl
          · rw [peer_setPeer_same, peer_setPeer_other]
            exact ⟨Or.inl hwritten, Or.inl rfl⟩
          · rw [Side.other_other, peer_setPeer_same, peer_setPeer_other]
            exact ⟨Or.inl rfl, Or.inl rfl⟩
  | read s' cx =>
      simp only [step] at hs
      split at hs
      · cases hs
      · obtain ⟨c, hc, rfl⟩ := Option.map_eq_some_iff.mp hs
        rcases s'.eq_or_eq_other s with rfl | rfl
        · rw [peer_setPeer_same, peer_setPeer_other]
          exact ⟨Or.inl rfl, Or.inl rfl⟩
        · rw [Side.other_other, peer_setPeer_same, peer_setPeer_other]
          refine ⟨Or.inl rfl, ?_⟩
          rcases MessageReader.after_inbox (w.peer s').reader
            ((w.conn.on s').stream.pollRead cx _).2 with hin | ⟨m, hin⟩
          · exact Or.inl hin
          · exact Or.inr ⟨rfl, m, hin⟩
  | conn a =>
      simp only [step] at hs
      split at hs
      · cases hs
      · obtain ⟨c, hc, rfl⟩ := Option.map_eq_some_iff.mp hs
        rw [peer_conn, peer_conn]
        exact ⟨Or.inl rfl, Or.inl rfl⟩

/-- **The connection refines a channel**, in each direction. -/
theorem simulates_channel (s : Side) :
    Runs.Simulates step (fun _ => Fits) Channel.step (Shows s) := by
  intro w a w' c hshow hfit hs
  have hsound := sound_step hshow.sound hfit hs
  obtain ⟨hout, hin⟩ := step_shows hs s
  rcases hin with hin | ⟨hsame, m, hin⟩
  · rcases hout with hout | ⟨m, hout⟩
    · exact ⟨[], c, Runs.run_nil.mpr rfl, hsound, by rw [hout, hshow.sent],
        by rw [hin, hshow.received]⟩
    · refine ⟨[.send m.received], _, Runs.run_cons.mpr ⟨_, rfl,
        Runs.run_nil.mpr rfl⟩, hsound, ?_, ?_⟩
      · rw [hout, List.map_append, ← hshow.sent]
        rfl
      · rw [hin]
        exact hshow.received
  · -- the message read is the next one written
    have hread := (hsound.read s).inbox
    have hknown := (hsound.read s).known
    rw [hsame] at hread hknown
    have hlen : (w'.peer s.other).reader.inbox.length =
        c.received.length + 1 := by
      rw [hin, List.length_append, hshow.received]
      rfl
    have hnext : c.sent[c.received.length]? = some m := by
      have hlast : (w'.peer s.other).reader.inbox[c.received.length]? =
          some m := by
        rw [hin, ← hshow.received]
        simp
      rw [hread, hlen, List.map_take, List.getElem?_take_of_lt (by omega),
        ← hshow.sent] at hlast
      exact hlast
    refine ⟨[.receive], { c with received := c.received ++ [m] },
      Runs.run_cons.mpr ⟨_, ?_, Runs.run_nil.mpr rfl⟩, hsound, ?_, ?_⟩
    · unfold Channel.step Channel.next?
      dsimp only
      rw [hnext]
      rfl
    · rw [hsame]
      exact hshow.sent
    · rw [hin, ← hshow.received]

theorem shows_init (sid : UInt32) (client server : SocketAddr)
    (t t' : Instant) (s : Side) :
    Shows s (init sid client server t t') Channel.empty := by
  refine ⟨sound_init sid client server t t', ?_, ?_⟩ <;> cases s <;> rfl

/-- No message is read that was not written, none twice and none too early. -/
theorem inbox_prefix {sid : UInt32} {client server : SocketAddr}
    {t t' : Instant} {as : List Event} {w : MessageNet}
    (hrun : Runs.Run step (init sid client server t t') as w)
    (hfit : ∀ a ∈ as, Fits a) (s : Side) :
    (w.peer s.other).reader.inbox <+:
      (w.peer s).writer.written.map PacketMessage.received := by
  obtain ⟨c, hreach, hshow⟩ := (simulates_channel s).run
    (shows_init sid client server t t' s) (Runs.meets_of_mem hfit _) hrun
  rw [← hshow.sent, ← hshow.received]
  exact Channel.fifo_reaches hreach

/-! ## The main result -/

/-- **Messages arrive in order.** In every run of a connection whose two
applications write and read messages, in each direction the two ends look
like the ends of a channel: the messages read are the first ones written, up
to the scope ids that the encoding drops. Reading fails for want of bytes
only, and when every byte written has been read every message has. -/
theorem messages_in_order (sid : UInt32) (client server : SocketAddr)
    (t t' : Instant) (as : List Event) (w : MessageNet)
    (hrun : Runs.Run step (init sid client server t t') as w)
    (hfit : ∀ a ∈ as, Fits a) (s : Side) :
    ∃ c : Channel PacketMessage, Runs.Reaches Channel.step Channel.empty c ∧
      c.sent = (w.peer s).writer.written.map PacketMessage.received ∧
      c.received = (w.peer s.other).reader.inbox ∧
      (∀ e, (w.peer s.other).reader.failed = some e →
        e = "Failed to read packet length" ∨
          e = "Failed to read packet body") ∧
      ((w.peer s).writer.todo = [] →
        (w.conn.on s.other).returned = (w.conn.on s).acceptedBytes →
        c.received = c.sent) := by
  obtain ⟨c, hreach, hsound, hsent, hrecv⟩ := (simulates_channel s).run
    (shows_init sid client server t t' s) (Runs.meets_of_mem hfit _) hrun
  refine ⟨c, hreach, hsent, hrecv, ?_, ?_⟩
  · intro e he
    rw [(hsound.read s).sound e he]
    unfold MessageReader.context
    split
    · exact Or.inl rfl
    · exact Or.inr rfl
  · intro hidle hall
    have hwrote := hsound.wrote s
    rw [hidle, List.flatten_nil, List.append_nil, ← hall] at hwrote
    rw [hrecv, hsent]
    exact (hsound.read s).complete (hsound.fits s) hwrote

/-- The server acknowledges; the client reads the length in one poll and the
message in two, with a heartbeat already behind it. -/
def acknowledging : List Event :=
  Connection.opening.map .conn ++
    [.begin .acceptor (.ack .ok), .write .acceptor 0 5, .write .acceptor 0 5,
      .conn (.act .acceptor (.writeRx 5)), .conn (.act .acceptor (.writeRx 5)),
      .begin .acceptor (.control .heartBeat), .write .acceptor 0 6,
      .conn (.deliver .connector ⟨⟨7, .stream, 1, 0, 0⟩, [0, 0, 0, 8],
        connectorAddr⟩ listenerAddr 7),
      .read .connector 0,
      .conn (.deliver .connector ⟨⟨7, .stream, 2, 0, 0⟩,
        [4, 0, 0, 0, 0, 0, 0, 0], connectorAddr⟩ listenerAddr 7),
      .read .connector 0]

theorem messages_in_order_acknowledging : ∃ (w : MessageNet)
    (c : Channel PacketMessage),
    Runs.Run step (init 7 connectorAddr listenerAddr 0 0) acknowledging w ∧
    (w.peer .connector).reader.inbox = [.ack .ok] ∧
    Runs.Reaches Channel.step Channel.empty c ∧
    c.sent = [.ack .ok, .control .heartBeat] ∧ c.received = [.ack .ok] := by
  have hrun : ∃ w, Runs.Run step (init 7 connectorAddr listenerAddr 0 0)
      acknowledging w ∧
      (w.peer .acceptor).writer.written = [.ack .ok, .control .heartBeat] ∧
      (w.peer .connector).reader.inbox = [.ack .ok] :=
    ⟨_, rfl, rfl, rfl⟩
  obtain ⟨w, hrun, hwritten, hinbox⟩ := hrun
  obtain ⟨c, hreach, hsent, hrecv, -⟩ := messages_in_order 7 connectorAddr
    listenerAddr 0 0 acknowledging w hrun (by decide) .acceptor
  refine ⟨w, c, hrun, hinbox, hreach, ?_, ?_⟩
  · rw [hsent, hwritten]
    rfl
  · exact hrecv.trans hinbox

end MessageNet

end Rathole
