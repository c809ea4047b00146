import Rathole.Lib.Codec
import Rathole.Transport.Endpoint

/-!
# Datagrams on the wire

`TransportPacketHeader::encode` and `decode`, and what `send_packet_raw` and
the two receive loops make of them: a nonce of twelve bytes, then header and
payload under ChaCha20-Poly1305. The cipher is a parameter.

Every packet that leaves an endpoint comes out of the other receive loop as it
was, and none is too long for its buffer (`datagram_round_trip`).
-/

namespace Rathole

/-! ## The header -/

namespace PacketKind

/-- `packet_kind as u8`. -/
def toU8 : PacketKind → UInt8
  | .stream => 0
  | .streamOpen => 1
  | .streamOpenAck => 2
  | .streamClose => 3
  | .sack => 4
  | .keepalivePing => 5
  | .keepalivePong => 6
  | .service => 7
  | .nack => 8

/-- `PacketKind::from`; an unknown byte is a Stream packet. -/
def ofU8 (v : UInt8) : PacketKind :=
  match v.toNat with
  | 1 => .streamOpen
  | 2 => .streamOpenAck
  | 3 => .streamClose
  | 4 => .sack
  | 5 => .keepalivePing
  | 6 => .keepalivePong
  | 7 => .service
  | 8 => .nack
  | _ => .stream

@[simp]
theorem ofU8_toU8 (k : PacketKind) : ofU8 k.toU8 = k := by
  cases k <;> rfl

end PacketKind

namespace TransportPacketHeader

/-- What `encode` appends to its buffer. -/
def encode (h : TransportPacketHeader) : Bytes :=
  Codec.toBe 4 h.channelId.toNat ++ [h.packetKind.toU8] ++
    Codec.toBe 8 h.seq ++ Codec.toBe 8 h.ack ++ Codec.toBe 8 h.ackBits

/-- `buf[i..j]`. -/
def slice (buf : Bytes) (i j : ℕ) : Bytes := (buf.drop i).take (j - i)

def decode (buf : Bytes) : Option (TransportPacketHeader × Bytes) :=
  if buf.length < 29 then none
  else some
    ({ channelId := UInt32.ofNat (Codec.ofBe (slice buf 0 4))
       packetKind := PacketKind.ofU8 (buf.getD 4 0)
       seq := Codec.ofBe (slice buf 5 13)
       ack := Codec.ofBe (slice buf 13 21)
       ackBits := Codec.ofBe (slice buf 21 29) },
      buf.drop 29)

/-- The fields fit their type, `u64`. -/
structure Fits (h : TransportPacketHeader) : Prop where
  seq : h.seq < 2 ^ 64
  ack : h.ack < 2 ^ 64
  ackBits : h.ackBits < 2 ^ 64

@[simp]
theorem length_encode (h : TransportPacketHeader) : h.encode.length = 29 := by
  simp [encode]

/-- An integer that stands between `a` and `c`. -/
theorem ofBe_slice {buf a c : Bytes} {w n i j : ℕ}
    (h : buf = a ++ (Codec.toBe w n ++ c)) (hi : a.length = i) (hj : j = i + w)
    (hn : n < 256 ^ w) : Codec.ofBe (slice buf i j) = n := by
  subst hi hj
  unfold slice
  rw [h, List.drop_left, Nat.add_sub_cancel_left]
  nth_rewrite 1 [← Codec.length_toBe w n]
  rw [List.take_left, Codec.ofBe_toBe_of_lt hn]

/-- The fifth byte is the kind. -/
theorem kind_encode (h : TransportPacketHeader) (payload : Bytes) :
    (h.encode ++ payload).getD 4 0 = h.packetKind.toU8 := by
  have hsplit : h.encode ++ payload = Codec.toBe 4 h.channelId.toNat ++
      (h.packetKind.toU8 :: (Codec.toBe 8 h.seq ++ Codec.toBe 8 h.ack ++
        Codec.toBe 8 h.ackBits ++ payload)) := by
    simp [encode]
  have hlen := Codec.length_toBe 4 h.channelId.toNat
  rw [hsplit, List.getD_append_right _ _ _ _ hlen.le, hlen]
  rfl

theorem decode_encode {h : TransportPacketHeader} (hfit : h.Fits)
    (payload : Bytes) : decode (h.encode ++ payload) = some (h, payload) := by
  -- the parts the header is made of
  let id := Codec.toBe 4 h.channelId.toNat
  let seq := Codec.toBe 8 h.seq
  let ack := Codec.toBe 8 h.ack
  let bits := Codec.toBe 8 h.ackBits
  let kind := h.packetKind.toU8
  have hid : Codec.ofBe (slice (h.encode ++ payload) 0 4) =
      h.channelId.toNat :=
    ofBe_slice (w := 4) (a := []) (c := kind :: seq ++ ack ++ bits ++ payload)
      (by simp [encode, kind, seq, ack, bits]) rfl rfl h.channelId.toNat_lt
  have hkind : (h.encode ++ payload).getD 4 0 = kind := kind_encode h payload
  have hseq : Codec.ofBe (slice (h.encode ++ payload) 5 13) = h.seq :=
    ofBe_slice (w := 8) (a := id ++ [kind]) (c := ack ++ bits ++ payload)
      (by simp [encode, id, kind, ack, bits]) (by simp [id]) rfl hfit.seq
  have hack : Codec.ofBe (slice (h.encode ++ payload) 13 21) = h.ack :=
    ofBe_slice (w := 8) (a := id ++ [kind] ++ seq) (c := bits ++ payload)
      (by simp [encode, id, kind, seq, bits]) (by simp [id, seq]) rfl hfit.ack
  have hbits : Codec.ofBe (slice (h.encode ++ payload) 21 29) = h.ackBits :=
    ofBe_slice (w := 8) (a := id ++ [kind] ++ seq ++ ack) (c := payload)
      (by simp [encode, id, kind, seq, ack]) (by simp [id, seq, ack]) rfl
      hfit.ackBits
  have hlen := h.length_encode
  have hrest : (h.encode ++ payload).drop 29 = payload := by
    rw [← hlen, List.drop_left]
  unfold decode
  rw [if_neg (by simp [hlen]), hid, hkind, hseq, hack, hbits, hrest,
    UInt32.ofNat_toNat, PacketKind.ofU8_toU8]

/-! ### What the decoder accepts -/

theorem length_slice {buf : Bytes} {i j : ℕ} (hj : j ≤ buf.length) :
    (slice buf i j).length = j - i := by
  unfold slice
  rw [List.length_take, List.length_drop]
  omega

theorem toBe_slice {buf : Bytes} {i j w : ℕ} (hw : j - i = w)
    (hj : j ≤ buf.length) :
    Codec.toBe w (Codec.ofBe (slice buf i j)) = slice buf i j :=
  Codec.toBe_ofBe ((length_slice hj).trans hw)

theorem slice_append_drop {buf : Bytes} {i j : ℕ} (hij : i ≤ j) :
    slice buf i j ++ buf.drop j = buf.drop i := by
  unfold slice
  rw [show buf.drop j = (buf.drop i).drop (j - i) by
    rw [List.drop_drop, Nat.add_sub_cancel' hij]]
  exact List.take_append_drop _ _

/-- A buffer of header length is its fields, one after the other. -/
theorem eq_fields {buf : Bytes} (hlen : 29 ≤ buf.length) :
    buf = slice buf 0 4 ++ [buf.getD 4 0] ++ slice buf 5 13 ++
      slice buf 13 21 ++ slice buf 21 29 ++ buf.drop 29 := by
  have hkind : buf.getD 4 0 :: buf.drop 5 = buf.drop 4 := by
    rw [List.getD_eq_getElem buf 0 (by omega : 4 < buf.length)]
    exact (List.drop_eq_getElem_cons (by omega)).symm
  simp only [List.append_assoc]
  rw [slice_append_drop (by decide), slice_append_drop (by decide),
    slice_append_drop (by decide), List.singleton_append, hkind,
    slice_append_drop (by decide)]
  rfl

theorem decode_eq_none {buf : Bytes} (h : buf.length < 29) :
    decode buf = none := by
  unfold decode
  rw [if_pos h]

theorem decode_fits {buf payload : Bytes} {h : TransportPacketHeader}
    (hdec : decode buf = some (h, payload)) : 29 ≤ buf.length ∧ h.Fits := by
  unfold decode at hdec
  split at hdec
  · cases hdec
  · cases hdec
    exact ⟨by omega, Codec.ofBe_lt (length_slice (by omega)),
      Codec.ofBe_lt (length_slice (by omega)),
      Codec.ofBe_lt (length_slice (by omega))⟩

/-- A decoded buffer with a known kind is what the encoder would write. -/
theorem encode_of_decode {buf payload : Bytes} {h : TransportPacketHeader}
    (hdec : decode buf = some (h, payload)) {k : PacketKind}
    (hk : buf.getD 4 0 = k.toU8) : buf = h.encode ++ payload := by
  obtain ⟨hlen, -⟩ := decode_fits hdec
  unfold decode at hdec
  rw [if_neg (by omega)] at hdec
  cases hdec
  have hid : Codec.ofBe (slice buf 0 4) < 2 ^ 32 :=
    Codec.ofBe_lt (length_slice (by omega))
  unfold encode
  dsimp only
  rw [UInt32.toNat_ofNat_of_lt' hid, hk, PacketKind.ofU8_toU8, ← hk,
    toBe_slice (w := 4) rfl (by omega), toBe_slice (w := 8) rfl (by omega),
    toBe_slice (w := 8) rfl (by omega), toBe_slice (w := 8) rfl hlen]
  exact eq_fields hlen

/-- **The decoder accepts exactly what the encoder writes**, and rejects an
unknown kind, on the buffers that are too short for a header or whose kind byte
is one of the nine. -/
theorem decode_exact_iff (buf : Bytes) :
    ((∀ h payload, decode buf = some (h, payload) ↔
        h.Fits ∧ buf = h.encode ++ payload) ∧
      ((∀ k : PacketKind, buf.getD 4 0 ≠ k.toU8) → decode buf = none)) ↔
    (buf.length < 29 ∨ ∃ k : PacketKind, buf.getD 4 0 = k.toU8) := by
  constructor
  · rintro ⟨hexact, -⟩
    by_cases hlen : buf.length < 29
    · exact Or.inl hlen
    · right
      obtain ⟨r, hdec⟩ : ∃ r, decode buf = some r := by
        unfold decode
        rw [if_neg hlen]
        exact ⟨_, rfl⟩
      obtain ⟨-, hbuf⟩ := (hexact r.1 r.2).mp hdec
      refine ⟨r.1.packetKind, ?_⟩
      rw [hbuf]
      exact kind_encode r.1 r.2
  · rintro (hlen | ⟨k, hk⟩)
    · refine ⟨?_, fun _ => decode_eq_none hlen⟩
      intro h payload
      rw [decode_eq_none hlen]
      constructor
      · intro hnone
        cases hnone
      · rintro ⟨-, rfl⟩
        rw [List.length_append, length_encode] at hlen
        omega
    · refine ⟨?_, fun hnone => absurd hk (hnone k)⟩
      intro h payload
      constructor
      · exact fun hdec => ⟨(decode_fits hdec).2, encode_of_decode hdec hk⟩
      · rintro ⟨hfit, rfl⟩
        exact decode_encode hfit payload

/-- A header of kind 9 for stream 7, and one byte of payload. -/
def kindNine : Bytes :=
  Codec.toBe 4 7 ++ [9] ++ Codec.toBe 8 1 ++ Codec.toBe 8 0 ++
    Codec.toBe 8 0 ++ [65]

/-- The unknown kind is taken for data and its payload reaches the reader. -/
theorem kindNine_is_data :
    decode kindNine = some (⟨7, .stream, 1, 0, 0⟩, [65]) ∧
    kindNine ≠ encode ⟨7, .stream, 1, 0, 0⟩ ++ [65] ∧
    (∀ k : PacketKind, kindNine.getD 4 0 ≠ k.toU8) ∧
    (UdpStreamInner.dispatch (StreamState.new .tcp)
      ⟨⟨7, .stream, 1, 0, 0⟩, [65], .v4 #v[10, 0, 0, 1] 40000⟩
      0).1.readBufBytes = [65] := by
  refine ⟨by decide, by decide, ?_, by decide⟩
  intro k
  cases k <;> decide

end TransportPacketHeader

/-! ## Under the cipher -/

/-- ChaCha20-Poly1305 under the key of the service: nonce and text. -/
structure Cipher where
  encrypt : Bytes → Bytes → Option Bytes
  decrypt : Bytes → Bytes → Option Bytes

/-- Up to its limit of 256 GiB the cipher takes every text, makes it sixteen
bytes longer and gives it back. -/
def Cipher.Correct (c : Cipher) : Prop :=
  ∀ nonce text : Bytes, nonce.length = 12 → text.length < 2 ^ 38 - 64 →
    ∃ ct, c.encrypt nonce text = some ct ∧ ct.length = text.length + 16 ∧
      c.decrypt nonce ct = some text

/-- What `send_packet_raw` hands to the socket. -/
def Datagram.bytes (d : Datagram) (c : Cipher) (nonce : Bytes) :
    Option Bytes :=
  (c.encrypt nonce (d.header.encode ++ d.payload)).map (nonce ++ ·)

/-- One turn of a receive loop, up to `on_packet`: the socket fills a buffer
of 2048 bytes and drops the rest of the datagram. -/
def recvDatagram (c : Cipher) (wire : Bytes) :
    Option (TransportPacketHeader × Bytes) :=
  let buf := wire.take 2048
  if buf.length < 28 then none
  else (c.decrypt (buf.take 12) (buf.drop 12)).bind TransportPacketHeader.decode

/-- **The codec**: header and payload come back as they were. -/
theorem recvDatagram_bytes {c : Cipher} (hc : c.Correct) {d : Datagram}
    (hfit : d.header.Fits) (hlen : d.payload.length ≤ 1100) {nonce : Bytes}
    (hnonce : nonce.length = 12) :
    ∃ pkt, d.bytes c nonce = some pkt ∧ 28 ≤ pkt.length ∧
      pkt.length ≤ 2048 ∧ recvDatagram c pkt = some (d.header, d.payload) := by
  have htext : (d.header.encode ++ d.payload).length = 29 + d.payload.length := by
    rw [List.length_append, TransportPacketHeader.length_encode]
  obtain ⟨ct, hct, hctlen, hback⟩ :=
    hc nonce (d.header.encode ++ d.payload) hnonce (by rw [htext]; omega)
  have hpkt : (nonce ++ ct).length = 57 + d.payload.length := by
    rw [List.length_append]
    omega
  refine ⟨nonce ++ ct, ?_, by omega, by omega, ?_⟩
  · unfold Datagram.bytes
    rw [hct]
    rfl
  · unfold recvDatagram
    dsimp only
    rw [List.take_of_length_le (by omega), if_neg (by omega), ← hnonce,
      List.take_left, List.drop_left, hback]
    exact TransportPacketHeader.decode_encode hfit d.payload

/-! ## What an endpoint sends -/

/-- Ack and bits of a packet, as `send_packet_raw` chooses them. -/
theorem sendPacketRaw_acks {inner : UdpStreamInner} {sid : UInt32}
    {st : StreamState} (hst : inner.stream? sid = some st) (pt : PacketKind)
    (seq : ℕ) (ackOverride bitsOverride : Option ℕ) (data : Bytes)
    (now : Instant) :
    ∃ ab : ℕ × ℕ, (inner.sendPacketRaw sid pt seq ackOverride bitsOverride data
        now).2 = ⟨⟨sid, pt, seq, ab.1, ab.2⟩, data, inner.peerAddr⟩ ∧
      (∀ a b, pt = .sack ∨ pt = .nack → ackOverride = some a →
        bitsOverride = some b → ab = (a, b)) ∧
      (¬ (pt = .sack ∨ pt = .nack) → ab = st.buildAck) ∧
      (ab = st.buildAck ∨
        ackOverride = some ab.1 ∧ bitsOverride = some ab.2) := by
  unfold UdpStreamInner.sendPacketRaw
  rw [hst]
  refine ⟨_, rfl, ?_⟩
  dsimp only
  split
  · rename_i hkind
    split
    · rename_i a b
      refine ⟨?_, fun hne => absurd hkind.symm hne, Or.inr ⟨rfl, rfl⟩⟩
      rintro a' b' - ⟨⟩ ⟨⟩
      rfl
    · rename_i hnone
      refine ⟨?_, fun _ => rfl, Or.inl rfl⟩
      rintro a b - rfl rfl
      exact absurd rfl (hnone a b rfl)
  · rename_i hkind
    exact ⟨fun _ _ h => absurd h.symm hkind, fun _ => rfl, Or.inl rfl⟩

namespace Endpoint

/-- **Datagram round trip.** Whatever an endpoint sends, in whatever state a
run has brought it to, fits the buffer of the receive loops, passes their
length check and is decoded to the header and payload that were sent; Sack and
Nack carry the ack and bits passed in, every other kind those of the
endpoint's own stream. -/
theorem datagram_round_trip (c : Cipher) (hc : c.Correct) (e₀ e : Endpoint)
    (hfresh : e₀.Fresh) (ops : List Op) (hrun : Runs.Run next e₀ ops e)
    (hread : e.st.nextReadSeq < 2 ^ 64) (nonce : Vector UInt8 12)
    (pt : PacketKind) (seq : UInt64) (ackOverride bitsOverride : Option UInt64)
    (data : Bytes) (hdata : data.length ≤ 1100) (now : Instant) :
    ∃ header pkt,
      (e.stream.inner.sendPacketRaw e.stream.streamId pt seq.toNat
        (ackOverride.map UInt64.toNat) (bitsOverride.map UInt64.toNat) data
        now).2.bytes c nonce.toList = some pkt ∧
      28 ≤ pkt.length ∧ pkt.length ≤ 2048 ∧
      recvDatagram c pkt = some (header, data) ∧
      header.channelId = e.stream.streamId ∧ header.packetKind = pt ∧
      header.seq = seq.toNat ∧
      (∀ a b, pt = .sack ∨ pt = .nack → ackOverride = some a →
        bitsOverride = some b → (header.ack, header.ackBits) = (a.toNat, b.toNat)) ∧
      (¬ (pt = .sack ∨ pt = .nack) →
        (header.ack, header.ackBits) = e.st.buildAck) := by
  have hst := UdpStreamInner.HoldsAt.stream? (hfresh.wf_run hrun)
  obtain ⟨ab, hd, hover, hbuild, hcases⟩ := sendPacketRaw_acks hst pt seq.toNat
    (ackOverride.map UInt64.toNat) (bitsOverride.map UInt64.toNat) data now
  rw [hd]
  -- whichever ack is taken, it is one of a `u64`
  have hfit : ab.1 < 2 ^ 64 ∧ ab.2 < 2 ^ 64 := by
    rcases hcases with rfl | ⟨ha, hb⟩
    · have hack : e.st.buildAck.1 = e.st.nextReadSeq - 1 := rfl
      exact ⟨by omega, e.st.buildAck_bits_lt⟩
    · obtain ⟨a, -, ha⟩ := Option.map_eq_some_iff.mp ha
      obtain ⟨b, -, hb⟩ := Option.map_eq_some_iff.mp hb
      rw [← ha, ← hb]
      exact ⟨a.toNat_lt, b.toNat_lt⟩
  obtain ⟨pkt, hpkt, hmin, hmax, hrecv⟩ := recvDatagram_bytes hc
    (d := ⟨⟨e.stream.streamId, pt, seq.toNat, ab.1, ab.2⟩, data,
      e.stream.inner.peerAddr⟩) ⟨seq.toNat_lt, hfit.1, hfit.2⟩ hdata
    nonce.length_toList
  refine ⟨_, pkt, hpkt, hmin, hmax, hrecv, rfl, rfl, rfl, ?_, hbuild⟩
  rintro a b hkind rfl rfl
  exact hover _ _ hkind rfl rfl

/-- Sixteen zero bytes for a tag. -/
def tagging : Cipher where
  encrypt _ text := some (text ++ List.replicate 16 0)
  decrypt _ ct :=
    if ct.drop (ct.length - 16) = List.replicate 16 0 then
      some (ct.take (ct.length - 16))
    else none

theorem tagging_correct : tagging.Correct := by
  intro nonce text hnonce hlen
  refine ⟨_, rfl, by simp, ?_⟩
  simp [tagging]

/-- A StreamOpen opens the stream, whose Sack then passes the wire. -/
theorem datagram_round_trip_sack : ∃ header pkt,
    recvDatagram tagging pkt = some (header, [1, 2, 3]) ∧
      pkt.length ≤ 2048 ∧ header.packetKind = .sack ∧ header.channelId = 7 ∧
      header.seq = 0 ∧ (header.ack, header.ackBits) = (5, 6) := by
  obtain ⟨header, pkt, -, -, hmax, hrecv, hid, hkind, hseq, hover, -⟩ :=
    datagram_round_trip tagging tagging_correct
      (accepting 7 (.v4 #v[10, 0, 0, 1] 40000) 0) _ ⟨_, _, _, Or.inr rfl⟩
      [.incoming ⟨⟨7, .streamOpen, 0, 0, 0⟩, [],
        .v4 #v[10, 0, 0, 1] 40000⟩ 1] rfl (by decide +kernel)
      (Vector.replicate 12 9) .sack 0 (some 5) (some 6) [1, 2, 3]
      (by decide) 2
  exact ⟨header, pkt, hrecv, hmax, hkind, hid, hseq,
    hover 5 6 (Or.inl rfl) rfl rfl⟩

end Endpoint

end Rathole
