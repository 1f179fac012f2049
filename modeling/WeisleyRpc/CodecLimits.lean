import WeisleyRpc.CodecPeers

/-!
# Limits of the decoder

A header is checked against `MAX_PACKET_LENGTH` only. The configured limits apply to a
body that is complete and to a payload that is decompressed, before a serializer sees it.
-/

namespace WeisleyRpc

/-- At most one incomplete packet, whose header is accepted once it is complete. -/
def Pending (bytes : Buffer) : Prop :=
  bytes.length < HEADER_LENGTH ∨
    ∃ header, decodePacketHeader (bytes.take HEADER_LENGTH) = .ok header ∧
      header.bodyLength ≤ MAX_PACKET_LENGTH ∧ bytes.length < HEADER_LENGTH + header.bodyLength

theorem Pending.length_lt {bytes : Buffer} (h : Pending bytes) :
    bytes.length < HEADER_LENGTH + MAX_PACKET_LENGTH := by
  rcases h with h | ⟨header, -, hmax, hlt⟩
  · omega
  · omega

/-- The error of `assertBodyLength`. -/
def overLimit (length limit : ℕ) (label : String) : JsError :=
  .rangeError s!"{label} body length {length} exceeds limit {limit}"

theorem assertBodyLength_of_lt {length limit : ℕ} (h : limit < length) (label : String) :
    assertBodyLength length limit label = .error (overLimit length limit label) := by
  simp [assertBodyLength, h, overLimit]

namespace CodecConfig
variable {c : CodecConfig} {header : PacketHeader} {body payload : Buffer} {serializer : Serializer}

/-- The payload that a message was deserialized from, and the body it came in. -/
def Source (c : CodecConfig) (bytes : Buffer) (message : JsValue) (header : PacketHeader)
    (body payload : Buffer) (serializer : Serializer) : Prop :=
  (∃ i, decodePacketHeader ((bytes.drop i).take HEADER_LENGTH) = .ok header ∧
      body = ((bytes.drop i).drop HEADER_LENGTH).take header.bodyLength) ∧
    body.length = header.bodyLength ∧
    c.serializers.get header.serializer = some serializer ∧
    c.bodyPayload header.flags body = .ok payload ∧
    serializer.deserialize payload = .ok message ∧
    message.get "type" = .ok (.string header.messageType.text)

/-- A body within its limit, and within the limit too what it is decompressed to. -/
def Within (c : CodecConfig) (body payload : Buffer) : Prop :=
  body.length ≤ c.maxBodyLength ∧ body.length ≤ MAX_PACKET_LENGTH ∧
    payload.length ≤ c.maxDecompressedBodyLength

theorem decodedHeader_le {bytes : Buffer} (h : decodePacketHeader bytes = .ok header) :
    header.bodyLength ≤ MAX_PACKET_LENGTH := by
  obtain ⟨-, -, -, -, -, hmax, -, -, -, hb⟩ := decodePacketHeader_eq_ok_iff.mp h
  rwa [hb]

theorem pending_of_more {bytes : Buffer} (h : c.framer.front bytes = .more) : Pending bytes := by
  rw [framer_front, front] at h
  split_ifs at h with hlen
  · exact Or.inl hlen
  · cases hd : decodePacketHeader (bytes.take HEADER_LENGTH) with
    | error e => simp [hd] at h
    | ok header =>
      simp only [hd] at h
      split_ifs at h with hshort
      exact Or.inr ⟨header, hd, decodedHeader_le hd, hshort⟩

theorem source_of_mem {bytes : Buffer} {message : JsValue}
    (h : message ∈ (c.decode bytes).items) :
    ∃ header body payload serializer,
      c.Source bytes message header body payload serializer ∧ c.Within body payload := by
  obtain ⟨i, n, hi⟩ := Framer.mem_items h
  obtain ⟨header, hd, rfl, hle, hb⟩ := front_frame_iff.mp hi
  obtain ⟨hbody, serializer, hs, payload, hp, hpayload, hm, ht⟩ := decodeBody_eq_ok_iff.mp hb.symm
  have hlen : (((bytes.drop i).drop HEADER_LENGTH).take header.bodyLength).length =
      header.bodyLength := by
    rw [List.length_take, List.length_drop]
    omega
  refine ⟨header, _, payload, serializer, ⟨⟨i, hd, rfl⟩, hlen, hs, hp, hm, ht⟩, hbody, ?_, hpayload⟩
  rw [hlen]
  exact decodedHeader_le hd

theorem decodeBody_of_body (h : c.maxBodyLength < body.length) :
    c.decodeBody header body = .error (overLimit body.length c.maxBodyLength "Packet") := by
  simp [decodeBody, assertBodyLength_of_lt h, bind, Except.bind]

theorem decodeBody_of_payload (hb : body.length ≤ c.maxBodyLength)
    (hs : c.serializers.get header.serializer = some serializer)
    (hp : c.bodyPayload header.flags body = .ok payload)
    (h : c.maxDecompressedBodyLength < payload.length) :
    c.decodeBody header body =
      .error (overLimit payload.length c.maxDecompressedBodyLength "Decompressed") := by
  have hbody : assertBodyLength body.length c.maxBodyLength "Packet" = .ok () :=
    assertBodyLength_eq_ok_iff.mpr hb
  simp [decodeBody, hbody, assertBodyLength_of_lt h, serializerFor_eq_ok_iff.mpr hs, hp, bind,
    Except.bind]

/-- What the loop body of `push` decompresses of a packet. -/
def inflated (c : CodecConfig) (packetHeader : PacketHeader) (body : Buffer) : List Buffer :=
  if body.length ≤ c.maxBodyLength ∧ (c.serializers.get packetHeader.serializer).isSome ∧
      packetHeader.flags &&& PACKET_FLAG_COMPRESSED ≠ 0 then
    (c.decompress body).toOption.toList
  else []

/-- All that the loop of `push` decompresses, whatever becomes of it. -/
def inflations (c : CodecConfig) (queue : BufferQueue) : List Buffer :=
  if HEADER_LENGTH ≤ queue.length then
    match queue.peek HEADER_LENGTH with
    | none => []
    | some header =>
      match decodePacketHeader header with
      | .error _ => []
      | .ok packetHeader =>
        if _hlen : queue.length < HEADER_LENGTH + packetHeader.bodyLength then []
        else
          match _hread : (queue.read HEADER_LENGTH).2.read packetHeader.bodyLength with
          | (none, _) => []
          | (some body, rest) =>
            match c.decodeBody packetHeader body with
            | .error _ => c.inflated packetHeader body
            | .ok _ => c.inflated packetHeader body ++ inflations c rest
  else []
termination_by queue.length
decreasing_by exact BufferQueue.length_read_read _hlen (by decide) _hread

theorem decodeBody_of_inflated (hp : payload ∈ c.inflated header body)
    (h : c.maxDecompressedBodyLength < payload.length) :
    c.decodeBody header body =
      .error (overLimit payload.length c.maxDecompressedBodyLength "Decompressed") := by
  unfold inflated at hp
  split_ifs at hp with hguard
  · obtain ⟨hbody, hs, hflag⟩ := hguard
    obtain ⟨serializer, hs⟩ := Option.isSome_iff_exists.mp hs
    have hp' : c.decompress body = .ok payload := by
      cases hd : c.decompress body with
      | error e => simp [hd, Except.toOption] at hp
      | ok p =>
        obtain rfl : payload = p := by simpa [hd, Except.toOption] using hp
        rfl
    refine decodeBody_of_payload hbody hs ?_ h
    rwa [bodyPayload, if_pos hflag]
  · cases hp

theorem inflations_frame {queue rest : BufferQueue} {bytes : Buffer}
    (hlen : HEADER_LENGTH ≤ queue.length) (hpeek : queue.peek HEADER_LENGTH = some bytes)
    (hd : decodePacketHeader bytes = .ok header)
    (hshort : ¬ queue.length < HEADER_LENGTH + header.bodyLength)
    (hread : (queue.read HEADER_LENGTH).2.read header.bodyLength = (some body, rest)) :
    c.inflations queue = c.inflated header body ++
      if (c.decodeBody header body).isOk then c.inflations rest else [] := by
  rw [inflations, if_pos hlen]
  simp only [hpeek, hd]
  rw [dif_neg hshort]
  split
  · next h => exact absurd (hread.symm.trans h) (by simp)
  · next b r h =>
    obtain ⟨hb, rfl⟩ := Prod.mk.inj (hread.symm.trans h)
    obtain rfl := Option.some.inj hb
    cases c.decodeBody header body <;> simp [Except.isOk, Except.toBool]

/-- The loop ends with the error of the first payload that is over the limit. -/
theorem drain_inflations (queue : BufferQueue) (messages : List JsValue)
    (hp : payload ∈ c.inflations queue) (h : c.maxDecompressedBodyLength < payload.length) :
    (c.drain queue messages).1 =
      .error (overLimit payload.length c.maxDecompressedBodyLength "Decompressed") := by
  fun_induction CodecConfig.drain c queue messages with
  | case1 queue messages hlen hpeek =>
    rw [inflations, if_pos hlen, hpeek] at hp
    cases hp
  | case2 queue messages hlen header hpeek e hd =>
    rw [inflations, if_pos hlen, hpeek] at hp
    simp [hd] at hp
  | case3 queue messages hlen header hpeek packetHeader hd hshort =>
    rw [inflations, if_pos hlen, hpeek] at hp
    simp only [hd, dif_pos hshort] at hp
    cases hp
  | case4 queue messages hlen header hpeek packetHeader hd hshort rest hread =>
    rw [BufferQueue.length_eq] at hshort
    have hb := (BufferQueue.read_read (Nat.not_lt.mp hshort)).1
    rw [hread] at hb
    cases hb
  | case5 queue messages hlen header hpeek packetHeader hd hshort body rest hread e hb =>
    rw [inflations_frame hlen hpeek hd hshort hread, hb] at hp
    have hp' : payload ∈ c.inflated packetHeader body := by
      simpa [Except.isOk, Except.toBool] using hp
    obtain rfl := Except.error.inj (hb.symm.trans (decodeBody_of_inflated hp' h))
    rfl
  | case6 queue messages hlen header hpeek packetHeader hd hshort body rest hread message hb ih =>
    rw [inflations_frame hlen hpeek hd hshort hread, hb] at hp
    rcases List.mem_append.mp hp with hp' | hp'
    · rw [decodeBody_of_inflated hp' h] at hb
      cases hb
    · exact ih (by simpa [Except.isOk, Except.toBool] using hp')
  | case7 queue messages hlen =>
    rw [inflations, if_neg hlen] at hp
    cases hp

end CodecConfig

/-- The payloads that a push decompresses. -/
def RpcCodec.inflations (codec : RpcCodec) (chunk : Buffer) : List Buffer :=
  codec.config.inflations (codec.queue.push chunk)

/-- What a decoder holds after a push that returns, what it has decompressed and let through, and
that it rejects a body over the limit whatever the compressor is, and a payload over the limit
whatever the serializer makes of it. -/
structure RpcCodec.Limited (codec : RpcCodec) (chunk : Buffer) (messages : List JsValue) : Prop where
  pending : Pending (codec.push chunk).2.queue.bytes
  buffered : (codec.push chunk).2.queue.length < HEADER_LENGTH + MAX_PACKET_LENGTH
  inflated : ∀ payload ∈ codec.inflations chunk,
    payload.length ≤ codec.config.maxDecompressedBodyLength
  within : ∀ m ∈ messages, ∃ header body payload serializer,
    codec.config.Source (codec.queue.bytes ++ chunk) m header body payload serializer ∧
      codec.config.Within body payload
  body : ∀ header body, codec.config.maxBodyLength < body.length →
    codec.config.decodeBody header body =
      .error (overLimit body.length codec.config.maxBodyLength "Packet")
  payload : ∀ header body payload serializer, body.length ≤ codec.config.maxBodyLength →
    codec.config.serializers.get header.serializer = some serializer →
    codec.config.bodyPayload header.flags body = .ok payload →
    codec.config.maxDecompressedBodyLength < payload.length →
    codec.config.decodeBody header body =
      .error (overLimit payload.length codec.config.maxDecompressedBodyLength "Decompressed")

/-- A push ends with the error of the first payload over the limit that it decompresses. -/
theorem RpcCodec.push_inflations {codec : RpcCodec} {chunk payload : Buffer}
    (hp : payload ∈ codec.inflations chunk)
    (h : codec.config.maxDecompressedBodyLength < payload.length) :
    (codec.push chunk).1 =
      .error (overLimit payload.length codec.config.maxDecompressedBodyLength "Decompressed") :=
  CodecConfig.drain_inflations (codec.queue.push chunk) [] hp h

theorem push_limited (codec : RpcCodec) (chunk : Buffer) :
    (∀ messages, (codec.push chunk).1 = .ok messages → codec.Limited chunk messages) ∧
      ∀ payload ∈ codec.inflations chunk,
        codec.config.maxDecompressedBodyLength < payload.length → (codec.push chunk).1 =
          .error (overLimit payload.length codec.config.maxDecompressedBodyLength "Decompressed") := by
  refine ⟨fun messages h => ?_, fun payload hp hlt => RpcCodec.push_inflations hp hlt⟩
  obtain ⟨he, rfl⟩ := RpcCodec.push_eq_ok_iff.mp h
  have hpending : Pending (codec.push chunk).2.queue.bytes := by
    rw [(RpcCodec.push_eq codec chunk).2]
    exact CodecConfig.pending_of_more (Framer.front_rest he)
  constructor
  · exact hpending
  · rw [BufferQueue.length_eq]
    exact hpending.length_lt
  · intro payload hp
    by_contra hlt
    rw [RpcCodec.push_inflations hp (Nat.lt_of_not_le hlt)] at h
    cases h
  · intro m hm
    exact CodecConfig.source_of_mem hm
  · intro header body hb
    exact CodecConfig.decodeBody_of_body hb
  · intro header body payload serializer hb hs hp hpayload
    exact CodecConfig.decodeBody_of_payload hb hs hp hpayload

/-- A header that announces a body of a hundred bytes, and sixty of these. -/
def sampleOversized : Buffer :=
  packetHeader 100 ⟨.json, .ping, 0⟩ ++ List.replicate 60 0

/-- What `gzip` makes of two hundred zeros. -/
def sampleGzipped : Buffer :=
  [31, 139, 8, 0, 0, 0, 0, 0, 2, 3, 99, 96, 24, 30, 0, 0, 118, 168, 113, 201, 200, 0, 0, 0]

/-- `GzipCompressor`, as far as these two hundred zeros go. -/
def sampleGzip : Compressor where
  name := "gzip"
  compress payload :=
    if payload = List.replicate 200 0 then .ok sampleGzipped
    else .error (.platform "Error" "unexpected end of file")
  decompress payload :=
    if payload = sampleGzipped then .ok (List.replicate 200 0)
    else .error (.platform "Error" "incorrect header check")

def sampleInflating : RpcCodecOptions where
  serializer := .ofTable sampleTable
  serializers := []
  compression := some ⟨sampleGzip, .ofNat 0⟩
  maxBodyLength := some (.ofNat 64)
  maxDecompressedBodyLength := none

def sampleInflatingCodec : RpcCodec where
  config := {
    defaultSerializer := .ofTable sampleTable
    serializers := OrderedMap.empty.set .json (.ofTable sampleTable)
    compression := some ⟨sampleGzip, .ofNat 0⟩
    maxBodyLength := 64
    maxDecompressedBodyLength := 64 }
  queue := .empty

theorem new_sampleInflating : RpcCodec.new sampleInflating = .ok sampleInflatingCodec := by
  have h : normalizeLimit sampleInflating.maxBodyLength MAX_PACKET_LENGTH = .ok 64 :=
    normalizeLimit_ofNat (by decide) _
  rw [RpcCodec.new, h]
  rfl

/-- The 24 bytes that inflate to two hundred, in one packet. -/
def sampleBomb : Buffer := packetHeader 24 ⟨.json, .ping, 1⟩ ++ sampleGzipped

/-- A body over the limit is buffered, and a payload over the limit is produced. -/
theorem oversized_body_buffered :
    (RpcCodec.new (sampleStoring 38) = .ok (sampleStoringCodec 38) ∧
      ((sampleStoringCodec 38).push sampleOversized).1 = .ok [] ∧
      ¬ ((sampleStoringCodec 38).push sampleOversized).2.queue.length <
        HEADER_LENGTH + min (sampleStoringCodec 38).config.maxBodyLength MAX_PACKET_LENGTH) ∧
    RpcCodec.new sampleInflating = .ok sampleInflatingCodec ∧
      sampleBomb.length = 34 ∧
      ∃ payload ∈ sampleInflatingCodec.inflations sampleBomb, payload.length = 200 ∧
        ¬ payload.length ≤ sampleInflatingCodec.config.maxDecompressedBodyLength :=
  ⟨⟨new_sampleStoring (by decide), by decide +kernel⟩, new_sampleInflating, by decide,
    List.replicate 200 0, by decide +kernel⟩

theorem push_limited_sample :
    sampleCodec.Limited (samplePacket samplePing) [samplePing] ∧
      (sampleInflatingCodec.push sampleBomb).1 = .error (overLimit 200 64 "Decompressed") :=
  ⟨(push_limited _ _).1 _ (by decide +kernel),
    (push_limited _ _).2 (List.replicate 200 0) (by decide +kernel) (by decide +kernel)⟩

end WeisleyRpc
