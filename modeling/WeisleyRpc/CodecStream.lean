import Mathlib.Data.List.Forall2
import Mathlib.Data.List.Induction
import WeisleyRpc.Codec
import WeisleyRpc.Framing

/-!
# The codec as a parser of the byte stream

What `push` returns and what it leaves in its queue depend only on the bytes that
were queued: the codec parses the stream of packets, whatever the chunks are.
-/

namespace WeisleyRpc

namespace CodecConfig
variable (c : CodecConfig)

/-- The packet at the front of a byte stream. -/
def front (bytes : Buffer) : Front JsValue JsError :=
  if bytes.length < HEADER_LENGTH then .more
  else
    match decodePacketHeader (bytes.take HEADER_LENGTH) with
    | .error e => .fatal e
    | .ok header =>
      if bytes.length < HEADER_LENGTH + header.bodyLength then .more
      else .frame (HEADER_LENGTH + header.bodyLength)
        (c.decodeBody header ((bytes.drop HEADER_LENGTH).take header.bodyLength))

variable {c}

theorem front_fatal_iff {bytes : Buffer} {e : JsError} :
    c.front bytes = .fatal e ↔
      HEADER_LENGTH ≤ bytes.length ∧ decodePacketHeader (bytes.take HEADER_LENGTH) = .error e := by
  unfold front
  by_cases h : bytes.length < HEADER_LENGTH
  · simp [h, Nat.not_le.mpr h]
  · cases hd : decodePacketHeader (bytes.take HEADER_LENGTH) with
    | error e' => simp [h, Nat.not_lt.mp h]
    | ok header =>
      simp only [h, if_false]
      split_ifs <;> simp

theorem front_frame_iff {bytes : Buffer} {n : ℕ} {r : Except JsError JsValue} :
    c.front bytes = .frame n r ↔
      ∃ header, decodePacketHeader (bytes.take HEADER_LENGTH) = .ok header ∧
        n = HEADER_LENGTH + header.bodyLength ∧ n ≤ bytes.length ∧
        r = c.decodeBody header ((bytes.drop HEADER_LENGTH).take header.bodyLength) := by
  unfold front
  by_cases h : bytes.length < HEADER_LENGTH
  · simp only [h, if_true, reduceCtorEq, false_iff, not_exists, not_and]
    intro header _ hn hle
    omega
  · cases hd : decodePacketHeader (bytes.take HEADER_LENGTH) with
    | error e => simp [h]
    | ok header =>
      simp only [h, if_false, Except.ok.injEq, exists_eq_left']
      split_ifs with hl
      · simp only [false_iff, not_and]
        intro hn hle
        omega
      · simp only [Front.frame.injEq]
        constructor
        · rintro ⟨rfl, rfl⟩
          exact ⟨rfl, Nat.not_lt.mp hl, rfl⟩
        · rintro ⟨rfl, -, rfl⟩
          exact ⟨rfl, rfl⟩

variable (c)

def framer : Framer UInt8 JsValue JsError where
  front := c.front
  front_nil := rfl
  size_pos := by
    intro bytes n r h
    obtain ⟨header, -, rfl, hle, -⟩ := front_frame_iff.mp h
    exact ⟨by simp only [HEADER_LENGTH]; omega, hle⟩
  frame_append := by
    intro bytes n r h ys
    obtain ⟨header, hd, rfl, hle, rfl⟩ := front_frame_iff.mp h
    refine front_frame_iff.mpr ⟨header, ?_, rfl, ?_, ?_⟩
    · rwa [List.take_append_of_le_length (by omega)]
    · simp only [List.length_append]
      omega
    · rw [List.drop_append_of_le_length (by omega), List.take_append_of_le_length]
      simp only [List.length_drop]
      omega
  fatal_append := by
    intro bytes e h ys
    obtain ⟨hle, hd⟩ := front_fatal_iff.mp h
    refine front_fatal_iff.mpr ⟨?_, ?_⟩
    · simp only [List.length_append]
      omega
    · rwa [List.take_append_of_le_length hle]

theorem framer_front (bytes : Buffer) : c.framer.front bytes = c.front bytes := rfl

/-- What a fresh codec makes of a whole byte stream. -/
def decode (bytes : Buffer) : Parsed UInt8 JsValue JsError := c.framer.parse bytes

variable {c}

theorem decode_nil : c.decode [] = ⟨[], none, []⟩ := Framer.parse_more c.framer.front_nil

theorem decode_append {bytes rest : Buffer} {messages : List JsValue}
    (h : c.decode bytes = ⟨messages, none, rest⟩) (chunk : Buffer) :
    c.decode (bytes ++ chunk) = ⟨messages ++ (c.decode (rest ++ chunk)).items,
      (c.decode (rest ++ chunk)).error, (c.decode (rest ++ chunk)).rest⟩ := by
  have h' : c.framer.parse bytes = ⟨messages, none, rest⟩ := h
  have happ := Framer.parse_append (F := c.framer) (congrArg Parsed.error h') chunk
  rw [h'] at happ
  exact happ

/-- The result of an exception-free or exceptional parse, as `push` reports it. -/
def outcome (parsed : Parsed UInt8 JsValue JsError) (messages : List JsValue) :
    Except JsError (List JsValue) :=
  match parsed.error with
  | none => .ok (messages ++ parsed.items)
  | some e => .error e

theorem front_packet {queue : BufferQueue} {header body : Buffer} {packetHeader : PacketHeader}
    {rest : BufferQueue} (hlen : HEADER_LENGTH ≤ queue.length)
    (hpeek : queue.peek HEADER_LENGTH = some header)
    (hd : decodePacketHeader header = .ok packetHeader)
    (hshort : ¬ queue.length < HEADER_LENGTH + packetHeader.bodyLength)
    (hread : (queue.read HEADER_LENGTH).2.read packetHeader.bodyLength = (some body, rest)) :
    c.framer.front queue.bytes =
        .frame (HEADER_LENGTH + packetHeader.bodyLength) (c.decodeBody packetHeader body) ∧
      rest.bytes = queue.bytes.drop (HEADER_LENGTH + packetHeader.bodyLength) := by
  rw [BufferQueue.length_eq] at hlen hshort
  rw [BufferQueue.peek_eq_some hlen] at hpeek
  obtain rfl := Option.some.inj hpeek
  obtain ⟨hb, hr⟩ := BufferQueue.read_read (Nat.not_lt.mp hshort)
  rw [hread] at hb hr
  obtain rfl := Option.some.inj hb
  exact ⟨front_frame_iff.mpr ⟨packetHeader, hd, rfl, Nat.not_lt.mp hshort, rfl⟩, hr⟩

theorem drain_eq (queue : BufferQueue) (messages : List JsValue) :
    (c.drain queue messages).1 = outcome (c.decode queue.bytes) messages ∧
      (c.drain queue messages).2.bytes = (c.decode queue.bytes).rest := by
  fun_induction CodecConfig.drain c queue messages with
  | case1 queue messages hlen hpeek =>
    rw [BufferQueue.peek_eq_some (by simpa using hlen)] at hpeek
    cases hpeek
  | case2 queue messages hlen header hpeek e hd =>
    rw [BufferQueue.length_eq] at hlen
    rw [BufferQueue.peek_eq_some hlen] at hpeek
    obtain rfl := Option.some.inj hpeek
    have hf : c.framer.front queue.bytes = .fatal e := front_fatal_iff.mpr ⟨hlen, hd⟩
    simp [decode, Framer.parse_fatal hf, outcome]
  | case3 queue messages hlen header hpeek packetHeader hd hshort =>
    rw [BufferQueue.length_eq] at hlen hshort
    rw [BufferQueue.peek_eq_some hlen] at hpeek
    obtain rfl := Option.some.inj hpeek
    have hf : c.framer.front queue.bytes = .more := by
      simp [framer, front, Nat.not_lt.mpr hlen, hd, hshort]
    simp [decode, Framer.parse_more hf, outcome]
  | case4 queue messages hlen header hpeek packetHeader hd hshort rest hread =>
    rw [BufferQueue.length_eq] at hshort
    have hb := (BufferQueue.read_read (Nat.not_lt.mp hshort)).1
    rw [hread] at hb
    cases hb
  | case5 queue messages hlen header hpeek packetHeader hd hshort body rest hread e hb =>
    obtain ⟨hf, hr⟩ := front_packet (c := c) hlen hpeek hd hshort hread
    rw [hb] at hf
    simp [decode, Framer.parse_rejected hf, outcome, hr]
  | case6 queue messages hlen header hpeek packetHeader hd hshort body rest hread message hb ih =>
    obtain ⟨hf, hr⟩ := front_packet (c := c) hlen hpeek hd hshort hread
    rw [hb] at hf
    rw [decode, Framer.parse_accepted hf, ← hr]
    refine ⟨?_, ih.2⟩
    rw [ih.1]
    simp only [outcome, decode]
    cases (c.framer.parse rest.bytes).error <;> simp
  | case7 queue messages hlen =>
    rw [BufferQueue.length_eq] at hlen
    have hf : c.framer.front queue.bytes = .more := by
      simp [framer, front, Nat.not_le.mp hlen]
    simp [decode, Framer.parse_more hf, outcome]

theorem isPacket {body : Buffer} (hl : body.length ≤ MAX_PACKET_LENGTH)
    (options : EncodePacketOptions) :
    c.framer.IsPacket (packetHeader body.length options ++ body)
      (c.decodeBody (decodedHeader body.length options) body) := by
  have hd := decodePacketHeader_packetHeader hl options
  constructor
  · intro ys
    rw [framer_front]
    refine front_frame_iff.mpr ⟨decodedHeader body.length options, ?_, ?_, ?_, ?_⟩
    · rw [List.append_assoc, List.take_left' (length_packetHeader _ _)]
      exact hd
    · rw [List.length_append, length_packetHeader]
      rfl
    · exact (List.prefix_append _ ys).length_le
    · rw [List.append_assoc, List.drop_left' (length_packetHeader _ _)]
      simp [decodedHeader]
  · intro q hq hne
    rcases Framer.prefix_append_cases hq with ⟨hpre, hneq⟩ | ⟨zs, rfl, hzs⟩
    · have hlt : q.length < HEADER_LENGTH :=
        Nat.lt_of_le_of_ne hpre.length_le fun he => hneq (hpre.eq_of_length he)
      simp [framer, front, hlt]
    · have hlt : zs.length < body.length :=
        Nat.lt_of_le_of_ne hzs.length_le fun he => hne (by rw [hzs.eq_of_length he])
      simp [framer, front, List.take_left' (length_packetHeader _ _), hd, decodedHeader, hlt]

/-- A packet that is not accepted stops the decoder at its header. -/
theorem blocks_header {header : Buffer} {e : JsError} (hl : header.length = HEADER_LENGTH)
    (hd : decodePacketHeader header = .error e) (payload : Buffer) :
    c.framer.Blocks (header ++ payload) := by
  have hfatal : ∀ ys, c.framer.front (header ++ ys) = .fatal e := by
    intro ys
    rw [framer_front, front_fatal_iff, List.length_append, hl, List.take_left' hl]
    exact ⟨Nat.le_add_right _ _, hd⟩
  constructor
  · intro ys
    rw [List.append_assoc]
    exact ⟨e, hfatal _⟩
  · intro q hq _
    rcases Framer.prefix_append_cases hq with ⟨hpre, hneq⟩ | ⟨zs, rfl, -⟩
    · have hlt : q.length < HEADER_LENGTH :=
        hl ▸ Nat.lt_of_le_of_ne hpre.length_le fun he => hneq (hpre.eq_of_length he)
      have hf : c.framer.front q = .more := by simp [framer, front, hlt]
      rw [Framer.parse_more hf]
    · rw [Framer.parse_fatal (hfatal zs)]

theorem blocks_untyped (payload : Buffer) (length : ℕ) (serializer : SerializerName)
    (flags : UInt8) : c.framer.Blocks (untypedHeader length serializer flags ++ payload) :=
  blocks_header (length_untypedHeader _ _ _) (decodePacketHeader_untypedHeader _ _ _) payload

end CodecConfig

/-- A decoder that can read what the encoder writes: the encoder's serializer is
registered, and its compressor, if any, is configured and inverted by `decompress`. -/
structure CodecConfig.Reads (decoder encoder : CodecConfig) : Prop where
  registered : decoder.serializers.get encoder.defaultSerializer.name =
    some encoder.defaultSerializer
  compressor : ∀ e, encoder.compression = some e →
    ∃ d, decoder.compression = some d ∧ d.compressor = e.compressor
  inflates : ∀ e, encoder.compression = some e → ∀ b z,
    e.compressor.compress b = .ok z → e.compressor.decompress z = .ok b

/-- A message of a known type that the shared serializer hands back as `copy`, in a packet within
the decoder's limits. -/
structure CodecConfig.Carries (decoder encoder : CodecConfig) (message copy : JsValue) : Prop where
  known : ∃ messageType : MessageType, message.get "type" = .ok (.string messageType.text)
  deserialized : ∀ b, encoder.defaultSerializer.serialize message = .ok b →
    encoder.defaultSerializer.deserialize b = .ok copy
  sameType : copy.get "type" = message.get "type"
  body : ∀ packet, encoder.encode message = .ok packet →
    packet.length ≤ HEADER_LENGTH + decoder.maxBodyLength
  decompressed : ∀ b, encoder.defaultSerializer.serialize message = .ok b →
    b.length ≤ decoder.maxDecompressedBodyLength

namespace CodecConfig

theorem bodyPayload_payloadOf {decoder encoder : CodecConfig}
    (hc : ∀ e, encoder.compression = some e →
      ∃ d, decoder.compression = some d ∧ d.compressor = e.compressor)
    (hz : ∀ e, encoder.compression = some e → ∀ b z,
      e.compressor.compress b = .ok z → e.compressor.decompress z = .ok b)
    {serialized payload : Buffer} (h : encoder.payloadOf serialized = .ok payload) :
    decoder.bodyPayload (encoder.flagsOf serialized).toNat payload = .ok serialized := by
  unfold payloadOf at h
  cases hs : encoder.shouldCompress serialized with
  | none =>
    obtain rfl := by simpa [hs] using h
    simp [bodyPayload, flagsOf, hs]
  | some compressor =>
    simp only [hs] at h
    unfold shouldCompress at hs
    cases he : encoder.compression with
    | none => simp [he] at hs
    | some e =>
      simp only [he] at hs
      split_ifs at hs with ht
      obtain rfl := Option.some.inj hs
      obtain ⟨d, hd, hde⟩ := hc e he
      have hinflated := hz e he serialized payload h
      simp [bodyPayload, flagsOf, shouldCompress, he, ht, decompress, hd, hde,
        hinflated,
        PACKET_FLAG_COMPRESSED]

theorem Reads.bodyPayload {decoder encoder : CodecConfig} (hr : decoder.Reads encoder)
    {serialized payload : Buffer} (h : encoder.payloadOf serialized = .ok payload) :
    decoder.bodyPayload (encoder.flagsOf serialized).toNat payload = .ok serialized :=
  bodyPayload_payloadOf hr.compressor hr.inflates h

/-- An encoded message is one packet, and it is decoded to the serializer's copy. -/
theorem isPacket_encode {decoder encoder : CodecConfig} (hr : decoder.Reads encoder)
    {message copy : JsValue} (hc : decoder.Carries encoder message copy) {packet : Buffer}
    (h : encoder.encode message = .ok packet) : decoder.framer.IsPacket packet (.ok copy) := by
  have hbody := hc.body packet h
  obtain ⟨messageType, ht⟩ := hc.known
  obtain ⟨serialized, hs, -, payload, hp, type, ht', hl, rfl⟩ := encode_eq_ok_iff.mp h
  obtain rfl := Except.ok.inj (ht'.symm.trans ht)
  rw [headerOf_text] at hbody ⊢
  have hdecoded : decoder.decodeBody (decodedHeader payload.length
      ⟨encoder.defaultSerializer.name, messageType, encoder.flagsOf serialized⟩) payload =
        .ok copy := by
    refine decodeBody_eq_ok_iff.mpr ⟨?_, _, hr.registered, _, hr.bodyPayload hp,
      hc.decompressed _ hs, hc.deserialized _ hs, hc.sameType.trans ht⟩
    rw [List.length_append, length_packetHeader] at hbody
    omega
  exact hdecoded ▸ isPacket hl _

theorem reads_new {options : RpcCodecOptions} {codec : RpcCodec}
    (h : RpcCodec.new options = .ok codec) (hs : options.serializers = [])
    (hz : ∀ e, options.compression = some e → ∀ b z,
      e.compressor.compress b = .ok z → e.compressor.decompress z = .ok b) :
    codec.config.Reads codec.config := by
  obtain ⟨_, _, rfl⟩ := RpcCodec.new_eq_ok h
  refine ⟨?_, fun e he => ⟨e, he, rfl⟩, hz⟩
  simp [hs, registerSerializer]

/-- What the serializer hands back of a message, with the type of the message. -/
def Copy (c : CodecConfig) (message copy : JsValue) : Prop :=
  copy.get "type" = message.get "type" ∧ ∃ body,
    c.defaultSerializer.serialize message = .ok body ∧
      c.defaultSerializer.deserialize body = .ok copy

theorem piece_copy {decoder encoder : CodecConfig} (hr : decoder.Reads encoder)
    {message : JsValue} {packet : Buffer} (h : encoder.encode message = .ok packet) :
    ∃ content, decoder.framer.Piece packet content ∧
      ∀ copy, content = .ok copy → encoder.Copy message copy := by
  obtain ⟨serialized, hs, -, payload, hp, type, ht, hl, rfl⟩ := encode_eq_ok_iff.mp h
  unfold headerOf
  cases hm : MessageType.ofValue type with
  | none => exact ⟨_, .blocked (e := .typeError "") (blocks_untyped payload _ _ _), by simp⟩
  | some messageType =>
    obtain rfl := MessageType.ofValue_eq_some_iff.mp hm
    refine ⟨_, .packet (isPacket hl _), fun copy hcopy => ?_⟩
    obtain ⟨-, serializer, hser, body, hbody, -, hd, htype⟩ := decodeBody_eq_ok_iff.mp hcopy
    obtain rfl := Option.some.inj (hr.registered.symm.trans hser)
    obtain rfl := Except.ok.inj ((hr.bodyPayload hp).symm.trans hbody)
    exact ⟨htype.trans ht.symm, _, hs, hd⟩

theorem packets_copies {decoder encoder : CodecConfig} (hr : decoder.Reads encoder)
    {messages : List JsValue} {packets : List Buffer}
    (hp : List.Forall₂ (fun m p => encoder.encode m = .ok p) messages packets) :
    ∃ ps : List (Buffer × Except JsError JsValue), ps.map Prod.fst = packets ∧
      (∀ p ∈ ps, decoder.framer.Piece p.1 p.2) ∧
      List.Forall₂ (fun m content => ∀ copy, content = .ok copy → encoder.Copy m copy) messages
        (ps.map Prod.snd) := by
  induction hp with
  | nil => exact ⟨[], rfl, by simp, .nil⟩
  | @cons m p messages packets h _ ih =>
    obtain ⟨content, hpiece, hcopy⟩ := piece_copy hr h
    obtain ⟨ps, rfl, hps, hcopies⟩ := ih
    refine ⟨(p, content) :: ps, rfl, ?_, .cons hcopy hcopies⟩
    rintro q hq
    rcases List.mem_cons.mp hq with rfl | hq
    · exact hpiece
    · exact hps q hq

/-- The messages decoded from a part of a stream of encoded messages are copies of the
first of these. -/
theorem decode_copies {decoder encoder : CodecConfig} (hr : decoder.Reads encoder)
    {messages : List JsValue} {packets : List Buffer} {bytes : Buffer}
    (hp : List.Forall₂ (fun m p => encoder.encode m = .ok p) messages packets)
    (hb : bytes <+: packets.flatten) :
    List.Forall₂ encoder.Copy (messages.take (decoder.decode bytes).items.length)
      (decoder.decode bytes).items := by
  obtain ⟨ps, rfl, hps, hcopies⟩ := packets_copies hr hp
  obtain ⟨rest, hrest⟩ := Framer.parse_prefix hps hb
  rw [← hrest] at hcopies
  have hitems := List.forall₂_take_append _ _ _ hcopies
  rw [List.length_map, List.forall₂_map_right_iff] at hitems
  exact hitems.imp fun m copy h => h copy rfl

/-- Without an error every packet that is complete in the part is decoded. -/
theorem decode_complete {decoder encoder : CodecConfig} (hr : decoder.Reads encoder)
    {messages : List JsValue} {packets : List Buffer} {bytes : Buffer}
    (hp : List.Forall₂ (fun m p => encoder.encode m = .ok p) messages packets)
    (hb : bytes <+: packets.flatten) (he : (decoder.decode bytes).error = none) {j : ℕ}
    (hj : j ≤ packets.length) (hl : (packets.take j).flatten.length ≤ bytes.length) :
    j ≤ (decoder.decode bytes).items.length := by
  obtain ⟨ps, rfl, hps, -⟩ := packets_copies hr hp
  rw [← List.map_take] at hl
  rw [List.length_map] at hj
  exact Framer.parse_prefix_complete hps hb he hj hl

end CodecConfig

namespace RpcCodec

theorem push_eq (codec : RpcCodec) (chunk : Buffer) :
    (codec.push chunk).1 = CodecConfig.outcome (codec.config.decode (codec.queue.bytes ++ chunk)) [] ∧
      (codec.push chunk).2.queue.bytes =
        (codec.config.decode (codec.queue.bytes ++ chunk)).rest := by
  have h := CodecConfig.drain_eq (c := codec.config) (codec.queue.push chunk) []
  rwa [BufferQueue.bytes_push] at h

theorem push_eq_ok_iff {codec : RpcCodec} {chunk : Buffer} {messages : List JsValue} :
    (codec.push chunk).1 = .ok messages ↔
      (codec.config.decode (codec.queue.bytes ++ chunk)).error = none ∧
        (codec.config.decode (codec.queue.bytes ++ chunk)).items = messages := by
  rw [(push_eq codec chunk).1, CodecConfig.outcome]
  cases (codec.config.decode (codec.queue.bytes ++ chunk)).error <;> simp

/-- The codec after these chunks, some of which it may have thrown at. -/
def pushes (codec : RpcCodec) (chunks : List Buffer) : RpcCodec :=
  chunks.foldl (fun k chunk => (k.push chunk).2) codec

theorem pushes_append (codec : RpcCodec) (chunks chunks' : List Buffer) :
    codec.pushes (chunks ++ chunks') = (codec.pushes chunks).pushes chunks' := List.foldl_append

theorem pushes_snoc (codec : RpcCodec) (chunks : List Buffer) (chunk : Buffer) :
    codec.pushes (chunks ++ [chunk]) = ((codec.pushes chunks).push chunk).2 :=
  pushes_append codec chunks [chunk]

theorem pushes_config (codec : RpcCodec) (chunks : List Buffer) :
    (codec.pushes chunks).config = codec.config := by
  induction chunks using List.reverseRecOn with
  | nil => rfl
  | append_singleton chunks chunk ih => rw [pushes_snoc, push_config, ih]

theorem pushAll_cons_ok {codec last : RpcCodec} {chunk : Buffer} {chunks : List Buffer}
    {returned : List (List JsValue)} :
    pushAll codec (chunk :: chunks) = .ok (returned, last) ↔
      ∃ messages rest, (codec.push chunk).1 = .ok messages ∧
        pushAll (codec.push chunk).2 chunks = .ok (rest, last) ∧ returned = messages :: rest := by
  obtain ⟨result, codec', hp⟩ : ∃ r k, codec.push chunk = (r, k) := ⟨_, _, rfl⟩
  rw [pushAll, hp]
  cases result with
  | error e => simp
  | ok messages =>
    cases ha : pushAll codec' chunks with
    | error e => simp [ha]
    | ok r =>
      obtain ⟨rest, last'⟩ := r
      simp only [ha, Except.ok.injEq, Prod.mk.injEq, exists_eq_left', exists_and_left]
      constructor
      · rintro ⟨rfl, rfl⟩
        exact ⟨rest, ⟨rfl, rfl⟩, rfl⟩
      · rintro ⟨_, ⟨rfl, rfl⟩, rfl⟩
        exact ⟨rfl, rfl⟩

theorem pushAll_config {codec last : RpcCodec} {chunks : List Buffer}
    {returned : List (List JsValue)} (h : pushAll codec chunks = .ok (returned, last)) :
    last.config = codec.config := by
  induction chunks generalizing codec returned with
  | nil =>
    obtain ⟨-, rfl⟩ := Prod.mk.inj (Except.ok.inj h)
    rfl
  | cons chunk chunks ih =>
    obtain ⟨messages, rest, -, hr, -⟩ := pushAll_cons_ok.mp h
    exact (ih hr).trans (push_config codec chunk)

theorem feed_pushAll {codec : RpcCodec} {chunks : List Buffer} {returned : List (List JsValue)}
    {rest : Buffer} :
    codec.config.framer.feed codec.queue.bytes chunks = .ok (returned, rest) ↔
      ∃ last, pushAll codec chunks = .ok (returned, last) ∧ last.config = codec.config ∧
        last.queue.bytes = rest := by
  induction chunks generalizing codec returned with
  | nil =>
    simp only [Framer.feed, pushAll, Except.ok.injEq, Prod.mk.injEq]
    constructor
    · rintro ⟨rfl, rfl⟩
      exact ⟨codec, ⟨rfl, rfl⟩, rfl, rfl⟩
    · rintro ⟨_, ⟨rfl, rfl⟩, -, rfl⟩
      exact ⟨rfl, rfl⟩
  | cons chunk chunks ih =>
    obtain ⟨-, hq⟩ := push_eq codec chunk
    have ih' := @ih (codec.push chunk).2
    rw [hq] at ih'
    rw [Framer.feed_cons_ok]
    constructor
    · rintro ⟨he, returned', hf, rfl⟩
      obtain ⟨last, hl, hcfg, hb⟩ := ih'.mp hf
      exact ⟨last, pushAll_cons_ok.mpr ⟨_, _, push_eq_ok_iff.mpr ⟨he, rfl⟩, hl, rfl⟩, hcfg, hb⟩
    · rintro ⟨last, hl, hcfg, hb⟩
      obtain ⟨messages, returned', hp, hr, rfl⟩ := pushAll_cons_ok.mp hl
      obtain ⟨he, rfl⟩ := push_eq_ok_iff.mp hp
      exact ⟨he, returned', ih'.mpr ⟨last, hr, hcfg, hb⟩, rfl⟩

/-- A fresh codec returns in all what the concatenation of the chunks decodes to. -/
theorem messagesOf_eq_some_iff {codec : RpcCodec} (hq : codec.queue.bytes = [])
    {chunks : List Buffer} {messages : List JsValue} :
    codec.messagesOf chunks = some messages ↔
      (codec.config.decode chunks.flatten).error = none ∧
        (codec.config.decode chunks.flatten).items = messages := by
  have key : (∃ returned last, codec.pushAll chunks = .ok (returned, last) ∧
      returned.flatten = messages) ↔ codec.messagesOf chunks = some messages := by
    unfold messagesOf
    cases codec.pushAll chunks with
    | error e => simp
    | ok r =>
      obtain ⟨returned, last⟩ := r
      simp
  rw [← key]
  constructor
  · rintro ⟨returned, last, hp, hm⟩
    have hcfg : last.config = codec.config := pushAll_config hp
    have hf := feed_pushAll.mpr ⟨last, hp, hcfg, rfl⟩
    rw [hq] at hf
    have hparse := (Framer.feed_ok_iff codec.config.framer.front_nil).mp ⟨_, hf, hm⟩
    rw [List.nil_append] at hparse
    simp [CodecConfig.decode, hparse]
  · rintro ⟨he, hi⟩
    have hparse : codec.config.framer.parse ([] ++ chunks.flatten) =
        ⟨messages, none, (codec.config.decode chunks.flatten).rest⟩ := by
      rw [List.nil_append, ← hi, ← he]
      rfl
    obtain ⟨returned, hf, hm⟩ := (Framer.feed_ok_iff codec.config.framer.front_nil).mpr hparse
    rw [← hq] at hf
    obtain ⟨last, hp, -, -⟩ := feed_pushAll.mp hf
    exact ⟨returned, last, hp, hm⟩

end RpcCodec

section RoundTrip
variable {encoder decoder : RpcCodec} {options : RpcCodecOptions} {messages : List JsValue}
  {packets chunks : List Buffer}

/-- Whatever the chunks are, a fresh decoder returns the encoded messages in order,
each one from the push that completes its packet. -/
theorem pushAll_encoded (hnew : RpcCodec.new options = .ok decoder)
    (hr : decoder.config.Reads encoder.config)
    (hc : ∀ m ∈ messages, decoder.config.Carries encoder.config m m)
    (hp : List.Forall₂ (fun m p => encoder.encode m = .ok p) messages packets)
    (hchunks : chunks.flatten = packets.flatten) :
    ∃ returned last, decoder.pushAll chunks = .ok (returned, last) ∧
      returned.flatten = messages ∧ last.queue.length = 0 ∧
      ∀ k j, j ≤ messages.length →
        (j ≤ (returned.take k).flatten.length ↔
          (packets.take j).flatten.length ≤ (chunks.take k).flatten.length) := by
  have hempty : decoder.queue.bytes = [] := by rw [RpcCodec.queue_new hnew]; rfl
  have hlen := hp.length_eq
  have hfst : (packets.zip messages).map Prod.fst = packets :=
    List.map_fst_zip (Nat.le_of_eq hlen.symm)
  have hsnd : (packets.zip messages).map Prod.snd = messages :=
    List.map_snd_zip (Nat.le_of_eq hlen)
  have hpackets : ∀ p ∈ packets.zip messages,
      decoder.config.framer.IsPacket p.1 (.ok p.2) := by
    rintro ⟨p, m⟩ hm
    exact CodecConfig.isPacket_encode hr (hc m (List.of_mem_zip hm).2)
      ((List.forall₂_iff_zip.mp hp.flip).2 hm)
  have hparse := Framer.parse_packets hpackets
  rw [hfst, hsnd, ← hchunks] at hparse
  obtain ⟨returned, hf, hitems⟩ :=
    (Framer.feed_ok_iff decoder.config.framer.front_nil).mpr hparse
  obtain ⟨last, hl, -, hb⟩ := RpcCodec.feed_pushAll.mp (hempty ▸ hf)
  refine ⟨returned, last, hl, hitems, by simp [hb, hempty], fun k j hj => ?_⟩
  obtain ⟨rest, hk⟩ := Framer.feed_take hf k
  have hpk := (Framer.feed_ok_iff decoder.config.framer.front_nil).mp ⟨_, hk, rfl⟩
  have hprefix : (chunks.take k).flatten <+: ((packets.zip messages).map Prod.fst).flatten := by
    rw [hfst, ← hchunks]
    exact ⟨(chunks.drop k).flatten, by rw [← List.flatten_append, List.take_append_drop]⟩
  have hj' := (Framer.parse_prefix_accepted hpackets hprefix).2 j (by simp [← hlen, hj])
  rw [List.nil_append] at hpk
  rwa [hpk, List.map_take, hfst] at hj'

/-- The packets of a ping and of a request. The third chunk ends inside the header of the second
packet, the fourth inside its body. -/
def sampleChunks : List Buffer :=
  [(samplePacket samplePing).take 4, [],
    (samplePacket samplePing).drop 4 ++ (samplePacket sampleRequest).take 6,
    ((samplePacket sampleRequest).drop 6).take 20, (samplePacket sampleRequest).drop 26]

theorem reads_sample : sampleCodec.config.Reads sampleCodec.config where
  registered := rfl
  compressor := by intro e h; cases h
  inflates := by intro e h; cases h

theorem encode_sample {m : JsValue} (h : m = samplePing ∨ m = sampleRequest) :
    sampleCodec.encode m = .ok (samplePacket m) := by
  rcases h with rfl | rfl <;> decide +kernel

theorem carries_sample {m : JsValue} (h : m = samplePing ∨ m = sampleRequest) :
    sampleCodec.config.Carries sampleCodec.config m m := by
  have hs : ∃ body, sampleCodec.config.defaultSerializer.serialize m = .ok body ∧
      sampleCodec.config.defaultSerializer.deserialize body = .ok m ∧
      body.length ≤ sampleCodec.config.maxDecompressedBodyLength := by
    rcases h with rfl | rfl
    · refine ⟨"\x7b\"type\":\"ping\",\"id\":\"1\",\"timestamp\":5\x7d".toUTF8.data.toList, ?_⟩
      decide +kernel
    · refine ⟨("\x7b\"type\":\"request\",\"id\":\"1\",\"service\":\"s\",\"method\":\"m\"," ++
        "\"params\":[]\x7d").toUTF8.data.toList, ?_⟩
      decide +kernel
  obtain ⟨body, hs, hd, hlen⟩ := hs
  constructor
  · rcases h with rfl | rfl
    · exact ⟨.ping, rfl⟩
    · exact ⟨.request, rfl⟩
  · intro b hb
    obtain rfl := Except.ok.inj (hs.symm.trans hb)
    exact hd
  · rfl
  · intro packet hp
    obtain rfl := Except.ok.inj ((encode_sample h).symm.trans hp)
    rcases h with rfl | rfl <;> decide +kernel
  · intro b hb
    obtain rfl := Except.ok.inj (hs.symm.trans hb)
    exact hlen

theorem pushAll_encoded_sample :
    ∃ returned last, sampleCodec.pushAll sampleChunks = .ok (returned, last) ∧
      returned.flatten = [samplePing, sampleRequest] ∧ last.queue.length = 0 ∧
      ∀ k j, j ≤ 2 → (j ≤ (returned.take k).flatten.length ↔
        (([samplePacket samplePing, samplePacket sampleRequest].take j).flatten.length ≤
          (sampleChunks.take k).flatten.length)) :=
  @pushAll_encoded _ _ (.ofSerializer (.ofTable sampleTable)) _ _ _ rfl reads_sample
    (by simpa using ⟨carries_sample (.inl rfl), carries_sample (.inr rfl)⟩)
    (.cons (encode_sample (.inl rfl)) (.cons (encode_sample (.inr rfl)) .nil)) (by decide +kernel)

end RoundTrip

end WeisleyRpc
