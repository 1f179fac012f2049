import WeisleyRpc.OrderedMap
import WeisleyRpc.Packet

/-!
# The codec

`codec.ts`: messages are serialized, compressed from a threshold on and framed;
received chunks are queued and every complete packet at the front of the queue is
decoded. The types of TypeScript are erased, so a message is whatever value the
serializer hands back.
-/

namespace WeisleyRpc

structure Serializer where
  name : SerializerName
  serialize : JsValue → Except JsError Buffer
  deserialize : Buffer → Except JsError JsValue

/-- A JSON serializer as far as a finite table of messages and their texts goes. -/
def Serializer.ofTable (table : List (JsValue × String)) : Serializer where
  name := .json
  serialize message :=
    match table.find? (fun e => e.1 = message) with
    | some e => .ok e.2.toUTF8.data.toList
    | none => .error (.typeError "Converting circular structure to JSON")
  deserialize body :=
    match table.find? (fun e => e.2.toUTF8.data.toList = body) with
    | some e => .ok e.1
    | none => .error (.platform "SyntaxError" "Unexpected token in JSON")

structure Compressor where
  name : String
  compress : Buffer → Except JsError Buffer
  decompress : Buffer → Except JsError Buffer

structure RpcCodecCompressionOptions where
  compressor : Compressor
  thresholdBytes : JsNumber

/-- `serializer` is the default serializer after `?? new JsonSerializer()`. -/
structure RpcCodecOptions where
  serializer : Serializer
  serializers : List Serializer
  compression : Option RpcCodecCompressionOptions
  maxBodyLength : Option JsNumber
  maxDecompressedBodyLength : Option JsNumber

/-- The fields of an `RpcCodec` that its constructor fixes. -/
structure CodecConfig where
  defaultSerializer : Serializer
  serializers : OrderedMap SerializerName Serializer
  compression : Option RpcCodecCompressionOptions
  maxBodyLength : ℕ
  maxDecompressedBodyLength : ℕ

structure RpcCodec where
  config : CodecConfig
  queue : BufferQueue

/-- The options `{serializer: s}`. -/
def RpcCodecOptions.ofSerializer (serializer : Serializer) : RpcCodecOptions :=
  ⟨serializer, [], none, none, none⟩

/-- What the constructor makes of these options. -/
def RpcCodec.ofSerializer (serializer : Serializer) : RpcCodec where
  config := {
    defaultSerializer := serializer
    serializers := (OrderedMap.empty).set serializer.name serializer
    compression := none
    maxBodyLength := MAX_PACKET_LENGTH
    maxDecompressedBodyLength := MAX_PACKET_LENGTH }
  queue := .empty

def normalizeLimit (value : Option JsNumber) (fallback : ℕ) : Except JsError ℕ :=
  match value with
  | none => .ok fallback
  | some (.finite q) =>
    if q ≤ 0 then .error (.rangeError "Body length limit must be greater than 0")
    else .ok q.floor.toNat
  | some _ => .error (.rangeError "Body length limit must be greater than 0")

def registerSerializer (serializers : OrderedMap SerializerName Serializer)
    (serializer : Serializer) : OrderedMap SerializerName Serializer :=
  serializers.set serializer.name serializer

def RpcCodec.new (options : RpcCodecOptions) : Except JsError RpcCodec := do
  let maxBodyLength ← normalizeLimit options.maxBodyLength MAX_PACKET_LENGTH
  let maxDecompressedBodyLength ←
    normalizeLimit options.maxDecompressedBodyLength maxBodyLength
  return {
    config := {
      defaultSerializer := options.serializer
      serializers :=
        (options.serializer :: options.serializers).foldl registerSerializer OrderedMap.empty
      compression := options.compression
      maxBodyLength := maxBodyLength
      maxDecompressedBodyLength := maxDecompressedBodyLength }
    queue := .empty }

def assertBodyLength (length limit : ℕ) (label : String) : Except JsError Unit :=
  if length > limit then
    .error (.rangeError s!"{label} body length {length} exceeds limit {limit}")
  else .ok ()

namespace CodecConfig

def shouldCompress (c : CodecConfig) (serialized : Buffer) : Option Compressor :=
  match c.compression with
  | none => none
  | some compression =>
    if compression.thresholdBytes.leNat serialized.length then some compression.compressor else none

/-- `encodePacket` for a `type` outside `MESSAGE_TYPE_IDS`: `writeUInt8` writes the `undefined`
found there as zero. -/
def encodeUntyped (payload : Buffer) (serializer : SerializerName) (flags : UInt8) :
    Except JsError Buffer :=
  if payload.length > MAX_PACKET_LENGTH then .error (packetTooLong payload.length)
  else .ok (untypedHeader payload.length serializer flags ++ payload)

def payloadOf (c : CodecConfig) (serialized : Buffer) : Except JsError Buffer :=
  match c.shouldCompress serialized with
  | some compressor => compressor.compress serialized
  | none => .ok serialized

def flagsOf (c : CodecConfig) (serialized : Buffer) : UInt8 :=
  if (c.shouldCompress serialized).isSome then PACKET_FLAG_COMPRESSED.toUInt8 else 0

def encode (c : CodecConfig) (message : JsValue) : Except JsError Buffer := do
  let serialized ← c.defaultSerializer.serialize message
  assertBodyLength serialized.length c.maxBodyLength "Serialized"
  let payload ← c.payloadOf serialized
  let type ← message.get "type"
  match MessageType.ofValue type with
  | none => encodeUntyped payload c.defaultSerializer.name (c.flagsOf serialized)
  | some messageType =>
    encodePacket payload {
      serializer := c.defaultSerializer.name
      messageType := messageType
      flags := c.flagsOf serialized }

def decompress (c : CodecConfig) (payload : Buffer) : Except JsError Buffer :=
  match c.compression with
  | none => .error (.rangeError "Compressed packet received but no compressor is configured")
  | some compression => compression.compressor.decompress payload

def serializerFor (c : CodecConfig) (name : SerializerName) : Except JsError Serializer :=
  match c.serializers.get name with
  | some serializer => .ok serializer
  | none => .error (.rangeError s!"Serializer is not registered: {name.text}")

def bodyPayload (c : CodecConfig) (flags : ℕ) (body : Buffer) : Except JsError Buffer :=
  if flags &&& PACKET_FLAG_COMPRESSED ≠ 0 then c.decompress body else .ok body

def assertMessageType (type : JsValue) (messageType : MessageType) : Except JsError Unit :=
  if type = .string messageType.text then .ok ()
  else do
    let text ← type.toText
    throw (.rangeError s!"Packet message type mismatch: header={messageType.text}, body={text}")

/-- The rest of the loop body of `push`, once a packet's body has been read. -/
def decodeBody (c : CodecConfig) (packetHeader : PacketHeader) (body : Buffer) :
    Except JsError JsValue := do
  assertBodyLength body.length c.maxBodyLength "Packet"
  let serializer ← c.serializerFor packetHeader.serializer
  let payload ← c.bodyPayload packetHeader.flags body
  assertBodyLength payload.length c.maxDecompressedBodyLength "Decompressed"
  let message ← serializer.deserialize payload
  let type ← message.get "type"
  assertMessageType type packetHeader.messageType
  return message

/-- The loop of `push`. The queue is a field of the codec, so what was consumed stays
consumed when an exception leaves the loop. -/
def drain (c : CodecConfig) (queue : BufferQueue) (messages : List JsValue) :
    Except JsError (List JsValue) × BufferQueue :=
  if HEADER_LENGTH ≤ queue.length then
    match queue.peek HEADER_LENGTH with
    | none => (.ok messages, queue)
    | some header =>
      match decodePacketHeader header with
      | .error e => (.error e, queue)
      | .ok packetHeader =>
        if _hlen : queue.length < HEADER_LENGTH + packetHeader.bodyLength then (.ok messages, queue)
        else
          match _hread : (queue.read HEADER_LENGTH).2.read packetHeader.bodyLength with
          | (none, rest) => (.ok messages, rest)
          | (some body, rest) =>
            match c.decodeBody packetHeader body with
            | .error e => (.error e, rest)
            | .ok message => drain c rest (messages ++ [message])
  else (.ok messages, queue)
termination_by queue.length
decreasing_by exact BufferQueue.length_read_read _hlen (by decide) _hread

end CodecConfig

namespace RpcCodec

def encode (codec : RpcCodec) (message : JsValue) : Except JsError Buffer :=
  codec.config.encode message

def push (codec : RpcCodec) (chunk : Buffer) : Except JsError (List JsValue) × RpcCodec :=
  let drained := codec.config.drain (codec.queue.push chunk) []
  (drained.1, { codec with queue := drained.2 })

/-- Chunks handed to `push` one by one, with what each call returned. -/
def pushAll : RpcCodec → List Buffer → Except JsError (List (List JsValue) × RpcCodec)
  | codec, [] => .ok ([], codec)
  | codec, chunk :: chunks =>
    match codec.push chunk with
    | (.error e, _) => .error e
    | (.ok messages, codec') =>
      match pushAll codec' chunks with
      | .error e => .error e
      | .ok (returned, last) => .ok (messages :: returned, last)

/-- What those calls return in all, if none of them throws. -/
def messagesOf (codec : RpcCodec) (chunks : List Buffer) : Option (List JsValue) :=
  match codec.pushAll chunks with
  | .ok (returned, _) => some returned.flatten
  | .error _ => none

theorem push_config (codec : RpcCodec) (chunk : Buffer) :
    (codec.push chunk).2.config = codec.config := rfl

theorem new_eq_ok {options : RpcCodecOptions} {codec : RpcCodec} (h : new options = .ok codec) :
    ∃ maxBodyLength maxDecompressedBodyLength, codec = ⟨⟨options.serializer,
      (options.serializer :: options.serializers).foldl registerSerializer .empty,
      options.compression, maxBodyLength, maxDecompressedBodyLength⟩, .empty⟩ := by
  simp only [new, Except.bind_eq_ok_iff] at h
  obtain ⟨maxBodyLength, -, maxDecompressedBodyLength, -, h⟩ := h
  exact ⟨_, _, (Except.ok.inj h).symm⟩

theorem queue_new {options : RpcCodecOptions} {codec : RpcCodec} (h : new options = .ok codec) :
    codec.queue = .empty := by
  obtain ⟨_, _, rfl⟩ := new_eq_ok h
  rfl

end RpcCodec

theorem assertBodyLength_eq_ok_iff {length limit : ℕ} {label : String} {u : Unit} :
    assertBodyLength length limit label = .ok u ↔ length ≤ limit := by
  unfold assertBodyLength
  split_ifs with h
  · simp [Nat.not_le.mpr h]
  · simp [Nat.not_lt.mp h]

namespace CodecConfig

theorem serializerFor_eq_ok_iff {c : CodecConfig} {name : SerializerName} {s : Serializer} :
    c.serializerFor name = .ok s ↔ c.serializers.get name = some s := by
  unfold serializerFor
  cases c.serializers.get name <;> simp

theorem assertMessageType_eq_ok_iff {type : JsValue} {messageType : MessageType} {u : Unit} :
    assertMessageType type messageType = .ok u ↔ type = .string messageType.text := by
  unfold assertMessageType
  split_ifs with h
  · simp [h]
  · simp [Except.bind_eq_ok_iff, h, throw, throwThe, MonadExceptOf.throw]

theorem encodeUntyped_eq_ok_iff {payload packet : Buffer} {serializer : SerializerName}
    {flags : UInt8} : encodeUntyped payload serializer flags = .ok packet ↔
      payload.length ≤ MAX_PACKET_LENGTH ∧
        untypedHeader payload.length serializer flags ++ payload = packet := by
  unfold encodeUntyped
  split_ifs with h
  · simp [Nat.not_le.mpr h]
  · simp [Nat.not_lt.mp h]

/-- The header that `encode` puts in front of a payload. -/
def headerOf (c : CodecConfig) (type : JsValue) (serialized payload : Buffer) : Buffer :=
  match MessageType.ofValue type with
  | none => untypedHeader payload.length c.defaultSerializer.name (c.flagsOf serialized)
  | some messageType =>
    packetHeader payload.length ⟨c.defaultSerializer.name, messageType, c.flagsOf serialized⟩

@[simp] theorem headerOf_text (c : CodecConfig) (messageType : MessageType)
    (serialized payload : Buffer) :
    c.headerOf (.string messageType.text) serialized payload =
      packetHeader payload.length ⟨c.defaultSerializer.name, messageType, c.flagsOf serialized⟩ := by
  rw [headerOf, MessageType.ofValue_eq_some_iff.mpr rfl]

@[simp] theorem length_headerOf (c : CodecConfig) (type : JsValue) (serialized payload : Buffer) :
    (c.headerOf type serialized payload).length = HEADER_LENGTH := by
  unfold headerOf
  cases MessageType.ofValue type <;> simp

/-- What `encode` has done when it returns a packet. -/
theorem encode_eq_ok_iff {c : CodecConfig} {message : JsValue} {packet : Buffer} :
    c.encode message = .ok packet ↔
      ∃ serialized, c.defaultSerializer.serialize message = .ok serialized ∧
        serialized.length ≤ c.maxBodyLength ∧
      ∃ payload, c.payloadOf serialized = .ok payload ∧
      ∃ type, message.get "type" = .ok type ∧ payload.length ≤ MAX_PACKET_LENGTH ∧
        c.headerOf type serialized payload ++ payload = packet := by
  simp only [encode, Except.bind_eq_ok_iff, assertBodyLength_eq_ok_iff, exists_const]
  refine exists_congr fun serialized => and_congr_right fun _ => and_congr_right fun _ =>
    exists_congr fun payload => and_congr_right fun _ => exists_congr fun type =>
    and_congr_right fun _ => ?_
  unfold headerOf
  cases MessageType.ofValue type with
  | none => exact encodeUntyped_eq_ok_iff
  | some messageType => exact encodePacket_eq_ok_iff

/-- When the body of a packet is accepted as a message. -/
theorem decodeBody_eq_ok_iff {c : CodecConfig} {header : PacketHeader} {body : Buffer}
    {message : JsValue} :
    c.decodeBody header body = .ok message ↔
      body.length ≤ c.maxBodyLength ∧
      ∃ serializer, c.serializers.get header.serializer = some serializer ∧
      ∃ payload, c.bodyPayload header.flags body = .ok payload ∧
        payload.length ≤ c.maxDecompressedBodyLength ∧
        serializer.deserialize payload = .ok message ∧
        message.get "type" = .ok (.string header.messageType.text) := by
  simp only [decodeBody, Except.bind_eq_ok_iff, assertBodyLength_eq_ok_iff, exists_const,
    serializerFor_eq_ok_iff, assertMessageType_eq_ok_iff, pure, Except.pure, Except.ok.injEq]
  refine and_congr_right fun _ => exists_congr fun serializer => and_congr_right fun _ =>
    exists_congr fun payload => and_congr_right fun _ => and_congr_right fun _ => ?_
  constructor
  · rintro ⟨value, hv, type, ht, rfl, rfl⟩
    exact ⟨hv, ht⟩
  · rintro ⟨hv, ht⟩
    exact ⟨message, hv, _, ht, rfl, rfl⟩

end CodecConfig

/-- A few messages and the texts that JSON gives them; it drops a property that is
`undefined`. -/
def sampleTable : List (JsValue × String) :=
  [(.object [("type", .string "ping"), ("id", .string "1"), ("timestamp", .number (.ofNat 5))],
      "\x7b\"type\":\"ping\",\"id\":\"1\",\"timestamp\":5\x7d"),
    (.object [("type", .string "pong"), ("id", .string "1"), ("timestamp", .number (.ofNat 5))],
      "\x7b\"type\":\"pong\",\"id\":\"1\",\"timestamp\":5\x7d"),
    (.object [("type", .string "request"), ("id", .string "1"), ("service", .string "s"),
        ("method", .string "m"), ("params", .array [])],
      "\x7b\"type\":\"request\",\"id\":\"1\",\"service\":\"s\",\"method\":\"m\",\"params\":[]\x7d"),
    (.object [("type", .string "response"), ("id", .string "1"), ("ok", .boolean true),
        ("result", .number (.ofNat 7))],
      "\x7b\"type\":\"response\",\"id\":\"1\",\"ok\":true,\"result\":7\x7d"),
    (.object [("type", .string "response"), ("id", .string "1"), ("ok", .boolean true),
        ("result", .number (.ofNat 7)), ("metadata", .undefined)],
      "\x7b\"type\":\"response\",\"id\":\"1\",\"ok\":true,\"result\":7\x7d"),
    (.object [("type", .string "request"), ("id", .string "2"), ("service", .string "s"),
        ("method", .string "m"), ("params", .array [])],
      "\x7b\"type\":\"request\",\"id\":\"2\",\"service\":\"s\",\"method\":\"m\",\"params\":[]\x7d"),
    (.object [("type", .string "response"), ("id", .string "2"), ("ok", .boolean true),
        ("result", .number (.ofNat 8))],
      "\x7b\"type\":\"response\",\"id\":\"2\",\"ok\":true,\"result\":8\x7d"),
    (.object [("type", .string "response"), ("id", .string "2"), ("ok", .boolean true),
        ("result", .number (.ofNat 8)), ("metadata", .undefined)],
      "\x7b\"type\":\"response\",\"id\":\"2\",\"ok\":true,\"result\":8\x7d"),
    (.object [("type", .string "response"), ("id", .string "1"), ("ok", .boolean false),
        ("error", .object [("code", .string "SERVER_DRAINING"),
          ("message", .string "RPC server is draining")])],
      "\x7b\"type\":\"response\",\"id\":\"1\",\"ok\":false,\"error\":" ++
        "\x7b\"code\":\"SERVER_DRAINING\",\"message\":\"RPC server is draining\"\x7d\x7d")]

def samplePing : JsValue :=
  .object [("type", .string "ping"), ("id", .string "1"), ("timestamp", .number (.ofNat 5))]

def samplePong : JsValue :=
  .object [("type", .string "pong"), ("id", .string "1"), ("timestamp", .number (.ofNat 5))]

def sampleRequest : JsValue :=
  .object [("type", .string "request"), ("id", .string "1"), ("service", .string "s"),
    ("method", .string "m"), ("params", .array [])]

def sampleResponse : JsValue :=
  .object [("type", .string "response"), ("id", .string "1"), ("ok", .boolean true),
    ("result", .number (.ofNat 7))]

/-- The codec of those messages. -/
def sampleCodec : RpcCodec := .ofSerializer (.ofTable sampleTable)

def samplePacket (message : JsValue) : Buffer := (sampleCodec.encode message).toOption.getD []

end WeisleyRpc
