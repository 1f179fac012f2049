import Mathlib.Tactic.SplitIfs
import WeisleyRpc.BufferQueue
import WeisleyRpc.JsValue

/-!
# The packet header

`packet.ts` and `constants.ts`: ten bytes of magic number, version, serializer id,
message type id, flags and big-endian body length in front of the body.
-/

namespace WeisleyRpc

def MAGIC_NUMBER : ℕ := 0xcafe
def PROTOCOL_VERSION : ℕ := 1
def HEADER_LENGTH : ℕ := 10
def MAX_PACKET_LENGTH : ℕ := 16 * 1024 * 1024
def PACKET_FLAG_COMPRESSED : ℕ := 1

inductive SerializerName
  | json
  | protobuf
  deriving DecidableEq, Repr

inductive MessageType
  | request
  | response
  | ping
  | pong
  deriving DecidableEq, Repr

namespace SerializerName

/-- `SERIALIZER_IDS`. -/
def id : SerializerName → ℕ
  | .json => 1
  | .protobuf => 2

def text : SerializerName → String
  | .json => "json"
  | .protobuf => "protobuf"

end SerializerName

namespace MessageType

/-- `MESSAGE_TYPE_IDS`. -/
def id : MessageType → ℕ
  | .request => 1
  | .response => 2
  | .ping => 3
  | .pong => 4

def text : MessageType → String
  | .request => "request"
  | .response => "response"
  | .ping => "ping"
  | .pong => "pong"

/-- The message type that a `type` property names, if it names one. -/
def ofValue (v : JsValue) : Option MessageType :=
  if v = .string "request" then some .request
  else if v = .string "response" then some .response
  else if v = .string "ping" then some .ping
  else if v = .string "pong" then some .pong
  else none

theorem ofValue_eq_some_iff {v : JsValue} {t : MessageType} :
    ofValue v = some t ↔ v = .string t.text := by
  constructor
  · intro h
    unfold ofValue at h
    split_ifs at h with h₁ h₂ h₃ h₄ <;> cases h <;> assumption
  · rintro rfl
    cases t <;> decide

end MessageType

/-- `readUInt8` and the big-endian reads; `decodePacketHeader` has checked the length. -/
def readUInt8 (b : Buffer) (offset : ℕ) : ℕ := (b.getD offset 0).toNat

def readUInt16BE (b : Buffer) (offset : ℕ) : ℕ :=
  readUInt8 b offset * 256 + readUInt8 b (offset + 1)

def readUInt32BE (b : Buffer) (offset : ℕ) : ℕ :=
  readUInt16BE b offset * 65536 + readUInt16BE b (offset + 2)

def writeUInt8 (value : ℕ) : Buffer := [UInt8.ofNat value]

def writeUInt16BE (value : ℕ) : Buffer := [UInt8.ofNat (value / 256), UInt8.ofNat value]

def writeUInt32BE (value : ℕ) : Buffer :=
  writeUInt16BE (value / 65536) ++ writeUInt16BE (value % 65536)

structure PacketHeader where
  magic : ℕ
  version : ℕ
  serializer : SerializerName
  messageType : MessageType
  flags : ℕ
  bodyLength : ℕ
  deriving DecidableEq, Repr

structure EncodePacketOptions where
  serializer : SerializerName
  messageType : MessageType
  flags : UInt8

def packetTooLong (length : ℕ) : JsError :=
  .rangeError s!"Packet length {length} exceeds limit {MAX_PACKET_LENGTH}"

def packetHeader (length : ℕ) (options : EncodePacketOptions) : Buffer :=
  writeUInt16BE MAGIC_NUMBER ++ writeUInt8 PROTOCOL_VERSION ++ writeUInt8 options.serializer.id ++
    writeUInt8 options.messageType.id ++ writeUInt8 options.flags.toNat ++ writeUInt32BE length

/-- The header of a packet whose message type has no id. -/
def untypedHeader (length : ℕ) (serializer : SerializerName) (flags : UInt8) : Buffer :=
  writeUInt16BE MAGIC_NUMBER ++ writeUInt8 PROTOCOL_VERSION ++ writeUInt8 serializer.id ++
    writeUInt8 0 ++ writeUInt8 flags.toNat ++ writeUInt32BE length

/-- The header as it is read back. -/
def decodedHeader (length : ℕ) (options : EncodePacketOptions) : PacketHeader :=
  ⟨MAGIC_NUMBER, PROTOCOL_VERSION, options.serializer, options.messageType, options.flags.toNat,
    length⟩

def encodePacket (payload : Buffer) (options : EncodePacketOptions) : Except JsError Buffer :=
  if payload.length > MAX_PACKET_LENGTH then .error (packetTooLong payload.length)
  else .ok (packetHeader payload.length options ++ payload)

def getSerializerName (id : ℕ) : Except JsError SerializerName :=
  if id = SerializerName.json.id then .ok .json
  else if id = SerializerName.protobuf.id then .ok .protobuf
  else .error (.rangeError s!"Unsupported serializer id: {id}")

def getMessageType (id : ℕ) : Except JsError MessageType :=
  if id = MessageType.request.id then .ok .request
  else if id = MessageType.response.id then .ok .response
  else if id = MessageType.ping.id then .ok .ping
  else if id = MessageType.pong.id then .ok .pong
  else .error (.rangeError s!"Unsupported message type id: {id}")

def decodePacketHeader (header : Buffer) : Except JsError PacketHeader := do
  if header.length < HEADER_LENGTH then
    throw (.rangeError s!"Packet header requires {HEADER_LENGTH} bytes")
  let magic := readUInt16BE header 0
  if magic ≠ MAGIC_NUMBER then
    throw (.rangeError s!"Invalid magic number: {magic}")
  let version := readUInt8 header 2
  if version ≠ PROTOCOL_VERSION then
    throw (.rangeError s!"Unsupported protocol version: {version}")
  let serializer ← getSerializerName (readUInt8 header 3)
  let messageType ← getMessageType (readUInt8 header 4)
  let flags := readUInt8 header 5
  let bodyLength := readUInt32BE header 6
  if bodyLength > MAX_PACKET_LENGTH then
    throw (packetTooLong bodyLength)
  return ⟨magic, version, serializer, messageType, flags, bodyLength⟩

theorem encodePacket_eq_ok_iff {payload packet : Buffer} {options : EncodePacketOptions} :
    encodePacket payload options = .ok packet ↔
      payload.length ≤ MAX_PACKET_LENGTH ∧ packetHeader payload.length options ++ payload = packet := by
  unfold encodePacket
  split_ifs with h
  · simp [Nat.not_le.mpr h]
  · simp [Nat.not_lt.mp h]

theorem getSerializerName_id (s : SerializerName) : getSerializerName s.id = .ok s := by
  cases s <;> rfl

theorem getMessageType_id (t : MessageType) : getMessageType t.id = .ok t := by
  cases t <;> rfl

theorem SerializerName.id_lt (s : SerializerName) : s.id < 256 := by cases s <;> decide

theorem MessageType.id_lt (t : MessageType) : t.id < 256 := by cases t <;> decide

@[simp] theorem length_packetHeader (length : ℕ) (options : EncodePacketOptions) :
    (packetHeader length options).length = HEADER_LENGTH := rfl

@[simp] theorem length_untypedHeader (length : ℕ) (serializer : SerializerName) (flags : UInt8) :
    (untypedHeader length serializer flags).length = HEADER_LENGTH := rfl

theorem readUInt32BE_bytes {n : ℕ} (hn : n < 4294967296) :
    ((UInt8.ofNat (n / 65536 / 256)).toNat * 256 + (UInt8.ofNat (n / 65536)).toNat) * 65536 +
      ((UInt8.ofNat (n % 65536 / 256)).toNat * 256 + (UInt8.ofNat (n % 65536)).toNat) = n := by
  simp only [UInt8.toNat_ofNat']
  omega

/-- The header of an encoded packet is read back field by field. -/
theorem decodePacketHeader_packetHeader {length : ℕ} (hl : length ≤ MAX_PACKET_LENGTH)
    (options : EncodePacketOptions) :
    decodePacketHeader (packetHeader length options) = .ok (decodedHeader length options) := by
  have hs : readUInt8 (packetHeader length options) 3 = options.serializer.id := by
    have := options.serializer.id_lt
    simp [packetHeader, writeUInt16BE, writeUInt8, readUInt8, UInt8.toNat_ofNat',
      Nat.mod_eq_of_lt this]
  have ht : readUInt8 (packetHeader length options) 4 = options.messageType.id := by
    have := options.messageType.id_lt
    simp [packetHeader, writeUInt16BE, writeUInt8, readUInt8, UInt8.toNat_ofNat',
      Nat.mod_eq_of_lt this]
  have hf : readUInt8 (packetHeader length options) 5 = options.flags.toNat := by
    simp [packetHeader, writeUInt16BE, writeUInt8, readUInt8]
  have hb : readUInt32BE (packetHeader length options) 6 = length :=
    readUInt32BE_bytes (Nat.lt_of_le_of_lt hl (by decide))
  have hm : readUInt16BE (packetHeader length options) 0 = MAGIC_NUMBER := by
    simp [packetHeader, writeUInt16BE, readUInt16BE, readUInt8, MAGIC_NUMBER]
  have hv : readUInt8 (packetHeader length options) 2 = PROTOCOL_VERSION := by
    simp [packetHeader, writeUInt16BE, writeUInt8, readUInt8, PROTOCOL_VERSION]
  have hnot : ¬ length > MAX_PACKET_LENGTH := by omega
  simp only [decodePacketHeader, length_packetHeader, hm, hv, hs, ht, hf, hb, getSerializerName_id,
    getMessageType_id, hnot, Nat.lt_irrefl, if_false, ne_eq, not_true_eq_false]
  rfl

/-- No decoder takes a packet without a message type. -/
theorem decodePacketHeader_untypedHeader (length : ℕ) (serializer : SerializerName)
    (flags : UInt8) : decodePacketHeader (untypedHeader length serializer flags) =
      .error (.rangeError s!"Unsupported message type id: {0}") := by
  have hs : readUInt8 (untypedHeader length serializer flags) 3 = serializer.id := by
    have := serializer.id_lt
    simp [untypedHeader, writeUInt16BE, writeUInt8, readUInt8, UInt8.toNat_ofNat',
      Nat.mod_eq_of_lt this]
  have ht : readUInt8 (untypedHeader length serializer flags) 4 = 0 := by
    simp [untypedHeader, writeUInt16BE, writeUInt8, readUInt8]
  have hm : readUInt16BE (untypedHeader length serializer flags) 0 = MAGIC_NUMBER := by
    simp [untypedHeader, writeUInt16BE, readUInt16BE, readUInt8, MAGIC_NUMBER]
  have hv : readUInt8 (untypedHeader length serializer flags) 2 = PROTOCOL_VERSION := by
    simp [untypedHeader, writeUInt16BE, writeUInt8, readUInt8, PROTOCOL_VERSION]
  simp only [decodePacketHeader, length_untypedHeader, hm, hv, hs, ht, getSerializerName_id,
    Nat.lt_irrefl, if_false, ne_eq, not_true_eq_false]
  rfl

/-- Exactly the byte strings that are accepted as a header, and what is read off them. -/
theorem decodePacketHeader_eq_ok_iff {header : Buffer} {h : PacketHeader} :
    decodePacketHeader header = .ok h ↔
      HEADER_LENGTH ≤ header.length ∧ readUInt16BE header 0 = MAGIC_NUMBER ∧
        readUInt8 header 2 = PROTOCOL_VERSION ∧
        getSerializerName (readUInt8 header 3) = .ok h.serializer ∧
        getMessageType (readUInt8 header 4) = .ok h.messageType ∧
        readUInt32BE header 6 ≤ MAX_PACKET_LENGTH ∧
        h.magic = readUInt16BE header 0 ∧ h.version = readUInt8 header 2 ∧
        h.flags = readUInt8 header 5 ∧ h.bodyLength = readUInt32BE header 6 := by
  obtain ⟨magic, version, serializer, messageType, flags, bodyLength⟩ := h
  unfold decodePacketHeader
  simp only [bind, Except.bind, pure, Except.pure, throw, throwThe, MonadExceptOf.throw]
  by_cases h₁ : header.length < HEADER_LENGTH
  · simp [h₁, Nat.not_le.mpr h₁]
  by_cases h₂ : readUInt16BE header 0 = MAGIC_NUMBER
  swap
  · simp [h₁, h₂]
  by_cases h₃ : readUInt8 header 2 = PROTOCOL_VERSION
  swap
  · simp [h₁, h₂, h₃]
  cases hs : getSerializerName (readUInt8 header 3) with
  | error e => simp [h₁, h₂, h₃]
  | ok s =>
    cases ht : getMessageType (readUInt8 header 4) with
    | error e => simp [h₁, h₂, h₃]
    | ok t =>
      by_cases h₄ : readUInt32BE header 6 ≤ MAX_PACKET_LENGTH
      · have h₄' : ¬ readUInt32BE header 6 > MAX_PACKET_LENGTH := by omega
        simp only [h₁, h₂, h₃, h₄', Nat.not_lt.mp h₁, h₄, ne_eq, not_true_eq_false, if_false,
          Except.ok.injEq, PacketHeader.mk.injEq, true_and]
        constructor <;> (rintro ⟨rfl, rfl, rfl, rfl, rfl, rfl⟩; simp)
      · simp [h₁, h₂, h₃, h₄, Nat.not_le.mp h₄]

end WeisleyRpc
