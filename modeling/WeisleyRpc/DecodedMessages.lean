import WeisleyRpc.CodecLimits
import WeisleyRpc.ProtobufRoundTrip

/-!
# What leaves the decoder

`push` compares the type of a message with its header and looks at no other field. The
fields of a protobuf message have the types of the schema; a JSON message is whatever value
its text has.
-/

namespace JsValue

def isArray : JsValue → Bool
  | .array _ => true
  | _ => false

def isNumber : JsValue → Bool
  | .number _ => true
  | _ => false

/-- An optional field. -/
def absentOr (check : JsValue → Bool) (v : JsValue) : Bool := v = .undefined || check v

/-- An error with its code and message. -/
def isErrorObject (v : JsValue) : Bool := (v.prop "code").isText && (v.prop "message").isText

theorem absentOr_text {v : JsValue} (h : absentOr isText v = true) :
    (v.orElse (.string "")).isText = true := by
  cases v <;> first | rfl | cases h

theorem absentOr_boolean {v : JsValue} (h : absentOr isBoolean v = true) :
    (v.orElse (.boolean false)).isBoolean = true := by
  cases v <;> first | rfl | cases h

end JsValue

namespace WeisleyRpc
open JsValue

/-- The fields that a message of a type has beside its type and id. -/
structure Formed (type : MessageType) (message : JsValue) : Prop where
  request : type = .request → (message.prop "service").isText = true ∧
    (message.prop "method").isText = true ∧ (message.prop "params").isArray = true
  response : type = .response → (message.prop "ok").isBoolean = true ∧
    absentOr isErrorObject (message.prop "error") = true
  heartbeat : type = .ping ∨ type = .pong → (message.prop "timestamp").isNumber = true
  metadata : absentOr isTextMap (message.prop "metadata") = true

/-- A well-formed message of a type. -/
structure WellFormed (type : MessageType) (message : JsValue) : Prop
    extends Formed type message where
  type_eq : message.prop "type" = .string type.text
  id_text : (message.prop "id").isText = true

namespace Protobufjs

def isDecodedError (error : JsValue) : Bool :=
  error.truthy && ["code", "message", "stack"].all fun key => absentOr isText (error.prop key)

/-- The fields of a decoded object have the types of the schema, as far as they are set. -/
def isDecoded (object : JsValue) : Bool :=
  (["type", "id", "service", "method", "resultJson"].all fun key =>
      absentOr isText (object.prop key)) &&
    absentOr isTextList (object.prop "paramsJson") && absentOr isBoolean (object.prop "ok") &&
    absentOr isDecodedError (object.prop "error") && absentOr isNumber (object.prop "timestamp") &&
    absentOr isTextMap (object.prop "metadata")

/-- `decode` and `toObject` give an object of the schema's types. -/
def Typed (model : Protobufjs) : Prop :=
  ∀ bytes object, model.decode bytes = .ok object → isDecoded object = true

end Protobufjs

namespace ProtobufSerializer
open Protobufjs
variable {p : Platform} {payload message : JsValue}

theorem metadata_whenTruthy {v : JsValue} (h : absentOr isTextMap v = true) :
    absentOr isTextMap (((whenTruthy "metadata" v).lookup "metadata").getD .undefined) = true := by
  cases v with
  | undefined => rfl
  | object fields => simpa [whenTruthy, List.lookup_cons, List.lookup_nil] using h
  | _ => cases h

theorem lookup_whenTruthy {key key' : String} (h : key' ≠ key) (v : JsValue) :
    (whenTruthy key v).lookup key' = none := by
  unfold whenTruthy
  split_ifs
  · simp [List.lookup_cons, List.lookup_nil, beq_false_of_ne h]
  · rfl

theorem isErrorObject_errorOf {error : JsValue} (h : isDecodedError error = true) :
    isErrorObject (errorOf error) = true := by
  simp only [isDecodedError, List.all_cons, List.all_nil, Bool.and_eq_true] at h
  obtain ⟨-, hcode, hmessage, -⟩ := h
  simp [isErrorObject, errorOf, List.lookup_cons, absentOr_text hcode, absentOr_text hmessage]

theorem type_inj {type type' : MessageType} (h : JsValue.string type.text = .string type'.text) :
    type = type' := by
  cases type <;> cases type' <;> first | rfl | simp [MessageType.text] at h

theorem formed_request {params : List JsValue} (hd : isDecoded payload = true) :
    Formed .request (.object ([("type", .string "request"), ("id", payload.prop "id"),
      ("service", (payload.prop "service").orElse (.string "")),
      ("method", (payload.prop "method").orElse (.string "")), ("params", .array params)] ++
        whenTruthy "metadata" (payload.prop "metadata"))) := by
  simp only [isDecoded, List.all_cons, List.all_nil, Bool.and_eq_true] at hd
  obtain ⟨⟨⟨⟨⟨⟨-, -, hservice, hmethod, -⟩, -⟩, -⟩, -⟩, -⟩, hmetadata⟩ := hd
  constructor
  · intro _
    simp [List.lookup_cons, absentOr_text hservice, absentOr_text hmethod, isArray]
  · intro h
    cases h
  · intro h
    cases h <;> contradiction
  · simpa [List.lookup_cons, List.lookup_nil] using metadata_whenTruthy hmetadata

theorem formed_response {result : List (String × JsValue)} (hd : isDecoded payload = true)
    (hr : result = [] ∨ ∃ value, result = [("result", value)]) :
    Formed .response (.object ([("type", .string "response"), ("id", payload.prop "id"),
      ("ok", (payload.prop "ok").orElse (.boolean false))] ++ result ++
        (if (payload.prop "error").truthy then [("error", errorOf (payload.prop "error"))]
          else []) ++
        whenTruthy "metadata" (payload.prop "metadata"))) := by
  simp only [isDecoded, List.all_cons, List.all_nil, Bool.and_eq_true] at hd
  obtain ⟨⟨⟨⟨⟨-, -⟩, hok⟩, herror⟩, -⟩, hmetadata⟩ := hd
  have hm := metadata_whenTruthy hmetadata
  constructor
  · intro h
    cases h
  · intro _
    refine ⟨by simp [List.lookup_cons, absentOr_boolean hok], ?_⟩
    have hnone := lookup_whenTruthy (show "error" ≠ "metadata" by decide) (payload.prop "metadata")
    by_cases ht : (payload.prop "error").truthy = true
    · have herr : isErrorObject (errorOf (payload.prop "error")) = true := by
        rw [absentOr, Bool.or_eq_true, decide_eq_true_eq] at herror
        rcases herror with hu | he
        · rw [hu] at ht
          cases ht
        · exact isErrorObject_errorOf he
      rcases hr with rfl | ⟨value, rfl⟩ <;> simp [List.lookup_cons, ht, absentOr, herr]
    · rcases hr with rfl | ⟨value, rfl⟩ <;> simp [List.lookup_cons, ht, absentOr, hnone]
  · intro h
    cases h <;> contradiction
  · by_cases ht : (payload.prop "error").truthy = true <;>
      rcases hr with rfl | ⟨value, rfl⟩ <;> simpa [List.lookup_cons, List.lookup_nil, ht] using hm

theorem formed_heartbeat {type : MessageType} (ht : type = .ping ∨ type = .pong) (id : JsValue)
    (n : JsNumber) :
    Formed type (.object [("type", .string type.text), ("id", id), ("timestamp", .number n)]) := by
  constructor
  · rintro rfl
    rcases ht with h | h <;> cases h
  · rintro rfl
    rcases ht with h | h <;> cases h
  · intro _
    simp [List.lookup_cons, isNumber]
  · simp [List.lookup_cons, List.lookup_nil, absentOr]

/-- What the fields of a decoded object give is well formed but for the id, which may be
missing. -/
theorem formed_fromProtobufPayload {type : MessageType} (hd : isDecoded payload = true)
    (h : fromProtobufPayload p payload = .ok message)
    (ht : message.prop "type" = .string type.text) :
    Formed type message ∧ message.prop "id" = payload.prop "id" := by
  unfold fromProtobufPayload at h
  by_cases hrequest : payload.prop "type" = .string "request"
  · rw [if_pos hrequest] at h
    obtain ⟨texts, -, h⟩ := Except.bind_eq_ok_iff.1 h
    obtain ⟨params, -, h⟩ := Except.bind_eq_ok_iff.1 h
    cases h
    obtain rfl : MessageType.request = type := type_inj ht
    exact ⟨formed_request hd, rfl⟩
  rw [if_neg hrequest] at h
  by_cases hresponse : payload.prop "type" = .string "response"
  · rw [if_pos hresponse] at h
    by_cases hresult : payload.prop "resultJson" = .undefined
    · simp only [if_pos hresult] at h
      cases h
      obtain rfl : MessageType.response = type := type_inj ht
      exact ⟨formed_response hd (Or.inl rfl), rfl⟩
    · simp only [if_neg hresult] at h
      obtain ⟨value, -, h⟩ := Except.bind_eq_ok_iff.1 h
      cases h
      obtain rfl : MessageType.response = type := type_inj ht
      exact ⟨formed_response hd (Or.inr ⟨value, rfl⟩), rfl⟩
  rw [if_neg hresponse] at h
  by_cases hping : payload.prop "type" = .string "ping"
  · rw [if_pos hping] at h
    cases h
    obtain rfl : MessageType.ping = type := type_inj ht
    exact ⟨formed_heartbeat (Or.inl rfl) _ _, rfl⟩
  rw [if_neg hping] at h
  by_cases hpong : payload.prop "type" = .string "pong"
  · rw [if_pos hpong] at h
    cases h
    obtain rfl : MessageType.pong = type := type_inj ht
    exact ⟨formed_heartbeat (Or.inr rfl) _ _, rfl⟩
  · rw [if_neg hpong] at h
    obtain ⟨text, -, h⟩ := Except.bind_eq_ok_iff.1 h
    cases h

end ProtobufSerializer

theorem get_registered {serializers : List Serializer} {m : OrderedMap SerializerName Serializer}
    {name : SerializerName} {s : Serializer}
    (h : (serializers.foldl registerSerializer m).get name = some s) :
    (s ∈ serializers ∧ s.name = name) ∨ m.get name = some s := by
  induction serializers generalizing m with
  | nil => exact Or.inr h
  | cons t ts ih =>
    rcases ih h with ⟨hmem, hname⟩ | hget
    · exact Or.inl ⟨List.mem_cons_of_mem t hmem, hname⟩
    · rw [registerSerializer, OrderedMap.get_set] at hget
      split_ifs at hget with hname
      · cases hget
        exact Or.inl ⟨List.mem_cons_self, hname.symm⟩
      · exact Or.inr hget

namespace RpcCodec
variable {options : RpcCodecOptions} {codec : RpcCodec}

theorem registered_of_new (hnew : new options = .ok codec) {name : SerializerName} {s : Serializer}
    (h : codec.config.serializers.get name = some s) :
    s ∈ options.serializer :: options.serializers ∧ s.name = name := by
  obtain ⟨_, _, rfl⟩ := new_eq_ok hnew
  rcases get_registered h with hs | hempty
  · exact hs
  · simp at hempty

end RpcCodec

/-- What is known of a message that was read from a payload: under its header's type a JSON
message is just the value of its text, and a protobuf message is well formed but for the id,
which is a string if it is there. -/
structure Checked (p : Platform) (header : PacketHeader) (payload : Buffer) (message : JsValue) :
    Prop where
  type_eq : message.prop "type" = .string header.messageType.text
  json : header.serializer = .json → p.parse (p.bufferToString payload) = .ok message
  protobuf : header.serializer = .protobuf →
    Formed header.messageType message ∧ absentOr isText (message.prop "id") = true

/-- Every message that `push` returns is checked, and a JSON body within the limits is
returned whatever value it has, if only the type is the header's. -/
structure RpcCodec.Checks (codec : RpcCodec) (p : Platform) (chunk : Buffer)
    (messages : List JsValue) : Prop where
  returned : ∀ m ∈ messages, ∃ header body payload serializer,
    codec.config.Source (codec.queue.bytes ++ chunk) m header body payload serializer ∧
      Checked p header payload m
  unchecked : ∀ header body payload value, header.serializer = .json →
    codec.config.serializers.get .json = some (jsonSerializer p) →
    codec.config.bodyPayload header.flags body = .ok payload → codec.config.Within body payload →
    p.parse (p.bufferToString payload) = .ok value →
    value.get "type" = .ok (.string header.messageType.text) →
    codec.config.decodeBody header body = .ok value

section Messages
variable {p : Platform} {model : Protobufjs} {header : PacketHeader} {payload : Buffer}
  {message : JsValue}

theorem checked_json (ht : message.prop "type" = .string header.messageType.text)
    (hname : header.serializer = .json)
    (h : (jsonSerializer p).deserialize payload = .ok message) : Checked p header payload message :=
  ⟨ht, fun _ => h, fun h => by rw [hname] at h; cases h⟩

theorem checked_protobuf (htyped : model.Typed)
    (ht : message.prop "type" = .string header.messageType.text)
    (hname : header.serializer = .protobuf)
    (h : (protobufSerializer p model).deserialize payload = .ok message) :
    Checked p header payload message := by
  obtain ⟨object, hdecode, hread⟩ := Except.bind_eq_ok_iff.1 h
  have hd := htyped payload object hdecode
  obtain ⟨hformed, hid⟩ := ProtobufSerializer.formed_fromProtobufPayload hd hread ht
  refine ⟨ht, ?_, ?_⟩
  · intro hjson
    rw [hname] at hjson
    cases hjson
  · intro _
    simp only [Protobufjs.isDecoded, List.all_cons, Bool.and_eq_true] at hd
    exact ⟨hformed, hid ▸ hd.1.1.1.1.1.2.1⟩

/-- Whatever bytes came before, what `push` returns has been checked. -/
theorem messages_checked {options : RpcCodecOptions} {codec : RpcCodec}
    (hnew : RpcCodec.new options = .ok codec)
    (hserializers : ∀ s ∈ options.serializer :: options.serializers,
      s = jsonSerializer p ∨ s = protobufSerializer p model)
    (htyped : model.Typed) (chunks : List Buffer) (chunk : Buffer) {messages : List JsValue}
    (h : ((codec.pushes chunks).push chunk).1 = .ok messages) :
    (codec.pushes chunks).Checks p chunk messages := by
  have hconfig := codec.pushes_config chunks
  obtain ⟨-, rfl⟩ := RpcCodec.push_eq_ok_iff.mp h
  constructor
  · intro m hm
    obtain ⟨header, body, payload, serializer, hsource, -⟩ := CodecConfig.source_of_mem hm
    refine ⟨header, body, payload, serializer, hsource, ?_⟩
    obtain ⟨-, -, hs, -, hdeserialize, htype⟩ := hsource
    have ht := (JsValue.get_eq_ok_iff.1 htype).2
    rw [hconfig] at hs
    obtain ⟨hmem, hname⟩ := RpcCodec.registered_of_new hnew hs
    rcases hserializers serializer hmem with rfl | rfl
    · exact checked_json ht hname.symm hdeserialize
    · exact checked_protobuf htyped ht hname.symm hdeserialize
  · intro header body payload value hname hs hp hwithin hparse htype
    obtain ⟨hbody, -, hpayload⟩ := hwithin
    rw [← hname] at hs
    exact CodecConfig.decodeBody_eq_ok_iff.mpr
      ⟨hbody, jsonSerializer p, hs, payload, hp, hpayload, hparse, htype⟩

end Messages

/-- A request with nothing but its type. -/
def sampleBare : JsValue := .object [("type", .string "request")]

def sampleBareText : String := "\x7b\"type\":\"request\"\x7d"

def sampleBarePlatform : Platform :=
  .ofTable [(sampleBare, some sampleBareText), (.null, some "null")]

def sampleBareCodec : RpcCodec := .ofSerializer (jsonSerializer sampleBarePlatform)

def sampleBarePacket : Buffer :=
  packetHeader (bufferFrom sampleBareText).length ⟨.json, .request, 0⟩ ++ bufferFrom sampleBareText

theorem bare_request_returned :
    (sampleBareCodec.push sampleBarePacket).1 = .ok [sampleBare] ∧
      ¬ WellFormed .request sampleBare := by
  refine ⟨by decide +kernel, fun h => ?_⟩
  have hid := h.id_text
  simp [sampleBare, List.lookup_cons, List.lookup_nil, isText] at hid

/-- JSON by default, and protobuf beside it. -/
def sampleBothOptions : RpcCodecOptions where
  serializer := jsonSerializer sampleBarePlatform
  serializers := [protobufSerializer sampleBarePlatform sampleProtobufjs]
  compression := none
  maxBodyLength := none
  maxDecompressedBodyLength := none

def sampleBothCodec : RpcCodec where
  config := {
    defaultSerializer := jsonSerializer sampleBarePlatform
    serializers := (OrderedMap.empty.set .json (jsonSerializer sampleBarePlatform)).set .protobuf
      (protobufSerializer sampleBarePlatform sampleProtobufjs)
    compression := none
    maxBodyLength := MAX_PACKET_LENGTH
    maxDecompressedBodyLength := MAX_PACKET_LENGTH }
  queue := .empty

theorem new_sampleBothCodec : RpcCodec.new sampleBothOptions = .ok sampleBothCodec := rfl

/-- The failure in protobuf, and behind it the bare request in JSON. -/
def sampleBothPackets : Buffer :=
  packetHeader sampleFailureBytes.length ⟨.protobuf, .response, 0⟩ ++ sampleFailureBytes ++
    sampleBarePacket

theorem typed_sampleProtobufjs : sampleProtobufjs.Typed := by
  intro bytes object h
  by_cases hb : sampleFailureBytes = bytes
  · subst hb
    have hdecoded : sampleProtobufjs.decode sampleFailureBytes =
        .ok (Protobufjs.readBack sampleFailurePayload) := by decide +kernel
    obtain rfl := Except.ok.inj (hdecoded.symm.trans h)
    decide +kernel
  · simp [sampleProtobufjs, Protobufjs.ofTable, hb] at h

theorem messages_checked_sample :
    (sampleBothCodec.pushes [sampleBarePacket]).Checks sampleBarePlatform sampleBothPackets
      [sampleFailure.toValue, sampleBare] := by
  refine messages_checked new_sampleBothCodec ?_ typed_sampleProtobufjs [sampleBarePacket]
    sampleBothPackets (by decide +kernel)
  intro s hs
  simpa [sampleBothOptions] using hs

end WeisleyRpc
