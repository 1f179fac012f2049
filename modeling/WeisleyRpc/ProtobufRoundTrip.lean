import WeisleyRpc.Serializers

/-!
# The round trip of the protobuf serializer

protobufjs keeps every scalar that is set, the order of a list and a map that is not
empty; an empty list or map reads back as absent. With that, and with JSON values that
survive their text, a message comes back with exactly its fields.
-/

namespace JsValue

mutual
/-- What JSON can express. -/
def isJson : JsValue → Bool
  | .null | .boolean _ | .string _ => true
  | .number (.finite _) => true
  | .array items => itemsJson items
  | .object fields => fieldsJson fields
  | _ => false

def itemsJson : List JsValue → Bool
  | [] => true
  | v :: vs => isJson v && itemsJson vs

def fieldsJson : List (String × JsValue) → Bool
  | [] => true
  | (_, v) :: vs => isJson v && fieldsJson vs
end

def isText : JsValue → Bool
  | .string _ => true
  | _ => false

def isBoolean : JsValue → Bool
  | .boolean _ => true
  | _ => false

def isSafeInteger : JsValue → Bool
  | .number (.finite q) => q.den = 1 && q.num.natAbs ≤ 2 ^ 53 - 1
  | _ => false

def isTextList : JsValue → Bool
  | .array items => items.all isText
  | _ => false

def isTextMap : JsValue → Bool
  | .object fields => fields.all fun e => e.2.isText
  | _ => false

/-- An array or object with something in it. -/
def isNonEmpty : JsValue → Bool
  | .array (_ :: _) | .object (_ :: _) => true
  | _ => false

end JsValue

namespace WeisleyRpc

namespace Protobufjs

def unsetOr (check : JsValue → Bool) (v : JsValue) : Bool := v.isNullish || check v

def isRpcError : JsValue → Bool
  | .object fields =>
    ["code", "message", "stack"].all fun key =>
      unsetOr JsValue.isText ((JsValue.object fields).prop key)
  | _ => false

/-- The fields of the schema have values of their types, as far as they are set. -/
def wellTyped (payload : JsValue) : Bool :=
  (["type", "id", "service", "method", "resultJson"].all fun key =>
      unsetOr JsValue.isText (payload.prop key)) &&
    unsetOr JsValue.isTextList (payload.prop "paramsJson") &&
    unsetOr JsValue.isBoolean (payload.prop "ok") && unsetOr isRpcError (payload.prop "error") &&
    unsetOr JsValue.isSafeInteger (payload.prop "timestamp") &&
    unsetOr JsValue.isTextMap (payload.prop "metadata")

def setField (v : JsValue) (key : String) : List (String × JsValue) :=
  if (v.prop key).isNullish then [] else [(key, v.prop key)]

def nonEmptyField (v : JsValue) (key : String) : List (String × JsValue) :=
  if (v.prop key).isNonEmpty then [(key, v.prop key)] else []

def readBackError (error : JsValue) : JsValue :=
  .object (setField error "code" ++ setField error "message" ++ setField error "stack")

/-- What decoding gives back of a payload that was encoded. -/
def readBack (payload : JsValue) : JsValue :=
  .object (setField payload "type" ++ setField payload "id" ++ setField payload "service" ++
    setField payload "method" ++ nonEmptyField payload "paramsJson" ++ setField payload "ok" ++
    setField payload "resultJson" ++
    (if (payload.prop "error").isNullish then []
      else [("error", readBackError (payload.prop "error"))]) ++
    setField payload "timestamp" ++ nonEmptyField payload "metadata")

/-- A payload of the schema's types passes the check and survives the wire. -/
def Keeps (model : Protobufjs) (payload : JsValue) : Prop :=
  wellTyped payload = true → model.verify payload = none ∧
    ∃ bytes, model.encode payload = .ok bytes ∧ model.decode bytes = .ok (readBack payload)

/-- protobufjs as far as a finite table of payloads and their bytes goes. -/
def ofTable (table : List (JsValue × Buffer)) : Protobufjs where
  verify payload := if wellTyped payload then none else some "paramsJson: string[] expected"
  encode payload :=
    match table.find? (fun e => e.1 = payload) with
    | some e => .ok e.2
    | none => .error (.platform "Error" "no such payload")
  decode bytes :=
    match table.find? (fun e => e.2 = bytes) with
    | some e => .ok (readBack e.1)
    | none => .error (.rangeError "index out of range")

end Protobufjs

/-- The value survives its JSON text. -/
def Platform.RoundTrips (p : Platform) (v : JsValue) : Prop :=
  ∃ text, p.stringify v = .ok (some text) ∧ p.parse text = .ok v

namespace RpcMessage

/-- The values of any type that a message carries. -/
def values : RpcMessage → List JsValue
  | .request r => r.params
  | .response r => if r.result = .undefined then [] else [r.result]
  | .ping _ _ | .pong _ _ => []

def metadata : RpcMessage → Option (List (String × String))
  | .request r => r.metadata
  | .response r => r.metadata
  | .ping _ _ | .pong _ _ => none

def timestamp : RpcMessage → ℤ
  | .request _ | .response _ => 0
  | .ping _ t | .pong _ t => t

/-- `Number.isSafeInteger`. -/
def Safe (message : RpcMessage) : Prop := message.timestamp.natAbs ≤ 2 ^ 53 - 1

end RpcMessage

namespace ProtobufSerializer
open Protobufjs
variable {p : Platform} {model : Protobufjs}

theorem stringifyAll_roundTrips {params : List JsValue} (h : ∀ v ∈ params, p.RoundTrips v) :
    ∃ texts : List String, stringifyAll p params = .ok (texts.map .string) ∧
      parseAll p (texts.map .string) = .ok params := by
  induction params with
  | nil => exact ⟨[], rfl, rfl⟩
  | cons v params ih =>
    obtain ⟨text, hs, hp⟩ := h v (by simp)
    obtain ⟨texts, hss, hps⟩ := ih fun w hw => h w (by simp [hw])
    refine ⟨text :: texts, ?_, ?_⟩
    · simp [stringifyAll, hs, hss, textValue, bind, Except.bind, pure, Except.pure]
    · simp [parseAll, parseText, hp, hps, bind, Except.bind, pure, Except.pure]

def requestPayload (r : RpcRequest) (texts : List String) : JsValue :=
  .object ([("type", .string "request"), ("id", .string r.id), ("service", .string r.service),
    ("method", .string r.method), ("paramsJson", .array (texts.map .string))] ++
      metadataField r.metadata)

/-- The payload of a response; its result is absent, has no text, or has one. -/
def responsePayload (r : RpcResponse) (resultJson : Option (Option String)) : JsValue :=
  .object ([("type", .string "response"), ("id", .string r.id), ("ok", .boolean r.ok)] ++
    (match resultJson with
      | none => []
      | some text => [("resultJson", textValue text)]) ++
    (match r.error with
      | none => []
      | some error => [("error", error.toValue)]) ++ metadataField r.metadata)

theorem toProtobufPayload_request (r : RpcRequest) {texts : List String}
    (hs : stringifyAll p r.params = .ok (texts.map .string)) :
    toProtobufPayload p r.toValue = .ok (requestPayload r texts) := by
  cases hm : r.metadata <;>
    simp [toProtobufPayload, RpcRequest.toValue, requestPayload, JsValue.get, mapped, hs, hm,
      whenTruthy, JsValue.truthy, metadataField, bind, Except.bind, pure, Except.pure,
      List.lookup_cons, List.lookup_nil]

theorem wellTyped_request (r : RpcRequest) (texts : List String) :
    wellTyped (requestPayload r texts) = true := by
  cases hm : r.metadata <;>
    simp [wellTyped, requestPayload, hm, metadataField, List.lookup_cons, List.lookup_nil, unsetOr,
      JsValue.isText, JsValue.isTextList, JsValue.isTextMap]

theorem readBack_request {r : RpcRequest} (texts : List String) (hm : r.metadata ≠ some []) :
    readBack (requestPayload r texts) =
      .object ([("type", .string "request"), ("id", .string r.id), ("service", .string r.service),
        ("method", .string r.method)] ++
          (if texts = [] then [] else [("paramsJson", .array (texts.map .string))]) ++
            metadataField r.metadata) := by
  cases h : r.metadata with
  | none =>
    cases texts <;>
      simp [readBack, setField, nonEmptyField, requestPayload, h, metadataField, List.lookup_cons,
        List.lookup_nil, JsValue.isNonEmpty]
  | some entries =>
    cases entries with
    | nil => exact absurd h hm
    | cons e es =>
      cases texts <;>
        simp [readBack, setField, nonEmptyField, requestPayload, h, metadataField, List.lookup_cons,
          List.lookup_nil, JsValue.isNonEmpty]

theorem fromProtobufPayload_request {r : RpcRequest} {texts : List String} {values : List JsValue}
    (hp : parseAll p (texts.map .string) = .ok values) (hm : r.metadata ≠ some []) :
    fromProtobufPayload p (readBack (requestPayload r texts)) =
      .ok { r with params := values }.toValue := by
  have hmapped : mapped (((readBack (requestPayload r texts)).prop "paramsJson").orElse
      (.array [])) = .ok (texts.map .string) := by
    rw [readBack_request texts hm]
    cases r.metadata <;> cases texts <;>
      simp [metadataField, List.lookup_cons, List.lookup_nil, JsValue.orElse, mapped]
  rw [fromProtobufPayload, hmapped, readBack_request texts hm]
  cases texts with
  | nil =>
    simp only [List.map_nil] at hp
    cases r.metadata <;>
      simp [hp, metadataField, List.lookup_cons, List.lookup_nil, JsValue.orElse,
        RpcRequest.toValue, whenTruthy, JsValue.truthy, bind, Except.bind, pure, Except.pure]
  | cons t ts =>
    simp only [List.map_cons] at hp
    cases r.metadata <;>
      simp [hp, metadataField, List.lookup_cons, List.lookup_nil, JsValue.orElse,
        RpcRequest.toValue, whenTruthy, JsValue.truthy, bind, Except.bind, pure, Except.pure]

theorem toProtobufPayload_response (r : RpcResponse) (text : Option String)
    (hs : r.result ≠ .undefined → p.stringify r.result = .ok text) :
    toProtobufPayload p r.toValue =
      .ok (responsePayload r (if r.result = .undefined then none else some text)) := by
  obtain ⟨id, ok, result, error, metadata⟩ := r
  by_cases hu : result = .undefined
  · cases error <;> cases metadata <;>
      simp [toProtobufPayload, RpcResponse.toValue, RpcErrorObject.toValue, responsePayload,
        JsValue.get, hu, whenTruthy, JsValue.truthy, metadataField, bind, Except.bind, pure,
        Except.pure, List.lookup_cons, List.lookup_nil]
  · have hs := hs hu
    cases error <;> cases metadata <;>
      simp [toProtobufPayload, RpcResponse.toValue, RpcErrorObject.toValue, responsePayload,
        JsValue.get, hu, hs, whenTruthy, JsValue.truthy, metadataField, bind, Except.bind, pure,
        Except.pure, List.lookup_cons, List.lookup_nil]

theorem isRpcError_toValue (error : RpcErrorObject) : isRpcError error.toValue = true := by
  cases hs : error.stack <;>
    simp [isRpcError, RpcErrorObject.toValue, hs, List.lookup_cons, List.lookup_nil, unsetOr,
      JsValue.isText, ]

theorem wellTyped_response (r : RpcResponse) (resultJson : Option (Option String)) :
    wellTyped (responsePayload r resultJson) = true := by
  obtain ⟨id, ok, result, error, metadata⟩ := r
  cases error <;> cases metadata <;> rcases resultJson with _ | _ | text <;>
    simp [wellTyped, responsePayload, metadataField, textValue, List.lookup_cons, List.lookup_nil,
      unsetOr, JsValue.isText, JsValue.isTextMap, JsValue.isBoolean, isRpcError_toValue]

@[simp] theorem isNullish_error (error : RpcErrorObject) : error.toValue.isNullish = false := rfl

@[simp] theorem truthy_readBackError (error : JsValue) : (readBackError error).truthy = true := rfl

@[simp] theorem errorOf_readBackError (error : RpcErrorObject) :
    errorOf (readBackError error.toValue) = error.toValue := by
  cases hs : error.stack <;>
    simp [errorOf, readBackError, setField, RpcErrorObject.toValue, hs, List.lookup_cons,
      List.lookup_nil, JsValue.orElse]

theorem readBack_response {r : RpcResponse} (resultJson : Option (Option String))
    (hm : r.metadata ≠ some []) :
    readBack (responsePayload r resultJson) =
      .object ([("type", .string "response"), ("id", .string r.id), ("ok", .boolean r.ok)] ++
        (match resultJson.join with
          | none => []
          | some text => [("resultJson", .string text)]) ++
        (match r.error with
          | none => []
          | some error => [("error", readBackError error.toValue)]) ++
        metadataField r.metadata) := by
  obtain ⟨id, ok, result, error, metadata⟩ := r
  rcases metadata with _ | _ | ⟨e, es⟩
  · cases error <;> rcases resultJson with _ | _ | text <;>
      simp [readBack, setField, nonEmptyField, responsePayload, metadataField, textValue,
        List.lookup_cons, List.lookup_nil, JsValue.isNonEmpty]
  · exact absurd rfl hm
  · cases error <;> rcases resultJson with _ | _ | text <;>
      simp [readBack, setField, nonEmptyField, responsePayload, metadataField, textValue,
        List.lookup_cons, List.lookup_nil, JsValue.isNonEmpty]

/-- The value that a payload's text stands for. -/
def Reads (p : Platform) : Option (Option String) → JsValue → Prop
  | some (some text), value => p.parse text = .ok value ∧ value ≠ .undefined
  | _, value => value = .undefined

theorem fromProtobufPayload_response {r : RpcResponse} {resultJson : Option (Option String)}
    {value : JsValue} (hr : Reads p resultJson value) (hm : r.metadata ≠ some []) :
    fromProtobufPayload p (readBack (responsePayload r resultJson)) =
      .ok { r with result := value }.toValue := by
  rw [readBack_response resultJson hm]
  obtain ⟨id, ok, result, error, metadata⟩ := r
  rcases resultJson with _ | _ | text
  · obtain rfl := hr
    cases error <;> cases metadata <;>
      simp [fromProtobufPayload, RpcResponse.toValue, metadataField, whenTruthy, List.lookup_cons,
        List.lookup_nil, JsValue.orElse, pure, Except.pure, bind, Except.bind]
  · obtain rfl := hr
    cases error <;> cases metadata <;>
      simp [fromProtobufPayload, RpcResponse.toValue, metadataField, whenTruthy, List.lookup_cons,
        List.lookup_nil, JsValue.orElse, pure, Except.pure, bind, Except.bind]
  · obtain ⟨hp, hv⟩ := hr
    cases error <;> cases metadata <;>
      simp [fromProtobufPayload, RpcResponse.toValue, metadataField, whenTruthy, List.lookup_cons,
        List.lookup_nil, JsValue.orElse, parseText, hp, hv, pure, Except.pure, bind, Except.bind]

theorem toProtobufPayload_ping (id : String) (t : ℤ) :
    toProtobufPayload p (pingMessage (.string id) t) = .ok (pingMessage (.string id) t) := rfl

theorem toProtobufPayload_pong (id : String) (t : ℤ) :
    toProtobufPayload p (pongMessage (.string id) t) = .ok (pongMessage (.string id) t) := rfl

theorem isSafeInteger_int {t : ℤ} (ht : t.natAbs ≤ 2 ^ 53 - 1) :
    JsValue.isSafeInteger (.number (.finite t)) = true := by
  simp only [JsValue.isSafeInteger, Rat.den_intCast, Rat.num_intCast, Bool.and_eq_true,
    decide_eq_true_eq]
  exact ⟨trivial, decide_eq_true ht⟩

theorem wellTyped_ping {id : String} {t : ℤ} (ht : t.natAbs ≤ 2 ^ 53 - 1) :
    wellTyped (pingMessage (.string id) t) = true := by
  simp [wellTyped, pingMessage, List.lookup_cons, List.lookup_nil, unsetOr, JsValue.isText,
    isSafeInteger_int ht]

theorem wellTyped_pong {id : String} {t : ℤ} (ht : t.natAbs ≤ 2 ^ 53 - 1) :
    wellTyped (pongMessage (.string id) t) = true := by
  simp [wellTyped, pongMessage, List.lookup_cons, List.lookup_nil, unsetOr, JsValue.isText,
    isSafeInteger_int ht]

theorem fromProtobufPayload_ping (id : String) (t : ℤ) :
    fromProtobufPayload p (readBack (pingMessage (.string id) t)) =
      .ok (pingMessage (.string id) t) := by
  simp [fromProtobufPayload, readBack, pingMessage, setField, nonEmptyField, JsValue.isNonEmpty,
    List.lookup_cons, List.lookup_nil, JsValue.orElse, toNumber, pure, Except.pure]

theorem fromProtobufPayload_pong (id : String) (t : ℤ) :
    fromProtobufPayload p (readBack (pongMessage (.string id) t)) =
      .ok (pongMessage (.string id) t) := by
  simp [fromProtobufPayload, readBack, pongMessage, setField, nonEmptyField, JsValue.isNonEmpty,
    List.lookup_cons, List.lookup_nil, JsValue.orElse, toNumber, pure, Except.pure]

/-- A payload that the schema accepts is serialized, and read back into what its fields give. -/
theorem roundTrip_of_payload {message payload value : JsValue}
    (hpayload : toProtobufPayload p message = .ok payload) (htyped : wellTyped payload = true)
    (hmodel : model.Keeps payload) (hread : fromProtobufPayload p (readBack payload) = .ok value) :
    ∃ bytes, (protobufSerializer p model).serialize message = .ok bytes ∧
      (protobufSerializer p model).deserialize bytes = .ok value := by
  obtain ⟨hv, bytes, he, hd⟩ := hmodel htyped
  refine ⟨bytes, ?_, ?_⟩
  · simp [protobufSerializer, hpayload, hv, he, bind, Except.bind]
  · simp [protobufSerializer, hd, hread, bind, Except.bind]

end ProtobufSerializer

open ProtobufSerializer in
/-- A message of JSON values comes back with exactly the fields it had. -/
theorem protobuf_roundTrip {p : Platform} {model : Protobufjs} {message : RpcMessage}
    (hjson : ∀ v ∈ message.values, v.isJson = true)
    (hmetadata : message.metadata ≠ some []) (hsafe : message.Safe)
    (hplatform : ∀ v ∈ message.values, v.isJson = true → p.RoundTrips v)
    (hmodel : ∀ payload, toProtobufPayload p message.toValue = .ok payload →
      model.Keeps payload) :
    ∃ bytes, (protobufSerializer p model).serialize message.toValue = .ok bytes ∧
      (protobufSerializer p model).deserialize bytes = .ok message.toValue := by
  have hvalues : ∀ v ∈ message.values, p.RoundTrips v := fun v hv => hplatform v hv (hjson v hv)
  cases message with
  | request r =>
    have hparams : ∀ v ∈ r.params, p.RoundTrips v := hvalues
    obtain ⟨texts, hs, hp⟩ := stringifyAll_roundTrips hparams
    have hpayload := toProtobufPayload_request r hs
    exact roundTrip_of_payload hpayload (wellTyped_request r texts) (hmodel _ hpayload)
      (fromProtobufPayload_request hp hmetadata)
  | response r =>
    by_cases hu : r.result = .undefined
    · have hpayload := toProtobufPayload_response (p := p) r none fun h => absurd hu h
      rw [if_pos hu] at hpayload
      have hread : fromProtobufPayload p (Protobufjs.readBack (responsePayload r none)) =
          .ok r.toValue := fromProtobufPayload_response (r := r) hu hmetadata
      exact roundTrip_of_payload hpayload (wellTyped_response r none) (hmodel _ hpayload) hread
    · obtain ⟨text, hs, hp⟩ := hvalues r.result (by simp [RpcMessage.values, hu])
      have hpayload := toProtobufPayload_response r _ fun _ => hs
      rw [if_neg hu] at hpayload
      have hread : fromProtobufPayload p
          (Protobufjs.readBack (responsePayload r (some (some text)))) = .ok r.toValue :=
        fromProtobufPayload_response (r := r) ⟨hp, hu⟩ hmetadata
      exact roundTrip_of_payload hpayload (wellTyped_response r _) (hmodel _ hpayload) hread
  | ping id t =>
    exact roundTrip_of_payload (toProtobufPayload_ping id t) (wellTyped_ping hsafe)
      (hmodel _ (toProtobufPayload_ping id t)) (fromProtobufPayload_ping id t)
  | pong id t =>
    exact roundTrip_of_payload (toProtobufPayload_pong id t) (wellTyped_pong hsafe)
      (hmodel _ (toProtobufPayload_pong id t)) (fromProtobufPayload_pong id t)

/-- A failure whose texts are empty and whose result is `null`. -/
def sampleFailure : RpcMessage := .response ⟨"", false, .null, some ⟨"", "", none⟩, none⟩

def sampleFailurePayload : JsValue :=
  .object [("type", .string "response"), ("id", .string ""), ("ok", .boolean false),
    ("resultJson", .string "null"),
    ("error", .object [("code", .string ""), ("message", .string "")])]

def sampleFailureBytes : Buffer :=
  [10, 8, 114, 101, 115, 112, 111, 110, 115, 101, 18, 0, 48, 0, 58, 4, 110, 117, 108, 108, 66, 4,
    10, 0, 18, 0]

def sampleProtobufjs : Protobufjs := .ofTable [(sampleFailurePayload, sampleFailureBytes)]

theorem protobuf_roundTrip_sample :
    ∃ bytes, (protobufSerializer (.ofTable [(.null, some "null")]) sampleProtobufjs).serialize
        sampleFailure.toValue = .ok bytes ∧
      (protobufSerializer (.ofTable [(.null, some "null")]) sampleProtobufjs).deserialize bytes =
        .ok sampleFailure.toValue := by
  refine protobuf_roundTrip (by decide) (by decide) (Nat.zero_le _) ?_ ?_
  · intro v hv _
    obtain rfl : v = .null := by simpa [RpcMessage.values, sampleFailure] using hv
    exact ⟨"null", by decide +kernel, by decide +kernel⟩
  · intro payload hp _
    have hsample : ProtobufSerializer.toProtobufPayload (.ofTable [(.null, some "null")])
        sampleFailure.toValue = .ok sampleFailurePayload := by decide +kernel
    obtain rfl := Except.ok.inj (hsample.symm.trans hp)
    exact ⟨by decide +kernel, sampleFailureBytes, by decide +kernel, by decide +kernel⟩

end WeisleyRpc
