import WeisleyRpc.ProtobufRoundTrip

/-!
# What the two serializers deliver

`JSON.stringify` drops a property without a text and writes `null` for an element without
one; `toJSON` methods and host objects are code outside, known by their outcome. The JSON
serializer writes a message in one go, the protobuf serializer each parameter by itself.
-/

namespace WeisleyRpc

/-- The outcome of a value's own conversion, asked for under a key: what a `toJSON` method
or a host object stands for, `undefined` for a function or a symbol. -/
abbrev Host := String → JsValue → Except JsError JsValue

def hasToJson (fields : List (String × JsValue)) : Bool :=
  match fields.lookup "toJSON" with
  | some (.foreign _) => true
  | _ => false

mutual
/-- What `JSON.parse` makes of the text of a value, `undefined` if it has none. -/
def jsonCopy (host : Host) (key : String) : JsValue → Except JsError JsValue
  | .undefined => .ok .undefined
  | .null => .ok .null
  | .boolean b => .ok (.boolean b)
  | .number (.finite q) => .ok (.number (.finite q))
  | .number _ => .ok .null
  | .string s => .ok (.string s)
  | .bigint _ => .error (.typeError "Do not know how to serialize a BigInt")
  | .foreign text => host key (.foreign text)
  | .array items => do
    let copies ← copyItems host 0 items
    return .array copies
  | .object fields =>
    if hasToJson fields then host key (.object fields)
    else do
      let copies ← copyFields host fields
      return .object copies

def copyItems (host : Host) (i : ℕ) : List JsValue → Except JsError (List JsValue)
  | [] => .ok []
  | v :: vs => do
    let copy ← jsonCopy host (toString i) v
    let copies ← copyItems host (i + 1) vs
    return (if copy = .undefined then .null else copy) :: copies

def copyFields (host : Host) : List (String × JsValue) → Except JsError (List (String × JsValue))
  | [] => .ok []
  | (key, v) :: fields => do
    let copy ← jsonCopy host key v
    let copies ← copyFields host fields
    return if copy = .undefined then copies else (key, copy) :: copies
end

/-- Each value by itself. -/
def copyEach (host : Host) : List JsValue → Except JsError (List JsValue)
  | [] => .ok []
  | v :: vs => do
    let copy ← jsonCopy host "" v
    let copies ← copyEach host vs
    return copy :: copies

def keptMetadata (metadata : Option (List (String × String))) : Option (List (String × String)) :=
  if metadata = some [] then none else metadata

namespace RpcMessage

/-- The message with other values in the place of its own. -/
def withValues : RpcMessage → List JsValue → RpcMessage
  | .request r, values => .request { r with params := values }
  | .response r, values => .response { r with result := values.headD .undefined }
  | .ping id t, _ => .ping id t
  | .pong id t, _ => .pong id t

/-- The values as `JSON.stringify` of the whole message writes them. -/
def copiesInPlace (host : Host) : RpcMessage → Except JsError (List JsValue)
  | .request r => copyItems host 0 r.params
  | .response r => (jsonCopy host "result" r.result).map fun value => [value]
  | .ping _ _ | .pong _ _ => .ok []

/-- The values as texts of their own. -/
def copiesAlone (host : Host) : RpcMessage → Except JsError (List JsValue)
  | .request r => copyEach host r.params
  | .response r => (jsonCopy host "" r.result).map fun value => [value]
  | .ping _ _ | .pong _ _ => .ok []

/-- The message as it stands when an empty map counts for none. -/
def dropEmpty : RpcMessage → RpcMessage
  | .request r => .request { r with metadata := keptMetadata r.metadata }
  | .response r => .response { r with metadata := keptMetadata r.metadata }
  | .ping id t => .ping id t
  | .pong id t => .pong id t

def isRequest : RpcMessage → Bool
  | .request _ => true
  | _ => false

/-- Every value reads the same in the message and by itself, or neither way of writing
them works. -/
def Portable (host : Host) (message : RpcMessage) : Prop :=
  match message.copiesInPlace host, message.copiesAlone host with
  | .ok copies, .ok own => copies = own ∧ message.metadata ≠ some []
  | .ok _, .error _ => False
  | .error _, .ok own => message.isRequest = true ∧ .undefined ∈ own
  | .error _, .error _ => True

end RpcMessage

/-- `JSON.stringify(v)` and `JSON.parse` of its text. -/
def Platform.Follows (p : Platform) (host : Host) (v : JsValue) : Prop :=
  match jsonCopy host "" v with
  | .error e => p.stringify v = .error e
  | .ok copy =>
    if copy = .undefined then p.stringify v = .ok none
    else ∃ text, p.stringify v = .ok (some text) ∧ p.parse text = .ok copy

/-- An element of `paramsJson` that is not a string fails the check. -/
def Protobufjs.Rejects (model : Protobufjs) (payload : JsValue) : Prop :=
  ∀ texts, payload.prop "paramsJson" = .array texts → (∃ text ∈ texts, text.isText = false) →
    ∃ e, model.verify payload = some e

/-- What arrives of a message. -/
def Serializer.deliver (s : Serializer) (message : JsValue) : Except JsError JsValue := do
  let bytes ← s.serialize message
  s.deserialize bytes

/-- Both throw, or both deliver equal messages. -/
def Serializer.Agree (s t : Serializer) (message : JsValue) : Prop :=
  (∃ e e', s.deliver message = .error e ∧ t.deliver message = .error e') ∨
    ∃ delivered, s.deliver message = .ok delivered ∧ t.deliver message = .ok delivered

@[simp] theorem bufferToString_bufferFrom (p : Platform) (text : String) :
    p.bufferToString (bufferFrom text) = text := by
  simp [Platform.bufferToString, bufferFrom, String.fromUTF8?, text.isValidUTF8]
  rfl

section Copies
variable {host : Host}

theorem copyFields_texts (entries : List (String × String)) :
    copyFields host (entries.map fun e => (e.1, .string e.2)) =
      .ok (entries.map fun e => (e.1, .string e.2)) := by
  induction entries with
  | nil => rfl
  | cons e es ih => simp [copyFields, jsonCopy, ih, bind, Except.bind, pure, Except.pure]

theorem lookup_texts (entries : List (String × String)) (key : String) :
    (entries.map fun e => (e.1, JsValue.string e.2)).lookup key =
      (entries.lookup key).map .string := by
  induction entries with
  | nil => rfl
  | cons e es ih =>
    obtain ⟨k, text⟩ := e
    simp only [List.map_cons, List.lookup_cons, ih]
    cases key == k <;> rfl

theorem hasToJson_texts (entries : List (String × String)) :
    hasToJson (entries.map fun e => (e.1, JsValue.string e.2)) = false := by
  rw [hasToJson, lookup_texts]
  cases entries.lookup "toJSON" <;> rfl

theorem copyFields_metadata (metadata : Option (List (String × String))) :
    copyFields host (metadataField metadata) = .ok (metadataField metadata) := by
  cases metadata with
  | none => rfl
  | some entries =>
    simp [metadataField, copyFields, jsonCopy, hasToJson_texts, copyFields_texts, bind, Except.bind,
      pure, Except.pure]

theorem lookup_metadataField (metadata : Option (List (String × String))) :
    (metadataField metadata).lookup "toJSON" = none := by
  cases metadata <;> simp [metadataField, List.lookup_cons, List.lookup_nil]

theorem error_ne_undefined (error : RpcErrorObject) : error.toValue ≠ .undefined := by
  simp [RpcErrorObject.toValue]

theorem jsonCopy_error (key : String) (error : RpcErrorObject) :
    jsonCopy host key error.toValue = .ok error.toValue := by
  cases hs : error.stack <;>
    simp [RpcErrorObject.toValue, hs, jsonCopy, hasToJson, List.lookup_cons, List.lookup_nil,
      copyFields, bind, Except.bind, pure, Except.pure]

end Copies

theorem RpcRequest.toValue_eq (r : RpcRequest) :
    r.toValue = .object ([("type", .string "request"), ("id", .string r.id),
      ("service", .string r.service), ("method", .string r.method), ("params", .array r.params)] ++
        metadataField r.metadata) := by
  obtain ⟨id, service, method, params, metadata⟩ := r
  cases metadata <;> rfl

namespace RpcResponse

@[simp] theorem prop_result (r : RpcResponse) : r.toValue.prop "result" = r.result := by
  obtain ⟨id, ok, result, error, metadata⟩ := r
  by_cases hu : result = .undefined <;> cases error <;> cases metadata <;>
    simp [RpcResponse.toValue, hu, metadataField, List.lookup_cons, List.lookup_nil]

@[simp] theorem prop_metadata (r : RpcResponse) :
    r.toValue.prop "metadata" =
      ((metadataField r.metadata).lookup "metadata").getD .undefined := by
  obtain ⟨id, ok, result, error, metadata⟩ := r
  by_cases hu : result = .undefined <;> cases error <;> cases metadata <;>
    simp [RpcResponse.toValue, hu, metadataField, List.lookup_cons, List.lookup_nil]

end RpcResponse

theorem jsonCopy_message (host : Host) (message : RpcMessage) :
    jsonCopy host "" message.toValue =
      (message.copiesInPlace host).map fun copies => (message.withValues copies).toValue := by
  cases message with
  | request r =>
    simp only [RpcMessage.toValue, RpcMessage.copiesInPlace, RpcMessage.withValues,
      RpcRequest.toValue_eq]
    cases hc : copyItems host 0 r.params <;>
      simp [jsonCopy, hasToJson, List.lookup_cons, lookup_metadataField, copyFields,
        copyFields_metadata, hc, bind, Except.bind, pure, Except.pure, Except.map]
  | response r =>
    obtain ⟨id, ok, result, error, metadata⟩ := r
    simp only [RpcMessage.toValue, RpcMessage.copiesInPlace, RpcMessage.withValues,
      RpcResponse.toValue]
    by_cases hu : result = .undefined
    · cases error <;>
        simp [jsonCopy, hasToJson, List.lookup_cons, lookup_metadataField, copyFields,
          copyFields_metadata, jsonCopy_error, error_ne_undefined, hu, bind, Except.bind, pure,
          Except.pure, Except.map]
    · cases hc : jsonCopy host "result" result with
      | error e =>
        cases error <;>
        simp [jsonCopy, hasToJson, List.lookup_cons, lookup_metadataField, copyFields,
          hc, hu, bind, Except.bind, Except.map]
      | ok copy =>
        by_cases hcopy : copy = .undefined <;> cases error <;>
        simp [jsonCopy, hasToJson, List.lookup_cons, lookup_metadataField, copyFields,
          copyFields_metadata, jsonCopy_error, error_ne_undefined, hu, hc, hcopy, bind, Except.bind,
          pure, Except.pure, Except.map]
  | ping id t =>
    simp [RpcMessage.toValue, RpcMessage.copiesInPlace, RpcMessage.withValues, pingMessage,
      jsonCopy, hasToJson, List.lookup_cons, List.lookup_nil, copyFields, bind, Except.bind, pure,
      Except.pure, Except.map]
  | pong id t =>
    simp [RpcMessage.toValue, RpcMessage.copiesInPlace, RpcMessage.withValues, pongMessage,
      jsonCopy, hasToJson, List.lookup_cons, List.lookup_nil, copyFields, bind, Except.bind, pure,
      Except.pure, Except.map]

theorem toValue_ne_undefined (message : RpcMessage) : message.toValue ≠ .undefined := by
  cases message <;>
    simp [RpcMessage.toValue, RpcRequest.toValue, RpcResponse.toValue, pingMessage, pongMessage]

section Delivery
variable {p : Platform} {host : Host} {model : Protobufjs} {message : RpcMessage}

theorem deliver_json (hplatform : p.Follows host message.toValue) :
    (jsonSerializer p).deliver message.toValue =
      (message.copiesInPlace host).map fun copies => (message.withValues copies).toValue := by
  have hcopy := jsonCopy_message host message
  rw [Platform.Follows, hcopy] at hplatform
  cases hc : message.copiesInPlace host with
  | error e =>
    rw [hc] at hplatform
    simp only [Except.map] at hplatform ⊢
    simp [Serializer.deliver, jsonSerializer, hplatform, bind, Except.bind]
  | ok copies =>
    rw [hc] at hplatform
    simp only [Except.map, toValue_ne_undefined, if_false] at hplatform ⊢
    obtain ⟨text, hs, hp⟩ := hplatform
    simp [Serializer.deliver, jsonSerializer, hs, hp, bind, Except.bind, pure, Except.pure]

open ProtobufSerializer in
theorem Platform.Follows.outcome {v : JsValue} (h : p.Follows host v) :
    (∃ e, jsonCopy host "" v = .error e ∧ p.stringify v = .error e) ∨
      ∃ copy text, jsonCopy host "" v = .ok copy ∧ p.stringify v = .ok text ∧
        Reads p (some text) copy := by
  unfold Platform.Follows at h
  cases hc : jsonCopy host "" v with
  | error e =>
    rw [hc] at h
    exact Or.inl ⟨e, rfl, h⟩
  | ok copy =>
    rw [hc] at h
    right
    by_cases hu : copy = .undefined
    · simp only [hu, if_true] at h
      exact ⟨copy, none, rfl, h, hu⟩
    · simp only [hu, if_false] at h
      obtain ⟨text, hs, hp⟩ := h
      exact ⟨copy, some text, rfl, hs, hp, hu⟩

section Texts
open ProtobufSerializer
variable {params own : List JsValue}

theorem stringifyAll_error {e : JsError} (h : ∀ v ∈ params, p.Follows host v)
    (hc : copyEach host params = .error e) : stringifyAll p params = .error e := by
  induction params with
  | nil => cases hc
  | cons v vs ih =>
    have htail := ih fun w hw => h w (List.mem_cons_of_mem v hw)
    rw [copyEach] at hc
    rw [stringifyAll]
    rcases (h v (by simp)).outcome with ⟨e', hv, hs⟩ | ⟨copy, text, hv, hs, -⟩
    · rw [hv] at hc
      rw [hs]
      exact hc
    · rw [hv] at hc
      rw [hs]
      cases hvs : copyEach host vs with
      | error e' =>
        rw [hvs] at hc
        cases hc
        rw [htail hvs]
        rfl
      | ok copies =>
        rw [hvs] at hc
        cases hc

theorem stringifyAll_ok (h : ∀ v ∈ params, p.Follows host v)
    (hc : copyEach host params = .ok own) :
    ∃ texts : List (Option String), stringifyAll p params = .ok (texts.map textValue) ∧
      List.Forall₂ (fun text copy => Reads p (some text) copy) texts own := by
  induction params generalizing own with
  | nil =>
    cases hc
    exact ⟨[], rfl, .nil⟩
  | cons v vs ih =>
    rw [copyEach] at hc
    obtain ⟨copy, hv, hc⟩ := Except.bind_eq_ok_iff.1 hc
    obtain ⟨copies, hvs, hc⟩ := Except.bind_eq_ok_iff.1 hc
    cases hc
    obtain ⟨texts, hss, hreads⟩ := ih (fun w hw => h w (List.mem_cons_of_mem v hw)) hvs
    rcases (h v (by simp)).outcome with ⟨e, hv', -⟩ | ⟨copy', text, hv', hs, hr⟩
    · rw [hv'] at hv
      cases hv
    · rw [hv'] at hv
      cases hv
      refine ⟨text :: texts, ?_, .cons hr hreads⟩
      simp [stringifyAll, hs, hss, bind, Except.bind, pure, Except.pure]

theorem reads_text {text : Option String} {copy : JsValue} (h : Reads p (some text) copy) :
    text = none ↔ copy = .undefined := by
  cases text with
  | none => simpa [Reads] using h
  | some t => simp [h.2]

theorem exists_none {texts : List (Option String)}
    (h : List.Forall₂ (fun text copy => Reads p (some text) copy) texts own) :
    none ∈ texts ↔ .undefined ∈ own := by
  induction h with
  | nil => simp
  | cons hr _ ih => simp only [List.mem_cons, ih, eq_comm (a := none), reads_text hr,
      eq_comm (a := JsValue.undefined)]

theorem parseAll_texts {texts : List (Option String)}
    (h : List.Forall₂ (fun text copy => Reads p (some text) copy) texts own)
    (hu : .undefined ∉ own) :
    ∃ ts : List String, texts = ts.map some ∧ parseAll p (ts.map .string) = .ok own := by
  induction h with
  | nil => exact ⟨[], rfl, rfl⟩
  | @cons text copy texts own hr _ ih =>
    rw [List.mem_cons, not_or] at hu
    obtain ⟨ts, rfl, hp⟩ := ih hu.2
    cases text with
    | none => exact absurd (Eq.symm hr) hu.1
    | some t =>
      refine ⟨t :: ts, rfl, ?_⟩
      simp [parseAll, parseText, hr.1, hp, bind, Except.bind, pure, Except.pure]

end Texts

open ProtobufSerializer

theorem keptMetadata_ne (metadata : Option (List (String × String))) :
    keptMetadata metadata ≠ some [] := by
  unfold keptMetadata
  split_ifs with h
  · simp
  · exact h

theorem readBack_requestPayload (r : RpcRequest) (texts : List String) :
    Protobufjs.readBack (requestPayload r texts) =
      Protobufjs.readBack
        (requestPayload { r with metadata := keptMetadata r.metadata } texts) := by
  by_cases hm : r.metadata = some []
  · simp [Protobufjs.readBack, requestPayload, hm, keptMetadata, metadataField, Protobufjs.setField,
      Protobufjs.nonEmptyField, List.lookup_cons, List.lookup_nil, JsValue.isNonEmpty]
  · rw [keptMetadata, if_neg hm]

theorem readBack_responsePayload (r : RpcResponse) (resultJson : Option (Option String)) :
    Protobufjs.readBack (responsePayload r resultJson) =
      Protobufjs.readBack
        (responsePayload { r with metadata := keptMetadata r.metadata } resultJson) := by
  by_cases hm : r.metadata = some []
  · cases he : r.error <;> rcases resultJson with _ | _ | text <;>
      simp [Protobufjs.readBack, responsePayload, hm, he, keptMetadata, metadataField, textValue,
        Protobufjs.setField, Protobufjs.nonEmptyField, List.lookup_cons, List.lookup_nil,
        JsValue.isNonEmpty]
  · rw [keptMetadata, if_neg hm]

theorem paramsJson_of_stringifyAll {r : RpcRequest} {texts : List JsValue}
    (hs : stringifyAll p r.params = .ok texts) :
    ∃ payload, toProtobufPayload p r.toValue = .ok payload ∧
      payload.prop "paramsJson" = .array texts := by
  refine ⟨.object ([("type", .string "request"), ("id", .string r.id),
    ("service", .string r.service), ("method", .string r.method), ("paramsJson", .array texts)] ++
      whenTruthy "metadata" (r.toValue.prop "metadata")), ?_, ?_⟩
  · simp [toProtobufPayload, r.toValue_eq, JsValue.get, mapped, hs, List.lookup_cons, bind,
      Except.bind, pure, Except.pure]
  · simp [List.lookup_cons]

theorem toProtobufPayload_error {r : RpcRequest} {e : JsError}
    (hs : stringifyAll p r.params = .error e) : toProtobufPayload p r.toValue = .error e := by
  simp [toProtobufPayload, r.toValue_eq, JsValue.get, mapped, hs, List.lookup_cons, bind,
    Except.bind]

theorem deliver_of_payload (message : RpcMessage) {payload value : JsValue}
    (hpayload : toProtobufPayload p message.toValue = .ok payload)
    (htyped : Protobufjs.wellTyped payload = true) (hmodel : model.Keeps payload)
    (hread : fromProtobufPayload p (Protobufjs.readBack payload) = .ok value) :
    (protobufSerializer p model).deliver message.toValue = .ok value := by
  obtain ⟨bytes, hs, hd⟩ := roundTrip_of_payload hpayload htyped hmodel hread
  simp [Serializer.deliver, hs, hd, bind, Except.bind]

theorem deliver_request {r : RpcRequest} {own : List JsValue}
    (hplatform : ∀ v ∈ r.params, p.Follows host v)
    (hmodel : ∀ payload, toProtobufPayload p r.toValue = .ok payload → model.Keeps payload)
    (hc : copyEach host r.params = .ok own) (hu : .undefined ∉ own) :
    (protobufSerializer p model).deliver r.toValue =
      .ok (RpcMessage.request { r with params := own }).dropEmpty.toValue := by
  obtain ⟨texts, hs, hreads⟩ := stringifyAll_ok hplatform hc
  obtain ⟨ts, rfl, hp⟩ := parseAll_texts hreads hu
  rw [List.map_map] at hs
  have hpayload : toProtobufPayload p r.toValue = .ok (requestPayload r ts) :=
    toProtobufPayload_request r hs
  refine deliver_of_payload (.request r) hpayload (wellTyped_request r ts)
    (hmodel _ hpayload) ?_
  rw [readBack_requestPayload]
  exact fromProtobufPayload_request hp (keptMetadata_ne r.metadata)

theorem deliver_response {r : RpcResponse} (text : Option String) {copy : JsValue}
    (hmodel : ∀ payload, toProtobufPayload p r.toValue = .ok payload → model.Keeps payload)
    (hs : r.result ≠ .undefined → p.stringify r.result = .ok text)
    (hr : r.result ≠ .undefined → Reads p (some text) copy)
    (hu : r.result = .undefined → copy = .undefined) :
    (protobufSerializer p model).deliver r.toValue =
      .ok (RpcMessage.response { r with result := copy }).dropEmpty.toValue := by
  have hpayload := toProtobufPayload_response r text hs
  refine deliver_of_payload (.response r) hpayload (wellTyped_response r _)
    (hmodel _ hpayload) ?_
  rw [readBack_responsePayload]
  refine fromProtobufPayload_response (r := { r with metadata := keptMetadata r.metadata }) ?_
    (keptMetadata_ne r.metadata)
  by_cases h : r.result = .undefined
  · rw [if_pos h]
    exact hu h
  · rw [if_neg h]
    exact hr h

theorem deliver_undefined {r : RpcRequest} {own : List JsValue}
    (hplatform : ∀ v ∈ r.params, p.Follows host v)
    (hmodel : ∀ payload, toProtobufPayload p r.toValue = .ok payload → model.Rejects payload)
    (hc : copyEach host r.params = .ok own) (hu : .undefined ∈ own) :
    ∃ e, (protobufSerializer p model).deliver r.toValue = .error e := by
  obtain ⟨texts, hs, hreads⟩ := stringifyAll_ok hplatform hc
  have hnone : none ∈ texts := (exists_none hreads).2 hu
  obtain ⟨payload, hpayload, hparams⟩ := paramsJson_of_stringifyAll hs
  obtain ⟨e, he⟩ := hmodel payload hpayload _ hparams
    ⟨.undefined, List.mem_map.2 ⟨none, hnone, rfl⟩, rfl⟩
  refine ⟨.platform "Error" s!"Invalid protobuf RPC message: {e}", ?_⟩
  simp [Serializer.deliver, protobufSerializer, hpayload, he, bind, Except.bind, throw,
    throwThe, MonadExceptOf.throw]

theorem deliver_unwritable {r : RpcRequest} {e : JsError}
    (hplatform : ∀ v ∈ r.params, p.Follows host v) (hc : copyEach host r.params = .error e) :
    (protobufSerializer p model).deliver r.toValue = .error e := by
  have hs := stringifyAll_error hplatform hc
  simp [Serializer.deliver, protobufSerializer, toProtobufPayload_error hs, bind, Except.bind]

theorem deliver_unwritable_result {r : RpcResponse} {e : JsError} (hr : r.result ≠ .undefined)
    (hs : p.stringify r.result = .error e) :
    (protobufSerializer p model).deliver r.toValue = .error e := by
  obtain ⟨id, ok, result, error, metadata⟩ := r
  simp [Serializer.deliver, protobufSerializer, toProtobufPayload, RpcResponse.toValue, JsValue.get,
    List.lookup_cons, hs, hr, bind, Except.bind, pure, Except.pure] at *

/-- What the protobuf serializer delivers: the values by themselves, and no empty map. -/
theorem deliver_protobuf (hvalues : ∀ v ∈ message.values, p.Follows host v) (hsafe : message.Safe)
    (hkeeps : ∀ payload, toProtobufPayload p message.toValue = .ok payload → model.Keeps payload)
    {own : List JsValue} (hown : message.copiesAlone host = .ok own)
    (hu : message.isRequest = true → .undefined ∉ own) :
    (protobufSerializer p model).deliver message.toValue =
      .ok (message.withValues own).dropEmpty.toValue := by
  cases message with
  | request r => exact deliver_request hvalues hkeeps hown (hu rfl)
  | response r =>
    by_cases hr : r.result = .undefined
    · rw [RpcMessage.copiesAlone, hr] at hown
      simp only [jsonCopy, Except.map, Except.ok.injEq] at hown
      subst hown
      exact deliver_response none hkeeps (fun h => absurd hr h) (fun h => absurd hr h)
        fun _ => rfl
    · have hfollows := hvalues r.result (by simp [RpcMessage.values, hr])
      rcases hfollows.outcome with ⟨e, hc, -⟩ | ⟨copy, text, hc, hs, hreads⟩
      · rw [RpcMessage.copiesAlone, hc] at hown
        cases hown
      · rw [RpcMessage.copiesAlone, hc] at hown
        simp only [Except.map, Except.ok.injEq] at hown
        subst hown
        exact deliver_response text hkeeps (fun _ => hs) (fun _ => hreads) fun h => absurd h hr
  | ping id t =>
    exact deliver_of_payload (.ping id t) (toProtobufPayload_ping id t) (wellTyped_ping hsafe)
      (hkeeps _ (toProtobufPayload_ping id t)) (fromProtobufPayload_ping id t)
  | pong id t =>
    exact deliver_of_payload (.pong id t) (toProtobufPayload_pong id t) (wellTyped_pong hsafe)
      (hkeeps _ (toProtobufPayload_pong id t)) (fromProtobufPayload_pong id t)

theorem deliver_protobuf_error (hvalues : ∀ v ∈ message.values, p.Follows host v) {e : JsError}
    (hown : message.copiesAlone host = .error e) :
    (protobufSerializer p model).deliver message.toValue = .error e := by
  cases message with
  | request r => exact deliver_unwritable hvalues hown
  | response r =>
    have hr : r.result ≠ .undefined := by
      intro hr
      rw [RpcMessage.copiesAlone, hr] at hown
      simp [jsonCopy, Except.map] at hown
    rcases (hvalues r.result (by simp [RpcMessage.values, hr])).outcome with
      ⟨e', hc, hs⟩ | ⟨copy, text, hc, -, -⟩
    · rw [RpcMessage.copiesAlone, hc] at hown
      cases hown
      exact deliver_unwritable_result hr hs
    · rw [RpcMessage.copiesAlone, hc] at hown
      cases hown
  | ping id t => cases hown
  | pong id t => cases hown

end Delivery

theorem keptMetadata_of_ne {metadata : Option (List (String × String))}
    (h : metadata ≠ some []) : keptMetadata metadata = metadata := if_neg h

theorem RpcRequest.toValue_inj {r : RpcRequest} {copies own : List JsValue} :
    { r with params := copies }.toValue =
        { r with params := own, metadata := keptMetadata r.metadata }.toValue ↔
      copies = own ∧ r.metadata ≠ some [] := by
  constructor
  · intro h
    refine ⟨?_, ?_⟩
    · simpa using congrArg (JsValue.prop · "params") h
    · intro hm
      have hprop := congrArg (JsValue.prop · "metadata") h
      simp [toValue_eq, hm, keptMetadata, metadataField, List.lookup_cons, List.lookup_nil] at hprop
  · rintro ⟨rfl, hm⟩
    rw [keptMetadata_of_ne hm]

theorem RpcResponse.toValue_inj {r : RpcResponse} {copy own : JsValue} :
    { r with result := copy }.toValue =
        { r with result := own, metadata := keptMetadata r.metadata }.toValue ↔
      copy = own ∧ r.metadata ≠ some [] := by
  constructor
  · intro h
    refine ⟨?_, ?_⟩
    · simpa using congrArg (JsValue.prop · "result") h
    · intro hm
      have hprop := congrArg (JsValue.prop · "metadata") h
      simp [hm, keptMetadata, metadataField] at hprop
  · rintro ⟨rfl, hm⟩
    rw [keptMetadata_of_ne hm]

section Agreement
variable {p : Platform} {host : Host} {model : Protobufjs} {message : RpcMessage}

theorem Serializer.agree_of_ok {s t : Serializer} {m v w : JsValue} (hs : s.deliver m = .ok v)
    (ht : t.deliver m = .ok w) : s.Agree t m ↔ v = w := by
  simp [Serializer.Agree, hs, ht, eq_comm]

theorem Serializer.agree_of_error {s t : Serializer} {m : JsValue} {e e' : JsError}
    (hs : s.deliver m = .error e) (ht : t.deliver m = .error e') : s.Agree t m :=
  Or.inl ⟨e, e', hs, ht⟩

theorem Serializer.not_agree_of_ok_error {s t : Serializer} {m v : JsValue} {e : JsError}
    (hs : s.deliver m = .ok v) (ht : t.deliver m = .error e) : ¬ s.Agree t m := by
  simp [Serializer.Agree, hs, ht]

theorem Serializer.not_agree_of_error_ok {s t : Serializer} {m v : JsValue} {e : JsError}
    (hs : s.deliver m = .error e) (ht : t.deliver m = .ok v) : ¬ s.Agree t m := by
  simp [Serializer.Agree, hs, ht]

theorem RpcMessage.copyItems_ne_undefined {i : ℕ} {vs copies : List JsValue}
    (h : copyItems host i vs = .ok copies) : .undefined ∉ copies := by
  induction vs generalizing i copies with
  | nil =>
    cases h
    simp
  | cons v vs ih =>
    rw [copyItems] at h
    obtain ⟨copy, -, h⟩ := Except.bind_eq_ok_iff.1 h
    obtain ⟨rest, hrest, h⟩ := Except.bind_eq_ok_iff.1 h
    cases h
    rw [List.mem_cons, not_or]
    refine ⟨?_, ih hrest⟩
    split_ifs with hu
    · simp
    · exact fun he => hu he.symm

theorem RpcMessage.toValue_eq_iff {copies own : List JsValue}
    (hcopies : message.copiesInPlace host = .ok copies)
    (hown : message.copiesAlone host = .ok own) :
    (message.withValues copies).toValue = (message.withValues own).dropEmpty.toValue ↔
      copies = own ∧ message.metadata ≠ some [] := by
  cases message with
  | request r => exact RpcRequest.toValue_inj
  | response r =>
    rw [copiesInPlace] at hcopies
    rw [copiesAlone] at hown
    cases hc : jsonCopy host "result" r.result with
    | error e =>
      rw [hc] at hcopies
      cases hcopies
    | ok copy =>
      cases ho : jsonCopy host "" r.result with
      | error e =>
        rw [ho] at hown
        cases hown
      | ok alone =>
        rw [hc] at hcopies
        rw [ho] at hown
        cases hcopies
        cases hown
        simp only [List.cons.injEq, and_true]
        exact RpcResponse.toValue_inj
  | ping id t =>
    cases hcopies
    cases hown
    simp [withValues, dropEmpty, metadata]
  | pong id t =>
    cases hcopies
    cases hown
    simp [withValues, dropEmpty, metadata]

theorem deliver_without_text (hvalues : ∀ v ∈ message.values, p.Follows host v)
    (hrejects : ∀ payload, ProtobufSerializer.toProtobufPayload p message.toValue = .ok payload →
      model.Rejects payload)
    {own : List JsValue} (hown : message.copiesAlone host = .ok own)
    (hu : message.isRequest = true ∧ .undefined ∈ own) :
    ∃ e, (protobufSerializer p model).deliver message.toValue = .error e := by
  obtain ⟨hrequest, hmem⟩ := hu
  cases message with
  | request r => exact deliver_undefined hvalues hrejects hown hmem
  | response r => cases hrequest
  | ping id t => cases hrequest
  | pong id t => cases hrequest

theorem RpcMessage.ne_of_undefined_mem {copies own : List JsValue}
    (hcopies : message.copiesInPlace host = .ok copies)
    (hu : message.isRequest = true ∧ .undefined ∈ own) : copies ≠ own := by
  obtain ⟨hrequest, hmem⟩ := hu
  rintro rfl
  cases message with
  | request r => exact copyItems_ne_undefined hcopies hmem
  | response r => cases hrequest
  | ping id t => cases hrequest
  | pong id t => cases hrequest

open ProtobufSerializer in
/-- The serializers agree about just the messages that are portable. -/
theorem serializers_agree_iff (hsafe : message.Safe) (hplatform : p.Follows host message.toValue)
    (hvalues : ∀ v ∈ message.values, p.Follows host v)
    (hkeeps : ∀ payload, toProtobufPayload p message.toValue = .ok payload → model.Keeps payload)
    (hrejects : ∀ payload, toProtobufPayload p message.toValue = .ok payload →
      model.Rejects payload) :
    (jsonSerializer p).Agree (protobufSerializer p model) message.toValue ↔
      message.Portable host := by
  have hjson := deliver_json hplatform
  have hprotobuf := fun own (hown : message.copiesAlone host = .ok own) =>
    deliver_protobuf hvalues hsafe hkeeps hown
  unfold RpcMessage.Portable
  cases hc : message.copiesInPlace host with
  | error e =>
    rw [hc] at hjson
    cases ho : message.copiesAlone host with
    | error e' =>
      simp only [iff_true]
      exact Serializer.agree_of_error hjson (deliver_protobuf_error hvalues ho)
    | ok own =>
      by_cases hu : message.isRequest = true ∧ .undefined ∈ own
      · obtain ⟨e', he⟩ := deliver_without_text hvalues hrejects ho hu
        simp only [hu, and_self, iff_true]
        exact Serializer.agree_of_error hjson he
      · have hp := hprotobuf own ho (not_and.1 hu)
        simp only [hu, iff_false]
        exact Serializer.not_agree_of_error_ok hjson hp
  | ok copies =>
    rw [hc] at hjson
    cases ho : message.copiesAlone host with
    | error e' =>
      simp only [iff_false]
      exact Serializer.not_agree_of_ok_error hjson (deliver_protobuf_error hvalues ho)
    | ok own =>
      by_cases hu : message.isRequest = true ∧ .undefined ∈ own
      · obtain ⟨e', he⟩ := deliver_without_text hvalues hrejects ho hu
        simp only [RpcMessage.ne_of_undefined_mem hc hu, false_and, iff_false]
        exact Serializer.not_agree_of_ok_error hjson he
      · have hp := hprotobuf own ho (not_and.1 hu)
        rw [Serializer.agree_of_ok hjson hp]
        exact RpcMessage.toValue_eq_iff hc ho

end Agreement

namespace Protobufjs

theorem keeps_ofTable (payload : JsValue) (bytes : Buffer) :
    (ofTable [(payload, bytes)]).Keeps payload := by
  intro htyped
  exact ⟨by simp [ofTable, htyped], bytes, by simp [ofTable], by simp [ofTable]⟩

theorem rejects_ofTable (table : List (JsValue × Buffer)) (payload : JsValue) :
    (ofTable table).Rejects payload := by
  intro texts hparams hmem
  obtain ⟨text, htext, hnot⟩ := hmem
  have hlist : (payload.prop "paramsJson").isTextList = false := by
    rw [hparams, JsValue.isTextList, List.all_eq_false]
    exact ⟨text, htext, by simp [hnot]⟩
  have hnullish : (payload.prop "paramsJson").isNullish = false := by
    rw [hparams]
    rfl
  refine ⟨"paramsJson: string[] expected", ?_⟩
  simp [ofTable, wellTyped, unsetOr, hlist, hnullish]

end Protobufjs

theorem Platform.follows_of {p : Platform} {host : Host} {v : JsValue} (copy : JsValue)
    (text : String) (hcopy : jsonCopy host "" v = .ok copy) (hu : copy ≠ .undefined)
    (hs : p.stringify v = .ok (some text)) (hp : p.parse text = .ok copy) : p.Follows host v := by
  rw [Platform.Follows, hcopy]
  simp only [hu, if_false]
  exact ⟨text, hs, hp⟩

def sampleHost : Host := fun _ _ => .ok .undefined

/-- A call with one parameter. -/
def sampleCall (param : JsValue) : RpcMessage := .request ⟨"1", "S", "m", [param], none⟩

def sampleCallText : String :=
  "\x7b\"type\":\"request\",\"id\":\"1\",\"service\":\"S\",\"method\":\"m\",\"params\":[null]\x7d"

def sampleCallPayload : JsValue :=
  .object [("type", .string "request"), ("id", .string "1"), ("service", .string "S"),
    ("method", .string "m"), ("paramsJson", .array [.string "null"])]

def sampleCallBytes : Buffer :=
  [10, 7, 114, 101, 113, 117, 101, 115, 116, 18, 1, 49, 26, 1, 83, 34, 1, 109, 42, 4, 110, 117,
    108, 108]

def sampleTexts : Platform :=
  .ofTable [((sampleCall .null).toValue, some sampleCallText),
    ((sampleCall .undefined).toValue, some sampleCallText), (.null, some "null"),
    (.undefined, none)]

def sampleModel : Protobufjs := .ofTable [(sampleCallPayload, sampleCallBytes)]

theorem serializers_agree_iff_sample :
    (jsonSerializer sampleTexts).Agree (protobufSerializer sampleTexts sampleModel)
        (sampleCall .null).toValue ↔ (sampleCall .null).Portable sampleHost := by
  have hpayload : ProtobufSerializer.toProtobufPayload sampleTexts (sampleCall .null).toValue =
      .ok sampleCallPayload := by decide +kernel
  refine serializers_agree_iff (Nat.zero_le _) ?_ ?_ ?_ ?_
  · exact Platform.follows_of (sampleCall .null).toValue sampleCallText (by decide +kernel)
      (toValue_ne_undefined _) (by decide +kernel) (by decide +kernel)
  · intro v hv
    obtain rfl : v = .null := by simpa [RpcMessage.values, sampleCall] using hv
    exact Platform.follows_of .null "null" (by decide +kernel) (by decide) (by decide +kernel)
      (by decide +kernel)
  · intro payload hp
    obtain rfl := Except.ok.inj (hpayload.symm.trans hp)
    exact Protobufjs.keeps_ofTable _ _
  · intro payload _
    exact Protobufjs.rejects_ofTable _ _

/-- A parameter left out arrives as `null` of one serializer, and is refused by the other. -/
theorem omitted_parameter_differs :
    (jsonSerializer sampleTexts).deliver (sampleCall .undefined).toValue =
        .ok (sampleCall .null).toValue ∧
      (protobufSerializer sampleTexts sampleModel).deliver (sampleCall .undefined).toValue =
        .error (.platform "Error"
          "Invalid protobuf RPC message: paramsJson: string[] expected") ∧
      ¬ (jsonSerializer sampleTexts).Agree (protobufSerializer sampleTexts sampleModel)
        (sampleCall .undefined).toValue := by
  have hj : (jsonSerializer sampleTexts).deliver (sampleCall .undefined).toValue =
      .ok (sampleCall .null).toValue := by decide +kernel
  have hp : (protobufSerializer sampleTexts sampleModel).deliver (sampleCall .undefined).toValue =
      .error (.platform "Error"
        "Invalid protobuf RPC message: paramsJson: string[] expected") := by decide +kernel
  exact ⟨hj, hp, Serializer.not_agree_of_ok_error hj hp⟩

end WeisleyRpc
