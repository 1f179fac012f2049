import WeisleyRpc.Codec
import WeisleyRpc.Message

/-!
# The two serializers

`serializer.ts` and `protobuf-serializer.ts`. What the runtime and protobufjs provide is
a parameter: `JSON.stringify`, `JSON.parse`, and the methods of `RpcMessageModel`.
-/

namespace WeisleyRpc

/-- `JSON.stringify` gives no text for `undefined`, a function or a symbol. `decodeLossy` is
what `toString("utf8")` makes of bytes that are not UTF-8. -/
structure Platform where
  stringify : JsValue → Except JsError (Option String)
  parse : String → Except JsError JsValue
  decodeLossy : Buffer → String

/-- The platform as far as a finite table of values and their texts goes. -/
def Platform.ofTable (table : List (JsValue × Option String)) : Platform where
  stringify v :=
    match table.find? (fun e => e.1 = v) with
    | some e => .ok e.2
    | none => .error (.typeError "Do not know how to serialize a BigInt")
  parse text :=
    match table.find? (fun e => e.2 = some text) with
    | some e => .ok e.1
    | none => .error (.platform "SyntaxError" "Unexpected token in JSON")
  decodeLossy _ := ""

def bufferFrom (text : String) : Buffer := text.toUTF8.data.toList

def Platform.bufferToString (p : Platform) (buffer : Buffer) : String :=
  (String.fromUTF8? ⟨buffer.toArray⟩).getD (p.decodeLossy buffer)

/-- `RpcMessageModel`: `decode` is followed by `toObject` with `defaults: false` and
`longs: Number`. -/
structure Protobufjs where
  verify : JsValue → Option String
  encode : JsValue → Except JsError Buffer
  decode : Buffer → Except JsError JsValue

def jsonSerializer (p : Platform) : Serializer where
  name := .json
  serialize message := do
    match ← p.stringify message with
    | some json => return bufferFrom json
    | none => throw (.typeError "The first argument must be of type string")
  deserialize buffer := p.parse (p.bufferToString buffer)

namespace ProtobufSerializer

/-- The array whose `map` is called. -/
def mapped : JsValue → Except JsError (List JsValue)
  | .array items => .ok items
  | .undefined => .error (.typeError "Cannot read properties of undefined (reading 'map')")
  | .null => .error (.typeError "Cannot read properties of null (reading 'map')")
  | _ => .error (.typeError "message.params.map is not a function")

def textValue : Option String → JsValue
  | some text => .string text
  | none => .undefined

/-- `params.map((param) => JSON.stringify(param))`. -/
def stringifyAll (p : Platform) : List JsValue → Except JsError (List JsValue)
  | [] => .ok []
  | param :: params => do
    let text ← p.stringify param
    let texts ← stringifyAll p params
    return textValue text :: texts

/-- `JSON.parse` of a value that it turns into a string first. -/
def parseText (p : Platform) (value : JsValue) : Except JsError JsValue := do
  let text ← value.toText
  p.parse text

def parseAll (p : Platform) : List JsValue → Except JsError (List JsValue)
  | [] => .ok []
  | param :: params => do
    let value ← parseText p param
    let values ← parseAll p params
    return value :: values

/-- A field that is set only when its value is truthy. -/
def whenTruthy (key : String) (value : JsValue) : List (String × JsValue) :=
  if value.truthy then [(key, value)] else []

def toProtobufPayload (p : Platform) (message : JsValue) : Except JsError JsValue := do
  let type ← message.get "type"
  if type = .string "request" then
    let params ← mapped (message.prop "params")
    let paramsJson ← stringifyAll p params
    return .object ([("type", type), ("id", message.prop "id"),
      ("service", message.prop "service"), ("method", message.prop "method"),
      ("paramsJson", .array paramsJson)] ++ whenTruthy "metadata" (message.prop "metadata"))
  else if type = .string "response" then
    let resultJson ←
      if message.prop "result" = .undefined then pure []
      else do
        let text ← p.stringify (message.prop "result")
        pure [("resultJson", textValue text)]
    return .object ([("type", type), ("id", message.prop "id"), ("ok", message.prop "ok")] ++
      resultJson ++ whenTruthy "error" (message.prop "error") ++
      whenTruthy "metadata" (message.prop "metadata"))
  else
    return .object [("type", type), ("id", message.prop "id"),
      ("timestamp", message.prop "timestamp")]

/-- `Number(value)` of the values that `toObject` gives; a text is not read as a number. -/
def toNumber : JsValue → JsNumber
  | .number n => n
  | .boolean b => .ofNat b.toNat
  | .null => .ofNat 0
  | _ => .nan

def errorOf (error : JsValue) : JsValue :=
  .object ([("code", (error.prop "code").orElse (.string "")),
    ("message", (error.prop "message").orElse (.string ""))] ++
      if error.prop "stack" = .undefined then [] else [("stack", error.prop "stack")])

def fromProtobufPayload (p : Platform) (payload : JsValue) : Except JsError JsValue :=
  if payload.prop "type" = .string "request" then do
    let texts ← mapped ((payload.prop "paramsJson").orElse (.array []))
    let params ← parseAll p texts
    return .object ([("type", .string "request"), ("id", payload.prop "id"),
      ("service", (payload.prop "service").orElse (.string "")),
      ("method", (payload.prop "method").orElse (.string "")), ("params", .array params)] ++
        whenTruthy "metadata" (payload.prop "metadata"))
  else if payload.prop "type" = .string "response" then do
    let result ←
      if payload.prop "resultJson" = .undefined then pure []
      else do
        let value ← parseText p (payload.prop "resultJson")
        pure [("result", value)]
    return .object ([("type", .string "response"), ("id", payload.prop "id"),
      ("ok", (payload.prop "ok").orElse (.boolean false))] ++ result ++
        (if (payload.prop "error").truthy then [("error", errorOf (payload.prop "error"))] else []) ++
        whenTruthy "metadata" (payload.prop "metadata"))
  else if payload.prop "type" = .string "ping" then
    return .object [("type", .string "ping"), ("id", payload.prop "id"),
      ("timestamp", .number (toNumber ((payload.prop "timestamp").orElse (.number (.ofNat 0)))))]
  else if payload.prop "type" = .string "pong" then
    return .object [("type", .string "pong"), ("id", payload.prop "id"),
      ("timestamp", .number (toNumber ((payload.prop "timestamp").orElse (.number (.ofNat 0)))))]
  else do
    let text ← (payload.prop "type").toText
    throw (.platform "Error" s!"Unknown protobuf RPC message type: {text}")

end ProtobufSerializer

open ProtobufSerializer in
def protobufSerializer (p : Platform) (model : Protobufjs) : Serializer where
  name := .protobuf
  serialize message := do
    let payload ← toProtobufPayload p message
    match model.verify payload with
    | some error => throw (.platform "Error" s!"Invalid protobuf RPC message: {error}")
    | none => model.encode payload
  deserialize buffer := do
    let object ← model.decode buffer
    fromProtobufPayload p object

end WeisleyRpc
