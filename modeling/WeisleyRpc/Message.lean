import WeisleyRpc.JsValue

/-!
# Errors and messages of the runtime

The error classes of `errors.ts` and the messages that client and server build.
-/

namespace WeisleyRpc

/-- `new RpcError(message, code)` on values of any type. -/
def newRpcError (message code : JsValue) : Except JsError JsError := do
  let text ← if message = .undefined then .ok "" else message.toText
  return .rpcError text (if code = .undefined then .string "RPC_ERROR" else code)

def rpcError (message code : String) : JsError := .rpcError message (.string code)

def serviceNotFoundError (service : JsValue) : Except JsError JsError := do
  let text ← service.toText
  return rpcError s!"Service not found: {text}" "SERVICE_NOT_FOUND"

def methodNotFoundError (service method : JsValue) : Except JsError JsError := do
  let serviceText ← service.toText
  let methodText ← method.toText
  return rpcError s!"Method not found: {serviceText}.{methodText}" "METHOD_NOT_FOUND"

def rpcTimeoutError (timeoutMs : JsNumber) : JsError :=
  rpcError s!"RPC request timed out after {timeoutMs.toText}ms" "RPC_TIMEOUT"

/-- The metadata as a field of a message, when there is any. -/
def metadataField : Option (List (String × String)) → List (String × JsValue)
  | none => []
  | some metadata => [("metadata", .object (metadata.map fun e => (e.1, .string e.2)))]

/-- A request as its type has it; the metadata may be missing. -/
structure RpcRequest where
  id : String
  service : String
  method : String
  params : List JsValue
  metadata : Option (List (String × String))

def RpcRequest.toValue (request : RpcRequest) : JsValue :=
  .object ([("type", .string "request"), ("id", .string request.id),
    ("service", .string request.service), ("method", .string request.method),
    ("params", .array request.params)] ++ metadataField request.metadata)

namespace RpcRequest
variable (request : RpcRequest)

@[simp] theorem prop_type : request.toValue.prop "type" = .string "request" := rfl
@[simp] theorem prop_id : request.toValue.prop "id" = .string request.id := rfl
@[simp] theorem prop_service : request.toValue.prop "service" = .string request.service := rfl
@[simp] theorem prop_method : request.toValue.prop "method" = .string request.method := rfl
@[simp] theorem prop_params : request.toValue.prop "params" = .array request.params := rfl

end RpcRequest

structure RpcErrorObject where
  code : String
  message : String
  stack : Option String

def RpcErrorObject.toValue (error : RpcErrorObject) : JsValue :=
  .object ([("code", .string error.code), ("message", .string error.message)] ++
    match error.stack with
    | none => []
    | some stack => [("stack", .string stack)])

/-- A result that is `undefined` is an absent one. -/
structure RpcResponse where
  id : String
  ok : Bool
  result : JsValue
  error : Option RpcErrorObject
  metadata : Option (List (String × String))

def RpcResponse.toValue (response : RpcResponse) : JsValue :=
  .object ([("type", .string "response"), ("id", .string response.id),
    ("ok", .boolean response.ok)] ++
      (if response.result = .undefined then [] else [("result", response.result)]) ++
      (match response.error with
        | none => []
        | some error => [("error", error.toValue)]) ++ metadataField response.metadata)

def pingMessage (id : JsValue) (timestamp : ℚ) : JsValue :=
  .object [("type", .string "ping"), ("id", id), ("timestamp", .number (.finite timestamp))]

def pongMessage (id : JsValue) (timestamp : ℚ) : JsValue :=
  .object [("type", .string "pong"), ("id", id), ("timestamp", .number (.finite timestamp))]

inductive RpcMessage
  | request (request : RpcRequest)
  | response (response : RpcResponse)
  | ping (id : String) (timestamp : ℤ)
  | pong (id : String) (timestamp : ℤ)

def RpcMessage.toValue : RpcMessage → JsValue
  | .request r => r.toValue
  | .response r => r.toValue
  | .ping id timestamp => pingMessage (.string id) timestamp
  | .pong id timestamp => pongMessage (.string id) timestamp

def successResponse (request result : JsValue) : JsValue :=
  .object [("type", .string "response"), ("id", request.prop "id"), ("ok", .boolean true),
    ("result", result), ("metadata", request.prop "metadata")]

def failureResponse (request error : JsValue) : JsValue :=
  .object [("type", .string "response"), ("id", request.prop "id"), ("ok", .boolean false),
    ("error", error), ("metadata", request.prop "metadata")]

def drainingError : JsValue :=
  .object [("code", .string "SERVER_DRAINING"), ("message", .string "RPC server is draining")]

/-- The refusal copies the metadata only when it is truthy. -/
def drainingResponse (request : JsValue) : JsValue :=
  .object ([("type", .string "response"), ("id", request.prop "id"), ("ok", .boolean false),
    ("error", drainingError)] ++
    if (request.prop "metadata").truthy then [("metadata", request.prop "metadata")] else [])

end WeisleyRpc
