import WeisleyRpc.LoadBalancers

/-!
# Retry policies

`retry-policy.ts`, and the reading of an error's code in `rpc-client.ts`. What a server sends
as a code need not be a string, and some values have no text at all.
-/

namespace WeisleyRpc.Discovery

/-- `String(error.code)` of an object that has a code. -/
def getErrorCode : Thrown → Except JsError (Option String)
  | .error (.rpcError _ code) => code.toText.map some
  | .error (.native _ _ _ code) => .ok code
  | .value (.object fields) =>
    match fields.lookup "code" with
    | some code => code.toText.map some
    | none => .ok none
  | .value _ => .ok none

structure RetryContext where
  serviceName : String
  method : String
  attempt : ℕ
  maxAttempts : ℕ
  endpoint : Endpoint
  errorCode : Option String
  deriving DecidableEq

namespace DefaultRetryPolicy

def retryableRpcCodes : List String :=
  ["CONNECTION_CLOSED", "CONNECTION_NOT_OPEN", "CONNECTION_NOT_CONNECTED", "RPC_TIMEOUT",
    "HEARTBEAT_TIMEOUT", "SERVER_DRAINING"]

def retryableNodeCodes : List String := ["ECONNREFUSED", "ECONNRESET", "ETIMEDOUT", "EPIPE"]

/-- The code of an `RpcError` is compared as it is, any other one as a text. -/
def shouldRetry (error : Thrown) (_context : RetryContext) : Except JsError Bool :=
  match error with
  | .error (.rpcError _ (.string code)) => .ok (code ∈ retryableRpcCodes)
  | .error (.rpcError _ _) => .ok false
  | error => do
    match ← getErrorCode error with
    | some code => return code ∈ retryableNodeCodes
    | none => return false

end DefaultRetryPolicy

end WeisleyRpc.Discovery
