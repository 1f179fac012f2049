import WeisleyRpc.CircuitBreaker
import WeisleyRpc.Failover
import WeisleyRpc.RateLimiter

/-!
# Calls of a client

`call` of `rpc-client.ts` around its remote call: the rate limiter, the circuit breaker, the
metrics and the logger. When a remote call settles and with what is up to the environment, and
so is what a method of the logger throws.
-/

namespace WeisleyRpc
open Discovery (getMethodKey getErrorCode)

structure RpcMethodMetrics where
  totalCalls : ℕ
  successCalls : ℕ
  failedCalls : ℕ
  totalDurationMs : ℤ
  averageDurationMs : ℚ
  lastErrorCode : Option String
  deriving DecidableEq

namespace RpcMethodMetrics

def zero : RpcMethodMetrics := ⟨0, 0, 0, 0, 0, none⟩

def record (current : RpcMethodMetrics) (durationMs : ℤ) (success : Bool)
    (errorCode : Option String) : RpcMethodMetrics :=
  let totalCalls := current.totalCalls + 1
  let totalDurationMs := current.totalDurationMs + durationMs
  let current := { current with
    totalCalls
    totalDurationMs
    averageDurationMs := totalDurationMs / totalCalls }
  if success then { current with successCalls := current.successCalls + 1 }
  else { current with failedCalls := current.failedCalls + 1, lastErrorCode := errorCode }

end RpcMethodMetrics

structure RpcClientOptions where
  circuitBreakerOptions : Option CircuitBreakerOptions
  rateLimiterOptions : Option RateLimiterOptions

/-- Where a call stands. A settled one has the outcome of its remote call and what its caller
gets. -/
inductive RpcCallPhase
  | refused (error : Thrown)
  | remote
  | settled (outcome result : Except Thrown JsValue)

/-- The outcomes recorded for it with the breaker and its entries in the metrics are kept with
the call. -/
structure RpcCall where
  service : String
  method : String
  startedAt : ℤ
  phase : RpcCallPhase
  outcomes : List BreakerCall
  entries : List Bool

def RpcCall.methodKey (call : RpcCall) : String := getMethodKey call.service call.method

structure RpcClient where
  circuitBreaker : Option CircuitBreaker
  rateLimiter : Option TokenBucketRateLimiter
  metrics : OrderedMap String RpcMethodMetrics
  calls : OrderedMap String RpcCall

/-- The readings of the clock at the start of a call, by the limiter and by the breaker. -/
structure CallTimes where
  startedAt : ℤ
  limiterAt : ℤ
  breakerAt : ℤ

/-- The readings of the clock for the metrics of a success, by the breaker for a failure, and
for the metrics of a failure. -/
structure SettleTimes where
  endedAt : ℤ
  failedAt : ℤ
  failedEndedAt : ℤ

inductive RpcClientEvent
  | call (id service method : String) (times : CallTimes) (warn : Option Thrown)
  | settled (id : String) (outcome : Except Thrown JsValue) (times : SettleTimes)
    (info error : Option Thrown)
  | resetMetrics

namespace RpcClient

def rateLimited : Thrown := .error (.rpcError "Rate limit exceeded" (.string "RATE_LIMITED"))

def circuitBreakerOpen : Thrown :=
  .error (.rpcError "Circuit breaker is open" (.string "CIRCUIT_BREAKER_OPEN"))

def new (options : RpcClientOptions) (now : ℤ) : RpcClient where
  circuitBreaker := options.circuitBreakerOptions.map CircuitBreaker.new
  rateLimiter := options.rateLimiterOptions.map fun options => .new options now
  metrics := .empty
  calls := .empty

def put (client : RpcClient) (id : String) (call : RpcCall) : RpcClient :=
  { client with calls := client.calls.set id call }

def allow (client : RpcClient) (now : ℤ) : Bool × RpcClient :=
  match client.rateLimiter with
  | some l =>
    let (allowed, l) := l.allow now
    (allowed, { client with rateLimiter := some l })
  | none => (true, client)

def canRequest (client : RpcClient) (methodKey : String) (now : ℤ) : Bool × RpcClient :=
  match client.circuitBreaker with
  | some b =>
    let (admitted, b) := b.canRequest methodKey now
    (admitted, { client with circuitBreaker := some b })
  | none => (true, client)

/-- `call` up to the `await` of the remote call. -/
def call (client : RpcClient) (id service method : String) (times : CallTimes)
    (warn : Option Thrown) : RpcClient :=
  let waiting (phase : RpcCallPhase) : RpcCall :=
    { service, method, startedAt := times.startedAt, phase, outcomes := [], entries := [] }
  let (allowed, client) := client.allow times.limiterAt
  if allowed = false then client.put id (waiting (.refused (warn.getD rateLimited)))
  else
    let (admitted, client) := client.canRequest (getMethodKey service method) times.breakerAt
    if admitted = false then client.put id (waiting (.refused (warn.getD circuitBreakerOpen)))
    else client.put id (waiting .remote)

def recordSuccess (client : RpcClient) (call : RpcCall) : RpcClient × RpcCall :=
  match client.circuitBreaker with
  | some b =>
    ({ client with circuitBreaker := some (b.recordSuccess call.methodKey) },
      { call with outcomes := call.outcomes ++ [.recordSuccess] })
  | none => (client, call)

def recordFailure (client : RpcClient) (call : RpcCall) (now : ℤ) : RpcClient × RpcCall :=
  match client.circuitBreaker with
  | some b =>
    ({ client with circuitBreaker := some (b.recordFailure call.methodKey now) },
      { call with outcomes := call.outcomes ++ [.recordFailure] })
  | none => (client, call)

def recordMetrics (client : RpcClient) (call : RpcCall) (durationMs : ℤ) (success : Bool)
    (errorCode : Option String) : RpcClient × RpcCall :=
  let current := (client.metrics.get call.methodKey).getD .zero
  ({ client with
      metrics := client.metrics.set call.methodKey
        (current.record durationMs success errorCode) },
    { call with entries := call.entries ++ [success] })

/-- The `catch` block, which any exception of the `try` block reaches. -/
def catchError (client : RpcClient) (id : String) (call : RpcCall)
    (outcome : Except Thrown JsValue) (error : Thrown) (times : SettleTimes)
    (logged : Option Thrown) : RpcClient :=
  let (client, call) := client.recordFailure call times.failedAt
  match getErrorCode error with
  | .error e => client.put id { call with phase := .settled outcome (.error (.error e)) }
  | .ok errorCode =>
    let (client, call) :=
      client.recordMetrics call (times.failedEndedAt - call.startedAt) false errorCode
    client.put id { call with phase := .settled outcome (.error (logged.getD error)) }

/-- The rest of the `try` block behind the remote call. -/
def settle (client : RpcClient) (id : String) (call : RpcCall) (outcome : Except Thrown JsValue)
    (times : SettleTimes) (info error : Option Thrown) : RpcClient :=
  match outcome with
  | .ok result =>
    let (client, call) := client.recordSuccess call
    let (client, call) := client.recordMetrics call (times.endedAt - call.startedAt) true none
    match info with
    | none => client.put id { call with phase := .settled outcome (.ok result) }
    | some e => client.catchError id call outcome e times error
  | .error e => client.catchError id call outcome e times error

def resetMetrics (client : RpcClient) : RpcClient := { client with metrics := .empty }

def remoteCall (client : RpcClient) (id : String) : Option RpcCall :=
  match client.calls.get id with
  | some call =>
    match call.phase with
    | .remote => some call
    | _ => none
  | none => none

def Enabled (client : RpcClient) : RpcClientEvent → Prop
  | .call id .. => client.calls.get id = none
  | .settled id .. => client.remoteCall id ≠ none
  | .resetMetrics => True

instance (client : RpcClient) (e : RpcClientEvent) : Decidable (client.Enabled e) :=
  match e with
  | .call id .. => inferInstanceAs (Decidable (client.calls.get id = none))
  | .settled id .. => inferInstanceAs (Decidable (client.remoteCall id ≠ none))
  | .resetMetrics => inferInstanceAs (Decidable True)

def apply (client : RpcClient) : RpcClientEvent → RpcClient
  | .call id service method times warn => client.call id service method times warn
  | .settled id outcome times info error =>
    match client.remoteCall id with
    | some call => client.settle id call outcome times info error
    | none => client
  | .resetMetrics => client.resetMetrics

def machine : Machine RpcClient RpcClientEvent Empty where
  Enabled := Enabled
  apply client e := .ok (client.apply e)

instance (client : RpcClient) (e : RpcClientEvent) : Decidable (machine.Enabled client e) :=
  inferInstanceAs (Decidable (client.Enabled e))

end RpcClient

end WeisleyRpc
