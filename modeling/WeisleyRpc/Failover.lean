import WeisleyRpc.BalancerHistories
import WeisleyRpc.JsArithmetic
import WeisleyRpc.Machine
import WeisleyRpc.RetryPolicy

/-!
# Discovery calls with failover

`callWithDiscoveryFailover` of `rpc-client.ts`: every call runs its own loop of attempts, and
all loops of a client ask one load balancer. What the registry lists, what an attempt comes to
and what the retry policy answers are part of the events; between an attempt and the next
selection of its call any other event may happen.
-/

namespace WeisleyRpc.Discovery

structure RetryRule where
  maxAttempts : Option JsNumber
  initialBackoffMs : Option JsNumber
  maxBackoffMs : Option JsNumber

structure RetryOptions where
  retryMaxAttempts : Option JsNumber
  retryInitialBackoffMs : Option JsNumber
  retryMaxBackoffMs : Option JsNumber
  retryRules : OrderedMap String RetryRule

def getMethodKey (service method : String) : String := s!"{service}.{method}"

namespace RetryOptions

def getRetryRule (options : RetryOptions) (serviceName method : String) : Option RetryRule :=
  options.retryRules.get (getMethodKey serviceName method)

def getMaxAttempts (options : RetryOptions) (serviceName method : String) (endpointCount : ℕ) :
    ℕ :=
  let rule := options.getRetryRule serviceName method
  match (rule.bind RetryRule.maxAttempts).or options.retryMaxAttempts with
  | some (.finite configured) => (max 1 (min ⌊configured⌋ endpointCount)).toNat
  | _ => endpointCount

def getRetryBackoffMs (options : RetryOptions) (serviceName method : String) (attempt : ℕ) :
    JsNumber :=
  let rule := options.getRetryRule serviceName method
  let initialDelay :=
    ((rule.bind RetryRule.initialBackoffMs).or options.retryInitialBackoffMs).getD (.finite 0)
  if initialDelay.leNat 0 then .finite 0
  else
    let maxDelay :=
      ((rule.bind RetryRule.maxBackoffMs).or options.retryMaxBackoffMs).getD initialDelay
    (initialDelay.mul (.twoPow (attempt - 1))).min maxDelay

end RetryOptions

/-- Where a call waits; `running` is inside one of its synchronous parts. -/
inductive CallPhase
  | running
  | attempting (endpoint : Endpoint)
  | backingOff (backoffMs : JsNumber)
  | returned (value : JsValue)
  | thrown (error : Thrown)

/-- An attempt that failed, and whether the retry policy was asked and allowed another. -/
structure FailedAttempt where
  endpoint : Endpoint
  error : Thrown
  retry : Bool

/-- The local variables of the loop, and the endpoints and failures of its attempts. -/
structure DiscoveryCall where
  serviceName : String
  method : String
  endpoints : List Endpoint
  maxAttempts : ℕ
  attempt : ℕ
  lastError : Option Thrown
  phase : CallPhase
  attempted : List Endpoint
  failures : List FailedAttempt

def DiscoveryCall.failed (call : DiscoveryCall) (endpoint : Endpoint) (error : Thrown)
    (retry : Bool) : DiscoveryCall :=
  { call with
    lastError := some error
    failures := call.failures ++ [⟨endpoint, error, retry⟩] }

def DiscoveryCall.retryContext (call : DiscoveryCall) (endpoint : Endpoint)
    (errorCode : Option String) : RetryContext where
  serviceName := call.serviceName
  method := call.method
  attempt := call.attempt + 1
  maxAttempts := call.maxAttempts
  endpoint := endpoint
  errorCode := errorCode

/-- What is thrown behind the loop. -/
def DiscoveryCall.exhausted (call : DiscoveryCall) : Thrown :=
  match call.lastError with
  | some (.error e) => .error e
  | _ => .error (.platform "Error" s!"No available endpoint for service: {call.serviceName}")

structure DiscoveryClient where
  loadBalancer : LoadBalancer
  calls : OrderedMap String DiscoveryCall
  balancing : List BalancerEvent

inductive ClientEvent
  | call (id serviceName method : String) (endpoints : List Endpoint) (random : Draw)
  | succeeded (id : String) (value : JsValue)
  | failed (id : String) (error : Thrown) (retry : Bool)
  | woken (id : String) (random : Draw)
  | setActiveCount (endpoint : Endpoint) (count : JsNumber)

namespace DiscoveryClient

def start (loadBalancer : LoadBalancer) : DiscoveryClient := ⟨loadBalancer, .empty, []⟩

def put (client : DiscoveryClient) (id : String) (call : DiscoveryCall) : DiscoveryClient :=
  { client with calls := client.calls.set id call }

/-- The head of the loop, up to the `await` of the attempt. -/
def iterate (client : DiscoveryClient) (id : String) (call : DiscoveryCall) (random : Draw) :
    DiscoveryClient :=
  if call.attempt < call.maxAttempts then
    let asked : Selection := ⟨id, call.serviceName, call.endpoints, random⟩
    let balancing := client.balancing ++ [.select asked]
    match client.loadBalancer.select call.serviceName call.endpoints random with
    | .ok (endpoint, loadBalancer) =>
      put { client with loadBalancer, balancing } id { call with
        phase := .attempting endpoint
        attempted := call.attempted ++ [endpoint] }
    | .error e => put { client with balancing } id { call with phase := .thrown (.error e) }
  else client.put id { call with phase := .thrown call.exhausted }

def callWithDiscoveryFailover (options : RetryOptions) (client : DiscoveryClient)
    (id serviceName method : String) (endpoints : List Endpoint) (random : Draw) :
    DiscoveryClient :=
  client.iterate id
    { serviceName, method, endpoints
      maxAttempts := options.getMaxAttempts serviceName method endpoints.length
      attempt := 0
      lastError := none
      phase := .running
      attempted := []
      failures := [] } random

/-- The `catch` block, up to the `await` of the sleep; `retry` is the policy's answer. -/
def attemptFailed (options : RetryOptions) (client : DiscoveryClient) (id : String)
    (call : DiscoveryCall) (endpoint : Endpoint) (error : Thrown) (retry : Bool) :
    DiscoveryClient :=
  match getErrorCode error with
  | .error e => client.put id { call.failed endpoint error false with phase := .thrown (.error e) }
  | .ok errorCode =>
    let retryContext := call.retryContext endpoint errorCode
    let call := call.failed endpoint error retry
    if retry = false then client.put id { call with phase := .thrown error }
    else
      let next := { call with attempt := call.attempt + 1 }
      if retryContext.attempt < retryContext.maxAttempts then
        client.put id { next with
          phase := .backingOff
            (options.getRetryBackoffMs call.serviceName call.method retryContext.attempt) }
      else client.put id { next with phase := .thrown next.exhausted }

/-- What the `catch` block makes of a call. -/
inductive FailedStep (options : RetryOptions) (call : DiscoveryCall) (endpoint : Endpoint)
    (error : Thrown) : Bool → DiscoveryCall → Prop
  | unread {e : JsError} (retry : Bool) : getErrorCode error = .error e →
      FailedStep options call endpoint error retry
        { call.failed endpoint error false with phase := .thrown (.error e) }
  | refused : FailedStep options call endpoint error false
      { call.failed endpoint error false with phase := .thrown error }
  | sleeps : call.attempt + 1 < call.maxAttempts → FailedStep options call endpoint error true
      { call.failed endpoint error true with
        attempt := call.attempt + 1
        phase := .backingOff
          (options.getRetryBackoffMs call.serviceName call.method (call.attempt + 1)) }
  | exhausted : call.maxAttempts ≤ call.attempt + 1 → FailedStep options call endpoint error true
      { call.failed endpoint error true with
        attempt := call.attempt + 1
        phase := .thrown (call.failed endpoint error true).exhausted }

theorem attemptFailed_step (options : RetryOptions) (client : DiscoveryClient) (id : String)
    (call : DiscoveryCall) (endpoint : Endpoint) (error : Thrown) (retry : Bool) :
    ∃ call', FailedStep options call endpoint error retry call' ∧
      client.attemptFailed options id call endpoint error retry = client.put id call' := by
  unfold attemptFailed
  cases hcode : getErrorCode error with
  | error e => exact ⟨_, .unread retry hcode, rfl⟩
  | ok errorCode =>
    cases retry with
    | false => exact ⟨_, .refused, rfl⟩
    | true =>
      by_cases hlt : call.attempt + 1 < call.maxAttempts
      · exact ⟨_, .sleeps hlt, if_pos hlt⟩
      · exact ⟨_, .exhausted (Nat.le_of_not_lt hlt), if_neg hlt⟩

def attemptingAt (client : DiscoveryClient) (id : String) : Option (DiscoveryCall × Endpoint) :=
  match client.calls.get id with
  | some call =>
    match call.phase with
    | .attempting endpoint => some (call, endpoint)
    | _ => none
  | none => none

def sleepingCall (client : DiscoveryClient) (id : String) : Option DiscoveryCall :=
  match client.calls.get id with
  | some call =>
    match call.phase with
    | .backingOff _ => some call
    | _ => none
  | none => none

def Enabled (client : DiscoveryClient) : ClientEvent → Prop
  | .call id .. => client.calls.get id = none
  | .succeeded id _ => client.attemptingAt id ≠ none
  | .failed id .. => client.attemptingAt id ≠ none
  | .woken id _ => client.sleepingCall id ≠ none
  | .setActiveCount .. => True

instance (client : DiscoveryClient) (e : ClientEvent) : Decidable (client.Enabled e) :=
  match e with
  | .call id .. => inferInstanceAs (Decidable (client.calls.get id = none))
  | .succeeded id _ | .failed id .. => inferInstanceAs (Decidable (client.attemptingAt id ≠ none))
  | .woken id _ => inferInstanceAs (Decidable (client.sleepingCall id ≠ none))
  | .setActiveCount .. => inferInstanceAs (Decidable True)

def apply (options : RetryOptions) (client : DiscoveryClient) : ClientEvent → DiscoveryClient
  | .call id serviceName method endpoints random =>
    client.callWithDiscoveryFailover options id serviceName method endpoints random
  | .succeeded id value =>
    match client.attemptingAt id with
    | some (call, _) => client.put id { call with phase := .returned value }
    | none => client
  | .failed id error retry =>
    match client.attemptingAt id with
    | some (call, endpoint) => client.attemptFailed options id call endpoint error retry
    | none => client
  | .woken id random =>
    match client.sleepingCall id with
    | some call => client.iterate id call random
    | none => client
  | .setActiveCount endpoint count =>
    { client with
      loadBalancer := client.loadBalancer.setActiveCount endpoint count
      balancing := client.balancing ++ [.setActiveCount endpoint count] }

def machine (options : RetryOptions) : Machine DiscoveryClient ClientEvent Empty where
  Enabled := Enabled
  apply client e := .ok (client.apply options e)

instance (options : RetryOptions) (client : DiscoveryClient) (e : ClientEvent) :
    Decidable ((machine options).Enabled client e) :=
  inferInstanceAs (Decidable (client.Enabled e))

end DiscoveryClient

end WeisleyRpc.Discovery
