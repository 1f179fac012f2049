import WeisleyRpc.Machine
import WeisleyRpc.RpcClient

/-!
# What a settled call records

The settlement of a call says what the breaker and the metrics are given for it, in the order
of the source, and what its caller gets. Nothing in it depends on the other calls.
-/

namespace WeisleyRpc
open Discovery (getMethodKey getErrorCode)

deriving instance DecidableEq for RpcCallPhase, RpcCall

structure MetricsEntry where
  durationMs : ℤ
  success : Bool
  errorCode : Option String
  deriving DecidableEq

structure Settlement where
  outcomes : List BreakerCall
  entries : List MetricsEntry
  result : Except Thrown JsValue

def failureEntries (durationMs : ℤ) (error : Thrown) : List MetricsEntry :=
  match getErrorCode error with
  | .error _ => []
  | .ok errorCode => [⟨durationMs, false, errorCode⟩]

def failureThrown (error : Thrown) (logged : Option Thrown) : Thrown :=
  match getErrorCode error with
  | .error e => .error e
  | .ok _ => logged.getD error

def settlement (startedAt : ℤ) (outcome : Except Thrown JsValue) (times : SettleTimes)
    (info error : Option Thrown) : Settlement :=
  match outcome, info with
  | .ok result, none =>
    ⟨[.recordSuccess], [⟨times.endedAt - startedAt, true, none⟩], .ok result⟩
  | .ok _, some e =>
    ⟨[.recordSuccess, .recordFailure],
      ⟨times.endedAt - startedAt, true, none⟩ ::
        failureEntries (times.failedEndedAt - startedAt) e,
      .error (failureThrown e error)⟩
  | .error e, _ =>
    ⟨[.recordFailure], failureEntries (times.failedEndedAt - startedAt) e,
      .error (failureThrown e error)⟩

theorem result_of_settlement {startedAt : ℤ} {outcome : Except Thrown JsValue}
    {times : SettleTimes} {info error : Option Thrown} {value : JsValue}
    (h : (settlement startedAt outcome times info error).result = .ok value) :
    outcome = .ok value := by
  unfold settlement at h
  split at h
  · exact h
  · cases h
  · cases h

namespace RpcClient

def enterMetrics (key : String) (metrics : OrderedMap String RpcMethodMetrics)
    (entry : MetricsEntry) : OrderedMap String RpcMethodMetrics :=
  metrics.set key
    (((metrics.get key).getD .zero).record entry.durationMs entry.success entry.errorCode)

/-- The state after a settlement. -/
def settledBy (client : RpcClient) (id : String) (call : RpcCall)
    (outcome : Except Thrown JsValue) (now : ℤ) (s : Settlement) : RpcClient where
  circuitBreaker := client.circuitBreaker.map fun b =>
    s.outcomes.foldl (fun b outcome => b.apply ⟨outcome, call.methodKey, now⟩) b
  rateLimiter := client.rateLimiter
  metrics := s.entries.foldl (enterMetrics call.methodKey) client.metrics
  calls := client.calls.set id { call with
    phase := .settled outcome s.result
    outcomes := call.outcomes ++ if client.circuitBreaker.isSome then s.outcomes else []
    entries := call.entries ++ s.entries.map MetricsEntry.success }

section Records
variable (client : RpcClient) (call : RpcCall) (now : ℤ)

theorem recordSuccess_eq : client.recordSuccess call =
    ({ client with
        circuitBreaker := client.circuitBreaker.map fun b =>
          b.apply ⟨.recordSuccess, call.methodKey, now⟩ },
      { call with
        outcomes := call.outcomes ++
          if client.circuitBreaker.isSome then [.recordSuccess] else [] }) := by
  obtain ⟨breaker, rateLimiter, metrics, calls⟩ := client
  cases breaker with
  | none => simp [recordSuccess]
  | some b => rfl

theorem recordFailure_eq : client.recordFailure call now =
    ({ client with
        circuitBreaker := client.circuitBreaker.map fun b =>
          b.apply ⟨.recordFailure, call.methodKey, now⟩ },
      { call with
        outcomes := call.outcomes ++
          if client.circuitBreaker.isSome then [.recordFailure] else [] }) := by
  obtain ⟨breaker, rateLimiter, metrics, calls⟩ := client
  cases breaker with
  | none => simp [recordFailure]
  | some b => rfl

theorem recordMetrics_eq (durationMs : ℤ) (success : Bool) (errorCode : Option String) :
    client.recordMetrics call durationMs success errorCode =
      ({ client with
          metrics := enterMetrics call.methodKey client.metrics
            ⟨durationMs, success, errorCode⟩ },
        { call with entries := call.entries ++ [success] }) := rfl

end Records

theorem settle_eq (client : RpcClient) (id : String) (call : RpcCall)
    (outcome : Except Thrown JsValue) (times : SettleTimes) (info error : Option Thrown) :
    client.settle id call outcome times info error =
      client.settledBy id call outcome times.failedAt
        (settlement call.startedAt outcome times info error) := by
  obtain ⟨breaker, rateLimiter, metrics, calls⟩ := client
  cases outcome with
  | error e =>
    simp only [settle, catchError, settlement, failureEntries, failureThrown, settledBy,
      recordFailure_eq, recordMetrics_eq]
    cases getErrorCode e with
    | error e' => cases breaker <;> simp [put]
    | ok code => cases breaker <;> simp [put, RpcCall.methodKey]
  | ok result =>
    simp only [settle, settlement, recordSuccess_eq _ _ times.failedAt, recordMetrics_eq]
    cases info with
    | none => cases breaker <;> simp [put, settledBy, RpcCall.methodKey]
    | some e =>
      simp only [catchError, failureEntries, failureThrown, settledBy, recordFailure_eq,
        recordMetrics_eq]
      cases getErrorCode e with
      | error e' => cases breaker <;> simp [put, RpcCall.methodKey]
      | ok code => cases breaker <;> simp [put, RpcCall.methodKey]

/-- What becomes of a call before its remote call. -/
def admission (client : RpcClient) (methodKey : String) (times : CallTimes)
    (warn : Option Thrown) : RpcCallPhase :=
  if (client.allow times.limiterAt).1 = false then .refused (warn.getD rateLimited)
  else if (client.canRequest methodKey times.breakerAt).1 = false then
    .refused (warn.getD circuitBreakerOpen)
  else .remote

/-- The state after the start of a call; only an allowed call asks the breaker. -/
def begunBy (client : RpcClient) (id service method : String) (times : CallTimes)
    (warn : Option Thrown) : RpcClient where
  circuitBreaker :=
    if (client.allow times.limiterAt).1 = false then client.circuitBreaker
    else client.circuitBreaker.map fun b =>
      b.apply ⟨.canRequest, getMethodKey service method, times.breakerAt⟩
  rateLimiter := (client.allow times.limiterAt).2.rateLimiter
  metrics := client.metrics
  calls := client.calls.set id
    { service, method
      startedAt := times.startedAt
      phase := client.admission (getMethodKey service method) times warn
      outcomes := []
      entries := [] }

theorem call_eq (client : RpcClient) (id service method : String) (times : CallTimes)
    (warn : Option Thrown) :
    client.call id service method times warn = client.begunBy id service method times warn := by
  obtain ⟨breaker, limiter, metrics, calls⟩ := client
  unfold call begunBy admission
  by_cases hallow : (allow ⟨breaker, limiter, metrics, calls⟩ times.limiterAt).1 = false
  · simp only [hallow, if_true]
    cases limiter <;> rfl
  · simp only [hallow]
    by_cases hadmit : (canRequest ⟨breaker, limiter, metrics, calls⟩
      (getMethodKey service method) times.breakerAt).1 = false
    · cases limiter <;> cases breaker <;> simp_all [allow, canRequest, put, CircuitBreaker.apply]
    · cases limiter <;> cases breaker <;> simp_all [allow, canRequest, put, CircuitBreaker.apply]

/-- The method and the start of the call `id`. -/
def startOf (client : RpcClient) (id : String) : Option (String × ℤ) :=
  (client.calls.get id).map fun call => (call.methodKey, call.startedAt)

variable {client client' : RpcClient} {e : RpcClientEvent} {id : String} {call : RpcCall}

theorem remoteCall_of_remote (hget : client.calls.get id = some call)
    (hphase : call.phase = .remote) : client.remoteCall id = some call := by
  simp only [remoteCall, hget, hphase]

theorem remoteCall_of_ne_remote (hget : client.calls.get id = some call)
    (hphase : call.phase ≠ .remote) : client.remoteCall id = none := by
  rw [remoteCall, hget]
  cases h : call.phase with
  | remote => exact absurd h hphase
  | refused error => simp only [h]
  | settled outcome result => simp only [h]

theorem remoteCall_eq_some_iff : client.remoteCall id = some call ↔
    client.calls.get id = some call ∧ call.phase = .remote := by
  constructor
  · intro h
    cases hget : client.calls.get id with
    | none =>
      simp only [remoteCall, hget] at h
      cases h
    | some call' =>
      by_cases hphase : call'.phase = .remote
      · rw [remoteCall_of_remote hget hphase] at h
        obtain rfl := Option.some.inj h
        exact ⟨rfl, hphase⟩
      · rw [remoteCall_of_ne_remote hget hphase] at h
        cases h
  · rintro ⟨hget, hphase⟩
    exact remoteCall_of_remote hget hphase

theorem remoteCall_ne_none (h : client.remoteCall id ≠ none) : ∃ call,
    client.remoteCall id = some call ∧ client.calls.get id = some call ∧ call.phase = .remote := by
  obtain ⟨call, hremote⟩ := Option.ne_none_iff_exists'.1 h
  exact ⟨call, hremote, remoteCall_eq_some_iff.1 hremote⟩

/-- What an event makes of the client. -/
inductive Effect (client : RpcClient) : RpcClientEvent → RpcClient → Prop
  | call (id service method : String) (times : CallTimes) (warn : Option Thrown) :
      client.calls.get id = none → Effect client (.call id service method times warn)
        (client.begunBy id service method times warn)
  | settled (id : String) (call : RpcCall) (outcome : Except Thrown JsValue) (times : SettleTimes)
      (info error : Option Thrown) : client.calls.get id = some call → call.phase = .remote →
      Effect client (.settled id outcome times info error)
        (client.settledBy id call outcome times.failedAt
          (settlement call.startedAt outcome times info error))
  | resetMetrics : Effect client .resetMetrics { client with metrics := .empty }

theorem step_effect (hs : machine.Step client e client') : Effect client e client' := by
  obtain ⟨henabled, happly⟩ := hs
  obtain rfl := Except.ok.inj happly
  cases e with
  | call id service method times warn =>
    rw [apply, call_eq]
    exact .call id service method times warn henabled
  | settled id outcome times info error =>
    obtain ⟨call, hremote, hget, hphase⟩ := remoteCall_ne_none henabled
    simp only [apply, hremote, settle_eq]
    exact .settled id call outcome times info error hget hphase
  | resetMetrics => exact .resetMetrics

theorem isSome_step (h : Effect client e client') :
    client'.circuitBreaker.isSome = client.circuitBreaker.isSome := by
  cases h with
  | call id service method times warn _ =>
    simp only [begunBy]
    split_ifs
    · rfl
    · exact Option.isSome_map
  | settled id call outcome times info error _ _ => exact Option.isSome_map
  | resetMetrics => rfl

/-- The method and the start of a call do not change. -/
theorem startOf_step (h : Effect client e client') (hknown : client.calls.get id ≠ none) :
    client'.startOf id = client.startOf id := by
  cases h with
  | call id' service method times warn hnone =>
    have hne : id ≠ id' := by
      rintro rfl
      exact hknown hnone
    simp only [startOf, begunBy, OrderedMap.get_set, if_neg hne]
  | settled id' call outcome times info error hget _ =>
    simp only [startOf, settledBy, OrderedMap.get_set]
    by_cases hid : id = id'
    · rw [if_pos hid, hid, hget]
      rfl
    · rw [if_neg hid]
  | resetMetrics => rfl

theorem known_step (h : Effect client e client') (hknown : client.calls.get id ≠ none) :
    client'.calls.get id ≠ none := by
  have hstart := startOf_step h hknown
  intro hnone
  rw [startOf, startOf, hnone] at hstart
  exact hknown (Option.map_eq_none_iff.1 hstart.symm)

end RpcClient

end WeisleyRpc
