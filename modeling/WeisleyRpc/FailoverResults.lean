import WeisleyRpc.FailoverRuns
import WeisleyRpc.RetryLoop

/-!
# What a failover comes to

Every call of a client goes through the retry loop of its own outcomes, whatever the other
calls do.
-/

namespace WeisleyRpc.Discovery

/-- What the head of the loop makes of a call. -/
inductive DiscoveryCall.Iterated (call : DiscoveryCall) : DiscoveryCall → Prop
  | attempts (endpoint : Endpoint) : call.attempt < call.maxAttempts → endpoint ∈ call.endpoints →
      Iterated call { call with
        phase := .attempting endpoint
        attempted := call.attempted ++ [endpoint] }
  | nothing : call.attempt < call.maxAttempts → call.endpoints = [] →
      Iterated call { call with phase := .thrown (.error (noEndpointsAvailable call.serviceName)) }
  | exhausted : call.maxAttempts ≤ call.attempt →
      Iterated call { call with phase := .thrown call.exhausted }

/-- A call as it enters the loop. -/
def DiscoveryCall.new (options : RetryOptions) (serviceName method : String)
    (endpoints : List Endpoint) : DiscoveryCall where
  serviceName := serviceName
  method := method
  endpoints := endpoints
  maxAttempts := options.getMaxAttempts serviceName method endpoints.length
  attempt := 0
  lastError := none
  phase := .running
  attempted := []
  failures := []

def ClientEvent.callId : ClientEvent → Option String
  | .call id .. => some id
  | .succeeded id _ => some id
  | .failed id .. => some id
  | .woken id _ => some id
  | .setActiveCount .. => none

/-- What an event makes of the call `id`. -/
inductive CallStep (options : RetryOptions) (id : String) :
    ClientEvent → Option DiscoveryCall → Option DiscoveryCall → Prop
  | other {e : ClientEvent} (call : Option DiscoveryCall) : e.callId ≠ some id →
      CallStep options id e call call
  | started {serviceName method : String} {endpoints : List Endpoint} {call : DiscoveryCall}
      (random : Draw) : (DiscoveryCall.new options serviceName method endpoints).Iterated call →
      CallStep options id (.call id serviceName method endpoints random) none (some call)
  | succeeded {call : DiscoveryCall} {endpoint : Endpoint} (value : JsValue) :
      call.phase = .attempting endpoint →
      CallStep options id (.succeeded id value) (some call)
        (some { call with phase := .returned value })
  | failed {call call' : DiscoveryCall} {endpoint : Endpoint} {error : Thrown} {retry : Bool} :
      call.phase = .attempting endpoint →
      DiscoveryClient.FailedStep options call endpoint error retry call' →
      CallStep options id (.failed id error retry) (some call) (some call')
  | woken {call call' : DiscoveryCall} {backoffMs : JsNumber} (random : Draw) :
      call.phase = .backingOff backoffMs → call.Iterated call' →
      CallStep options id (.woken id random) (some call) (some call')

namespace DiscoveryClient
variable {options : RetryOptions} {client client' : DiscoveryClient} {e : ClientEvent}

theorem iterate_step (client : DiscoveryClient) (id : String) (call : DiscoveryCall)
    (random : Draw) : ∃ call', call.Iterated call' ∧
      (client.iterate id call random).calls = client.calls.set id call' := by
  by_cases hlt : call.attempt < call.maxAttempts
  · by_cases hnil : call.endpoints = []
    · refine ⟨_, .nothing hlt hnil, ?_⟩
      rw [iterate, if_pos hlt, hnil, LoadBalancer.select_nil]
      rfl
    · obtain ⟨k, endpoint, -, hget, hsel⟩ :=
        client.loadBalancer.select_spec call.serviceName random hnil
      refine ⟨_, .attempts endpoint hlt (List.mem_of_getElem? hget), ?_⟩
      rw [iterate, if_pos hlt, hsel]
      rfl
  · refine ⟨_, .exhausted (Nat.le_of_not_lt hlt), ?_⟩
    rw [iterate, if_neg hlt]
    rfl

theorem attemptingAt_ne_none {id : String} (h : client.attemptingAt id ≠ none) :
    ∃ call endpoint, client.attemptingAt id = some (call, endpoint) ∧
      client.calls.get id = some call ∧ call.phase = .attempting endpoint := by
  obtain ⟨⟨call, endpoint⟩, hat⟩ := Option.ne_none_iff_exists'.1 h
  exact ⟨call, endpoint, hat, attemptingAt_eq_some hat⟩

theorem sleepingCall_ne_none {id : String} (h : client.sleepingCall id ≠ none) :
    ∃ call backoffMs, client.sleepingCall id = some call ∧
      client.calls.get id = some call ∧ call.phase = .backingOff backoffMs := by
  obtain ⟨call, hat⟩ := Option.ne_none_iff_exists'.1 h
  obtain ⟨hget, backoffMs, hphase⟩ := sleepingCall_eq_some hat
  exact ⟨call, backoffMs, hat, hget, hphase⟩

theorem get_put (client : DiscoveryClient) (id id' : String) (call : DiscoveryCall) :
    (client.put id' call).calls.get id = if id = id' then some call else client.calls.get id := by
  rw [put, OrderedMap.get_set]

theorem call_step (hs : (machine options).Step client e client') (id : String) :
    CallStep options id e (client.calls.get id) (client'.calls.get id) := by
  obtain ⟨henabled, happly⟩ := hs
  obtain rfl := Except.ok.inj happly
  cases e with
  | call id' serviceName method endpoints random =>
    obtain ⟨call', hiterated, hcalls⟩ := client.iterate_step id'
      (DiscoveryCall.new options serviceName method endpoints) random
    have hget : (client.apply options (.call id' serviceName method endpoints random)).calls =
        client.calls.set id' call' := hcalls
    rw [hget, OrderedMap.get_set]
    split_ifs with hid
    · subst hid
      have hnone : client.calls.get id = none := henabled
      rw [hnone]
      exact .started random hiterated
    · exact .other _ (fun h => hid (Option.some.inj h).symm)
  | succeeded id' value =>
    obtain ⟨call, endpoint, hat, hget, hphase⟩ := attemptingAt_ne_none henabled
    simp only [DiscoveryClient.apply, hat, get_put]
    split_ifs with hid
    · subst hid
      rw [hget]
      exact .succeeded value hphase
    · exact .other _ (fun h => hid (Option.some.inj h).symm)
  | failed id' error retry =>
    obtain ⟨call, endpoint, hat, hget, hphase⟩ := attemptingAt_ne_none henabled
    obtain ⟨call', hfailed, heq⟩ :=
      attemptFailed_step options client id' call endpoint error retry
    simp only [DiscoveryClient.apply, hat, heq, get_put]
    split_ifs with hid
    · subst hid
      rw [hget]
      exact .failed hphase hfailed
    · exact .other _ (fun h => hid (Option.some.inj h).symm)
  | woken id' random =>
    obtain ⟨call, backoffMs, hat, hget, hphase⟩ := sleepingCall_ne_none henabled
    obtain ⟨call', hiterated, hcalls⟩ := client.iterate_step id' call random
    simp only [DiscoveryClient.apply, hat, hcalls, OrderedMap.get_set]
    split_ifs with hid
    · subst hid
      rw [hget]
      exact .woken random hphase hiterated
    · exact .other _ (fun h => hid (Option.some.inj h).symm)
  | setActiveCount endpoint count => exact .other _ (fun h => by cases h)

end DiscoveryClient

abbrev AttemptOutcome := RetryLoop.Outcome JsValue Thrown

/-- What an event tells the call `id` about its attempt. -/
def ClientEvent.outcome (id : String) : ClientEvent → Option AttemptOutcome
  | .succeeded id' value => if id' = id then some (.succeeded value) else none
  | .failed id' error retry => if id' = id then some (.failed error retry) else none
  | _ => none

def outcomes (id : String) (events : List ClientEvent) : List AttemptOutcome :=
  events.filterMap (ClientEvent.outcome id)

/-- The code of an error, if it has one, has a text. -/
def Readable : AttemptOutcome → Prop
  | .succeeded _ => True
  | .failed error _ => ∃ code, getErrorCode error = .ok code

/-- The last failure is thrown as it is when it is an `Error`. -/
def lastThrown (serviceName : String) : Thrown → Thrown
  | .error e => .error e
  | .value _ => .error (.platform "Error" s!"No available endpoint for service: {serviceName}")

def CallPhase.result : CallPhase → Option (RetryLoop.Result JsValue Thrown)
  | .returned value => some (.returned value)
  | .thrown error => some (.thrown error)
  | _ => none

namespace RetryOptions
variable (options : RetryOptions) (serviceName method : String)

/-- A field of the method's rule comes before the global option. -/
def setting (field : RetryRule → Option JsNumber) (global : Option JsNumber) : Option JsNumber :=
  match options.retryRules.get (getMethodKey serviceName method) with
  | some rule =>
    match field rule with
    | some value => some value
    | none => global
  | none => global

def attemptLimit (n : ℕ) : ℕ :=
  match options.setting serviceName method RetryRule.maxAttempts options.retryMaxAttempts with
  | some (.finite configured) => (max 1 (min ⌊configured⌋ n)).toNat
  | _ => n

def backoff (k : ℕ) : JsNumber :=
  match options.setting serviceName method RetryRule.initialBackoffMs
    options.retryInitialBackoffMs with
  | none => .finite 0
  | some initial =>
    if initial.leNat 0 then .finite 0
    else
      let maximum := options.setting serviceName method RetryRule.maxBackoffMs
        options.retryMaxBackoffMs
      (initial.mul (.twoPow (k - 1))).min (maximum.getD initial)

theorem setting_eq (field : RetryRule → Option JsNumber) (global : Option JsNumber) :
    options.setting serviceName method field global =
      ((options.getRetryRule serviceName method).bind field).or global := by
  unfold setting getRetryRule
  cases options.retryRules.get (getMethodKey serviceName method) with
  | none => rfl
  | some rule =>
    simp only [Option.bind_some]
    cases field rule <;> rfl

theorem getMaxAttempts_eq (n : ℕ) :
    options.getMaxAttempts serviceName method n = options.attemptLimit serviceName method n := by
  simp only [getMaxAttempts, ← setting_eq]
  rfl

theorem getRetryBackoffMs_eq (k : ℕ) :
    options.getRetryBackoffMs serviceName method k = options.backoff serviceName method k := by
  rw [getRetryBackoffMs, backoff, setting_eq, setting_eq]
  cases ((options.getRetryRule serviceName method).bind RetryRule.initialBackoffMs).or
    options.retryInitialBackoffMs with
  | none =>
    rw [Option.getD_none, if_pos]
    decide
  | some initial => rfl

theorem attemptLimit_bounds {n : ℕ} (hn : 0 < n) :
    1 ≤ options.attemptLimit serviceName method n ∧
      options.attemptLimit serviceName method n ≤ n := by
  unfold attemptLimit
  split
  · omega
  · omega

end RetryOptions

/-- What the loop of a call has come to after the outcomes of its attempts. -/
structure MeetsFailover (options : RetryOptions) (call : DiscoveryCall)
    (outcomes : List AttemptOutcome) : Prop where
  limit : call.maxAttempts =
    options.attemptLimit call.serviceName call.method call.endpoints.length
  one_le_limit : 1 ≤ call.maxAttempts
  limit_le : call.maxAttempts ≤ call.endpoints.length
  one_le_attempts : 1 ≤ call.attempted.length
  attempts_le : call.attempted.length ≤ call.maxAttempts
  attempts : call.attempted.length = outcomes.length ∨
    ∃ endpoint, call.phase = .attempting endpoint ∧ call.attempted.length = outcomes.length + 1
  result : call.phase.result =
    RetryLoop.result (lastThrown call.serviceName) call.maxAttempts outcomes
  waits : call.phase.result = none → (∃ endpoint, call.phase = .attempting endpoint) ∨
    ∃ backoffMs, call.phase = .backingOff backoffMs
  sleeps : ∀ backoffMs, call.phase = .backingOff backoffMs →
    1 ≤ outcomes.length ∧ outcomes.length < call.maxAttempts ∧
      backoffMs = options.backoff call.serviceName call.method outcomes.length

/-- A loop that has ended with a result. -/
theorem MeetsFailover.of_result {options : RetryOptions} {call : DiscoveryCall}
    {outcomes : List AttemptOutcome} {result : RetryLoop.Result JsValue Thrown}
    (hlimit : call.maxAttempts =
      options.attemptLimit call.serviceName call.method call.endpoints.length)
    (hbounds : 1 ≤ call.maxAttempts ∧ call.maxAttempts ≤ call.endpoints.length)
    (hphase : call.phase.result = some result)
    (hended : 0 < outcomes.length ∧ outcomes.length ≤ call.maxAttempts ∧
      call.attempted.length = outcomes.length ∧
      RetryLoop.result (lastThrown call.serviceName) call.maxAttempts outcomes = some result) :
    MeetsFailover options call outcomes := by
  obtain ⟨hpos, hle, hattempted, hresult⟩ := hended
  refine ⟨hlimit, hbounds.1, hbounds.2, by omega, by omega, .inl hattempted,
    hphase.trans hresult.symm, ?_, ?_⟩
  · intro hnone
    rw [hphase] at hnone
    cases hnone
  · intro backoffMs hsleep
    rw [hsleep] at hphase
    cases hphase

/-- The same by the phases of the loop. -/
def DiscoveryCall.Tracked (options : RetryOptions) (call : DiscoveryCall)
    (outcomes : List AttemptOutcome) : Prop :=
  match call.phase with
  | .running => False
  | .attempting _ => (∀ o ∈ outcomes, o.Retried) ∧ outcomes.length = call.attempt ∧
      call.attempt < call.maxAttempts ∧ call.attempted.length = call.attempt + 1
  | .backingOff backoffMs => (∀ o ∈ outcomes, o.Retried) ∧ outcomes.length = call.attempt ∧
      0 < call.attempt ∧ call.attempt < call.maxAttempts ∧
      call.attempted.length = call.attempt ∧
      backoffMs = options.backoff call.serviceName call.method call.attempt
  | .returned value => 0 < outcomes.length ∧ outcomes.length ≤ call.maxAttempts ∧
      call.attempted.length = outcomes.length ∧
      RetryLoop.result (lastThrown call.serviceName) call.maxAttempts outcomes =
        some (.returned value)
  | .thrown error => 0 < outcomes.length ∧ outcomes.length ≤ call.maxAttempts ∧
      call.attempted.length = outcomes.length ∧
      RetryLoop.result (lastThrown call.serviceName) call.maxAttempts outcomes =
        some (.thrown error)

namespace DiscoveryCall
variable {options : RetryOptions} {call call' : DiscoveryCall} {os : List AttemptOutcome}

theorem Tracked.iterate (h : call.Iterated call') (hne : call.endpoints ≠ [])
    (hretried : ∀ o ∈ os, o.Retried) (hcount : os.length = call.attempt)
    (hlt : call.attempt < call.maxAttempts) (hattempted : call.attempted.length = call.attempt) :
    call'.Tracked options os := by
  cases h with
  | attempts endpoint _ _ => exact ⟨hretried, hcount, hlt, by simp [hattempted]⟩
  | nothing _ hnil => exact absurd hnil hne
  | exhausted hle => exact absurd hlt (Nat.not_lt.2 hle)

theorem Tracked.failed {endpoint : Endpoint} {error : Thrown} {retry : Bool}
    (h : call.Tracked options os) (hphase : call.phase = .attempting endpoint)
    (hread : Readable (.failed error retry))
    (hs : DiscoveryClient.FailedStep options call endpoint error retry call') :
    call'.Tracked options (os ++ [.failed error retry]) := by
  rw [Tracked, hphase] at h
  obtain ⟨hretried, hcount, hlt, hattempted⟩ := h
  have hlt' : os.length < call.maxAttempts := hcount ▸ hlt
  have hlen : (os ++ [RetryLoop.Outcome.failed error retry]).length = call.attempt + 1 := by
    rw [List.length_append, hcount, List.length_singleton]
  have hle : (os ++ [RetryLoop.Outcome.failed error retry]).length ≤ call.maxAttempts :=
    hlen.trans_le hlt
  cases hs with
  | unread _ he =>
    obtain ⟨code, hcode⟩ := hread
    rw [hcode] at he
    cases he
  | refused =>
    exact ⟨hlen ▸ Nat.succ_pos _, hle, hattempted.trans hlen.symm,
      RetryLoop.result_refused hretried hlt'⟩
  | sleeps hnext =>
    refine ⟨?_, hlen, Nat.succ_pos _, hnext, hattempted,
      options.getRetryBackoffMs_eq _ _ _⟩
    intro o ho
    rcases List.mem_append.1 ho with ho | ho
    · exact hretried o ho
    · rw [List.mem_singleton.1 ho]
      trivial
  | exhausted hlast =>
    refine ⟨hlen ▸ Nat.succ_pos _, hle, hattempted.trans hlen.symm, ?_⟩
    rw [← hcount] at hlast
    have hresult : RetryLoop.result (lastThrown call.serviceName) call.maxAttempts
        (os ++ [.failed error true]) = some (.thrown (lastThrown call.serviceName error)) :=
      RetryLoop.result_exhausted hretried hlt' hlast
    refine hresult.trans ?_
    cases error <;> rfl

theorem Tracked.succeeded {endpoint : Endpoint} (h : call.Tracked options os)
    (hphase : call.phase = .attempting endpoint) (value : JsValue) :
    DiscoveryCall.Tracked options { call with phase := .returned value }
      (os ++ [.succeeded value]) := by
  rw [Tracked, hphase] at h
  obtain ⟨hretried, hcount, hlt, hattempted⟩ := h
  have hlt' : os.length < call.maxAttempts := hcount ▸ hlt
  have hlen : (os ++ [RetryLoop.Outcome.succeeded value]).length = call.attempt + 1 := by
    rw [List.length_append, hcount, List.length_singleton]
  exact ⟨hlen ▸ Nat.succ_pos _, hlen.trans_le hlt, hattempted.trans hlen.symm,
    RetryLoop.result_succeeded hretried hlt' value⟩

end DiscoveryCall

theorem outcome_other {id : String} {e : ClientEvent} (h : e.callId ≠ some id) :
    e.outcome id = none := by
  cases e with
  | succeeded id' value => exact if_neg fun hid => h (congrArg some hid)
  | failed id' error retry => exact if_neg fun hid => h (congrArg some hid)
  | call | woken | setActiveCount => rfl

/-- A call that has not begun has had no outcome, and any other one is where they lead. -/
def Follows (options : RetryOptions) (os : List AttemptOutcome) : Option DiscoveryCall → Prop
  | none => os = []
  | some call =>
    call.maxAttempts = options.attemptLimit call.serviceName call.method call.endpoints.length ∧
      (call.endpoints ≠ [] → (∀ o ∈ os, Readable o) → call.Tracked options os)

section Steps
variable {options : RetryOptions} {id : String} {e : ClientEvent} {os : List AttemptOutcome}
  {call call' : DiscoveryCall} {before after : Option DiscoveryCall}

/-- The loop changes none of the variables it has set up. -/
structure DiscoveryCall.Fixed (call call' : DiscoveryCall) : Prop where
  serviceName : call'.serviceName = call.serviceName
  method : call'.method = call.method
  endpoints : call'.endpoints = call.endpoints
  maxAttempts : call'.maxAttempts = call.maxAttempts

theorem DiscoveryCall.Iterated.fixed (h : call.Iterated call') : call.Fixed call' := by
  cases h <;> exact ⟨rfl, rfl, rfl, rfl⟩

theorem DiscoveryClient.FailedStep.fixed {endpoint : Endpoint} {error : Thrown} {retry : Bool}
    (h : DiscoveryClient.FailedStep options call endpoint error retry call') :
    call.Fixed call' := by
  cases h <;> exact ⟨rfl, rfl, rfl, rfl⟩

theorem DiscoveryCall.Fixed.limit (h : call.Fixed call') (hlimit : call.maxAttempts =
      options.attemptLimit call.serviceName call.method call.endpoints.length) :
    call'.maxAttempts =
      options.attemptLimit call'.serviceName call'.method call'.endpoints.length := by
  rw [h.serviceName, h.method, h.endpoints, h.maxAttempts]
  exact hlimit

theorem CallStep.follows (hs : CallStep options id e before after)
    (h : Follows options os before) : Follows options (os ++ (e.outcome id).toList) after := by
  cases hs with
  | other _ hid =>
    rw [outcome_other hid, Option.toList_none, List.append_nil]
    exact h
  | @started serviceName method endpoints call random hiterated =>
    have hlimit := hiterated.fixed.limit
      (options.getMaxAttempts_eq serviceName method endpoints.length)
    obtain rfl : os = [] := h
    refine ⟨hlimit, ?_⟩
    intro hne _
    rw [hiterated.fixed.endpoints] at hne
    have hbounds := options.attemptLimit_bounds serviceName method (List.length_pos_iff.2 hne)
    rw [← RetryOptions.getMaxAttempts_eq] at hbounds
    refine DiscoveryCall.Tracked.iterate hiterated hne ?_ rfl hbounds.1 rfl
    intro o ho
    cases ho
  | @succeeded call endpoint value hphase =>
    refine ⟨h.1, ?_⟩
    intro hne hread
    rw [ClientEvent.outcome, if_pos rfl] at hread ⊢
    exact (h.2 hne fun o ho => hread o (List.mem_append_left _ ho)).succeeded hphase value
  | @failed call call' endpoint error retry hphase hfailed =>
    refine ⟨hfailed.fixed.limit h.1, ?_⟩
    intro hne hread
    rw [hfailed.fixed.endpoints] at hne
    rw [ClientEvent.outcome, if_pos rfl] at hread ⊢
    exact (h.2 hne fun o ho => hread o (List.mem_append_left _ ho)).failed hphase
      (hread _ (List.mem_append_right _ List.mem_cons_self)) hfailed
  | @woken call call' backoffMs random hphase hiterated =>
    refine ⟨hiterated.fixed.limit h.1, ?_⟩
    intro hne hread
    rw [hiterated.fixed.endpoints] at hne
    have htracked := h.2 hne fun o ho => hread o (List.mem_append_left _ ho)
    rw [DiscoveryCall.Tracked, hphase] at htracked
    obtain ⟨hretried, hcount, -, hlt, hattempted, -⟩ := htracked
    exact DiscoveryCall.Tracked.iterate hiterated hne
      (by simpa [ClientEvent.outcome] using hretried)
      (by simpa [ClientEvent.outcome] using hcount) hlt hattempted

end Steps

theorem outcomes_snoc (id : String) (events : List ClientEvent) (e : ClientEvent) :
    outcomes id (events ++ [e]) = outcomes id events ++ (e.outcome id).toList := by
  rw [outcomes, List.filterMap_append, outcomes]
  cases h : e.outcome id with
  | none => simp [h]
  | some o => simp [h]

namespace DiscoveryClient
variable {options : RetryOptions} {client : DiscoveryClient} {balancer : LoadBalancer}
  {events : List ClientEvent} {id : String} {call : DiscoveryCall}

theorem run_follows (hrun : (machine options).Run (start balancer) events client) (id : String) :
    Follows options (outcomes id events) (client.calls.get id) := by
  have hall := hrun.invariant_history
    (I := fun (events : List ClientEvent) (client : DiscoveryClient) => ∀ id,
      Follows options (outcomes id events) (client.calls.get id))
    (fun pre client e client' h hs id => by
      rw [outcomes_snoc]
      exact (call_step hs id).follows (h id))
    (fun _ => rfl)
  exact hall id

/-- A value that is no `Error`, thrown where the request is written. -/
def sampleValue : Thrown := .value (.object [("code", .string "ECONNREFUSED")])

example : DefaultRetryPolicy.shouldRetry sampleValue
    ⟨"UserService", "getUser", 1, 1, ⟨"10.0.0.1", 4000, none⟩, some "ECONNREFUSED"⟩ =
      .ok true := by decide +kernel

end DiscoveryClient

end WeisleyRpc.Discovery
