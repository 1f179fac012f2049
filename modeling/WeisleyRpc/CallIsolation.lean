import WeisleyRpc.CallSettlements

/-!
# Calls of different methods

Breaker, metrics and retry rules are looked up by one joined key. Calls under other keys can
be deleted from a run without a trace in what happens under the key.
-/

namespace WeisleyRpc
open Discovery (getMethodKey RetryOptions RetryRule)

/-- The service and the method of the call with this id in a run. -/
def callOf (events : List RpcClientEvent) (id : String) : Option (String × String) :=
  events.findSome? fun e =>
    match e with
    | .call id' service method _ _ => if id' = id then some (service, method) else none
    | _ => none

def callKey (events : List RpcClientEvent) (id : String) : Option String :=
  (callOf events id).map fun call => getMethodKey call.1 call.2

/-- What happens in a run to the calls whose keys are visible, and the resets. -/
def RpcClientEvent.Visible (visible : String → Bool) (events : List RpcClientEvent) :
    RpcClientEvent → Bool
  | .call _ service method _ _ => visible (getMethodKey service method)
  | .settled id .. => (callKey events id).any visible
  | .resetMetrics => true

def restrict (visible : String → Bool) (events : List RpcClientEvent) : List RpcClientEvent :=
  events.filter (RpcClientEvent.Visible visible events)

namespace RpcClient

/-- A breaker and no breaker are treated alike under a key only by themselves. -/
def SameBreaker (key : String) : Option CircuitBreaker → Option CircuitBreaker → Prop
  | none, none => True
  | some b, some b' => b.SameKey b' key
  | _, _ => False

/-- `t` has the visible part of `s`. -/
structure Agree (visible : String → Bool) (s t : RpcClient) : Prop where
  limiter : s.rateLimiter = none ∧ t.rateLimiter = none
  breaker : ∀ key, visible key = true → SameBreaker key s.circuitBreaker t.circuitBreaker
  metrics : ∀ key, visible key = true → s.metrics.get key = t.metrics.get key
  calls : ∀ id call, t.calls.get id = some call ↔
    s.calls.get id = some call ∧ visible call.methodKey = true

variable {visible : String → Bool} {s s' t : RpcClient} {e : RpcClientEvent} {id key : String}
  {call : RpcCall} {events : List RpcClientEvent}

theorem Agree.hidden_id (h : Agree visible s t) (hnone : s.calls.get id = none) :
    t.calls.get id = none := by
  cases hget : t.calls.get id with
  | none => rfl
  | some call =>
    have hs := ((h.calls id call).1 hget).1
    rw [hnone] at hs
    cases hs

theorem SameBreaker.canRequest (h : SameBreaker key s.circuitBreaker t.circuitBreaker)
    (now : ℤ) : (s.canRequest key now).1 = (t.canRequest key now).1 := by
  obtain ⟨b, limiter, metrics, calls⟩ := s
  obtain ⟨b', limiter', metrics', calls'⟩ := t
  cases b <;> cases b'
  · rfl
  · exact h.elim
  · exact h.elim
  · exact CircuitBreaker.SameKey.canRequest h now

theorem SameBreaker.apply {b b' : Option CircuitBreaker} (h : SameBreaker key b b')
    (e : BreakerEvent) :
    SameBreaker key (b.map fun b => b.apply e) (b'.map fun b => b.apply e) := by
  cases b <;> cases b'
  · trivial
  · exact h
  · exact h
  · exact CircuitBreaker.SameKey.apply h e

/-- An operation for another key on one side only. -/
theorem SameBreaker.apply_left {b b' : Option CircuitBreaker} (h : SameBreaker key b b')
    {e : BreakerEvent} (he : e.key ≠ key) : SameBreaker key (b.map fun b => b.apply e) b' := by
  cases b <;> cases b'
  · trivial
  · exact h
  · exact h
  · refine ⟨?_, ?_, ?_⟩
    · rw [(CircuitBreaker.apply_options _ e).1, h.failureThreshold]
    · rw [(CircuitBreaker.apply_options _ e).2, h.resetTimeoutMs]
    · rw [CircuitBreaker.entry_apply_other _ he, h.entry]

theorem SameBreaker.settled {b b' : Option CircuitBreaker} (h : SameBreaker key b b')
    (outcomes : List BreakerCall) (methodKey : String) (now : ℤ) :
    SameBreaker key
      (b.map fun b => outcomes.foldl (fun b outcome => b.apply ⟨outcome, methodKey, now⟩) b)
      (b'.map fun b => outcomes.foldl (fun b outcome => b.apply ⟨outcome, methodKey, now⟩) b) := by
  induction outcomes generalizing b b' with
  | nil => simpa using h
  | cons outcome outcomes ih =>
    have hrest := ih (h.apply ⟨outcome, methodKey, now⟩)
    rw [Option.map_map, Option.map_map] at hrest
    exact hrest

theorem SameBreaker.settled_left {b b' : Option CircuitBreaker} (h : SameBreaker key b b')
    (outcomes : List BreakerCall) {methodKey : String} (hne : methodKey ≠ key) (now : ℤ) :
    SameBreaker key
      (b.map fun b => outcomes.foldl (fun b outcome => b.apply ⟨outcome, methodKey, now⟩) b)
      b' := by
  induction outcomes generalizing b with
  | nil => simpa using h
  | cons outcome outcomes ih =>
    have hrest := ih (h.apply_left (e := ⟨outcome, methodKey, now⟩) hne)
    rw [Option.map_map] at hrest
    exact hrest

theorem enterMetrics_other {methodKey : String} (hne : methodKey ≠ key)
    (metrics : OrderedMap String RpcMethodMetrics) (entries : List MetricsEntry) :
    (entries.foldl (enterMetrics methodKey) metrics).get key = metrics.get key := by
  induction entries generalizing metrics with
  | nil => rfl
  | cons entry entries ih =>
    rw [List.foldl_cons, ih, enterMetrics, OrderedMap.get_set, if_neg (Ne.symm hne)]

theorem enterMetrics_same {metrics metrics' : OrderedMap String RpcMethodMetrics}
    (h : metrics.get key = metrics'.get key) (entries : List MetricsEntry) :
    (entries.foldl (enterMetrics key) metrics).get key =
      (entries.foldl (enterMetrics key) metrics').get key := by
  induction entries generalizing metrics metrics' with
  | nil => exact h
  | cons entry entries ih =>
    rw [List.foldl_cons, List.foldl_cons]
    refine ih ?_
    rw [enterMetrics, enterMetrics, OrderedMap.get_set, OrderedMap.get_set, if_pos rfl,
      if_pos rfl, h]

theorem Agree.begun_left (h : Agree visible s t) {service method : String} {times : CallTimes}
    {warn : Option Thrown} (hnone : s.calls.get id = none)
    (hhidden : visible (getMethodKey service method) = false) :
    Agree visible (s.begunBy id service method times warn) t := by
  have hallow : s.allow times.limiterAt = (true, s) := by rw [allow, h.limiter.1]
  refine ⟨⟨?_, h.limiter.2⟩, ?_, h.metrics, ?_⟩
  · rw [begunBy, hallow]
    exact h.limiter.1
  · intro key hkey
    simp only [begunBy, hallow]
    refine (h.breaker key hkey).apply_left ?_
    rintro rfl
    rw [hhidden] at hkey
    cases hkey
  · intro id' call
    rw [begunBy, OrderedMap.get_set]
    by_cases hid : id' = id
    · rw [if_pos hid, hid, h.hidden_id hnone]
      constructor
      · intro hcall
        cases hcall
      · rintro ⟨hcall, hvisible⟩
        obtain rfl := Option.some.inj hcall
        rw [RpcCall.methodKey, hhidden] at hvisible
        cases hvisible
    · rw [if_neg hid]
      exact h.calls id' call

theorem Agree.begun (h : Agree visible s t) {service method : String} (times : CallTimes)
    (warn : Option Thrown) (hvisible : visible (getMethodKey service method) = true) :
    Agree visible (s.begunBy id service method times warn)
      (t.begunBy id service method times warn) := by
  have hallow : s.allow times.limiterAt = (true, s) := by rw [allow, h.limiter.1]
  have hallow' : t.allow times.limiterAt = (true, t) := by rw [allow, h.limiter.2]
  have hadmission : s.admission (getMethodKey service method) times warn =
      t.admission (getMethodKey service method) times warn := by
    simp only [admission, hallow, hallow', (h.breaker _ hvisible).canRequest times.breakerAt]
  refine ⟨?_, ?_, h.metrics, ?_⟩
  · simp only [begunBy, hallow, hallow']
    exact h.limiter
  · intro key hkey
    simp only [begunBy, hallow, hallow']
    exact (h.breaker key hkey).apply _
  · intro id' call
    rw [begunBy, begunBy, OrderedMap.get_set, OrderedMap.get_set, hadmission]
    by_cases hid : id' = id
    · rw [if_pos hid, if_pos hid]
      constructor
      · intro hcall
        obtain rfl := Option.some.inj hcall
        exact ⟨rfl, hvisible⟩
      · exact fun hcall => hcall.1
    · rw [if_neg hid, if_neg hid]
      exact h.calls id' call

theorem Agree.settled_left (h : Agree visible s t) {outcome : Except Thrown JsValue} {now : ℤ}
    {r : Settlement} (hget : s.calls.get id = some call)
    (hhidden : visible call.methodKey = false) :
    Agree visible (s.settledBy id call outcome now r) t := by
  have hne : ∀ key, visible key = true → call.methodKey ≠ key := by
    rintro key hkey rfl
    rw [hhidden] at hkey
    cases hkey
  have hnone : ∀ call', t.calls.get id ≠ some call' := by
    intro call' hcall'
    obtain ⟨hsame, hvisible⟩ := (h.calls id call').1 hcall'
    obtain rfl := Option.some.inj (hget.symm.trans hsame)
    rw [hhidden] at hvisible
    cases hvisible
  refine ⟨h.limiter, ?_, ?_, ?_⟩
  · intro key hkey
    exact (h.breaker key hkey).settled_left r.outcomes (hne key hkey) now
  · intro key hkey
    rw [settledBy, enterMetrics_other (hne key hkey)]
    exact h.metrics key hkey
  · intro id' call'
    rw [settledBy, OrderedMap.get_set]
    by_cases hid : id' = id
    · rw [if_pos hid, hid]
      constructor
      · intro hcall'
        exact absurd hcall' (hnone call')
      · rintro ⟨hcall', hvisible⟩
        obtain rfl := Option.some.inj hcall'
        have hkey : visible call.methodKey = true := hvisible
        rw [hhidden] at hkey
        cases hkey
    · rw [if_neg hid]
      exact h.calls id' call'

theorem SameBreaker.isSome {b b' : Option CircuitBreaker} (h : SameBreaker key b b') :
    b.isSome = b'.isSome := by
  cases b <;> cases b'
  · rfl
  · exact h.elim
  · exact h.elim
  · rfl

theorem Agree.settled (h : Agree visible s t) (outcome : Except Thrown JsValue) (now : ℤ)
    (r : Settlement) (hvisible : visible call.methodKey = true) :
    Agree visible (s.settledBy id call outcome now r) (t.settledBy id call outcome now r) := by
  refine ⟨h.limiter, ?_, ?_, ?_⟩
  · intro key hkey
    exact (h.breaker key hkey).settled r.outcomes call.methodKey now
  · intro key hkey
    simp only [settledBy]
    by_cases hsame : call.methodKey = key
    · subst hsame
      exact enterMetrics_same (h.metrics _ hkey) r.entries
    · rw [enterMetrics_other hsame, enterMetrics_other hsame]
      exact h.metrics key hkey
  · intro id' call'
    rw [settledBy, settledBy, OrderedMap.get_set, OrderedMap.get_set,
      (h.breaker _ hvisible).isSome]
    by_cases hid : id' = id
    · rw [if_pos hid, if_pos hid]
      constructor
      · intro hcall'
        obtain rfl := Option.some.inj hcall'
        exact ⟨rfl, hvisible⟩
      · exact fun hcall' => hcall'.1
    · rw [if_neg hid, if_neg hid]
      exact h.calls id' call'

/-- The calls of a state are the ones that the run names. -/
def Keyed (events : List RpcClientEvent) (s : RpcClient) : Prop :=
  ∀ id call, s.calls.get id = some call → callKey events id = some call.methodKey

/-- The event begins the call that the run names. -/
def Names (events : List RpcClientEvent) : RpcClientEvent → Prop
  | .call id service method _ _ => callKey events id = some (getMethodKey service method)
  | _ => True

theorem Keyed.step (h : Keyed events s) (hnames : Names events e) (he : Effect s e s') :
    Keyed events s' := by
  intro id call hget
  cases he with
  | call id' service method times warn _ =>
    rw [begunBy, OrderedMap.get_set] at hget
    by_cases hid : id = id'
    · rw [if_pos hid] at hget
      obtain rfl := Option.some.inj hget
      rw [hid]
      exact hnames
    · rw [if_neg hid] at hget
      exact h id call hget
  | settled id' call' outcome times info error hget' _ =>
    rw [settledBy, OrderedMap.get_set] at hget
    by_cases hid : id = id'
    · rw [if_pos hid] at hget
      obtain rfl := Option.some.inj hget
      rw [hid]
      exact h id' call' hget'
    · rw [if_neg hid] at hget
      exact h id call hget
  | resetMetrics => exact h id call hget

theorem Agree.skip (h : Agree visible s t) (hkeyed : Keyed events s)
    (hhidden : e.Visible visible events = false) (he : Effect s e s') : Agree visible s' t := by
  cases he with
  | call id service method times warn hnone => exact h.begun_left hnone hhidden
  | settled id call outcome times info error hget _ =>
    rw [RpcClientEvent.Visible, hkeyed id call hget] at hhidden
    exact h.settled_left hget hhidden
  | resetMetrics => cases hhidden

theorem Agree.keep (h : Agree visible s t) (hkeyed : Keyed events s)
    (hvisible : e.Visible visible events = true) (he : Effect s e s') :
    ∃ t', machine.Step t e t' ∧ Agree visible s' t' := by
  cases he with
  | call id service method times warn hnone =>
    refine ⟨_, ⟨h.hidden_id hnone, rfl⟩, ?_⟩
    rw [apply, call_eq]
    exact h.begun times warn hvisible
  | settled id call outcome times info error hget hphase =>
    rw [RpcClientEvent.Visible, hkeyed id call hget] at hvisible
    have hget' := (h.calls id call).2 ⟨hget, hvisible⟩
    have hremote := remoteCall_eq_some_iff.2 ⟨hget', hphase⟩
    have henabled : t.remoteCall id ≠ none := by
      rw [hremote]
      exact Option.some_ne_none call
    refine ⟨_, ⟨henabled, rfl⟩, ?_⟩
    simp only [apply, hremote, settle_eq]
    exact h.settled outcome _ _ hvisible
  | resetMetrics =>
    exact ⟨_, ⟨trivial, rfl⟩, h.limiter, h.breaker, fun _ _ => rfl, h.calls⟩

theorem no_call_of_known (hrun : machine.Run s events s') (hknown : s.calls.get id ≠ none)
    (service method : String) (times : CallTimes) (warn : Option Thrown) :
    .call id service method times warn ∉ events := by
  induction hrun with
  | nil => exact List.not_mem_nil
  | cons hs _ ih =>
    have he := step_effect hs
    intro hmem
    rcases List.mem_cons.1 hmem with rfl | hmem
    · exact hknown hs.1
    · exact ih (known_step he hknown) hmem

/-- An id is the id of one call only. -/
theorem run_names (hrun : machine.Run s events s') : ∀ e ∈ events, Names events e := by
  induction hrun with
  | nil =>
    intro e he
    cases he
  | @cons s u s' e events hs hrest ih =>
    intro f hmem
    rcases List.mem_cons.1 hmem with rfl | hf
    · cases f with
      | call id service method times warn => simp [Names, callKey, callOf]
      | settled | resetMetrics => trivial
    · have hnames := ih f hf
      cases f with
      | settled | resetMetrics => trivial
      | call id service method times warn =>
        cases e with
        | settled | resetMetrics => exact hnames
        | call id' service' method' times' warn' =>
          by_cases hid : id' = id
          · subst hid
            have hknown : u.calls.get id' ≠ none := by
              have he := step_effect hs
              cases he
              rw [begunBy, OrderedMap.get_set, if_pos rfl]
              exact Option.some_ne_none _
            exact absurd hf (no_call_of_known hrest hknown service method times warn)
          · simpa [Names, callKey, callOf, hid] using hnames

variable {options : RpcClientOptions} {now : ℤ}

theorem new_agree (hlimiter : options.rateLimiterOptions = none) :
    Agree visible (new options now) (new options now) := by
  refine ⟨⟨?_, ?_⟩, ?_, fun _ _ => rfl, ?_⟩
  · simp [new, hlimiter]
  · simp [new, hlimiter]
  · intro key _
    cases hb : options.circuitBreakerOptions with
    | none => simp [new, hb, SameBreaker]
    | some o =>
      simp only [new, hb, Option.map_some]
      exact ⟨rfl, rfl, rfl⟩
  · intro id call
    constructor
    · intro hget
      cases hget
    · rintro ⟨hget, -⟩
      cases hget

/-- The visible part of a run is a run, and what is visible comes out the same. -/
theorem run_restrict (hrun : machine.Run (new options now) events s)
    (hlimiter : options.rateLimiterOptions = none) (visible : String → Bool) :
    ∃ t, machine.Run (new options now) (restrict visible events) t ∧ Agree visible s t := by
  have hguarded : (machine.guard fun _ e => Names events e).Run (new options now) events s :=
    hrun.guard_of_mem (run_names hrun)
  have hkeyed : Keyed events (new options now) := by
    intro id call hget
    cases hget
  obtain ⟨t, ht, hagree, -⟩ := hguarded.purge
    (R := fun s t => Agree visible s t ∧ Keyed events s)
    (fun e => e.Visible visible events = false)
    (fun s t e s' h hhidden hs => by
      obtain ⟨hnames, hs⟩ := Machine.guard_step.1 hs
      have he := step_effect hs
      exact ⟨h.1.skip h.2 hhidden he, h.2.step hnames he⟩)
    (fun s t e s' h hvisible hs => by
      obtain ⟨hnames, hs⟩ := Machine.guard_step.1 hs
      have he := step_effect hs
      obtain ⟨t', ht, hagree⟩ := h.1.keep h.2 (by simpa using hvisible) he
      exact ⟨t', Machine.guard_step.2 ⟨hnames, ht⟩, hagree, h.2.step hnames he⟩)
    ⟨new_agree hlimiter, hkeyed⟩
  refine ⟨t, ?_, hagree⟩
  have hfilter : events.filter (fun e => ¬ e.Visible visible events = false) =
      restrict visible events := List.filter_congr fun e _ => by simp
  rw [← hfilter]
  exact ht.unguard

/-- What happens to the calls of one method: their admission and their results, the metrics and
what the breaker says. -/
structure SameFor (service method : String) (s t : RpcClient) : Prop where
  calls : ∀ id call, call.service = service → call.method = method →
    (t.calls.get id = some call ↔ s.calls.get id = some call)
  decisions : ∀ now, (t.canRequest (getMethodKey service method) now).1 =
    (s.canRequest (getMethodKey service method) now).1
  metrics : t.metrics.get (getMethodKey service method) =
    s.metrics.get (getMethodKey service method)

theorem Agree.sameFor (h : Agree visible s t) {service method : String}
    (hvisible : visible (getMethodKey service method) = true) : SameFor service method s t := by
  refine ⟨?_, ?_, ?_⟩
  · rintro id call rfl rfl
    rw [h.calls id call]
    exact and_iff_left hvisible
  · intro now
    exact ((h.breaker _ hvisible).canRequest now).symm
  · exact (h.metrics _ hvisible).symm

theorem SameFor.symm_trans {u : RpcClient} {service method : String}
    (h : SameFor service method s u) (h' : SameFor service method t u) :
    SameFor service method s t := by
  refine ⟨?_, ?_, ?_⟩
  · intro id call hservice hmethod
    rw [← h.calls id call hservice hmethod, ← h'.calls id call hservice hmethod]
  · intro now
    rw [← h.decisions now, ← h'.decisions now]
  · rw [← h.metrics, ← h'.metrics]

/-- Under different joined keys the calls of `q` can be deleted, and only what happens under its
own key makes a difference to `p`. -/
theorem calls_isolated {p q : String × String}
    (hkeys : getMethodKey p.1 p.2 ≠ getMethodKey q.1 q.2)
    (hlimiter : options.rateLimiterOptions = none)
    (hrun : machine.Run (new options now) events s) :
    (∃ t, machine.Run (new options now)
        (restrict (fun key => key ≠ getMethodKey q.1 q.2) events) t ∧ SameFor p.1 p.2 s t) ∧
    (∀ events' t, machine.Run (new options now) events' t →
      restrict (fun key => key = getMethodKey p.1 p.2) events' =
        restrict (fun key => key = getMethodKey p.1 p.2) events → SameFor p.1 p.2 s t) ∧
    ∀ (retryOptions : RetryOptions) (rule : RetryRule),
      { retryOptions with
        retryRules := retryOptions.retryRules.set (getMethodKey q.1 q.2) rule }.getRetryRule
          p.1 p.2 = retryOptions.getRetryRule p.1 p.2 := by
  refine ⟨?_, ?_, ?_⟩
  · obtain ⟨t, ht, hagree⟩ :=
      run_restrict hrun hlimiter fun key => key ≠ getMethodKey q.1 q.2
    exact ⟨t, ht, hagree.sameFor (by simpa using hkeys)⟩
  · intro events' t hrun' hsame
    obtain ⟨u, hu, hagree⟩ := run_restrict hrun hlimiter fun key => key = getMethodKey p.1 p.2
    obtain ⟨u', hu', hagree'⟩ :=
      run_restrict hrun' hlimiter fun key => key = getMethodKey p.1 p.2
    rw [hsame] at hu'
    obtain rfl := hu.deterministic hu'
    exact (hagree.sameFor (by simp)).symm_trans (hagree'.sameFor (by simp))
  · intro retryOptions rule
    simp only [RetryOptions.getRetryRule, OrderedMap.get_set, if_neg hkeys]

/-- A run without the calls of one service and method. -/
def deleteCalls (service method : String) (events : List RpcClientEvent) : List RpcClientEvent :=
  events.filter fun e =>
    match e with
    | .call _ service' method' _ _ => ¬ (service' = service ∧ method' = method)
    | .settled id .. => callOf events id ≠ some (service, method)
    | .resetMetrics => true

def sampleBreakerClient : RpcClientOptions := ⟨some ⟨1, 100⟩, none⟩

/-- A call of one method fails, and a call of another one follows. -/
def sampleCalls (service method service' method' : String) : List RpcClientEvent :=
  [.call "1" service method ⟨0, 0, 0⟩ none,
    .settled "1" (.error (.error (.rpcError "timed out" (.string "RPC_TIMEOUT")))) ⟨5, 5, 5⟩
      none none,
    .call "2" service' method' ⟨6, 6, 6⟩ none]

theorem other_method_admitted : ∃ s, machine.Run (new sampleBreakerClient 0)
      (sampleCalls "OrderService" "list" "UserService" "getUser") s ∧
    (s.canRequest (getMethodKey "UserService" "getUser") 6).1 = true ∧
    (s.canRequest (getMethodKey "OrderService" "list") 6).1 = false ∧
    ∃ t, machine.Run (new sampleBreakerClient 0)
      [.call "2" "UserService" "getUser" ⟨6, 6, 6⟩ none] t ∧
        SameFor "UserService" "getUser" s t := by
  have hsample : (machine.exec (new sampleBreakerClient 0)
      (sampleCalls "OrderService" "list" "UserService" "getUser")).map (fun s =>
        ((s.canRequest (getMethodKey "UserService" "getUser") 6).1,
          (s.canRequest (getMethodKey "OrderService" "list") 6).1)) = some (true, false) := by
    decide +kernel
  obtain ⟨s, hexec, hparts⟩ := Option.map_eq_some_iff.1 hsample
  obtain ⟨hp, hq⟩ := Prod.mk.inj hparts
  have hrun := Machine.run_of_exec hexec
  obtain ⟨t, ht, hsame⟩ := (calls_isolated (p := ("UserService", "getUser"))
    (q := ("OrderService", "list")) (by decide) rfl hrun).1
  have hrestrict : restrict (fun key => key ≠ getMethodKey "OrderService" "list")
      (sampleCalls "OrderService" "list" "UserService" "getUser") =
        [.call "2" "UserService" "getUser" ⟨6, 6, 6⟩ none] := by
    have hvisible : (sampleCalls "OrderService" "list" "UserService" "getUser").map
        (RpcClientEvent.Visible (fun key => key ≠ getMethodKey "OrderService" "list")
          (sampleCalls "OrderService" "list" "UserService" "getUser")) = [false, false, true] := by
      decide +kernel
    simp only [sampleCalls, List.map_cons, List.map_nil, List.cons.injEq] at hvisible
    simp only [restrict, sampleCalls, List.filter_cons, List.filter_nil, hvisible]
    rfl
  rw [hrestrict] at ht
  exact ⟨s, hrun, hp, hq, t, ht, hsame⟩

/-- The joined keys of `("a.b", "c")` and `("a", "b.c")` are the same. -/
theorem joined_keys_collide : ¬ ∀ (p q : String × String) (options : RpcClientOptions) (now : ℤ)
    (events : List RpcClientEvent) (s t : RpcClient), p ≠ q → options.rateLimiterOptions = none →
      machine.Run (new options now) events s →
        machine.Run (new options now) (deleteCalls q.1 q.2 events) t → SameFor p.1 p.2 s t := by
  intro h
  have hsample : (machine.exec (new sampleBreakerClient 0) (sampleCalls "a.b" "c" "a" "b.c")).map
      (fun s => (s.canRequest (getMethodKey "a" "b.c") 6).1) = some false := by decide +kernel
  have hdeleted : (machine.exec (new sampleBreakerClient 0)
      (deleteCalls "a.b" "c" (sampleCalls "a.b" "c" "a" "b.c"))).map
      (fun s => (s.canRequest (getMethodKey "a" "b.c") 6).1) = some true := by decide +kernel
  obtain ⟨s, hexec, hrefused⟩ := Option.map_eq_some_iff.1 hsample
  obtain ⟨t, hexec', hadmitted⟩ := Option.map_eq_some_iff.1 hdeleted
  have hsame := h ("a", "b.c") ("a.b", "c") sampleBreakerClient 0 _ s t (by decide) rfl
    (Machine.run_of_exec hexec) (Machine.run_of_exec hexec')
  have hdecision := hsame.decisions 6
  rw [hrefused, hadmitted] at hdecision
  cases hdecision

end RpcClient

end WeisleyRpc
