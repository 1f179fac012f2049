import WeisleyRpc.CallSettlements
import WeisleyRpc.LimiterSemantics
import WeisleyRpc.ListCounts

/-!
# Calls behind the rate limiter

Each call asks the limiter once, and what was refused stays refused. So of the calls that a client
takes in a stretch of a run, no more are admitted than the limiter grants, which computes with
numbers that it can count.
-/

namespace WeisleyRpc

/-- A call with what the limiter reads from the clock for it. -/
structure CallReading where
  id : String
  now : ℤ

def CallReading.asks (r : CallReading) : LimiterEvent := ⟨.allow, r.now⟩

def RpcClientEvent.readings : RpcClientEvent → List CallReading
  | .call id _ _ times _ => [⟨id, times.limiterAt⟩]
  | .settled .. | .resetMetrics => []

/-- The most calls that are granted between two times. -/
def BucketOptions.most (o : BucketOptions) (first last : ℤ) : ℕ :=
  (o.capacity + o.refillTokens * ((last - first) / o.refillIntervalMs + 1)).toNat

/-- A limiter whose tokens can be counted, with a clock that can be. -/
structure RateLimiterOptions.Counted (limits : RateLimiterOptions) (start : ℤ)
    (readings : List CallReading) : Prop where
  capacity : limits.capacity < 2 ^ 53 + 1
  start : Numeric.Ordinary start
  readings : ∀ r ∈ readings, Numeric.Ordinary r.now

/-- How many of the calls the limiter on numbers grants, after the calls before them. -/
def RateLimiterOptions.granted (limits : RateLimiterOptions) (start : ℤ)
    (before readings : List CallReading) : ℕ :=
  (Numeric.TokenBucketRateLimiter.ofFinite limits start (before.map CallReading.asks)).grants
    (readings.map CallReading.asks)

namespace TokenBucketRateLimiter
variable {o : BucketOptions} {l : TokenBucketRateLimiter} {first last now : ℤ}
  {es : List LimiterEvent}

theorem latest_le (hnow : now ≤ last) (hes : ∀ e ∈ es, e.now ≤ last) : latest now es ≤ last := by
  induction es generalizing now with
  | nil => exact hnow
  | cons e es ih =>
    exact ih (max_le hnow (hes e List.mem_cons_self)) fun e' he' =>
      hes e' (List.mem_cons_of_mem _ he')

theorem grants_le_most (h : Within o l) (hes : ∀ e ∈ es, first ≤ e.now ∧ e.now ≤ last) :
    l.grants es ≤ o.most first last := by
  cases es with
  | nil => exact Nat.zero_le _
  | cons e es =>
    obtain ⟨hfirst, hlast⟩ := hes e List.mem_cons_self
    have hlatest : latest e.now es ≤ last :=
      latest_le hlast fun e' he' => (hes e' (List.mem_cons_of_mem _ he')).2
    have hinterval : 0 < o.refillIntervalMs := o.one_le_refillIntervalMs
    have hdiv : (latest e.now es - e.now) / o.refillIntervalMs ≤
        (last - first) / o.refillIntervalMs := Int.ediv_le_ediv hinterval (by omega)
    have htokens : 0 ≤ o.refillTokens := Int.le_of_lt o.one_le_refillTokens
    have hmul : o.refillTokens * ((latest e.now es - e.now) / o.refillIntervalMs + 1) ≤
        o.refillTokens * ((last - first) / o.refillIntervalMs + 1) :=
      Int.mul_le_mul_of_nonneg_left (by omega) htokens
    have hwindow := grants_le_of_window h e es
    unfold BucketOptions.most
    omega

end TokenBucketRateLimiter

namespace RpcClient
variable {c c' : RpcClient} {e : RpcClientEvent} {es : List RpcClientEvent} {id : String}
  {l : TokenBucketRateLimiter} {first last : ℤ}

/-- The call has come to its remote call. -/
def admitted (c : RpcClient) (id : String) : Bool :=
  match (c.calls.get id).map RpcCall.phase with
  | some .remote | some (.settled _ _) => true
  | some (.refused _) | none => false

theorem admitted_of_get {call : RpcCall} (hget : c.calls.get id = some call)
    (hphase : ∀ error, call.phase ≠ .refused error) : c.admitted id = true := by
  unfold admitted
  rw [hget, Option.map_some]
  cases h : call.phase with
  | refused error => exact absurd h (hphase error)
  | remote | settled => rfl

/-- What has been refused stays so. -/
theorem admitted_step (h : Effect c e c') (hknown : c.calls.get id ≠ none)
    (hadmitted : c'.admitted id = true) : c.admitted id = true := by
  unfold admitted at hadmitted ⊢
  cases h with
  | call id' service method times warn hnone =>
    have hne : id ≠ id' := by
      rintro rfl
      exact hknown hnone
    rwa [begunBy, OrderedMap.get_set, if_neg hne] at hadmitted
  | settled id' call outcome times info error hget hphase =>
    by_cases hid : id = id'
    · rw [hid, hget, Option.map_some, hphase]
    · rwa [settledBy, OrderedMap.get_set, if_neg hid] at hadmitted
  | resetMetrics => exact hadmitted

theorem admitted_of_run (h : machine.Run c es c') (hknown : c.calls.get id ≠ none)
    (hadmitted : c'.admitted id = true) : c.admitted id = true := by
  induction h with
  | nil => exact hadmitted
  | cons hs _ ih =>
    have heffect := step_effect hs
    exact admitted_step heffect hknown (ih (known_step heffect hknown) hadmitted)

/-- A call that the limiter refuses is not admitted. -/
theorem admitted_begunBy {service method : String} {times : CallTimes} {warn : Option Thrown}
    (hl : c.rateLimiter = some l)
    (hadmitted : (c.begunBy id service method times warn).admitted id = true) :
    l.answer ⟨.allow, times.limiterAt⟩ = .allowed true := by
  unfold admitted at hadmitted
  rw [begunBy, OrderedMap.get_set, if_pos rfl] at hadmitted
  cases hallow : (l.allow times.limiterAt).1 with
  | true => simp only [TokenBucketRateLimiter.answer, hallow]
  | false =>
    have hrefused : (c.allow times.limiterAt).1 = false := by
      rw [allow, hl]
      exact hallow
    simp only [admission, hrefused, if_true, Option.map_some] at hadmitted
    cases hadmitted

theorem rateLimiter_step (h : Effect c e c') (hl : c.rateLimiter = some l) :
    c'.rateLimiter = some (l.after (e.readings.map CallReading.asks)) := by
  cases h with
  | call id service method times warn _ =>
    rw [begunBy, allow, hl]
    rfl
  | settled id call outcome times info error _ _ => exact hl
  | resetMetrics => exact hl

/-- The limiter runs by the calls that are made. -/
theorem rateLimiter_of_run (h : machine.Run c es c') (hl : c.rateLimiter = some l) :
    c'.rateLimiter = some (l.after ((es.flatMap RpcClientEvent.readings).map CallReading.asks)) := by
  induction h generalizing l with
  | nil => exact hl
  | @cons c d c' e es hs _ ih =>
    rw [ih (rateLimiter_step (step_effect hs) hl), List.flatMap_cons, List.map_append]
    exact congrArg some List.foldl_append.symm

/-- No more calls are admitted than granted. -/
theorem admitted_le_grants (h : machine.Run c es c') (hl : c.rateLimiter = some l) :
    ((es.flatMap RpcClientEvent.readings).map CallReading.id).countP c'.admitted ≤
      l.grants ((es.flatMap RpcClientEvent.readings).map CallReading.asks) := by
  induction h generalizing l with
  | nil => exact Nat.zero_le _
  | @cons c d c' e es hs hrun ih =>
    have heffect := step_effect hs
    have hrest := ih (rateLimiter_step heffect hl)
    cases heffect with
    | call id service method times warn _ =>
      have hknown : (c.begunBy id service method times warn).calls.get id ≠ none := by
        rw [begunBy, OrderedMap.get_set, if_pos rfl]
        exact Option.some_ne_none _
      simp only [List.flatMap_cons, RpcClientEvent.readings, List.singleton_append, List.map_cons,
        List.countP_cons, CallReading.asks, TokenBucketRateLimiter.grants_cons] at hrest ⊢
      by_cases hadmitted : c'.admitted id = true
      · have hgranted := admitted_begunBy hl (admitted_of_run hrun hknown hadmitted)
        rw [if_pos hadmitted, if_pos hgranted]
        exact Nat.add_le_add_right hrest 1
      · rw [if_neg hadmitted]
        exact hrest.trans (Nat.le_add_right _ _)
    | settled id call outcome times info error _ _ => exact hrest
    | resetMetrics => exact hrest

theorem timely_asks {readings : List CallReading} (h : ∀ r ∈ readings, Numeric.Ordinary r.now) :
    Numeric.Timely (readings.map CallReading.asks) := by
  intro e he
  obtain ⟨r, hr, rfl⟩ := List.mem_map.mp he
  exact h r hr

/-- The limiter on numbers grants the calls that are admitted, and no more than its options say. -/
theorem admitted_le_granted {breaker : Option CircuitBreakerOptions} {limits : RateLimiterOptions}
    {now : ℤ} {es₀ : List RpcClientEvent}
    (hbefore : machine.Run (new ⟨breaker, some limits⟩ now) es₀ c)
    (hrun : machine.Run c es c')
    (hcounted : limits.Counted now ((es₀ ++ es).flatMap RpcClientEvent.readings))
    (hclock : ∀ r ∈ es.flatMap RpcClientEvent.readings, first ≤ r.now ∧ r.now ≤ last) :
    ((es.flatMap RpcClientEvent.readings).map CallReading.id).countP c'.admitted ≤
        limits.granted now (es₀.flatMap RpcClientEvent.readings)
          (es.flatMap RpcClientEvent.readings) ∧
      limits.granted now (es₀.flatMap RpcClientEvent.readings)
        (es.flatMap RpcClientEvent.readings) ≤ limits.normalize.most first last := by
  have hreadings := hcounted.readings
  rw [List.flatMap_append] at hreadings
  have hagrees := Numeric.limiter_agrees hcounted.capacity hcounted.start _
    (timely_asks fun r hr => hreadings r (List.mem_append_left _ hr))
  have hgrants := hagrees.grants
    (timely_asks fun r hr => hreadings r (List.mem_append_right _ hr))
  have hgranted : limits.granted now (es₀.flatMap RpcClientEvent.readings)
      (es.flatMap RpcClientEvent.readings) =
        ((TokenBucketRateLimiter.new limits now).after
          ((es₀.flatMap RpcClientEvent.readings).map CallReading.asks)).grants
            ((es.flatMap RpcClientEvent.readings).map CallReading.asks) := hgrants
  rw [hgranted]
  refine ⟨admitted_le_grants hrun (rateLimiter_of_run hbefore rfl),
    TokenBucketRateLimiter.grants_le_most
      ((TokenBucketRateLimiter.within_new limits now).after _) ?_⟩
  intro e he
  obtain ⟨r, hr, rfl⟩ := List.mem_map.mp he
  exact hclock r hr

/-- The calls of a run are new at its beginning. -/
theorem fresh_of_run (h : machine.Run c es c') {r : CallReading}
    (hr : r ∈ es.flatMap RpcClientEvent.readings) : c.calls.get r.id = none := by
  induction h with
  | nil => cases hr
  | @cons c d c' e es hs _ ih =>
    have heffect := step_effect hs
    rw [List.flatMap_cons, List.mem_append] at hr
    rcases hr with hr | hr
    · cases heffect with
      | call id service method times warn hnone =>
        rw [List.mem_singleton.mp hr]
        exact hnone
      | settled | resetMetrics => cases hr
    · by_contra hknown
      exact known_step heffect hknown (ih hr)

end RpcClient

end WeisleyRpc
