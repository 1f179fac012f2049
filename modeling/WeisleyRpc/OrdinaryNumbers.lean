import WeisleyRpc.BreakerNumbers

/-!
# Ordinary numbers

While the clock is past the epoch and the capacity or the threshold is at most `2 ^ 53`, the
limiter and the breaker compute with numbers what they compute with whole numbers: nothing
they look at has been rounded.
-/

namespace WeisleyRpc.Numeric

/-- A time value of the epoch or later. -/
structure Ordinary (now : ℤ) : Prop where
  nonneg : 0 ≤ now
  timeValue : TimeValue now

instance (now : ℤ) : Decidable (Ordinary now) :=
  decidable_of_iff (0 ≤ now ∧ TimeValue now)
    ⟨fun h => ⟨h.1, h.2⟩, fun h => ⟨h.nonneg, h.timeValue⟩⟩

def ofRationals (options : WeisleyRpc.RateLimiterOptions) : RateLimiterOptions where
  capacity := .finite options.capacity
  refillTokens := .finite options.refillTokens
  refillIntervalMs := .finite options.refillIntervalMs

/-- The two limiters have made their last refill at one time. -/
structure SameClock (l : WeisleyRpc.TokenBucketRateLimiter) (n : TokenBucketRateLimiter) :
    Prop where
  refillIntervalMs : n.options.refillIntervalMs = .ofInt l.options.refillIntervalMs
  lastRefillAt : n.lastRefillAt = .ofInt l.lastRefillAt
  ordinary : Ordinary l.lastRefillAt

/-- The limiter on numbers stands where the limiter on whole numbers does. -/
structure LimiterAgrees (l : WeisleyRpc.TokenBucketRateLimiter) (n : TokenBucketRateLimiter) :
    Prop where
  capacity : n.options.capacity = .ofInt l.options.capacity
  refillTokens : n.options.refillTokens = .ofInt l.options.refillTokens
  refillIntervalMs : n.options.refillIntervalMs = .ofInt l.options.refillIntervalMs
  tokens : n.tokens = .ofInt l.tokens
  lastRefillAt : n.lastRefillAt = .ofInt l.lastRefillAt
  bound : l.options.capacity ≤ 2 ^ 53
  tokens_nonneg : 0 ≤ l.tokens
  tokens_le : l.tokens ≤ l.options.capacity
  ordinary : Ordinary l.lastRefillAt

theorem min_ofInt (m n : ℤ) : (JsNumber.ofInt m).min (.ofInt n) = .ofInt (min m n) := by
  rw [min_def, JsNumber.ofInt, JsNumber.ofInt, JsNumber.min]
  simp only [Int.cast_le]
  split_ifs <;> rfl

theorem min_of_atLeast {m : ℤ} {x : JsNumber} (hx : JsNumber.AtLeast m x) :
    (JsNumber.ofInt m).min x = .ofInt m := by
  rcases hx with rfl | ⟨k, hk, rfl⟩
  · rfl
  · change (JsNumber.ofInt m).min (.ofInt k) = .ofInt m
    rw [min_ofInt, min_eq_left hk]

theorem leNat_ofInt (m : ℤ) : (JsNumber.ofInt m).leNat 0 = decide (m ≤ 0) := by
  simp [JsNumber.ofInt, JsNumber.leNat]

/-- Filling up to a capacity is exact, however large what is added is. -/
theorem min_add_mul {capacity t k r : ℤ} (hc : 0 ≤ capacity) (hcapacity : capacity ≤ 2 ^ 53)
    (ht : 0 ≤ t) (hk : 1 ≤ k) (hr : 1 ≤ r) :
    (JsNumber.ofInt capacity).min
        ((JsNumber.ofInt t).add ((JsNumber.ofInt k).mul (.ofInt r))) =
      .ofInt (min capacity (t + k * r)) := by
  have hkr : 1 ≤ k * r := by
    calc
      (1 : ℤ) = 1 * 1 := rfl
      _ ≤ k * r := Int.mul_le_mul hk hr (by omega) (by omega)
  by_cases hsmall : t + k * r ≤ 2 ^ 53
  · rw [JsNumber.mul_ofInt (by omega), JsNumber.add_ofInt (by omega), min_ofInt]
  · have hlarge : JsNumber.AtLeast capacity
        ((JsNumber.ofInt t).add ((JsNumber.ofInt k).mul (.ofInt r))) := by
      by_cases hproduct : k * r ≤ 2 ^ 53
      · have hsum : (t : ℚ) + ((k * r : ℤ) : ℚ) = ((t + k * r : ℤ) : ℚ) := (Int.cast_add _ _).symm
        rw [JsNumber.mul_ofInt (by omega), JsNumber.ofInt, JsNumber.ofInt, JsNumber.add, hsum]
        exact JsNumber.AtLeast.ofExact (by omega) (by omega)
      · have hmul : JsNumber.AtLeast (2 ^ 53) ((JsNumber.ofInt k).mul (.ofInt r)) := by
          have hprod : (k : ℚ) * r = ((k * r : ℤ) : ℚ) := (Int.cast_mul k r).symm
          rw [JsNumber.ofInt, JsNumber.ofInt, JsNumber.mul, hprod]
          exact JsNumber.AtLeast.ofExact (by omega) (by omega)
        have hadd : JsNumber.AtLeast (0 + 2 ^ 53)
            ((JsNumber.ofInt t).add ((JsNumber.ofInt k).mul (.ofInt r))) :=
          JsNumber.AtLeast.add (Or.inr ⟨t, ht, rfl⟩) hmul (by norm_num)
        exact hadd.mono (by omega)
    rw [min_of_atLeast hlarge, min_eq_left (by omega)]

section Limiters
variable {l : WeisleyRpc.TokenBucketRateLimiter} {n : TokenBucketRateLimiter} {now : ℤ}

theorem SameClock.intervals (h : SameClock l n) (hnow : Ordinary now) :
    (n.intervals now).leNat 0 = true ∧ (now - l.lastRefillAt) / l.options.refillIntervalMs ≤ 0 ∨
      n.intervals now = .ofInt ((now - l.lastRefillAt) / l.options.refillIntervalMs) ∧
        l.lastRefillAt ≤ now := by
  have hpos := l.options.one_le_refillIntervalMs
  have hlast := h.ordinary.timeValue
  have hlast' := h.ordinary.nonneg
  have hnow' := hnow.timeValue
  have hnow'' := hnow.nonneg
  unfold TimeValue at hlast hnow'
  have helapsed : (JsNumber.ofInt now).sub n.lastRefillAt = .ofInt (now - l.lastRefillAt) := by
    rw [h.lastRefillAt, JsNumber.sub_ofInt (by omega)]
  rw [TokenBucketRateLimiter.intervals, helapsed, h.refillIntervalMs]
  by_cases hle : l.lastRefillAt ≤ now
  · exact Or.inr ⟨JsNumber.floor_div_ofInt (by omega) (by omega) (by omega), hle⟩
  · left
    constructor
    · refine JsNumber.div_leNat_zero ?_ hpos
      rw [leNat_ofInt, decide_eq_true_eq]
      omega
    · exact (Int.ediv_neg_of_neg_of_pos (by omega) (by omega)).le

/-- Both limiters leave everything as it is, or both are refilled for the same `k` intervals. -/
theorem SameClock.refill (h : SameClock l n) (hnow : Ordinary now) :
    (l.refill now = l ∧ n.refill now = n) ∨
      ∃ k : ℤ, 1 ≤ k ∧ Ordinary (l.lastRefillAt + k * l.options.refillIntervalMs) ∧
        l.refill now = { l with
          tokens := min l.options.capacity (l.tokens + k * l.options.refillTokens)
          lastRefillAt := l.lastRefillAt + k * l.options.refillIntervalMs } ∧
        n.refill now = { n with
          tokens := n.options.capacity.min
            (n.tokens.add ((JsNumber.ofInt k).mul n.options.refillTokens))
          lastRefillAt := .ofInt (l.lastRefillAt + k * l.options.refillIntervalMs) } := by
  have hunchanged : (n.intervals now).leNat 0 = true →
      (now - l.lastRefillAt) / l.options.refillIntervalMs ≤ 0 →
        l.refill now = l ∧ n.refill now = n := by
    intro hzero hle
    rw [TokenBucketRateLimiter.refill_unchanged hzero, WeisleyRpc.TokenBucketRateLimiter.refill,
      if_pos hle]
    exact ⟨rfl, rfl⟩
  rcases h.intervals hnow with ⟨hzero, hle⟩ | ⟨hintervals, hpassed⟩
  · exact Or.inl (hunchanged hzero hle)
  · by_cases hle : (now - l.lastRefillAt) / l.options.refillIntervalMs ≤ 0
    · exact Or.inl (hunchanged (by rw [hintervals, leNat_ofInt, decide_eq_true hle]) hle)
    · have hpositive : (n.intervals now).leNat 0 = false := by
        rw [hintervals, leNat_ofInt, decide_eq_false hle]
      have hpos := l.options.one_le_refillIntervalMs
      have hmoved : (now - l.lastRefillAt) / l.options.refillIntervalMs *
          l.options.refillIntervalMs ≤ now - l.lastRefillAt := Int.ediv_mul_le _ (by omega)
      have hlast := h.ordinary.nonneg
      have hnow' := hnow.timeValue
      unfold TimeValue at hnow'
      rw [TokenBucketRateLimiter.refill_filled hpositive, WeisleyRpc.TokenBucketRateLimiter.refill,
        if_neg hle, hintervals, h.lastRefillAt, h.refillIntervalMs]
      generalize (now - l.lastRefillAt) / l.options.refillIntervalMs = k at *
      have hk : 0 ≤ k * l.options.refillIntervalMs := Int.mul_nonneg (by omega) (by omega)
      refine Or.inr ⟨k, by omega, ⟨by omega, ?_⟩, rfl, ?_⟩
      · unfold TimeValue
        omega
      · rw [JsNumber.mul_ofInt (by omega), JsNumber.add_ofInt (by omega)]

end Limiters

namespace LimiterAgrees
variable {l : WeisleyRpc.TokenBucketRateLimiter} {n : TokenBucketRateLimiter} {now : ℤ}

theorem clock (h : LimiterAgrees l n) : SameClock l n :=
  ⟨h.refillIntervalMs, h.lastRefillAt, h.ordinary⟩

theorem refill (h : LimiterAgrees l n) (hnow : Ordinary now) :
    LimiterAgrees (l.refill now) (n.refill now) := by
  rcases h.clock.refill hnow with ⟨hl, hn⟩ | ⟨k, hk, hordinary, hl, hn⟩
  · rw [hl, hn]
    exact h
  · have hcapacity := l.options.one_le_capacity
    have hrefill := l.options.one_le_refillTokens
    have hkr : 0 ≤ k * l.options.refillTokens := Int.mul_nonneg (by omega) (by omega)
    have htokens := h.tokens_nonneg
    rw [hl, hn]
    refine ⟨h.capacity, h.refillTokens, h.refillIntervalMs, ?_, rfl, h.bound,
      le_min (by omega) (by omega), min_le_left _ _, hordinary⟩
    rw [h.capacity, h.tokens, h.refillTokens]
    exact min_add_mul (by omega) h.bound htokens hk hrefill

theorem allow (h : LimiterAgrees l n) (hnow : Ordinary now) :
    (n.allow now).1 = (l.allow now).1 ∧ LimiterAgrees (l.allow now).2 (n.allow now).2 := by
  have hrefilled := h.refill hnow
  have hbound := hrefilled.bound
  have htokens := hrefilled.tokens_nonneg
  have htokens' := hrefilled.tokens_le
  unfold TokenBucketRateLimiter.allow WeisleyRpc.TokenBucketRateLimiter.allow
  simp only [hrefilled.tokens, leNat_ofInt, decide_eq_true_eq]
  split_ifs with hzero
  · exact ⟨rfl, hrefilled⟩
  · refine ⟨rfl, hrefilled.capacity, hrefilled.refillTokens, hrefilled.refillIntervalMs, ?_,
      hrefilled.lastRefillAt, hbound, ?_, ?_, hrefilled.ordinary⟩
    · have hone : JsNumber.ofNat 1 = .ofInt 1 := by
        rw [JsNumber.ofNat, JsNumber.ofInt, Nat.cast_one, Int.cast_one]
      rw [hone, JsNumber.sub_ofInt (by omega)]
    · dsimp only
      omega
    · dsimp only
      omega

theorem apply (h : LimiterAgrees l n) {e : LimiterEvent} (he : Ordinary e.now) :
    LimiterAgrees (l.apply e) (n.apply e) := by
  unfold TokenBucketRateLimiter.apply WeisleyRpc.TokenBucketRateLimiter.apply
  cases e.call with
  | allow => exact (h.allow he).2
  | getAvailableTokens => exact h.refill he

theorem new {options : WeisleyRpc.RateLimiterOptions} (hcapacity : options.capacity < 2 ^ 53 + 1)
    {start : ℤ} (hstart : Ordinary start) :
    LimiterAgrees (WeisleyRpc.TokenBucketRateLimiter.new options start)
      (TokenBucketRateLimiter.new (ofRationals options) start) := by
  have hfloor : ⌊options.capacity⌋ < 2 ^ 53 + 1 :=
    Int.floor_lt.mpr (by exact_mod_cast hcapacity)
  have hone := options.normalize.one_le_capacity
  have hbound : options.normalize.capacity ≤ 2 ^ 53 := max_le (by norm_num) (by omega)
  exact ⟨floorFrom_finite 1 _, floorFrom_finite 1 _, floorFrom_finite 1 _, floorFrom_finite 1 _,
    rfl, hbound, zero_le_one.trans hone, le_refl _, hstart⟩

end LimiterAgrees

/-- The limiter on numbers does what the limiter on whole numbers does. -/
theorem limiter_agrees {options : WeisleyRpc.RateLimiterOptions}
    (hcapacity : options.capacity < 2 ^ 53 + 1) {start : ℤ} (hstart : Ordinary start)
    (history : List LimiterEvent) (hhistory : ∀ e ∈ history, Ordinary e.now) :
    LimiterAgrees ((WeisleyRpc.TokenBucketRateLimiter.new options start).after history)
      (TokenBucketRateLimiter.after (ofRationals options) start history) := by
  induction history using List.reverseRecOn with
  | nil => exact LimiterAgrees.new hcapacity hstart
  | append_singleton history e ih =>
    rw [TokenBucketRateLimiter.after, WeisleyRpc.TokenBucketRateLimiter.after, List.foldl_append,
      List.foldl_append]
    have hbefore := ih fun e' he' => hhistory e' (List.mem_append_left _ he')
    exact hbefore.apply (hhistory e (by simp))

/-- The entry on numbers is the entry with its count, which has not reached the threshold while
the entry is closed. -/
structure EntryAgrees (threshold : ℤ) (entry : WeisleyRpc.CircuitBreakerEntry)
    (entry' : CircuitBreakerEntry) : Prop where
  state : entry'.state = entry.state
  failureCount : entry'.failureCount = .ofNat entry.failureCount
  openedAt : entry'.openedAt = entry.openedAt
  counted : entry.state = .closed → (entry.failureCount : ℤ) < threshold
  ordinary : ∀ t, entry.openedAt = some t → Ordinary t

structure BreakerAgrees (b : WeisleyRpc.CircuitBreaker) (n : CircuitBreaker) : Prop where
  failureThreshold : n.options.failureThreshold = .ofInt b.failureThreshold
  resetTimeoutMs : n.options.resetTimeoutMs = .ofInt b.resetTimeoutMs
  positive : 1 ≤ b.failureThreshold
  bound : b.failureThreshold ≤ 2 ^ 53
  entries : ∀ key, EntryAgrees b.failureThreshold (b.entry key) (n.entry key)

theorem le_ofInt (m n : ℤ) : (JsNumber.ofInt m).le (.ofInt n) = decide (m ≤ n) := by
  simp only [JsNumber.ofInt, JsNumber.le, Int.cast_le]

theorem le_ofNat (m : ℤ) (n : ℕ) : (JsNumber.ofInt m).le (.ofNat n) = decide (m ≤ (n : ℤ)) := by
  rw [← le_ofInt, JsNumber.ofNat, JsNumber.ofInt, JsNumber.ofInt, Int.cast_natCast]

namespace EntryAgrees
variable {threshold : ℤ} {entry : WeisleyRpc.CircuitBreakerEntry} {entry' : CircuitBreakerEntry}
  {now : ℤ}

theorem elapsed (h : EntryAgrees threshold entry entry') (hnow : Ordinary now) :
    (JsNumber.ofInt now).sub (.ofInt (entry'.openedAt.getD 0)) =
      .ofInt (now - entry.openedAt.getD 0) := by
  rw [h.openedAt]
  have hopened : Ordinary (entry.openedAt.getD 0) := by
    cases ht : entry.openedAt with
    | none => exact ⟨le_refl _, by decide⟩
    | some t => exact h.ordinary t ht
  have hlow := hopened.nonneg
  have hhigh := hopened.timeValue
  have hlow' := hnow.nonneg
  have hhigh' := hnow.timeValue
  unfold TimeValue at hhigh hhigh'
  exact JsNumber.sub_ofInt (by omega)

theorem closed (hpos : 1 ≤ threshold) :
    EntryAgrees threshold WeisleyRpc.CircuitBreakerEntry.fresh .fresh := by
  refine ⟨rfl, rfl, rfl, fun _ => ?_, fun t ht => by cases ht⟩
  simp only [WeisleyRpc.CircuitBreakerEntry.fresh]
  omega

end EntryAgrees


namespace BreakerAgrees
variable {b : WeisleyRpc.CircuitBreaker} {n : CircuitBreaker} {e : BreakerEvent}

theorem next (h : BreakerAgrees b n) (he : Ordinary e.now)
    {entry' : WeisleyRpc.CircuitBreakerEntry}
    (hs : EntryStep b e.key e (b.entry e.key) entry') :
    EntryAgrees b.failureThreshold entry' ((n.entry e.key).next n.options e) := by
  have hentry := h.entries e.key
  have hpos := h.positive
  have hbound := h.bound
  unfold CircuitBreakerEntry.next
  cases hs with
  | other hk => exact absurd rfl hk
  | admitted hk hcall hstate =>
    rw [hcall, hentry.state]
    cases hopen : (b.entry e.key).state with
    | opened => exact absurd hopen hstate
    | closed => exact hentry
    | halfOpen => exact hentry
  | probe hk hcall hopen hpassed =>
    rw [hcall, hentry.state, hopen]
    simp only [h.resetTimeoutMs, hentry.elapsed he, le_ofInt, decide_eq_true hpassed, if_true]
    exact ⟨rfl, hentry.failureCount, hentry.openedAt, fun hc => (by cases hc), hentry.ordinary⟩
  | refused hk hcall hopen hearly =>
    rw [hcall, hentry.state, hopen]
    have hnot := not_le.mpr hearly
    simp only [h.resetTimeoutMs, hentry.elapsed he, le_ofInt, decide_eq_false hnot,
      Bool.false_eq_true, if_false]
    exact hentry
  | succeeded hk hcall =>
    rw [hcall]
    exact EntryAgrees.closed hpos
  | reopened hk hcall hhalf =>
    rw [hcall, hentry.state, hhalf]
    refine ⟨rfl, hentry.failureCount, rfl, fun hc => (by cases hc), fun t ht => ?_⟩
    obtain rfl := Option.some.inj ht
    exact he
  | ignored hk hcall hopen =>
    rw [hcall, hentry.state, hopen]
    exact hentry
  | counted hk hcall hclosed hbelow =>
    have hadd : (n.entry e.key).failureCount.add (.ofNat 1) =
        .ofNat ((b.entry e.key).failureCount + 1) := by
      rw [hentry.failureCount]
      exact add_one (by omega)
    rw [hcall, hentry.state, hclosed]
    simp only [hadd, h.failureThreshold, le_ofNat, decide_eq_false (not_le.mpr hbelow),
      Bool.false_eq_true, if_false]
    exact ⟨rfl, rfl, hentry.openedAt, fun _ => hbelow, hentry.ordinary⟩
  | tripped hk hcall hclosed hreached =>
    have hbelow := hentry.counted hclosed
    have hadd : (n.entry e.key).failureCount.add (.ofNat 1) =
        .ofNat ((b.entry e.key).failureCount + 1) := by
      rw [hentry.failureCount]
      exact add_one (by omega)
    rw [hcall, hentry.state, hclosed]
    simp only [hadd, h.failureThreshold, le_ofNat, decide_eq_true hreached, if_true]
    refine ⟨rfl, rfl, rfl, fun hc => (by cases hc), fun t ht => ?_⟩
    obtain rfl := Option.some.inj ht
    exact he

theorem apply (h : BreakerAgrees b n) (he : Ordinary e.now) :
    BreakerAgrees (b.apply e) (n.apply e) := by
  obtain ⟨hthreshold, hreset⟩ := b.apply_options e
  refine ⟨?_, ?_, ?_, ?_, fun key => ?_⟩
  · rw [CircuitBreaker.apply_options, hthreshold, h.failureThreshold]
  · rw [CircuitBreaker.apply_options, hreset, h.resetTimeoutMs]
  · rw [hthreshold]
    exact h.positive
  · rw [hthreshold]
    exact h.bound
  · rw [hthreshold, CircuitBreaker.entry_apply]
    split_ifs with hk
    · subst hk
      exact h.next he (b.apply_step e.key e)
    · rw [WeisleyRpc.CircuitBreaker.entry_apply_other b (Ne.symm hk)]
      exact h.entries key

theorem canRequest (h : BreakerAgrees b n) (key : String) {now : ℤ} (hnow : Ordinary now) :
    (n.canRequest key now).1 = (b.canRequest key now).1 := by
  have hentry := h.entries key
  unfold CircuitBreaker.canRequest WeisleyRpc.CircuitBreaker.canRequest
  rw [CircuitBreaker.getOrCreateEntry_eq, WeisleyRpc.CircuitBreaker.getOrCreateEntry_eq]
  simp only [hentry.state]
  cases (b.entry key).state with
  | closed => rfl
  | halfOpen => rfl
  | opened =>
    simp only [CircuitBreaker.write, WeisleyRpc.CircuitBreaker.write, h.resetTimeoutMs,
      hentry.elapsed hnow, le_ofInt, decide_eq_true_eq, ge_iff_le]
    split_ifs <;> rfl

end BreakerAgrees

/-- The breaker on numbers does what the breaker on whole numbers does. -/
theorem breaker_agrees {options : WeisleyRpc.CircuitBreakerOptions}
    (hthreshold : options.failureThreshold < 2 ^ 53 + 1) (history : List BreakerEvent)
    (hhistory : ∀ e ∈ history, Ordinary e.now) :
    BreakerAgrees (WeisleyRpc.CircuitBreaker.after options history)
      (CircuitBreaker.after ⟨.finite options.failureThreshold, .finite options.resetTimeoutMs⟩
        history) := by
  induction history using List.reverseRecOn with
  | nil =>
    have hfloor : ⌊options.failureThreshold⌋ < 2 ^ 53 + 1 :=
      Int.floor_lt.mpr (by exact_mod_cast hthreshold)
    have hone : (1 : ℤ) ≤ max 1 ⌊options.failureThreshold⌋ := le_max_left _ _
    have hbound : max 1 ⌊options.failureThreshold⌋ ≤ (2 : ℤ) ^ 53 :=
      max_le (by norm_num) (by omega)
    exact ⟨floorFrom_finite 1 _, floorFrom_finite 0 _, hone, hbound,
      fun key => EntryAgrees.closed hone⟩
  | append_singleton history e ih =>
    rw [CircuitBreaker.after, WeisleyRpc.CircuitBreaker.after, List.foldl_append,
      List.foldl_append]
    have hbefore := ih fun e' he' => hhistory e' (List.mem_append_left _ he')
    exact hbefore.apply (hhistory e (by simp))

end WeisleyRpc.Numeric
