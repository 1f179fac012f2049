import WeisleyRpc.BreakerNumbers
import WeisleyRpc.CodecPeers

/-!
# What the options make of the guards

The rate limiter, the circuit breaker and the body limits of the codec are guards that are set
by numbers. `Math.max` with a lower bound repairs what is too small and passes `NaN` on, which
no comparison stops; a number so large that one is nothing to it is never counted down or up
to; and a limit between 0 and 1 is checked before it is rounded to 0.
-/

namespace WeisleyRpc.Numeric

/-- The settings a limiter keeps. -/
structure RateLimiterOptions.Effective (options : RateLimiterOptions) : Prop where
  capacity : (JsNumber.ofNat 1).le options.capacity = true
  refillTokens : (JsNumber.ofNat 1).le options.refillTokens = true
  refillIntervalMs : (JsNumber.ofNat 1).le options.refillIntervalMs = true

/-- A limiter of these options keeps effective settings, and refuses after finitely many grants
when it is polled while the clock stands still. -/
structure LimiterGuards (options : RateLimiterOptions) : Prop where
  settings : ∀ start, (TokenBucketRateLimiter.new options start).options.Effective
  refuses : options.capacity ≠ .infinity → ∀ (start : ℤ) (history : List LimiterEvent) (now : ℤ),
    TimeValue start → (∀ e ∈ history, TimeValue e.now) → TimeValue now →
      ∃ n, ∀ k, n ≤ k →
        (((TokenBucketRateLimiter.after options start history).polled now k).allow now).1 = false

/-- The settings a breaker keeps. -/
structure CircuitBreakerOptions.Effective (options : CircuitBreakerOptions) : Prop where
  failureThreshold : (JsNumber.ofNat 1).le options.failureThreshold = true
  resetTimeoutMs : (JsNumber.ofNat 0).le options.resetTimeoutMs = true

/-- A breaker of these options keeps effective settings, and opens for a key after finitely many
failures of it with no success in between. -/
structure BreakerGuards (options : CircuitBreakerOptions) : Prop where
  settings : (CircuitBreaker.new options).options.Effective
  opens : options.failureThreshold ≠ .infinity → ∀ (history : List BreakerEvent) (key : String),
    ∃ n, ∀ es, (∀ e ∈ es, e.key = key → e.call ≠ .recordSuccess) →
      n ≤ CircuitBreaker.failures key es →
        ∃ pre, pre <+: es ∧
          (pre.foldl CircuitBreaker.apply (CircuitBreaker.after options history)).getState key =
            .opened

/-- A codec of these options is not built, or has limits of one byte and more. -/
def CodecGuards (options : RpcCodecOptions) : Prop :=
  ∀ codec, RpcCodec.new options = .ok codec →
    1 ≤ codec.config.maxBodyLength ∧ 1 ≤ codec.config.maxDecompressedBodyLength

section Normalized
variable {value : JsNumber} {q : ℚ}

theorem floorFrom_le {n : ℕ} (hn : 1 ≤ n) (hnan : value ≠ .nan) (hinfinity : value ≠ .infinity)
    (h : ∀ q, value = .finite q → q < n + 1) :
    ∃ m, 1 ≤ m ∧ m ≤ n ∧ floorFrom 1 value = .finite (m : ℕ) := by
  cases value with
  | nan => exact absurd rfl hnan
  | infinity => exact absurd rfl hinfinity
  | negInfinity =>
    exact ⟨1, le_refl _, hn, rfl⟩
  | finite q =>
    have hfloor : ⌊q⌋ < (n : ℤ) + 1 := Int.floor_lt.mpr (by exact_mod_cast h q rfl)
    have hmax : (1 : ℤ) ≤ max ((1 : ℕ) : ℤ) ⌊q⌋ := le_max_left _ _
    obtain ⟨m, hm⟩ : ∃ m : ℕ, max ((1 : ℕ) : ℤ) ⌊q⌋ = m :=
      ⟨_, (Int.toNat_of_nonneg (by omega)).symm⟩
    exact ⟨m, by omega, by omega, by rw [floorFrom_finite, hm, Int.cast_natCast]⟩

theorem le_floorFrom {n : ℕ} (h : (n : ℚ) ≤ q) :
    ∃ m : ℤ, (n : ℤ) ≤ m ∧ floorFrom 1 (.finite q) = .finite m := by
  refine ⟨_, ?_, floorFrom_finite 1 q⟩
  have hfloor : (n : ℤ) ≤ ⌊q⌋ := Int.le_floor.mpr (by exact_mod_cast h)
  exact hfloor.trans (le_max_right _ _)

end Normalized

theorem RateLimiterOptions.effective_iff {options : RateLimiterOptions} :
    options.normalize.Effective ↔ options.IsNumbers := by
  constructor
  · intro h
    exact ⟨floorFrom_le_iff.1 h.capacity, floorFrom_le_iff.1 h.refillTokens,
      floorFrom_le_iff.1 h.refillIntervalMs⟩
  · intro h
    exact ⟨floorFrom_le_iff.2 h.capacity, floorFrom_le_iff.2 h.refillTokens,
      floorFrom_le_iff.2 h.refillIntervalMs⟩

theorem CircuitBreakerOptions.effective_iff {options : CircuitBreakerOptions} :
    options.normalize.Effective ↔
      options.failureThreshold ≠ .nan ∧ options.resetTimeoutMs ≠ .nan := by
  constructor
  · intro h
    exact ⟨floorFrom_le_iff.1 h.failureThreshold, floorFrom_le_iff.1 h.resetTimeoutMs⟩
  · rintro ⟨hthreshold, hreset⟩
    exact ⟨floorFrom_le_iff.2 hthreshold, floorFrom_le_iff.2 hreset⟩

theorem limiterGuards_iff (options : RateLimiterOptions) : LimiterGuards options ↔
    options.IsNumbers ∧ ∀ q, options.capacity = .finite q → q < 2 ^ 53 + 4 := by
  constructor
  · intro h
    have hnumbers : options.IsNumbers := RateLimiterOptions.effective_iff.1 (h.settings 0)
    refine ⟨hnumbers, fun q hq => ?_⟩
    by_contra hle
    have hlarge : ((2 ^ 53 + 4 : ℕ) : ℚ) ≤ q := by exact_mod_cast not_lt.mp hle
    obtain ⟨m, hm, hcapacity⟩ := le_floorFrom hlarge
    have habundant : TokenBucketRateLimiter.Abundant (TokenBucketRateLimiter.new options 0) := by
      refine ⟨Or.inr ⟨m, by exact_mod_cast hm, ?_⟩, ?_, rfl⟩
      · simp only [TokenBucketRateLimiter.new, RateLimiterOptions.normalize, hq, hcapacity]
      · exact JsNumber.AtLeast.max_floor 1 hnumbers.refillIntervalMs
    obtain ⟨n, hn⟩ := h.refuses (by rw [hq]; exact JsNumber.noConfusion) 0 [] 0 (by decide)
      (by simp) (by decide)
    have hgrants := habundant.grants n
    have hrefused := hn n (le_refl _)
    rw [TokenBucketRateLimiter.after, List.foldl_nil, hgrants] at hrefused
    cases hrefused
  · rintro ⟨hnumbers, hbound⟩
    refine ⟨fun start => RateLimiterOptions.effective_iff.2 hnumbers, ?_⟩
    intro hinfinity start history now hstart hhistory hnow
    obtain ⟨c, -, hc, hcapacity⟩ := floorFrom_le (n := 2 ^ 53 + 3) (by norm_num) hnumbers.capacity
      hinfinity (fun q hq => by
        have hlt := hbound q hq
        push_cast
        linarith)
    exact (TokenBucketRateLimiter.Sound.after hc hcapacity hnumbers hstart history hhistory).refuses
      hnow

/-- A key that only fails, at the epoch. -/
def failing (key : String) (n : ℕ) : List BreakerEvent :=
  List.replicate n ⟨.recordFailure, key, 0⟩

theorem failures_failing (key : String) (n : ℕ) :
    CircuitBreaker.failures key (failing key n) = n := by
  simp [CircuitBreaker.failures, failing, List.countP_replicate]

theorem breakerGuards_iff (options : CircuitBreakerOptions) : BreakerGuards options ↔
    (options.failureThreshold ≠ .nan ∧ options.resetTimeoutMs ≠ .nan) ∧
      ∀ q, options.failureThreshold = .finite q → q < 2 ^ 53 + 1 := by
  constructor
  · intro h
    have hnumbers := CircuitBreakerOptions.effective_iff.1 h.settings
    refine ⟨hnumbers, fun q hq => ?_⟩
    by_contra hle
    have hlarge : ((2 ^ 53 + 1 : ℕ) : ℚ) ≤ q := by exact_mod_cast not_lt.mp hle
    obtain ⟨m, hm, hthreshold⟩ := le_floorFrom hlarge
    have hunreachable : CircuitBreakerEntry.Unreachable
        options.normalize.failureThreshold := by
      intro n hn
      have hlt : ¬ (m : ℚ) ≤ ((n : ℤ) : ℚ) := by
        rw [Int.cast_le]
        push_cast at hm
        omega
      rw [Int.cast_natCast] at hlt
      simp [CircuitBreakerOptions.normalize, hq, hthreshold, JsNumber.le, hlt]
    obtain ⟨n, hn⟩ := h.opens (by rw [hq]; exact JsNumber.noConfusion) [] ""
    obtain ⟨pre, -, hopened⟩ := hn (failing "" n)
      (fun e he _ => by rw [List.eq_of_mem_replicate he]; exact BreakerCall.noConfusion)
      (failures_failing "" n).ge
    have hcounting : CircuitBreakerEntry.Counting
        ((CircuitBreaker.after options pre).entry "") :=
      CircuitBreaker.counting_after hunreachable pre
    rw [CircuitBreaker.getState_eq] at hopened
    exact CircuitBreakerState.noConfusion (hcounting.closed.symm.trans hopened)
  · rintro ⟨hnumbers, hbound⟩
    refine ⟨CircuitBreakerOptions.effective_iff.2 hnumbers, ?_⟩
    intro hinfinity history key
    obtain ⟨t, hpos, ht, hthreshold⟩ := floorFrom_le (n := 2 ^ 53) (by norm_num) hnumbers.1
      hinfinity (fun q hq => by exact_mod_cast hbound q hq)
    refine ⟨t, fun es hes hfailures => ?_⟩
    refine CircuitBreaker.opens ?_ ht
      (CircuitBreaker.opensWithin_after hthreshold hpos ht history) hes hfailures
    rw [CircuitBreaker.after_options]
    exact hthreshold

/-- The limits that are given. -/
def bodyLimits (options : RpcCodecOptions) : List JsNumber :=
  options.maxBodyLength.toList ++ options.maxDecompressedBodyLength.toList

/-- A limit that is not a finite number greater than 0 is refused. -/
def Refused (value : JsNumber) : Prop := ∀ q, value = .finite q → q ≤ 0

theorem normalizeLimit_one_le {value : Option JsNumber} {fallback n : ℕ}
    (h : normalizeLimit value fallback = .ok n) (hfallback : 1 ≤ fallback) :
    1 ≤ n ↔ ∀ v ∈ value, (JsNumber.ofNat 1).le v = true := by
  rcases normalizeLimit_eq_ok_iff.mp h with ⟨rfl, rfl⟩ | ⟨q, rfl, hq, rfl⟩
  · simp [hfallback]
  · have hfloor : (1 : ℤ) ≤ q.floor ↔ ((1 : ℤ) : ℚ) ≤ q := Rat.le_floor_iff
    rw [Int.cast_one] at hfloor
    have htoNat : 1 ≤ q.floor.toNat ↔ (1 : ℤ) ≤ q.floor := by omega
    simp [JsNumber.le, JsNumber.ofNat, htoNat, hfloor]

theorem not_refused_iff {value : JsNumber} :
    ¬ Refused value ↔ ∃ q, value = .finite q ∧ 0 < q := by
  simp only [Refused, not_forall, not_le, exists_prop]

theorem codecGuards_iff (options : RpcCodecOptions) : CodecGuards options ↔
    (∃ v ∈ bodyLimits options, Refused v) ∨
      ∀ v ∈ bodyLimits options, (JsNumber.ofNat 1).le v = true := by
  have hpacket : 1 ≤ MAX_PACKET_LENGTH := by decide
  have hlimits : ∀ P : JsNumber → Prop, (∀ v ∈ bodyLimits options, P v) ↔
      (∀ v ∈ options.maxBodyLength, P v) ∧ ∀ v ∈ options.maxDecompressedBodyLength, P v := by
    intro P
    simp only [bodyLimits, List.mem_append, Option.mem_toList, Option.mem_def, or_imp, forall_and]
  have hnew : ∀ codec, RpcCodec.new options = .ok codec →
      normalizeLimit options.maxBodyLength MAX_PACKET_LENGTH =
          .ok codec.config.maxBodyLength ∧
        normalizeLimit options.maxDecompressedBodyLength codec.config.maxBodyLength =
          .ok codec.config.maxDecompressedBodyLength := by
    intro codec h
    simp only [RpcCodec.new, Except.bind_eq_ok_iff, pure, Except.pure, Except.ok.injEq] at h
    obtain ⟨n, hn, m, hm, rfl⟩ := h
    exact ⟨hn, hm⟩
  constructor
  · intro h
    refine or_iff_not_imp_left.2 fun hnone => ?_
    have hvalid : ∀ v ∈ bodyLimits options, ∃ q, v = .finite q ∧ 0 < q := fun v hv =>
      not_refused_iff.1 fun hrefused => hnone ⟨v, hv, hrefused⟩
    obtain ⟨hbody, hdecompressed⟩ := (hlimits _).1 hvalid
    obtain ⟨n, hn⟩ : ∃ n, normalizeLimit options.maxBodyLength MAX_PACKET_LENGTH = .ok n :=
      normalizeLimit_isOk_iff.2 hbody
    obtain ⟨m, hm⟩ : ∃ m, normalizeLimit options.maxDecompressedBodyLength n = .ok m :=
      normalizeLimit_isOk_iff.2 hdecompressed
    obtain ⟨codec, hcodec⟩ : ∃ codec, RpcCodec.new options = .ok codec := by
      simp only [RpcCodec.new, Except.bind_eq_ok_iff]
      exact ⟨_, n, hn, m, hm, rfl⟩
    obtain ⟨hn', hm'⟩ := hnew codec hcodec
    obtain ⟨hone, hone'⟩ := h codec hcodec
    exact (hlimits _).2 ⟨(normalizeLimit_one_le hn' hpacket).1 hone,
      (normalizeLimit_one_le hm' hone).1 hone'⟩
  · rintro (⟨v, hv, hrefused⟩ | hone) codec hcodec
    · obtain ⟨hn, hm⟩ := hnew codec hcodec
      have hvalid := (hlimits _).2
        ⟨normalizeLimit_isOk_iff.1 ⟨_, hn⟩, normalizeLimit_isOk_iff.1 ⟨_, hm⟩⟩
      exact absurd hrefused (not_refused_iff.2 (hvalid v hv))
    · obtain ⟨hn, hm⟩ := hnew codec hcodec
      obtain ⟨hbody, hdecompressed⟩ := (hlimits _).1 hone
      have hpositive := (normalizeLimit_one_le hn hpacket).2 hbody
      exact ⟨hpositive, (normalizeLimit_one_le hm hpositive).2 hdecompressed⟩

/-- The options that leave the guards in place. -/
theorem options_guard_iff (limiter : RateLimiterOptions) (breaker : CircuitBreakerOptions)
    (codec : RpcCodecOptions) :
    (LimiterGuards limiter ↔
      limiter.IsNumbers ∧ ∀ q, limiter.capacity = .finite q → q < 2 ^ 53 + 4) ∧
    (BreakerGuards breaker ↔
      (breaker.failureThreshold ≠ .nan ∧ breaker.resetTimeoutMs ≠ .nan) ∧
        ∀ q, breaker.failureThreshold = .finite q → q < 2 ^ 53 + 1) ∧
    (CodecGuards codec ↔
      (∃ v ∈ bodyLimits codec, Refused v) ∨
        ∀ v ∈ bodyLimits codec, (JsNumber.ofNat 1).le v = true) :=
  ⟨limiterGuards_iff limiter, breakerGuards_iff breaker, codecGuards_iff codec⟩

/-- `NaN` disables the limiter and the breaker, and half a byte is a limit of none. -/
theorem options_disable_guards :
    ¬ LimiterGuards ⟨.nan, .finite 1, .finite 1000⟩ ∧
    ¬ BreakerGuards ⟨.nan, .finite 1000⟩ ∧
    ¬ CodecGuards { sampleStoring 1 with maxBodyLength := some (.finite (1 / 2)) } := by
  refine ⟨?_, ?_, ?_⟩
  · intro h
    exact absurd rfl ((limiterGuards_iff _).1 h).1.capacity
  · intro h
    exact absurd rfl ((breakerGuards_iff _).1 h).1.1
  · intro h
    rcases (codecGuards_iff _).1 h with ⟨v, hv, hrefused⟩ | hone
    · obtain rfl : v = .finite (1 / 2) := by simpa [bodyLimits, sampleStoring] using hv
      have hpositive := hrefused (1 / 2) rfl
      norm_num at hpositive
    · have hle := hone (.finite (1 / 2)) (by simp [bodyLimits])
      norm_num [JsNumber.le, JsNumber.ofNat] at hle

end WeisleyRpc.Numeric
