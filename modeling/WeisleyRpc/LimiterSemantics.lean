import WeisleyRpc.OrdinaryNumbers
import WeisleyRpc.RateLimiterRuns

/-!
# The limiter on numbers over whole runs

While the tokens can be counted the limiter on numbers answers as the one on whole numbers does.
With a few tokens more it may lose some in the rounding, and grants no more than that one; from
`2 ^ 53 + 4` tokens on, taking one leaves as many as before.
-/

namespace WeisleyRpc.Numeric

inductive LimiterAnswer
  | allowed (answer : Bool)
  | tokens (answer : JsNumber)
  deriving DecidableEq

/-- An answer with its tokens as a number. -/
def LimiterAnswer.ofWhole : WeisleyRpc.LimiterAnswer → LimiterAnswer
  | .allowed answer => .allowed answer
  | .tokens answer => .tokens (.ofInt answer)

/-- The calls read ordinary times. -/
def Timely (history : List LimiterEvent) : Prop := ∀ e ∈ history, Ordinary e.now

instance (history : List LimiterEvent) : Decidable (Timely history) := List.decidableBAll _ _

theorem timely_cons {e : LimiterEvent} {es : List LimiterEvent} :
    Timely (e :: es) ↔ Ordinary e.now ∧ Timely es := by
  simp [Timely]

theorem timely_append {es fs : List LimiterEvent} :
    Timely (es ++ fs) ↔ Timely es ∧ Timely fs := by
  simp only [Timely, List.mem_append, or_imp, forall_and]

namespace TokenBucketRateLimiter

def answer (l : TokenBucketRateLimiter) (e : LimiterEvent) : LimiterAnswer :=
  match e.call with
  | .allow => .allowed (l.allow e.now).1
  | .getAvailableTokens => .tokens (l.getAvailableTokens e.now).1

def answers (l : TokenBucketRateLimiter) (history : List LimiterEvent) : List LimiterAnswer :=
  Histories.outputs apply (fun l e => some (l.answer e)) l history

/-- How many calls of `allow` are answered with true. -/
def grants (l : TokenBucketRateLimiter) (history : List LimiterEvent) : ℕ :=
  (l.answers history).count (.allowed true)

/-- The answers given by `allow`. -/
def decisions (l : TokenBucketRateLimiter) (history : List LimiterEvent) : List Bool :=
  Histories.outputs apply (fun l e => if e.call = .allow then some (l.allow e.now).1 else none)
    l history

variable (l : TokenBucketRateLimiter) (e : LimiterEvent) (es : List LimiterEvent)

theorem answers_cons : l.answers (e :: es) = l.answer e :: (l.apply e).answers es := rfl

theorem grants_cons : l.grants (e :: es) =
    (l.apply e).grants es + if l.answer e = .allowed true then 1 else 0 := by
  simp only [grants, answers_cons, List.count_cons, beq_iff_eq]

end TokenBucketRateLimiter

section Agreement
variable {l : WeisleyRpc.TokenBucketRateLimiter} {n : TokenBucketRateLimiter} {e : LimiterEvent}
  {es : List LimiterEvent}

theorem LimiterAgrees.answer (h : LimiterAgrees l n) (he : Ordinary e.now) :
    n.answer e = .ofWhole (l.answer e) := by
  unfold TokenBucketRateLimiter.answer WeisleyRpc.TokenBucketRateLimiter.answer
  cases e.call with
  | allow => exact congrArg LimiterAnswer.allowed (h.allow he).1
  | getAvailableTokens => exact congrArg LimiterAnswer.tokens (h.refill he).tokens

theorem LimiterAgrees.answers (h : LimiterAgrees l n) (hes : Timely es) :
    n.answers es = (l.answers es).map .ofWhole := by
  induction es generalizing l n with
  | nil => rfl
  | cons e es ih =>
    obtain ⟨he, hes⟩ := timely_cons.mp hes
    rw [TokenBucketRateLimiter.answers_cons, WeisleyRpc.TokenBucketRateLimiter.answers_cons,
      h.answer he, ih (h.apply he) hes, List.map_cons]

theorem LimiterAgrees.grants (h : LimiterAgrees l n) (hes : Timely es) :
    n.grants es = l.grants es := by
  have hinjective : Function.Injective LimiterAnswer.ofWhole := by
    intro x y hxy
    cases x <;> cases y <;> simp_all [LimiterAnswer.ofWhole, JsNumber.ofInt]
  have hcount := List.count_map_of_injective (l.answers es) LimiterAnswer.ofWhole hinjective
    (.allowed true)
  rwa [← h.answers hes] at hcount

theorem LimiterAgrees.decisions (h : LimiterAgrees l n) (hes : Timely es) :
    n.decisions es = l.decisions es := by
  induction es generalizing l n with
  | nil => rfl
  | cons e es ih =>
    obtain ⟨he, hes⟩ := timely_cons.mp hes
    simp only [TokenBucketRateLimiter.decisions, WeisleyRpc.TokenBucketRateLimiter.decisions,
      Histories.outputs, (h.allow he).1]
    exact congrArg _ (ih (h.apply he) hes)

end Agreement

/-! ### Tokens that are lost -/

/-- Up to here no sum is rounded up. -/
theorem ofExact_le {m : ℤ} (hm : 0 ≤ m) (hle : m ≤ 2 ^ 53 + 2) :
    ∃ z : ℤ, JsNumber.ofExact (m : ℚ) = .ofInt z ∧ 0 ≤ z ∧ z ≤ m := by
  by_cases htop : m = 2 ^ 53 + 1
  · refine ⟨2 ^ 53, ?_, by omega, by omega⟩
    rw [htop, JsNumber.ofExact_eq_finite (by norm_num) (by norm_num), JsNumber.nearest_top]
    rfl
  · refine ⟨m, JsNumber.ofExact_whole ?_, hm, le_refl _⟩
    by_cases hsmall : m ≤ 2 ^ 53
    · exact Or.inl (by omega)
    · exact Or.inr ⟨Int.even_iff.mpr (by omega), by omega⟩

/-- Filling up gives no more tokens than it should. -/
theorem min_add_mul_le {capacity t k r : ℤ} (hcapacity : capacity ≤ 2 ^ 53 + 3)
    (ht : 0 ≤ t) (hc : 0 ≤ capacity) (hk : 1 ≤ k) (hr : 1 ≤ r) :
    ∃ z : ℤ, (JsNumber.ofInt capacity).min
        ((JsNumber.ofInt t).add ((JsNumber.ofInt k).mul (.ofInt r))) = .ofInt z ∧
      0 ≤ z ∧ z ≤ min capacity (t + k * r) := by
  have hprod : (JsNumber.ofInt k).mul (.ofInt r) = JsNumber.ofExact ((k * r : ℤ) : ℚ) := by
    rw [Int.cast_mul]
    rfl
  have hsum : ∀ z : ℤ, (JsNumber.ofInt t).add (.ofInt z) = JsNumber.ofExact ((t + z : ℤ) : ℚ) := by
    intro z
    rw [Int.cast_add]
    rfl
  have hkr : 1 ≤ k * r := by
    calc
      (1 : ℤ) = 1 * 1 := rfl
      _ ≤ k * r := Int.mul_le_mul hk hr (by omega) (by omega)
  by_cases hsmall : t + k * r ≤ 2 ^ 53 + 2
  · obtain ⟨z, hz, hzero, hle⟩ := ofExact_le (m := k * r) (by omega) (by omega)
    obtain ⟨z', hz', hzero', hle'⟩ := ofExact_le (m := t + z) (by omega) (by omega)
    rw [hprod, hz, hsum, hz', min_ofInt]
    exact ⟨_, rfl, le_min hc hzero', min_le_min_left _ (by omega)⟩
  · have hlarge : JsNumber.AtLeast (0 + 1)
        ((JsNumber.ofInt t).add ((JsNumber.ofInt k).mul (.ofInt r))) :=
      JsNumber.AtLeast.add (Or.inr ⟨t, ht, rfl⟩)
        (JsNumber.AtLeast.mul (Or.inr ⟨k, hk, rfl⟩) (Or.inr ⟨r, hr, rfl⟩)) (by norm_num)
    rcases hlarge with hinfinity | ⟨z, hz, hfinite⟩
    · rw [hinfinity]
      exact ⟨capacity, rfl, hc, le_min (le_refl _) (by omega)⟩
    · rw [hfinite]
      change ∃ z', (JsNumber.ofInt capacity).min (.ofInt z) = .ofInt z' ∧ _
      rw [min_ofInt]
      refine ⟨_, rfl, le_min hc (by omega), le_min (min_le_left _ _) ?_⟩
      exact (min_le_left _ _).trans (by omega)

/-- The limiter on numbers has no more tokens than the limiter on whole numbers. -/
structure LimiterBelow (l : WeisleyRpc.TokenBucketRateLimiter) (n : TokenBucketRateLimiter) :
    Prop where
  clock : SameClock l n
  capacity : n.options.capacity = .ofInt l.options.capacity
  refillTokens : n.options.refillTokens = .ofInt l.options.refillTokens
  bound : l.options.capacity ≤ 2 ^ 53 + 3
  tokens : ∃ t : ℤ, n.tokens = .ofInt t ∧ 0 ≤ t ∧ t ≤ l.tokens
  tokens_le : l.tokens ≤ l.options.capacity

namespace LimiterBelow
variable {l : WeisleyRpc.TokenBucketRateLimiter} {n : TokenBucketRateLimiter} {now : ℤ}
  {e : LimiterEvent} {es : List LimiterEvent}

theorem refill (h : LimiterBelow l n) (hnow : Ordinary now) :
    LimiterBelow (l.refill now) (n.refill now) := by
  rcases h.clock.refill hnow with ⟨hl, hn⟩ | ⟨k, hk, hordinary, hl, hn⟩
  · rw [hl, hn]
    exact h
  · obtain ⟨t, ht, hzero, hle⟩ := h.tokens
    have hcapacity := l.options.one_le_capacity
    obtain ⟨z, hz, hzero', hle'⟩ := min_add_mul_le h.bound hzero (by omega) hk
      l.options.one_le_refillTokens
    rw [hl, hn]
    refine ⟨⟨h.clock.refillIntervalMs, rfl, hordinary⟩, h.capacity, h.refillTokens, h.bound,
      ⟨z, ?_, hzero', ?_⟩, min_le_left _ _⟩
    · rw [h.capacity, ht, h.refillTokens]
      exact hz
    · exact hle'.trans (min_le_min_left _ (by omega))

/-- A call that is granted is granted by the limiter on whole numbers too. -/
theorem allow (h : LimiterBelow l n) (hnow : Ordinary now) :
    ((n.allow now).1 = true → (l.allow now).1 = true) ∧
      LimiterBelow (l.allow now).2 (n.allow now).2 := by
  have hrefilled := h.refill hnow
  obtain ⟨t, ht, hzero, hle⟩ := hrefilled.tokens
  obtain ⟨hinterval, hlast, hordinary⟩ := hrefilled.clock
  have hbound := hrefilled.bound
  have hcapacity := hrefilled.tokens_le
  unfold TokenBucketRateLimiter.allow WeisleyRpc.TokenBucketRateLimiter.allow
  simp only [ht, leNat_ofInt, decide_eq_true_eq]
  by_cases hpos : t ≤ 0
  · rw [if_pos hpos]
    split_ifs with hwhole
    · exact ⟨id, hrefilled⟩
    · refine ⟨fun h => (by cases h), ⟨hinterval, hlast, hordinary⟩,
        hrefilled.capacity, hrefilled.refillTokens, hbound, ⟨t, ht, hzero, ?_⟩, ?_⟩
      · dsimp only
        omega
      · dsimp only
        omega
  · rw [if_neg hpos, if_neg (by omega)]
    obtain ⟨t', hlt, hsub⟩ := sub_one_lt (t := t.toNat) (by omega) (by omega)
    have hcast : JsNumber.finite ((t.toNat : ℕ) : ℚ) = .ofInt t := by
      rw [JsNumber.ofInt, ← Int.cast_natCast, Int.toNat_of_nonneg hzero]
    rw [hcast] at hsub
    refine ⟨fun _ => rfl, ⟨hinterval, hlast, hordinary⟩, hrefilled.capacity,
      hrefilled.refillTokens, hbound, ⟨t', ?_, by omega, ?_⟩, ?_⟩
    · rw [hsub, JsNumber.ofInt, Int.cast_natCast]
    · dsimp only
      omega
    · dsimp only
      omega

theorem apply (h : LimiterBelow l n) (he : Ordinary e.now) :
    LimiterBelow (l.apply e) (n.apply e) := by
  unfold TokenBucketRateLimiter.apply WeisleyRpc.TokenBucketRateLimiter.apply
  cases e.call with
  | allow => exact (h.allow he).2
  | getAvailableTokens => exact h.refill he

theorem after (h : LimiterBelow l n) (hes : Timely es) :
    LimiterBelow (l.after es) (es.foldl TokenBucketRateLimiter.apply n) := by
  induction es generalizing l n with
  | nil => exact h
  | cons e es ih =>
    obtain ⟨he, hes⟩ := timely_cons.mp hes
    exact ih (h.apply he) hes

theorem grants_le (h : LimiterBelow l n) (hes : Timely es) : n.grants es ≤ l.grants es := by
  induction es generalizing l n with
  | nil => exact Nat.le_refl _
  | cons e es ih =>
    obtain ⟨he, hes⟩ := timely_cons.mp hes
    have hrest := ih (h.apply he) hes
    rw [TokenBucketRateLimiter.grants_cons, WeisleyRpc.TokenBucketRateLimiter.grants_cons]
    by_cases hgranted : n.answer e = .allowed true
    · have hwhole : l.answer e = .allowed true := by
        unfold TokenBucketRateLimiter.answer at hgranted
        unfold WeisleyRpc.TokenBucketRateLimiter.answer
        cases hcall : e.call with
        | allow =>
          simp only [hcall, LimiterAnswer.allowed.injEq] at hgranted
          exact congrArg WeisleyRpc.LimiterAnswer.allowed ((h.allow he).1 hgranted)
        | getAvailableTokens => simp [hcall] at hgranted
      rw [if_pos hgranted, if_pos hwhole]
      omega
    · rw [if_neg hgranted]
      omega

end LimiterBelow

theorem sameClock_new (options : WeisleyRpc.RateLimiterOptions) {start : ℤ}
    (hstart : Ordinary start) : SameClock (WeisleyRpc.TokenBucketRateLimiter.new options start)
      (TokenBucketRateLimiter.new (ofRationals options) start) :=
  ⟨floorFrom_finite 1 _, rfl, hstart⟩

theorem LimiterBelow.new {options : WeisleyRpc.RateLimiterOptions}
    (hcapacity : options.capacity < 2 ^ 53 + 4) {start : ℤ} (hstart : Ordinary start) :
    LimiterBelow (WeisleyRpc.TokenBucketRateLimiter.new options start)
      (TokenBucketRateLimiter.new (ofRationals options) start) := by
  have hfloor : ⌊options.capacity⌋ < 2 ^ 53 + 4 :=
    Int.floor_lt.mpr (by exact_mod_cast hcapacity)
  have hone := options.normalize.one_le_capacity
  have hbound : options.normalize.capacity ≤ 2 ^ 53 + 3 := max_le (by norm_num) (by omega)
  exact ⟨sameClock_new options hstart, floorFrom_finite 1 _, floorFrom_finite 1 _, hbound,
    ⟨_, floorFrom_finite 1 _, zero_le_one.trans hone, le_refl _⟩, le_refl _⟩

/-! ### The bound on the granted calls -/

namespace TokenBucketRateLimiter
open WeisleyRpc.TokenBucketRateLimiter (latest)
variable (options : WeisleyRpc.RateLimiterOptions) (start : ℤ)

/-- The limiter of some finite options after some calls. -/
def ofFinite (history : List LimiterEvent) : TokenBucketRateLimiter :=
  after (ofRationals options) start history

/-- How many tokens there are, and how many calls are granted in any part of a run and in all. -/
structure Bounded : Prop where
  tokens : ∀ history, Timely history → ∃ t : ℤ, (ofFinite options start history).tokens = .ofInt t ∧
    0 ≤ t ∧ t ≤ options.normalize.capacity
  window : ∀ history e window, Timely (history ++ e :: window) →
    ((ofFinite options start history).grants (e :: window) : ℤ) ≤
      options.normalize.capacity + options.normalize.refillTokens *
        ((latest e.now window - e.now) / options.normalize.refillIntervalMs + 1)
  whole : ∀ history, Timely history → ((ofFinite options start []).grants history : ℤ) ≤
    options.normalize.capacity + options.normalize.refillTokens *
      ((latest start history - start) / options.normalize.refillIntervalMs)

variable {options : WeisleyRpc.RateLimiterOptions} {start : ℤ}

theorem bounded_of_capacity (hcapacity : options.capacity < 2 ^ 53 + 4) (hstart : Ordinary start) :
    Bounded options start := by
  have hnew := LimiterBelow.new hcapacity hstart
  obtain ⟨htokens, hwindow, hwhole⟩ :=
    WeisleyRpc.TokenBucketRateLimiter.grants_bounded options start
  constructor
  · intro history hhistory
    obtain ⟨t, ht, hzero, hle⟩ := (hnew.after hhistory).tokens
    exact ⟨t, ht, hzero, hle.trans (htokens history).2⟩
  · intro history e window hall
    obtain ⟨hhistory, hrest⟩ := timely_append.mp hall
    have hle := (hnew.after hhistory).grants_le hrest
    exact (Int.ofNat_le.mpr hle).trans (hwindow history e window)
  · intro history hhistory
    exact (Int.ofNat_le.mpr (hnew.grants_le hhistory)).trans (hwhole history)

/-- Calls of `allow` at the epoch. -/
def asking (n : ℕ) : List LimiterEvent := List.replicate n ⟨.allow, 0⟩

theorem timely_asking (n : ℕ) : Timely (asking n) := by
  intro e he
  rw [List.eq_of_mem_replicate he]
  exact ⟨le_refl _, by decide⟩

theorem latest_asking (n : ℕ) : latest 0 (asking n) = 0 := by
  induction n with
  | zero => rfl
  | succ n ih => exact ih

theorem Abundant.grants_asking {l : TokenBucketRateLimiter} (h : Abundant l) (n : ℕ) :
    l.grants (asking n) = n := by
  induction n generalizing l with
  | zero => rfl
  | succ n ih =>
    have hgranted : l.answer ⟨.allow, 0⟩ = .allowed true :=
      congrArg LimiterAnswer.allowed h.allow.2
    rw [asking, List.replicate_succ, grants_cons, if_pos hgranted]
    exact congrArg (· + 1) (ih h.allow.1)

theorem abundant_of_capacity (h : 2 ^ 53 + 4 ≤ options.capacity) :
    Abundant (ofFinite options 0 []) := by
  have hfloor : (2 : ℤ) ^ 53 + 4 ≤ ⌊options.capacity⌋ := Int.le_floor.mpr (by exact_mod_cast h)
  have hcapacity : (2 : ℤ) ^ 53 + 4 ≤ max ((1 : ℕ) : ℤ) ⌊options.capacity⌋ :=
    hfloor.trans (le_max_right _ _)
  refine ⟨Or.inr ⟨_, ?_, floorFrom_finite 1 _⟩, Or.inr ⟨_, le_max_left _ _, floorFrom_finite 1 _⟩,
    rfl⟩
  exact_mod_cast hcapacity

/-- The finite capacities with which the grants of every run are bounded. -/
theorem grants_bounded_iff (options : WeisleyRpc.RateLimiterOptions) :
    (∀ start, Ordinary start → Bounded options start) ↔ options.capacity < 2 ^ 53 + 4 := by
  constructor
  · intro h
    by_contra hle
    have hwhole := (h 0 ⟨le_refl _, by decide⟩).whole
      (asking (options.normalize.capacity.toNat + 1)) (timely_asking _)
    have hone := options.normalize.one_le_capacity
    rw [(abundant_of_capacity (not_lt.mp hle)).grants_asking, latest_asking, sub_self,
      Int.zero_ediv, mul_zero, add_zero] at hwhole
    omega
  · intro hcapacity start hstart
    exact bounded_of_capacity hcapacity hstart

/-- With `2 ^ 53 + 4` tokens one call more than these is granted at one time. -/
theorem abundant_grants :
    (ofFinite ⟨2 ^ 53 + 4, 1, 1⟩ 0 []).grants (asking (2 ^ 53 + 5)) = 2 ^ 53 + 5 ∧
      Timely (asking (2 ^ 53 + 5)) ∧ ¬ Bounded ⟨2 ^ 53 + 4, 1, 1⟩ 0 := by
  have hgrants : (ofFinite ⟨2 ^ 53 + 4, 1, 1⟩ 0 []).grants (asking (2 ^ 53 + 5)) = 2 ^ 53 + 5 :=
    (abundant_of_capacity (le_refl _)).grants_asking _
  refine ⟨hgrants, timely_asking _, fun h => ?_⟩
  have hwhole := h.whole _ (timely_asking (2 ^ 53 + 5))
  have hcapacity : (WeisleyRpc.RateLimiterOptions.normalize ⟨2 ^ 53 + 4, 1, 1⟩).capacity =
      2 ^ 53 + 4 := by
    norm_num [WeisleyRpc.RateLimiterOptions.normalize]
  rw [hgrants, latest_asking, hcapacity] at hwhole
  norm_num at hwhole

end TokenBucketRateLimiter

/-! ### Lazy and eager refills -/

namespace TokenBucketRateLimiter
open WeisleyRpc.TokenBucketRateLimiter (allows answers_eq_eager)
variable (options : WeisleyRpc.RateLimiterOptions) (start : ℤ) (history : List LimiterEvent)

/-- The answers are those of a bucket that is refilled at each instant, and how often the limiter
is looked at makes no difference. -/
structure Eager : Prop where
  answers : (ofFinite options start []).answers history =
    ((EagerLimiter.new options.normalize).answers start history).map .ofWhole
  polling : ∀ polled, InOrder start polled → Timely polled → allows polled = allows history →
    (ofFinite options start []).decisions polled = (ofFinite options start []).decisions history ∧
    ∀ now, start ≤ now → Ordinary now → (∀ e ∈ history, e.now ≤ now) → (∀ e ∈ polled, e.now ≤ now) →
      ((ofFinite options start polled).getAvailableTokens now).1 =
        ((ofFinite options start history).getAvailableTokens now).1

variable {options : WeisleyRpc.RateLimiterOptions} {start : ℤ} {history : List LimiterEvent}

theorem eager_of_capacity (hcapacity : options.capacity < 2 ^ 53 + 1) (hstart : Ordinary start)
    (horder : InOrder start history) (hhistory : Timely history) : Eager options start history := by
  have hnew := LimiterAgrees.new hcapacity hstart
  obtain ⟨hanswers, hpolling⟩ := answers_eq_eager options horder
  constructor
  · rw [← hanswers]
    exact hnew.answers hhistory
  · intro polled hpolled htimely hallows
    obtain ⟨hdecisions, htokens⟩ := hpolling polled hpolled hallows
    refine ⟨?_, fun now hle hnow hall hall' => ?_⟩
    · exact (hnew.decisions htimely).trans (hdecisions.trans (hnew.decisions hhistory).symm)
    · have hlater := ((limiter_agrees hcapacity hstart polled htimely).refill hnow).tokens
      have hlater' := ((limiter_agrees hcapacity hstart history hhistory).refill hnow).tokens
      exact hlater.trans ((congrArg JsNumber.ofInt (htokens now hle hall hall')).trans
        hlater'.symm)

/-- One token is taken, and the tokens are looked at. -/
def takingOne : List LimiterEvent := [⟨.allow, 0⟩, ⟨.getAvailableTokens, 0⟩]

theorem inOrder_takingOne : InOrder 0 takingOne := by simp [InOrder, takingOne]

theorem timely_takingOne : Timely takingOne := by decide

theorem refill_start {l : WeisleyRpc.TokenBucketRateLimiter} {n : TokenBucketRateLimiter}
    (h : SameClock l n) (hlast : l.lastRefillAt = 0) : l.refill 0 = l ∧ n.refill 0 = n := by
  rcases h.refill ⟨le_refl _, by decide⟩ with hsame | ⟨k, hk, -, hl, -⟩
  · exact hsame
  · have hzero : l.refill 0 = l := by simp [WeisleyRpc.TokenBucketRateLimiter.refill, hlast]
    have hinterval := l.options.one_le_refillIntervalMs
    have hmoved := congrArg WeisleyRpc.TokenBucketRateLimiter.lastRefillAt (hzero.symm.trans hl)
    have hpositive : 1 ≤ k * l.options.refillIntervalMs := by
      calc
        (1 : ℤ) = 1 * 1 := rfl
        _ ≤ k * l.options.refillIntervalMs := Int.mul_le_mul hk hinterval (by omega) (by omega)
    dsimp only at hmoved
    omega

theorem answers_takingOne (options : WeisleyRpc.RateLimiterOptions) :
    (WeisleyRpc.TokenBucketRateLimiter.new options 0).answers takingOne =
        [.allowed true, .tokens (options.normalize.capacity - 1)] ∧
      (ofFinite options 0 []).answers takingOne = [.allowed true, .tokens
        (JsNumber.ofExact ((options.normalize.capacity - 1 : ℤ) : ℚ))] := by
  have hcapacity := options.normalize.one_le_capacity
  have hordinary : Ordinary 0 := ⟨le_refl _, by decide⟩
  have hclock := sameClock_new options hordinary
  generalize hl : WeisleyRpc.TokenBucketRateLimiter.new options 0 = l at *
  have hn : ofFinite options 0 [] = TokenBucketRateLimiter.new (ofRationals options) 0 := rfl
  have htokens : (ofFinite options 0 []).tokens = .ofInt options.normalize.capacity :=
    floorFrom_finite 1 _
  rw [← hn] at hclock
  generalize ofFinite options 0 [] = n at *
  have hlast : l.lastRefillAt = 0 := by rw [← hl]; rfl
  have htokens' : l.tokens = options.normalize.capacity := by rw [← hl]; rfl
  obtain ⟨hlsame, hnsame⟩ := refill_start hclock hlast
  have hallow : l.allow 0 = (true, { l with tokens := options.normalize.capacity - 1 }) := by
    rw [WeisleyRpc.TokenBucketRateLimiter.allow, hlsame, htokens', if_neg (by omega)]
  have hallow' : n.allow 0 = (true, { n with
      tokens := JsNumber.ofExact ((options.normalize.capacity - 1 : ℤ) : ℚ) }) := by
    have hpositive : ¬ (JsNumber.ofInt options.normalize.capacity).leNat 0 = true := by
      rw [leNat_ofInt, decide_eq_true_eq]
      omega
    have hone : JsNumber.ofNat 1 = .ofInt 1 := by
      rw [JsNumber.ofNat, JsNumber.ofInt, Nat.cast_one, Int.cast_one]
    rw [TokenBucketRateLimiter.allow, hnsame, htokens, if_neg hpositive, hone,
      JsNumber.sub_ofInt_eq]
  have hclock' : SameClock { l with tokens := options.normalize.capacity - 1 } { n with
      tokens := JsNumber.ofExact ((options.normalize.capacity - 1 : ℤ) : ℚ) } :=
    ⟨hclock.refillIntervalMs, hclock.lastRefillAt, hclock.ordinary⟩
  obtain ⟨hlsame', hnsame'⟩ := refill_start hclock' hlast
  constructor
  · simp only [takingOne, WeisleyRpc.TokenBucketRateLimiter.answers_cons,
      WeisleyRpc.TokenBucketRateLimiter.answer, WeisleyRpc.TokenBucketRateLimiter.apply, hallow,
      WeisleyRpc.TokenBucketRateLimiter.getAvailableTokens, hlsame']
    rfl
  · simp only [takingOne, answers_cons, answer, apply, hallow', getAvailableTokens, hnsame']
    rfl

/-- The finite capacities with which lazy refills are eager ones in every run. -/
theorem answers_eager_iff {options : WeisleyRpc.RateLimiterOptions}
    (hdouble : JsNumber.IsDouble options.capacity) :
    (∀ start history, Ordinary start → InOrder start history → Timely history →
      Eager options start history) ↔ options.capacity < 2 ^ 53 + 1 := by
  constructor
  · intro h
    by_contra hle
    have heager := (h 0 takingOne ⟨le_refl _, by decide⟩ inOrder_takingOne timely_takingOne).answers
    have hle' : 2 ^ 53 + 1 ≤ options.capacity := not_lt.mp hle
    rw [← (answers_eq_eager options inOrder_takingOne).1, (answers_takingOne options).1,
      (answers_takingOne options).2] at heager
    simp only [List.map_cons, List.map_nil, LimiterAnswer.ofWhole, List.cons.injEq,
      LimiterAnswer.tokens.injEq, and_true, true_and] at heager
    obtain ⟨m, hm⟩ := hdouble.even (by linarith)
    have hcapacity : options.normalize.capacity = 2 * m := by
      have hfloor : ⌊options.capacity⌋ = 2 * m := by rw [hm, Int.floor_intCast]
      have hlarge : (2 : ℤ) ^ 53 + 1 ≤ ⌊options.capacity⌋ := Int.le_floor.mpr (by exact_mod_cast hle')
      change max 1 ⌊options.capacity⌋ = 2 * m
      omega
    have hlow : (2 ^ 53 : ℚ) ≤ ((options.normalize.capacity - 1 : ℤ) : ℚ) := by
      rw [hm] at hle'
      rw [hcapacity, Int.cast_sub, Int.cast_one]
      linarith
    have hodd : JsNumber.IsDouble ((options.normalize.capacity - 1 : ℤ) : ℚ) := heager
    obtain ⟨k, hk⟩ := hodd.even hlow
    have hparity : options.normalize.capacity - 1 = 2 * k := Int.cast_injective hk
    omega
  · intro hcapacity start history hstart horder hhistory
    exact eager_of_capacity hcapacity hstart horder hhistory

theorem isDouble_natCast {n : ℕ} (h : n ≤ 2 ^ 53) : JsNumber.IsDouble (n : ℚ) := by
  have hwhole := JsNumber.ofExact_whole (n := (n : ℤ)) (Or.inl (by omega))
  rwa [Int.cast_natCast] at hwhole

theorem answers_eager_iff_refilled :
    (ofFinite ⟨1, 2, 10⟩ 0 []).answers
        [⟨.allow, 5⟩, ⟨.allow, 9⟩, ⟨.getAvailableTokens, 25⟩] =
      [.allowed true, .allowed false, .tokens (.ofInt 1)] := by
  have hdouble : JsNumber.IsDouble (WeisleyRpc.RateLimiterOptions.mk 1 2 10).capacity := by
    exact_mod_cast isDouble_natCast (n := 1) (by norm_num)
  have horder : InOrder 0 [⟨.allow, 5⟩, ⟨.allow, 9⟩, ⟨.getAvailableTokens, 25⟩] := by
    simp [InOrder]
  have htimely : Timely [⟨.allow, 5⟩, ⟨.allow, 9⟩, ⟨.getAvailableTokens, 25⟩] := by decide
  rw [((answers_eager_iff hdouble).mpr (by norm_num) 0 _ ⟨le_refl _, by decide⟩ horder
    htimely).answers]
  decide +kernel

/-- With `2 ^ 53 + 4` tokens, taking one leaves as many. -/
theorem token_not_taken :
    (ofFinite ⟨2 ^ 53 + 4, 1, 1⟩ 0 []).answers takingOne =
        [.allowed true, .tokens (.ofInt (2 ^ 53 + 4))] ∧
      (EagerLimiter.new (WeisleyRpc.RateLimiterOptions.normalize ⟨2 ^ 53 + 4, 1, 1⟩)).answers 0
        takingOne = [.allowed true, .tokens (2 ^ 53 + 3)] ∧
      InOrder 0 takingOne ∧ Timely takingOne ∧ JsNumber.IsDouble (2 ^ 53 + 4) := by
  have hcapacity : (WeisleyRpc.RateLimiterOptions.normalize ⟨2 ^ 53 + 4, 1, 1⟩).capacity - 1 =
      2 ^ 53 + 3 := by
    norm_num [WeisleyRpc.RateLimiterOptions.normalize]
  have hstuck : JsNumber.ofExact ((2 ^ 53 + 3 : ℤ) : ℚ) = .ofInt (2 ^ 53 + 4) := by
    rw [JsNumber.ofExact_eq_finite (by norm_num) (by norm_num), JsNumber.nearest_stuck]
    rfl
  obtain ⟨hwhole, hnumbers⟩ := answers_takingOne ⟨2 ^ 53 + 4, 1, 1⟩
  rw [hcapacity] at hwhole hnumbers
  rw [hstuck] at hnumbers
  refine ⟨hnumbers, ?_, inOrder_takingOne, timely_takingOne, ?_⟩
  · rw [← (answers_eq_eager ⟨2 ^ 53 + 4, 1, 1⟩ inOrder_takingOne).1]
    exact hwhole
  · have hdouble := JsNumber.ofExact_whole (n := 2 ^ 53 + 4) (Or.inr ⟨by decide, by norm_num⟩)
    unfold JsNumber.IsDouble
    exact_mod_cast hdouble

end TokenBucketRateLimiter

end WeisleyRpc.Numeric
