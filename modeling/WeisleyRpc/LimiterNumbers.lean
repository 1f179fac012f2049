import Mathlib.Data.List.Induction
import Mathlib.Tactic.Linarith
import WeisleyRpc.JsArithmetic
import WeisleyRpc.RateLimiter

/-!
# The rate limiter on JavaScript numbers

`rate-limiter.ts` once more, for options that may be any number: the settings, the tokens and
the time of the last refill are numbers, and every operation rounds. The clock is read as
`Date.now()` gives it, a time value.
-/

namespace WeisleyRpc.Numeric

structure RateLimiterOptions where
  capacity : JsNumber
  refillTokens : JsNumber
  refillIntervalMs : JsNumber
  deriving DecidableEq

/-- `Math.max(bound, Math.floor(value))`. -/
def floorFrom (bound : ℕ) (value : JsNumber) : JsNumber := (JsNumber.ofNat bound).max value.floor

structure TokenBucketRateLimiter where
  options : RateLimiterOptions
  tokens : JsNumber
  lastRefillAt : JsNumber
  deriving DecidableEq

def RateLimiterOptions.normalize (options : RateLimiterOptions) : RateLimiterOptions where
  capacity := floorFrom 1 options.capacity
  refillTokens := floorFrom 1 options.refillTokens
  refillIntervalMs := floorFrom 1 options.refillIntervalMs

namespace TokenBucketRateLimiter

def new (options : RateLimiterOptions) (now : ℤ) : TokenBucketRateLimiter where
  options := options.normalize
  tokens := options.normalize.capacity
  lastRefillAt := .ofInt now

def refill (l : TokenBucketRateLimiter) (now : ℤ) : TokenBucketRateLimiter :=
  let elapsedMs := (JsNumber.ofInt now).sub l.lastRefillAt
  let intervals := (elapsedMs.div l.options.refillIntervalMs).floor
  if intervals.leNat 0 then l
  else
    { l with
      tokens := l.options.capacity.min (l.tokens.add (intervals.mul l.options.refillTokens))
      lastRefillAt := l.lastRefillAt.add (intervals.mul l.options.refillIntervalMs) }

def allow (l : TokenBucketRateLimiter) (now : ℤ) : Bool × TokenBucketRateLimiter :=
  let l := l.refill now
  if l.tokens.leNat 0 then (false, l)
  else (true, { l with tokens := l.tokens.sub (.ofNat 1) })

def getAvailableTokens (l : TokenBucketRateLimiter) (now : ℤ) :
    JsNumber × TokenBucketRateLimiter :=
  let l := l.refill now
  (l.tokens, l)

def apply (l : TokenBucketRateLimiter) (e : LimiterEvent) : TokenBucketRateLimiter :=
  match e.call with
  | .allow => (l.allow e.now).2
  | .getAvailableTokens => (l.getAvailableTokens e.now).2

/-- A new limiter after some calls. -/
def after (options : RateLimiterOptions) (start : ℤ) (history : List LimiterEvent) :
    TokenBucketRateLimiter :=
  history.foldl apply (new options start)

/-- The limiter after `k` calls of `allow` while the clock stands still. -/
def polled (l : TokenBucketRateLimiter) (now : ℤ) (k : ℕ) : TokenBucketRateLimiter :=
  (fun l => (l.allow now).2)^[k] l

end TokenBucketRateLimiter

/-- `Date.now()` lies within a hundred million days of the epoch. -/
def TimeValue (now : ℤ) : Prop := now.natAbs ≤ 8640000000000000

instance (now : ℤ) : Decidable (TimeValue now) := Nat.decLe _ _

/-- The options that have no `NaN` among them. -/
structure RateLimiterOptions.IsNumbers (options : RateLimiterOptions) : Prop where
  capacity : options.capacity ≠ .nan
  refillTokens : options.refillTokens ≠ .nan
  refillIntervalMs : options.refillIntervalMs ≠ .nan

theorem floorFrom_le_iff {bound : ℕ} {value : JsNumber} :
    (JsNumber.ofNat bound).le (floorFrom bound value) = true ↔ value ≠ .nan := by
  constructor
  · rintro h rfl
    cases h
  · intro h
    exact (JsNumber.AtLeast.max_floor bound h).le

theorem floorFrom_finite (n : ℕ) (q : ℚ) :
    floorFrom n (.finite q) = .finite (max (n : ℤ) ⌊q⌋ : ℤ) := by
  rw [Int.cast_max, Int.cast_natCast]
  simp only [floorFrom, JsNumber.floor, JsNumber.max, JsNumber.ofNat, max_def]

/-- One token less is a smaller number of tokens, up to the first numbers that lie two apart. -/
theorem sub_one_lt {t : ℕ} (hpos : 0 < t) (ht : t ≤ 2 ^ 53 + 3) :
    ∃ t' < t, (JsNumber.finite t).sub (.ofNat 1) = .finite (t' : ℕ) := by
  have hsub : (JsNumber.finite t).sub (.ofNat 1) = JsNumber.ofExact ((t - 1 : ℤ) : ℚ) := by
    have h := JsNumber.sub_ofInt_eq t 1
    rwa [JsNumber.ofInt, Int.cast_natCast] at h
  rw [hsub]
  rcases Nat.lt_or_ge (2 ^ 53 + 1) t with hlt | hle
  · rcases Nat.lt_or_ge (2 ^ 53 + 2) t with hlt' | hle'
    · refine ⟨2 ^ 53 + 2, hlt', ?_⟩
      have ht' : (t - 1 : ℤ) = 2 ^ 53 + 2 := by omega
      rw [ht', JsNumber.ofExact_whole (Or.inr ⟨by decide, by norm_num⟩)]
      norm_num
    · refine ⟨2 ^ 53, by omega, ?_⟩
      have ht' : (t - 1 : ℤ) = 2 ^ 53 + 1 := by omega
      rw [ht', JsNumber.ofExact_eq_finite (by norm_num) (by norm_num), JsNumber.nearest_top]
      norm_num
  · refine ⟨t - 1, by omega, ?_⟩
    rw [JsNumber.ofExact_whole (Or.inl (by omega)), Nat.cast_sub hpos]
    norm_num

theorem min_capacity {capacity : ℕ} {x : JsNumber} (hx : JsNumber.AtLeast 0 x) :
    ∃ t ≤ capacity, (JsNumber.finite capacity).min x = .finite (t : ℕ) := by
  rcases hx with rfl | ⟨k, hk, rfl⟩
  · exact ⟨capacity, le_refl _, rfl⟩
  · obtain ⟨t, rfl⟩ : ∃ t : ℕ, k = t := ⟨k.toNat, by omega⟩
    by_cases h : capacity ≤ t
    · have hcast : (capacity : ℚ) ≤ t := by exact_mod_cast h
      exact ⟨capacity, le_refl _, by simp [JsNumber.min, hcast]⟩
    · have hcast : ¬ (capacity : ℚ) ≤ t := by exact_mod_cast h
      exact ⟨t, by omega, by simp [JsNumber.min, hcast]⟩

namespace TokenBucketRateLimiter

def intervals (l : TokenBucketRateLimiter) (now : ℤ) : JsNumber :=
  (((JsNumber.ofInt now).sub l.lastRefillAt).div l.options.refillIntervalMs).floor

variable {l : TokenBucketRateLimiter} {now : ℤ}

theorem refill_unchanged (h : (l.intervals now).leNat 0 = true) : l.refill now = l :=
  if_pos h

theorem refill_filled (h : (l.intervals now).leNat 0 = false) : l.refill now =
    { l with
      tokens := l.options.capacity.min (l.tokens.add ((l.intervals now).mul l.options.refillTokens))
      lastRefillAt :=
        l.lastRefillAt.add ((l.intervals now).mul l.options.refillIntervalMs) } :=
  if_neg (by simpa [intervals] using h)

/-- With an infinite interval nothing is ever refilled. With a finite one the last refill is at
a whole number of milliseconds, or at `Infinity`. -/
inductive Clock (l : TokenBucketRateLimiter) : Prop
  | stopped {z : ℤ} : l.options.refillIntervalMs = .infinity → TimeValue z →
      l.lastRefillAt = .ofInt z → Clock l
  | ticking {n : ℤ} : 1 ≤ n → l.options.refillIntervalMs = .finite n →
      JsNumber.AtLeast (-8640000000000000) l.lastRefillAt → Clock l

/-- The last refill lies before the clock, by one interval or more. -/
structure Due (l : TokenBucketRateLimiter) (now z : ℤ) : Prop where
  intervals : JsNumber.AtLeast 1 (l.intervals now)
  refillIntervalMs : ∃ n : ℤ, 1 ≤ n ∧ l.options.refillIntervalMs = .finite n
  lastRefillAt : l.lastRefillAt = .finite z
  low : -8640000000000000 ≤ z
  passed : z < now

theorem Clock.due (h : Clock l) (hnow : TimeValue now) :
    (l.intervals now).leNat 0 = true ∨ ∃ z, Due l now z := by
  unfold TimeValue at hnow
  cases h with
  | @stopped z hinterval hz hlast =>
    left
    unfold TimeValue at hz
    have hlow : ((-17280000000000000 : ℤ) : ℚ) ≤ (now - z : ℤ) := Int.cast_le.mpr (by omega)
    have hhigh : ((now - z : ℤ) : ℚ) ≤ (17280000000000000 : ℤ) := Int.cast_le.mpr (by omega)
    have helapsed : JsNumber.ofExact ((now - z : ℤ) : ℚ) =
        .finite (FloatRounding.nearest 53 (-1074) ((now - z : ℤ) : ℚ)) :=
      JsNumber.ofExact_eq_finite (by norm_num at hlow ⊢; linarith)
        (by norm_num at hhigh ⊢; linarith)
    rw [intervals, hinterval, hlast, JsNumber.sub_ofInt_eq, helapsed]
    simp [JsNumber.div, JsNumber.floor, JsNumber.leNat]
  | @ticking n hn hinterval hlast =>
    rcases hlast with hlast | ⟨z, hz, hlast⟩
    · left
      rw [intervals, hinterval, hlast]
      exact JsNumber.div_leNat_zero rfl hn
    · have hexact : (JsNumber.ofInt now).sub (.finite z) =
          JsNumber.ofExact ((now - z : ℤ) : ℚ) := JsNumber.sub_ofInt_eq now z
      have hintervals : l.intervals now =
          ((JsNumber.ofExact ((now - z : ℤ) : ℚ)).div (.finite n)).floor := by
        rw [intervals, hinterval, hlast, hexact]
      rcases Int.lt_or_le z now with hlt | hle
      · rcases JsNumber.AtLeast.floor_cases
          (JsNumber.div_ne_nan (JsNumber.ofExact_ne_nan (q := ((now - z : ℤ) : ℚ))) hn)
          with hzero | hone
        · left
          rw [hintervals]
          exact hzero
        · right
          exact ⟨z, hintervals ▸ hone, ⟨n, hn, hinterval⟩, hlast, hz, hlt⟩
      · left
        rw [hintervals]
        refine JsNumber.div_leNat_zero ?_ hn
        have hnonpos : ((now - z : ℤ) : ℚ) ≤ 0 := by exact_mod_cast (by omega : now - z ≤ 0)
        rcases JsNumber.ofExact_nonpos hnonpos with h | ⟨r, hr, h⟩
        · rw [h]
          rfl
        · rw [h]
          simpa [JsNumber.leNat] using hr

/-- A limiter with no more tokens than it can count down. -/
structure Sound (capacity : ℕ) (l : TokenBucketRateLimiter) : Prop where
  bound : capacity ≤ 2 ^ 53 + 3
  capacity_eq : l.options.capacity = .finite capacity
  refillTokens : JsNumber.AtLeast 1 l.options.refillTokens
  tokens : ∃ t ≤ capacity, l.tokens = .finite (t : ℕ)
  clock : Clock l

/-- How far the last refill lies behind the clock. -/
def lag (l : TokenBucketRateLimiter) (now : ℤ) : ℕ :=
  match l.lastRefillAt with
  | .finite z => (now - ⌊z⌋).toNat
  | _ => 0

theorem Sound.refill {capacity : ℕ} (h : Sound capacity l) (hnow : TimeValue now) :
    Sound capacity (l.refill now) ∧
      (l.refill now = l ∨ (l.refill now).lag now < l.lag now) := by
  rcases h.clock.due hnow with hunchanged | ⟨z, hdue⟩
  · rw [refill_unchanged hunchanged]
    exact ⟨h, Or.inl rfl⟩
  · cases hle : (l.intervals now).leNat 0 with
    | true =>
      rw [refill_unchanged hle]
      exact ⟨h, Or.inl rfl⟩
    | false =>
      obtain ⟨n, hn, hinterval⟩ := hdue.refillIntervalMs
      obtain ⟨t, ht, htokens⟩ := h.tokens
      have hnow' := hnow
      unfold TimeValue at hnow'
      have hlow := hdue.low
      have hpassed := hdue.passed
      have hlast : JsNumber.AtLeast (z + 1)
          (l.lastRefillAt.add ((l.intervals now).mul l.options.refillIntervalMs)) := by
        refine JsNumber.AtLeast.add (Or.inr ⟨z, le_refl _, hdue.lastRefillAt⟩) ?_ (by omega)
        exact hdue.intervals.mul (Or.inr ⟨n, hn, hinterval⟩)
      have hadded : JsNumber.AtLeast (0 + 1)
          (l.tokens.add ((l.intervals now).mul l.options.refillTokens)) :=
        JsNumber.AtLeast.add (Or.inr ⟨t, by omega, by rw [htokens, Int.cast_natCast]⟩)
          (hdue.intervals.mul h.refillTokens) (by omega)
      rw [refill_filled hle]
      refine ⟨⟨h.bound, h.capacity_eq, h.refillTokens, ?_, ?_⟩, Or.inr ?_⟩
      · rw [h.capacity_eq]
        exact min_capacity (hadded.mono (by omega))
      · exact Clock.ticking hn hinterval (hlast.mono (by omega))
      · have hlag : l.lag now = (now - z).toNat := by
          simp only [lag, hdue.lastRefillAt, Int.floor_intCast]
        rw [hlag]
        rcases hlast with hlast | ⟨k, hk, hlast⟩
        · simp only [lag, hlast]
          omega
        · simp only [lag, hlast, Int.floor_intCast]
          omega

def stock (l : TokenBucketRateLimiter) : ℕ :=
  match l.tokens with
  | .finite t => ⌊t⌋.toNat
  | _ => 0

theorem stock_eq {t : ℕ} (h : l.tokens = .finite t) : l.stock = t := by
  simp only [stock, h, Int.floor_natCast, Int.toNat_natCast]

theorem Clock.withTokens (h : Clock l) (tokens : JsNumber) :
    Clock { l with tokens := tokens } := by
  cases h with
  | stopped hinterval hz hlast => exact Clock.stopped hinterval hz hlast
  | ticking hn hinterval hlast => exact Clock.ticking hn hinterval hlast

/-- A poll at a clock that stands still is a refusal that changes nothing, or it leaves less to
be granted. -/
theorem Sound.allow {capacity : ℕ} (h : Sound capacity l) (hnow : TimeValue now) :
    Sound capacity (l.allow now).2 ∧
      (((l.allow now).1 = false ∧ (l.allow now).2 = l) ∨
        (l.allow now).2.lag now * (capacity + 1) + (l.allow now).2.stock <
          l.lag now * (capacity + 1) + l.stock) := by
  obtain ⟨hrefilled, hrefill⟩ := h.refill hnow
  obtain ⟨t, ht, htokens⟩ := hrefilled.tokens
  have hstock := stock_eq htokens
  rcases Nat.eq_zero_or_pos t with rfl | hpos
  · have hallow : l.allow now = (false, l.refill now) := by
      simp [TokenBucketRateLimiter.allow, htokens, JsNumber.leNat]
    rw [hallow]
    refine ⟨hrefilled, ?_⟩
    rcases hrefill with hsame | hlt
    · exact Or.inl ⟨rfl, hsame⟩
    · right
      have hmul := Nat.mul_le_mul_right (capacity + 1) (Nat.succ_le_of_lt hlt)
      rw [Nat.succ_mul] at hmul
      dsimp only
      omega
  · obtain ⟨t', hlt', hsub⟩ := sub_one_lt hpos (ht.trans h.bound)
    have hallow : l.allow now =
        (true, { l.refill now with tokens := JsNumber.finite (t' : ℕ) }) := by
      have hzero : ¬ (t : ℚ) ≤ 0 := by exact_mod_cast hpos.not_ge
      simp [TokenBucketRateLimiter.allow, htokens, JsNumber.leNat, hzero, hsub]
    rw [hallow]
    refine ⟨⟨hrefilled.bound, hrefilled.capacity_eq, hrefilled.refillTokens,
      ⟨t', by omega, rfl⟩, hrefilled.clock.withTokens _⟩, Or.inr ?_⟩
    have hstock' : ({ l.refill now with tokens := JsNumber.finite (t' : ℕ) } :
        TokenBucketRateLimiter).stock = t' := stock_eq rfl
    have hlag' : ({ l.refill now with tokens := JsNumber.finite (t' : ℕ) } :
        TokenBucketRateLimiter).lag now = (l.refill now).lag now := rfl
    rw [hstock', hlag']
    rcases hrefill with hsame | hlt
    · rw [hsame] at hstock ⊢
      omega
    · have hmul := Nat.mul_le_mul_right (capacity + 1) (Nat.succ_le_of_lt hlt)
      rw [Nat.succ_mul] at hmul
      omega

theorem Sound.apply {capacity : ℕ} (h : Sound capacity l) {e : LimiterEvent}
    (he : TimeValue e.now) : Sound capacity (l.apply e) := by
  unfold TokenBucketRateLimiter.apply
  cases e.call with
  | allow => exact (h.allow he).1
  | getAvailableTokens => exact (h.refill he).1

theorem Sound.new {capacity : ℕ} {options : RateLimiterOptions} (hbound : capacity ≤ 2 ^ 53 + 3)
    (hcapacity : floorFrom 1 options.capacity = .finite capacity) (h : options.IsNumbers)
    {start : ℤ} (hstart : TimeValue start) :
    Sound capacity (TokenBucketRateLimiter.new options start) := by
  refine ⟨hbound, hcapacity, JsNumber.AtLeast.max_floor 1 h.refillTokens,
    ⟨capacity, le_refl _, hcapacity⟩, ?_⟩
  rcases JsNumber.AtLeast.max_floor 1 h.refillIntervalMs with hinterval | ⟨n, hn, hinterval⟩
  · exact Clock.stopped hinterval hstart rfl
  · unfold TimeValue at hstart
    exact Clock.ticking hn hinterval (Or.inr ⟨start, by omega, rfl⟩)

theorem Sound.after {capacity : ℕ} {options : RateLimiterOptions} (hbound : capacity ≤ 2 ^ 53 + 3)
    (hcapacity : floorFrom 1 options.capacity = .finite capacity) (h : options.IsNumbers)
    {start : ℤ} (hstart : TimeValue start) (history : List LimiterEvent)
    (hhistory : ∀ e ∈ history, TimeValue e.now) :
    Sound capacity (TokenBucketRateLimiter.after options start history) := by
  induction history using List.reverseRecOn with
  | nil => exact Sound.new hbound hcapacity h hstart
  | append_singleton history e ih =>
    rw [TokenBucketRateLimiter.after, List.foldl_append]
    have hlast := ih fun e' he' => hhistory e' (List.mem_append_left _ he')
    exact hlast.apply (hhistory e (by simp))

/-- From some poll on every poll is refused. -/
theorem Sound.refuses {capacity : ℕ} (h : Sound capacity l) (hnow : TimeValue now) :
    ∃ n, ∀ k, n ≤ k → ((l.polled now k).allow now).1 = false :=
  Histories.eventually_of_measure (fun l => l.lag now * (capacity + 1) + l.stock)
    (fun _ hs => hs.allow hnow) h

/-- A limiter with so many tokens that taking one is lost in the rounding. -/
structure Abundant (l : TokenBucketRateLimiter) : Prop where
  tokens : l.tokens = .infinity ∨ ∃ t : ℚ, 2 ^ 53 + 4 ≤ t ∧ l.tokens = .finite t
  refillIntervalMs : JsNumber.AtLeast 1 l.options.refillIntervalMs
  lastRefillAt : l.lastRefillAt = .finite 0

theorem Abundant.allow (h : Abundant l) : Abundant (l.allow 0).2 ∧ (l.allow 0).1 = true := by
  have hrefill : l.refill 0 = l := by
    refine refill_unchanged ?_
    have hzero : JsNumber.ofExact 0 = .finite 0 := by
      have hwhole := JsNumber.ofExact_whole (n := 0) (Or.inl (by norm_num))
      simpa using hwhole
    have helapsed : (JsNumber.ofInt 0).sub (.finite 0) = .finite 0 := by
      simp [JsNumber.sub, JsNumber.ofInt, JsNumber.neg, JsNumber.add, hzero]
    rw [intervals, h.lastRefillAt, helapsed]
    rcases h.refillIntervalMs with hinterval | ⟨n, hn, hinterval⟩
    · rw [hinterval]
      simp [JsNumber.div, JsNumber.floor, JsNumber.leNat]
    · rw [hinterval]
      exact JsNumber.div_leNat_zero (by simp [JsNumber.leNat]) hn
  have hpositive : l.tokens.leNat 0 = false := by
    rcases h.tokens with htokens | ⟨t, ht, htokens⟩
    · rw [htokens]
      rfl
    · have hzero : ¬ t ≤ 0 := by linarith
      simp [htokens, JsNumber.leNat, hzero]
  have hallow : l.allow 0 = (true, { l with tokens := l.tokens.sub (.ofNat 1) }) := by
    simp [TokenBucketRateLimiter.allow, hrefill, hpositive]
  rw [hallow]
  refine ⟨⟨?_, h.refillIntervalMs, h.lastRefillAt⟩, rfl⟩
  rcases h.tokens with htokens | ⟨t, ht, htokens⟩
  · rw [htokens]
    exact Or.inl rfl
  · have hsub : (JsNumber.finite t).sub (.ofNat 1) = JsNumber.ofExact (t - 1) := by
      simp only [JsNumber.sub, JsNumber.ofNat, JsNumber.neg, JsNumber.add, Nat.cast_one]
      rw [sub_eq_add_neg]
    rw [htokens, hsub]
    exact JsNumber.ofExact_stuck (by linarith)

theorem Abundant.grants (h : Abundant l) (k : ℕ) : ((l.polled 0 k).allow 0).1 = true := by
  have hk : Abundant (l.polled 0 k) :=
    Function.Iterate.rec Abundant h (fun _ hs => hs.allow.1) k
  exact hk.allow.2

theorem nan_refill (h : l.tokens = .nan) : (l.refill now).tokens = .nan := by
  cases hle : (l.intervals now).leNat 0 with
  | true => rw [refill_unchanged hle, h]
  | false =>
    rw [refill_filled hle, h]
    cases l.options.capacity <;> rfl

theorem nan_allow (h : l.tokens = .nan) :
    (l.allow now).2.tokens = .nan ∧ (l.allow now).1 = true := by
  simp [TokenBucketRateLimiter.allow, nan_refill h, JsNumber.leNat, JsNumber.sub, JsNumber.add]

/-- A limiter whose capacity is `NaN` grants whatever it is asked. -/
theorem nan_grants {options : RateLimiterOptions} (h : options.capacity = .nan) (start : ℤ)
    (history : List LimiterEvent) (now : ℤ) :
    ((TokenBucketRateLimiter.after options start history).allow now).1 = true := by
  have htokens : (TokenBucketRateLimiter.after options start history).tokens = .nan := by
    induction history using List.reverseRecOn with
    | nil =>
      simp only [TokenBucketRateLimiter.after, List.foldl_nil, TokenBucketRateLimiter.new,
        RateLimiterOptions.normalize, h]
      rfl
    | append_singleton history e ih =>
      rw [TokenBucketRateLimiter.after, List.foldl_append]
      change (apply (TokenBucketRateLimiter.after options start history) e).tokens = .nan
      unfold TokenBucketRateLimiter.apply
      cases e.call with
      | allow => exact (nan_allow ih).1
      | getAvailableTokens => exact nan_refill ih
  exact (nan_allow htokens).2

end TokenBucketRateLimiter

end WeisleyRpc.Numeric
