import WeisleyRpc.RateLimiter
import WeisleyRpc.TokenBucket

/-!
# The rate limiter over whole runs

Since the time of the last refill moves by whole intervals only, it counts the refills a
stretch of calls can have seen, however the clock moves. While the clock does not go back,
the limiter gives the answers of a bucket that is refilled at every instant.
-/

namespace WeisleyRpc

namespace TokenBucketRateLimiter

/-- The largest reading of the clock, beginning with `now`. -/
def latest (now : ℤ) (history : List LimiterEvent) : ℤ :=
  history.foldl (fun t e => max t e.now) now

theorem le_latest (now : ℤ) (es : List LimiterEvent) : now ≤ latest now es := by
  induction es generalizing now with
  | nil => exact le_rfl
  | cons e es ih => exact (le_max_left _ _).trans (ih _)

theorem le_latest_of_mem (now : ℤ) {e : LimiterEvent} {es : List LimiterEvent} (h : e ∈ es) :
    e.now ≤ latest now es := by
  induction es generalizing now with
  | nil => cases h
  | cons f es ih =>
    rcases List.mem_cons.1 h with rfl | h
    · exact (le_max_right _ _).trans (le_latest _ _)
    · exact ih _ h

/-- The tokens stay within the capacity, and the options are those of the beginning. -/
structure Within (o : BucketOptions) (l : TokenBucketRateLimiter) : Prop where
  options : l.options = o
  nonneg : 0 ≤ l.tokens
  le_capacity : l.tokens ≤ o.capacity

variable {o : BucketOptions} {l l' : TokenBucketRateLimiter} {e : LimiterEvent} {now later t : ℤ}

theorem within_new (options : RateLimiterOptions) (now : ℤ) :
    Within options.normalize (new options now) :=
  ⟨rfl, Int.le_of_lt options.normalize.one_le_capacity, le_rfl⟩

theorem Within.refill (h : Within o l) (now : ℤ) : Within o (l.refill now) := by
  obtain ⟨rfl, hnonneg, hle⟩ := h
  have hs := refill_step l now
  have hpos := l.options.one_le_refillTokens
  have hcap := l.options.one_le_capacity
  have hmul : 0 ≤ (((now - l.lastRefillAt) / l.options.refillIntervalMs).toNat : ℤ) *
      l.options.refillTokens := Int.mul_nonneg (Int.natCast_nonneg _) (by omega)
  refine ⟨hs.options, ?_, ?_⟩
  · rw [hs.tokens]
    split_ifs
    · exact hnonneg
    · exact le_min (by omega) (by omega)
  · rw [hs.tokens]
    split_ifs
    · exact hle
    · exact min_le_left _ _

theorem Within.apply (h : Within o l) (e : LimiterEvent) : Within o (l.apply e) := by
  have hr := h.refill e.now
  have hs := apply_step l e
  generalize l.answer e = a, l.apply e = l' at hs
  cases hs with
  | granted _ hpos =>
    have hle := hr.le_capacity
    exact ⟨hr.options, by simp only []; omega, by simp only []; omega⟩
  | refused => exact hr
  | polled => exact hr

theorem Within.after (h : Within o l) (es : List LimiterEvent) : Within o (l.after es) := by
  induction es generalizing l with
  | nil => exact h
  | cons e es ih => exact ih (h.apply e)

/-- What `k` refills in a stretch of calls account for. -/
structure Granted (o : BucketOptions) (l : TokenBucketRateLimiter) (es : List LimiterEvent)
    (k : ℕ) : Prop where
  moved : (l.after es).lastRefillAt = l.lastRefillAt + k * o.refillIntervalMs
  passed : k = 0 ∨ ∃ e ∈ es, (l.after es).lastRefillAt ≤ e.now
  spent : (l.after es).tokens + l.grants es ≤ l.tokens + k * o.refillTokens

theorem granted_nil (o : BucketOptions) (l : TokenBucketRateLimiter) : Granted o l [] 0 := by
  refine ⟨?_, .inl rfl, ?_⟩
  · simp [after]
  · simp [after, grants, answers, Histories.outputs]

/-- One call makes the refills that are due and takes a token at most. -/
theorem call_granted (h : Within o l) (e : LimiterEvent) : ∃ k : ℕ,
    (l.apply e).lastRefillAt = l.lastRefillAt + k * o.refillIntervalMs ∧
    (k = 0 ∨ (l.apply e).lastRefillAt ≤ e.now) ∧
    e.now < (l.apply e).lastRefillAt + o.refillIntervalMs ∧
    (l.apply e).tokens + (if l.answer e = .allowed true then 1 else 0 : ℕ) ≤
      l.tokens + k * o.refillTokens := by
  obtain ⟨rfl, -, -⟩ := h
  have hr := refill_step l e.now
  generalize ((e.now - l.lastRefillAt) / l.options.refillIntervalMs).toNat = k at hr
  have htokens : (l.refill e.now).tokens ≤ l.tokens + k * l.options.refillTokens := by
    rw [hr.tokens]
    split_ifs with hk
    · simp [hk]
    · exact min_le_right _ _
  have hs := apply_step l e
  generalize l.answer e = a, l.apply e = l' at hs
  refine ⟨k, ?_⟩
  cases hs with
  | granted => exact ⟨hr.lastRefillAt, hr.passed, hr.current, by simp; omega⟩
  | refused => exact ⟨hr.lastRefillAt, hr.passed, hr.current, by simp; omega⟩
  | polled => exact ⟨hr.lastRefillAt, hr.passed, hr.current, by simp; omega⟩

theorem call_le_capacity (h : Within o l) (e : LimiterEvent) :
    (l.apply e).tokens + (if l.answer e = .allowed true then 1 else 0 : ℕ) ≤ o.capacity := by
  have hr := (h.refill e.now).le_capacity
  have hs := apply_step l e
  generalize l.answer e = a, l.apply e = l' at hs
  cases hs with
  | granted => simpa using hr
  | refused => simpa using hr
  | polled => simpa using hr

theorem run_granted (h : Within o l) (es : List LimiterEvent) : ∃ k, Granted o l es k := by
  induction es generalizing l with
  | nil => exact ⟨0, granted_nil o l⟩
  | cons e es ih =>
    obtain ⟨k, hmoved, hpassed, -, hspent⟩ := call_granted h e
    obtain ⟨m, hrun⟩ := ih (h.apply e)
    refine ⟨k + m, ?_, ?_, ?_⟩
    · rw [after_cons, hrun.moved, hmoved, Nat.cast_add, add_mul, add_assoc]
    · rcases hrun.passed with rfl | ⟨f, hf, hle⟩
      · rcases hpassed with rfl | hle
        · exact .inl rfl
        · refine .inr ⟨e, List.mem_cons_self, ?_⟩
          rw [after_cons, hrun.moved]
          simpa using hle
      · exact .inr ⟨f, List.mem_cons_of_mem _ hf, hle⟩
    · have hrest := hrun.spent
      rw [after_cons, grants_cons, Nat.cast_add, Nat.cast_add, add_mul]
      omega

/-- No more than the tokens of the beginning and of the refills are granted. -/
theorem Granted.le_of_refills {k : ℕ} {n : ℤ} {es : List LimiterEvent} (h : Granted o l es k)
    (hl : Within o l) (hk : (k : ℤ) ≤ n) :
    (l.grants es : ℤ) ≤ o.capacity + o.refillTokens * n := by
  have hspent := h.spent
  have hnonneg := (hl.after es).nonneg
  have hle := hl.le_capacity
  have hpos := o.one_le_refillTokens
  have hmul : (k : ℤ) * o.refillTokens ≤ n * o.refillTokens :=
    Int.mul_le_mul_of_nonneg_right hk (by omega)
  rw [Int.mul_comm o.refillTokens]
  omega

theorem Granted.refills_le {k : ℕ} {es : List LimiterEvent} (h : Granted o l es k)
    (hstart : now ≤ l.lastRefillAt) :
    (k : ℤ) ≤ (latest now es - now) / o.refillIntervalMs := by
  have hpos : 0 < o.refillIntervalMs := o.one_le_refillIntervalMs
  have hlatest := le_latest now es
  rcases h.passed with rfl | ⟨e, he, hle⟩
  · exact Int.ediv_nonneg (by omega) hpos.le
  · rw [Int.le_ediv_iff_mul_le hpos]
    have hmem := le_latest_of_mem now he
    have hmoved := h.moved
    omega

/-- Within an interval of the last refill one refill more can be due. -/
theorem Granted.refills_le_succ {k : ℕ} {es : List LimiterEvent} (h : Granted o l es k)
    (hstart : now < l.lastRefillAt + o.refillIntervalMs) :
    (k : ℤ) ≤ (latest now es - now) / o.refillIntervalMs + 1 := by
  have hpos : 0 < o.refillIntervalMs := o.one_le_refillIntervalMs
  have hlatest := le_latest now es
  rcases h.passed with rfl | ⟨e, he, hle⟩
  · have hdiv := Int.ediv_nonneg (show 0 ≤ latest now es - now by omega) hpos.le
    rw [Nat.cast_zero]
    omega
  · have hmem := le_latest_of_mem now he
    have hmoved := h.moved
    have hmul : ((k : ℤ) - 1) * o.refillIntervalMs = k * o.refillIntervalMs - o.refillIntervalMs :=
      by rw [Int.sub_mul, Int.one_mul]
    have hdiv := (Int.le_ediv_iff_mul_le hpos).2
      (show ((k : ℤ) - 1) * o.refillIntervalMs ≤ latest now es - now by omega)
    omega

theorem grants_le_of_run (options : RateLimiterOptions) (now : ℤ) (es : List LimiterEvent) :
    ((new options now).grants es : ℤ) ≤ options.normalize.capacity +
      options.normalize.refillTokens *
        ((latest now es - now) / options.normalize.refillIntervalMs) := by
  have hl := within_new options now
  obtain ⟨k, hrun⟩ := run_granted hl es
  exact hrun.le_of_refills hl (hrun.refills_le le_rfl)

theorem grants_le_of_window (h : Within o l) (e : LimiterEvent) (es : List LimiterEvent) :
    (l.grants (e :: es) : ℤ) ≤ o.capacity + o.refillTokens *
      ((latest e.now es - e.now) / o.refillIntervalMs + 1) := by
  have hfirst := call_le_capacity h e
  obtain ⟨-, -, -, hcurrent, -⟩ := call_granted h e
  obtain ⟨k, hrun⟩ := run_granted (h.apply e) es
  have hk := hrun.refills_le_succ hcurrent
  have hpos := o.one_le_refillTokens
  have hmul := Int.mul_le_mul_of_nonneg_right hk (show 0 ≤ o.refillTokens by omega)
  have hspent := hrun.spent
  have hnonneg := ((h.apply e).after es).nonneg
  rw [grants_cons, Nat.cast_add, Int.mul_comm o.refillTokens]
  omega

/-- The bound on the granted calls, for whole runs and for every part of a run. -/
theorem grants_bounded (options : RateLimiterOptions) (now : ℤ) :
    (∀ history, 0 ≤ ((new options now).after history).tokens ∧
      ((new options now).after history).tokens ≤ options.normalize.capacity) ∧
    (∀ history e window,
      (((new options now).after history).grants (e :: window) : ℤ) ≤
        options.normalize.capacity + options.normalize.refillTokens *
          ((latest e.now window - e.now) / options.normalize.refillIntervalMs + 1)) ∧
    ∀ history, ((new options now).grants history : ℤ) ≤
      options.normalize.capacity + options.normalize.refillTokens *
        ((latest now history - now) / options.normalize.refillIntervalMs) := by
  refine ⟨?_, ?_, grants_le_of_run options now⟩
  · intro history
    have hl := (within_new options now).after history
    exact ⟨hl.nonneg, hl.le_capacity⟩
  · intro history e window
    exact grants_le_of_window ((within_new options now).after history) e window

end TokenBucketRateLimiter

/-- The calls are made at times that do not go back behind `now`. -/
def InOrder (now : ℤ) (history : List LimiterEvent) : Prop :=
  (now :: history.map LimiterEvent.now).Pairwise (· ≤ ·)

theorem inOrder_cons {now : ℤ} {e : LimiterEvent} {es : List LimiterEvent} :
    InOrder now (e :: es) ↔ now ≤ e.now ∧ InOrder e.now es := by
  simp only [InOrder, List.map_cons, List.pairwise_cons, List.mem_cons, forall_eq_or_imp]
  constructor
  · rintro ⟨⟨hle, -⟩, hes, hpair⟩
    exact ⟨hle, hes, hpair⟩
  · rintro ⟨hle, hes, hpair⟩
    exact ⟨⟨hle, fun t ht => hle.trans (hes t ht)⟩, hes, hpair⟩

/-- The reference: a bucket refilled at each instant, with the number of refills made. -/
structure EagerLimiter (o : BucketOptions) where
  bucket : TokenBucket.Bucket o.capacity
  refills : ℕ

namespace EagerLimiter
variable {o : BucketOptions}

def new (o : BucketOptions) : EagerLimiter o where
  bucket := .full (Int.le_of_lt o.one_le_capacity)
  refills := 0

def refill (b : EagerLimiter o) : EagerLimiter o where
  bucket := b.bucket.refill o.refillTokens (Int.le_of_lt o.one_le_refillTokens)
  refills := b.refills + 1

/-- The refills of the instants that have come by now and were still to come before. -/
def elapse (start : ℤ) (b : EagerLimiter o) (now : ℤ) : EagerLimiter o :=
  refill^[TokenBucket.instants start o.refillIntervalMs now - b.refills] b

def call (b : EagerLimiter o) : LimiterCall → LimiterAnswer × EagerLimiter o
  | .allow =>
    match b.bucket.take 1 (by decide) with
    | some bucket => (.allowed true, { b with bucket })
    | none => (.allowed false, b)
  | .getAvailableTokens => (.tokens b.bucket.tokens, b)

def answers (start : ℤ) (b : EagerLimiter o) : List LimiterEvent → List LimiterAnswer :=
  Histories.outputs (fun b e => ((b.elapse start e.now).call e.call).2)
    (fun b e => some ((b.elapse start e.now).call e.call).1) b

variable {start t now : ℤ} {b : EagerLimiter o} {l : TokenBucketRateLimiter}

theorem refills_iterate (b : EagerLimiter o) (n : ℕ) :
    (refill^[n] b).refills = b.refills + n := by
  induction n with
  | zero => rfl
  | succ n ih =>
    rw [Function.iterate_succ_apply']
    exact congrArg (· + 1) ih

theorem tokens_iterate (b : EagerLimiter o) (n : ℕ) :
    (refill^[n] b).bucket.tokens = min o.capacity (b.bucket.tokens + n * o.refillTokens) := by
  have hpos : 0 ≤ o.refillTokens := Int.le_of_lt o.one_le_refillTokens
  have hbucket : (refill^[n] b).bucket = (fun c => c.refill o.refillTokens hpos)^[n] b.bucket := by
    induction n with
    | zero => rfl
    | succ n ih =>
      rw [Function.iterate_succ_apply', Function.iterate_succ_apply', ← ih]
      rfl
  rw [hbucket, TokenBucket.Bucket.tokens_iterate_refill, nsmul_eq_mul]

/-- The limiter stands where the bucket stood at its last refill. -/
structure Follows (start t : ℤ) (b : EagerLimiter o) (l : TokenBucketRateLimiter) : Prop where
  options : l.options = o
  tokens : l.tokens = b.bucket.tokens
  lastRefillAt : l.lastRefillAt = start + b.refills * o.refillIntervalMs
  passed : l.lastRefillAt ≤ t

theorem follows_new (options : RateLimiterOptions) (now : ℤ) :
    Follows now now (new options.normalize) (.new options now) := by
  refine ⟨rfl, rfl, ?_, le_rfl⟩
  simp [new, TokenBucketRateLimiter.new]

/-- The refill makes up for exactly the instants that have come since. -/
theorem Follows.due {k : ℕ} {l' : TokenBucketRateLimiter} (h : Follows start t b l)
    (hle : t ≤ now) (hs : RefillStep l now k l') :
    TokenBucket.instants start o.refillIntervalMs now = b.refills + k := by
  obtain ⟨rfl, -, hlast, hpassed⟩ := h
  have hpos : 0 < l.options.refillIntervalMs := l.options.one_le_refillIntervalMs
  have hmoved := hs.lastRefillAt
  have hcurrent := hs.current
  have hcount : ((b.refills + k : ℕ) : ℤ) * l.options.refillIntervalMs =
      b.refills * l.options.refillIntervalMs + k * l.options.refillIntervalMs := by
    rw [Nat.cast_add, Int.add_mul]
  apply le_antisymm
  · by_contra hmore
    have hnext := (TokenBucket.le_instants_iff hpos (Nat.succ_pos (b.refills + k))).1
      (Nat.succ_le_of_lt (not_le.1 hmore))
    rw [Nat.cast_succ, Int.add_mul, Int.one_mul] at hnext
    omega
  · rcases Nat.eq_zero_or_pos (b.refills + k) with hzero | hsome
    · omega
    · apply (TokenBucket.le_instants_iff hpos hsome).2
      rcases hs.passed with rfl | hle'
      · simp only [Nat.cast_zero, Int.zero_mul, Int.add_zero] at hmoved hcount
        omega
      · omega

theorem Follows.elapse (h : Follows start t b l) (hle : t ≤ now) :
    Follows start now (b.elapse start now) (l.refill now) := by
  have hs := TokenBucketRateLimiter.refill_step l now
  generalize ((now - l.lastRefillAt) / l.options.refillIntervalMs).toNat = k at hs
  have hdue := h.due hle hs
  have helapse : b.elapse start now = refill^[k] b := by
    rw [EagerLimiter.elapse, hdue, Nat.add_sub_cancel_left]
  obtain ⟨rfl, heq, hlast, hpassed⟩ := h
  rw [helapse]
  refine ⟨hs.options, ?_, ?_, ?_⟩
  · rw [hs.tokens, tokens_iterate, heq]
    split_ifs with hk
    · rw [hk, Nat.cast_zero, Int.zero_mul, Int.add_zero]
      exact (min_eq_right b.bucket.le_capacity).symm
    · rfl
  · rw [hs.lastRefillAt, refills_iterate, hlast, Nat.cast_add, Int.add_mul, Int.add_assoc]
  · rcases hs.passed with rfl | hle'
    · have hmoved := hs.lastRefillAt
      simp only [Nat.cast_zero, Int.zero_mul, Int.add_zero] at hmoved
      omega
    · exact hle'

theorem Follows.call {e : LimiterEvent} (h : Follows start t b l) (hle : t ≤ e.now) :
    ((b.elapse start e.now).call e.call).1 = l.answer e ∧
      Follows start e.now ((b.elapse start e.now).call e.call).2 (l.apply e) := by
  have he := h.elapse hle
  have hs := l.apply_step e
  generalize l.answer e = a, l.apply e = l' at hs
  cases hs with
  | granted hcall hpos =>
    have henough : 1 ≤ (b.elapse start e.now).bucket.tokens := he.tokens ▸ hpos
    simp only [hcall, EagerLimiter.call, TokenBucket.Bucket.take, dif_pos henough]
    exact ⟨trivial, he.options, by simp only [he.tokens], he.lastRefillAt, he.passed⟩
  | refused hcall hle' =>
    have hnone : ¬ 1 ≤ (b.elapse start e.now).bucket.tokens := by
      rw [← he.tokens]
      omega
    simp only [hcall, EagerLimiter.call, TokenBucket.Bucket.take, dif_neg hnone]
    exact ⟨trivial, he⟩
  | polled hcall =>
    simp only [hcall, EagerLimiter.call]
    exact ⟨by rw [he.tokens], he⟩

theorem Follows.answers {es : List LimiterEvent} (h : Follows start t b l) (hes : InOrder t es) :
    l.answers es = b.answers start es := by
  induction es generalizing t b l with
  | nil => rfl
  | cons e es ih =>
    obtain ⟨hle, hrest⟩ := inOrder_cons.1 hes
    obtain ⟨hanswer, hnext⟩ := h.call hle
    rw [TokenBucketRateLimiter.answers_cons, ih hnext hrest, ← hanswer]
    rfl

end EagerLimiter

namespace TokenBucketRateLimiter
variable {l l' : TokenBucketRateLimiter} {t now : ℤ} {es : List LimiterEvent}

/-- The answers given by `allow`. -/
def decisions (l : TokenBucketRateLimiter) (history : List LimiterEvent) : List Bool :=
  Histories.outputs apply (fun l e => if e.call = .allow then some (l.allow e.now).1 else none)
    l history

def allows (history : List LimiterEvent) : List LimiterEvent :=
  history.filter fun e => e.call = .allow

/-- Two limiters that no later refill can tell apart decide alike, whether or not the first
is looked at in between. -/
theorem decisions_allows (heq : ∀ now, t ≤ now → l.refill now = l'.refill now)
    (hes : InOrder t es) :
    l.decisions es = l'.decisions (allows es) ∧
      ∀ now, t ≤ now → (∀ e ∈ es, e.now ≤ now) →
        (l.after es).refill now = (l'.after (allows es)).refill now := by
  induction es generalizing t l l' with
  | nil => exact ⟨rfl, fun now hle _ => heq now hle⟩
  | cons e es ih =>
    obtain ⟨hle, hrest⟩ := inOrder_cons.1 hes
    have hrefill := heq e.now hle
    cases hcall : e.call with
    | allow =>
      have hsame : l.allow e.now = l'.allow e.now := by rw [allow, allow, hrefill]
      have happly : l.apply e = l'.apply e := by simp only [apply, hcall, hsame]
      have hcons : allows (e :: es) = e :: allows es :=
        List.filter_cons_of_pos (by simpa using hcall)
      have hnext : ∀ now, e.now ≤ now → (l.apply e).refill now = (l'.apply e).refill now := by
        intro now _
        rw [happly]
      obtain ⟨hdecisions, hlater⟩ := ih hnext hrest
      rw [hcons]
      refine ⟨?_, ?_⟩
      · simp only [decisions, Histories.outputs, hcall, if_true, hsame]
        exact congrArg _ hdecisions
      · intro now hnow hall
        exact hlater now (hall e List.mem_cons_self) fun f hf => hall f (List.mem_cons_of_mem _ hf)
    | getAvailableTokens =>
      have happly : l.apply e = l.refill e.now := by simp only [apply, hcall, getAvailableTokens]
      have hcons : allows (e :: es) = allows es :=
        List.filter_cons_of_neg (by simp [hcall])
      have hnext : ∀ now, e.now ≤ now → (l.apply e).refill now = l'.refill now := by
        intro now hnow
        rw [happly, refill_refill l e.now hnow, heq now (hle.trans hnow)]
      obtain ⟨hdecisions, hlater⟩ := ih hnext hrest
      rw [hcons]
      refine ⟨?_, ?_⟩
      · simp only [decisions, Histories.outputs, hcall]
        exact hdecisions
      · intro now hnow hall
        exact hlater now (hall e List.mem_cons_self) fun f hf => hall f (List.mem_cons_of_mem _ hf)

/-- The lazy refill gives the answers of the eager one, and how often the limiter is looked
at makes no difference. -/
theorem answers_eq_eager (options : RateLimiterOptions) {start : ℤ} {history : List LimiterEvent}
    (h : InOrder start history) :
    (new options start).answers history =
        (EagerLimiter.new options.normalize).answers start history ∧
      ∀ polled, InOrder start polled → allows polled = allows history →
        (new options start).decisions polled = (new options start).decisions history ∧
        ∀ now, start ≤ now → (∀ e ∈ history, e.now ≤ now) → (∀ e ∈ polled, e.now ≤ now) →
          (((new options start).after polled).getAvailableTokens now).1 =
            (((new options start).after history).getAvailableTokens now).1 := by
  refine ⟨(EagerLimiter.follows_new options start).answers h, ?_⟩
  intro polled hpolled hallows
  have hself : ∀ now, start ≤ now →
      (new options start).refill now = (new options start).refill now := fun _ _ => rfl
  obtain ⟨hdecisions, hlater⟩ := decisions_allows hself h
  obtain ⟨hdecisions', hlater'⟩ := decisions_allows hself hpolled
  refine ⟨by rw [hdecisions, hdecisions', hallows], ?_⟩
  intro now hnow hhistory hpolls
  simp only [getAvailableTokens]
  rw [hlater now hnow hhistory, hlater' now hnow hpolls, hallows]

end TokenBucketRateLimiter

end WeisleyRpc
