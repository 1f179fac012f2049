import Mathlib.Algebra.Order.Ring.Rat
import Mathlib.Data.Rat.Floor
import WeisleyRpc.Histories

/-!
# The rate limiter

`rate-limiter.ts`: a bucket that is refilled only when it is looked at. The clock is an
argument of the operations that read it, and may be set back. Tokens are whole numbers here; with
a capacity of at most `2 ^ 53` the limiter on numbers computes the same (`LimiterAgrees`), and
with a larger one it may not.
-/

namespace WeisleyRpc

structure RateLimiterOptions where
  capacity : ℚ
  refillTokens : ℚ
  refillIntervalMs : ℚ

/-- The options as the constructor keeps them. -/
structure BucketOptions where
  capacity : ℤ
  refillTokens : ℤ
  refillIntervalMs : ℤ
  one_le_capacity : 1 ≤ capacity
  one_le_refillTokens : 1 ≤ refillTokens
  one_le_refillIntervalMs : 1 ≤ refillIntervalMs

def RateLimiterOptions.normalize (options : RateLimiterOptions) : BucketOptions where
  capacity := max 1 ⌊options.capacity⌋
  refillTokens := max 1 ⌊options.refillTokens⌋
  refillIntervalMs := max 1 ⌊options.refillIntervalMs⌋
  one_le_capacity := le_max_left _ _
  one_le_refillTokens := le_max_left _ _
  one_le_refillIntervalMs := le_max_left _ _

structure TokenBucketRateLimiter where
  options : BucketOptions
  tokens : ℤ
  lastRefillAt : ℤ

namespace TokenBucketRateLimiter

def new (options : RateLimiterOptions) (now : ℤ) : TokenBucketRateLimiter where
  options := options.normalize
  tokens := options.normalize.capacity
  lastRefillAt := now

def refill (l : TokenBucketRateLimiter) (now : ℤ) : TokenBucketRateLimiter :=
  let elapsedMs := now - l.lastRefillAt
  let intervals := elapsedMs / l.options.refillIntervalMs
  if intervals ≤ 0 then l
  else
    { l with
      tokens := min l.options.capacity (l.tokens + intervals * l.options.refillTokens)
      lastRefillAt := l.lastRefillAt + intervals * l.options.refillIntervalMs }

def allow (l : TokenBucketRateLimiter) (now : ℤ) : Bool × TokenBucketRateLimiter :=
  let l := l.refill now
  if l.tokens ≤ 0 then (false, l)
  else (true, { l with tokens := l.tokens - 1 })

def getAvailableTokens (l : TokenBucketRateLimiter) (now : ℤ) : ℤ × TokenBucketRateLimiter :=
  let l := l.refill now
  (l.tokens, l)

end TokenBucketRateLimiter

inductive LimiterCall
  | allow
  | getAvailableTokens
  deriving DecidableEq, Repr

/-- A call with the time its refill reads from the clock. -/
structure LimiterEvent where
  call : LimiterCall
  now : ℤ
  deriving DecidableEq

inductive LimiterAnswer
  | allowed (answer : Bool)
  | tokens (answer : ℤ)
  deriving DecidableEq, Repr

namespace TokenBucketRateLimiter

def apply (l : TokenBucketRateLimiter) (e : LimiterEvent) : TokenBucketRateLimiter :=
  match e.call with
  | .allow => (l.allow e.now).2
  | .getAvailableTokens => (l.getAvailableTokens e.now).2

def answer (l : TokenBucketRateLimiter) (e : LimiterEvent) : LimiterAnswer :=
  match e.call with
  | .allow => .allowed (l.allow e.now).1
  | .getAvailableTokens => .tokens (l.getAvailableTokens e.now).1

def after (l : TokenBucketRateLimiter) (history : List LimiterEvent) : TokenBucketRateLimiter :=
  history.foldl apply l

def answers (l : TokenBucketRateLimiter) (history : List LimiterEvent) : List LimiterAnswer :=
  Histories.outputs apply (fun l e => some (l.answer e)) l history

/-- How many calls of `allow` are answered with true. -/
def grants (l : TokenBucketRateLimiter) (history : List LimiterEvent) : ℕ :=
  (l.answers history).count (.allowed true)

variable (l : TokenBucketRateLimiter) (e : LimiterEvent) (es : List LimiterEvent)

theorem answers_cons : l.answers (e :: es) = l.answer e :: (l.apply e).answers es := rfl

theorem after_cons : l.after (e :: es) = (l.apply e).after es := rfl

theorem grants_cons : l.grants (e :: es) =
    (l.apply e).grants es + if l.answer e = .allowed true then 1 else 0 := by
  simp only [grants, answers_cons, List.count_cons, beq_iff_eq]

end TokenBucketRateLimiter

/-- What a refill does: it adds the tokens of `k` intervals and moves on by as many. -/
structure RefillStep (l : TokenBucketRateLimiter) (now : ℤ) (k : ℕ)
    (l' : TokenBucketRateLimiter) : Prop where
  options : l'.options = l.options
  tokens : l'.tokens = if k = 0 then l.tokens else
    min l.options.capacity (l.tokens + k * l.options.refillTokens)
  lastRefillAt : l'.lastRefillAt = l.lastRefillAt + k * l.options.refillIntervalMs
  passed : k = 0 ∨ l'.lastRefillAt ≤ now
  current : now < l'.lastRefillAt + l.options.refillIntervalMs

namespace RefillStep
variable {l m m' : TokenBucketRateLimiter} {now later : ℤ} {j k : ℕ}

theorem unique (h : RefillStep l now j m) (h' : RefillStep l now k m') : m = m' := by
  have hpos := l.options.one_le_refillIntervalMs
  have hmoved := h.lastRefillAt
  have hmoved' := h'.lastRefillAt
  have hcurrent := h.current
  have hcurrent' := h'.current
  have hjk : j = k := by
    rcases lt_trichotomy j k with hlt | heq | hlt
    · have hmul := Int.mul_le_mul_of_nonneg_right (Int.ofNat_le.2 (Nat.succ_le_of_lt hlt))
        (show 0 ≤ l.options.refillIntervalMs by omega)
      rw [Nat.cast_succ, Int.add_mul, Int.one_mul] at hmul
      have hpassed := h'.passed.resolve_left (by omega)
      omega
    · exact heq
    · have hmul := Int.mul_le_mul_of_nonneg_right (Int.ofNat_le.2 (Nat.succ_le_of_lt hlt))
        (show 0 ≤ l.options.refillIntervalMs by omega)
      rw [Nat.cast_succ, Int.add_mul, Int.one_mul] at hmul
      have hpassed := h.passed.resolve_left (by omega)
      omega
  have hoptions := h.options.trans h'.options.symm
  have htokens := h.tokens.trans (hjk ▸ h'.tokens.symm)
  have hlast : m.lastRefillAt = m'.lastRefillAt := by rw [hmoved, hmoved', hjk]
  cases m
  cases m'
  simp only [TokenBucketRateLimiter.mk.injEq]
  exact ⟨hoptions, htokens, hlast⟩

/-- A refill on the way takes nothing from a later one and adds nothing to it. -/
theorem trans (h : RefillStep l now j m) (h' : RefillStep m later k m') (hle : now ≤ later) :
    RefillStep l later (j + k) m' := by
  have hmoved := h.lastRefillAt
  have hmoved' := h'.lastRefillAt
  have htokens' := h'.tokens
  have hcurrent := h'.current
  have hpassed' := h'.passed
  have hpos := l.options.one_le_refillTokens
  rw [h.options] at hmoved' htokens' hcurrent
  refine ⟨h'.options.trans h.options, ?_, ?_, ?_, ?_⟩
  · rw [htokens', h.tokens, Nat.cast_add, Int.add_mul]
    by_cases hj : j = 0
    · simp [hj]
    · by_cases hk : k = 0
      · simp [hk]
      · have hmul := Int.mul_le_mul_of_nonneg_right (Int.natCast_nonneg k)
          (show 0 ≤ l.options.refillTokens by omega)
        rw [if_neg hj, if_neg hk, if_neg (by omega)]
        omega
  · rw [hmoved', hmoved, Nat.cast_add, Int.add_mul, Int.add_assoc]
  · by_cases hk : k = 0
    · subst hk
      rcases h.passed with rfl | hpassed
      · exact .inl rfl
      · refine .inr ?_
        simp only [Nat.cast_zero, Int.zero_mul, Int.add_zero] at hmoved'
        omega
    · exact .inr (hpassed'.resolve_left hk)
  · exact hcurrent

end RefillStep

/-- What a call does behind its refill. -/
inductive LimiterStep (l : TokenBucketRateLimiter) (e : LimiterEvent) :
    LimiterAnswer → TokenBucketRateLimiter → Prop
  | granted : e.call = .allow → 0 < (l.refill e.now).tokens →
      LimiterStep l e (.allowed true)
        { l.refill e.now with tokens := (l.refill e.now).tokens - 1 }
  | refused : e.call = .allow → (l.refill e.now).tokens ≤ 0 →
      LimiterStep l e (.allowed false) (l.refill e.now)
  | polled : e.call = .getAvailableTokens →
      LimiterStep l e (.tokens (l.refill e.now).tokens) (l.refill e.now)

namespace TokenBucketRateLimiter
variable (l : TokenBucketRateLimiter) (e : LimiterEvent) (now : ℤ)

theorem refill_step : RefillStep l now ((now - l.lastRefillAt) / l.options.refillIntervalMs).toNat
    (l.refill now) := by
  have hpos : 0 < l.options.refillIntervalMs := l.options.one_le_refillIntervalMs
  have hdiv := Int.mul_ediv_add_emod (now - l.lastRefillAt) l.options.refillIntervalMs
  have hmod := Int.emod_nonneg (now - l.lastRefillAt) hpos.ne'
  have hlt := Int.emod_lt_of_pos (now - l.lastRefillAt) hpos
  rw [Int.mul_comm] at hdiv
  unfold refill
  simp only []
  split_ifs with hn
  · have hzero : ((now - l.lastRefillAt) / l.options.refillIntervalMs).toNat = 0 :=
      Int.toNat_eq_zero.2 hn
    rw [hzero]
    refine ⟨rfl, rfl, by simp, .inl rfl, ?_⟩
    have hmul := Int.mul_le_mul_of_nonneg_right hn hpos.le
    rw [Int.zero_mul] at hmul
    omega
  · have hcast : (((now - l.lastRefillAt) / l.options.refillIntervalMs).toNat : ℤ) =
        (now - l.lastRefillAt) / l.options.refillIntervalMs := Int.toNat_of_nonneg (by omega)
    refine ⟨rfl, ?_, ?_, .inr ?_, ?_⟩
    · rw [if_neg (by omega), hcast]
    · rw [hcast]
    · simp only []
      omega
    · simp only []
      omega

theorem refill_refill {later : ℤ} (hle : now ≤ later) :
    (l.refill now).refill later = l.refill later :=
  ((refill_step l now).trans (refill_step (l.refill now) later) hle).unique
    (refill_step l later)

theorem apply_step : LimiterStep l e (l.answer e) (l.apply e) := by
  unfold answer apply
  cases hcall : e.call with
  | allow =>
    unfold allow
    simp only []
    split_ifs with h
    · exact .refused hcall h
    · exact .granted hcall (not_le.1 h)
  | getAvailableTokens => exact .polled hcall

end TokenBucketRateLimiter

end WeisleyRpc
