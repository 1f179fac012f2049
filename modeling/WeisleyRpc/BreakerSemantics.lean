import WeisleyRpc.BreakerHistories
import WeisleyRpc.OrdinaryNumbers

/-!
# The breaker on numbers over whole histories

The count of failures stays at `2 ^ 53`, where one more is lost in the rounding. With a threshold
that it can reach, the breaker on numbers means what the breaker on whole numbers does; with a
higher one it never opens.
-/

namespace WeisleyRpc.Numeric.CircuitBreaker
variable (options : WeisleyRpc.CircuitBreakerOptions) (key : String)

/-- The breaker of some finite options after some operations. -/
def ofFinite (history : List BreakerEvent) : CircuitBreaker :=
  after ⟨.finite options.failureThreshold, .finite options.resetTimeoutMs⟩ history

/-- Operations at ordinary times that do not go back. -/
structure Timed (history : List BreakerEvent) : Prop where
  ordinary : ∀ e ∈ history, Ordinary e.now
  ordered : history.Pairwise fun e f => e.now ≤ f.now

def IsOpen (history : List BreakerEvent) : Prop :=
  (ofFinite options history).getState key = .opened

/-- A failure at time `t` has opened the key, which has been open ever since. -/
def OpenedAt (history : List BreakerEvent) (t : ℤ) : Prop :=
  ∃ pre e post, Histories.Since (IsOpen options key) history pre e post ∧
    e.isFailure key = true ∧ e.now = t

/-- What the state of a key and the answers to its requests are in terms of the history. -/
structure Semantics (history : List BreakerEvent) : Prop where
  state_iff : (ofFinite options history).getState key ≠ .closed ↔
    max 1 ⌊options.failureThreshold⌋ ≤ (failuresSince key history : ℤ)
  opened : (ofFinite options history).getState key = .opened →
    ∃! t, OpenedAt options key history t
  request_iff : ∀ now, Ordinary now →
    (((ofFinite options history).canRequest key now).1 = false ↔
      (ofFinite options history).getState key = .opened ∧
        ∃ t, OpenedAt options key history t ∧ now - t < max 0 ⌊options.resetTimeoutMs⌋)
  halfOpen : ∀ e, Ordinary e.now → (ofFinite options history).getState key ≠ .halfOpen →
    (ofFinite options (history ++ [e])).getState key = .halfOpen →
    e.isRequest key = true ∧ (ofFinite options history).getState key = .opened ∧
      ∃ t, OpenedAt options key history t ∧ max 0 ⌊options.resetTimeoutMs⌋ ≤ e.now - t
  reopened : ∀ e, Ordinary e.now → (ofFinite options history).getState key = .halfOpen →
    e.isFailure key = true → (ofFinite options (history ++ [e])).getState key = .opened ∧
      OpenedAt options key (history ++ [e]) e.now
  others : (ofFinite options (history.filter fun e => e.key = key)).entry key =
    (ofFinite options history).entry key

variable {options : WeisleyRpc.CircuitBreakerOptions} {key : String}
  {history : List BreakerEvent} {e : BreakerEvent} {t : ℤ}

section Agreement
variable (hthreshold : options.failureThreshold < 2 ^ 53 + 1)
  (hhistory : ∀ e ∈ history, Ordinary e.now)
include hthreshold hhistory

theorem ofFinite_agrees :
    BreakerAgrees (WeisleyRpc.CircuitBreaker.after options history) (ofFinite options history) :=
  breaker_agrees hthreshold history hhistory

theorem getState_ofFinite : (ofFinite options history).getState key =
    (WeisleyRpc.CircuitBreaker.after options history).getState key :=
  ((ofFinite_agrees hthreshold hhistory).entries key).state

theorem openedAt_ofFinite : OpenedAt options key history t ↔
    WeisleyRpc.CircuitBreaker.OpenedAt options key history t := by
  have hopen : ∀ mid, mid <+: history →
      (IsOpen options key mid ↔ WeisleyRpc.CircuitBreaker.IsOpen options key mid) := by
    intro mid hmid
    rw [IsOpen, getState_ofFinite hthreshold fun e he => hhistory e (hmid.subset he)]
    rfl
  constructor
  · rintro ⟨pre, e, post, hsince, hf, ht⟩
    exact ⟨pre, e, post, hsince.congr hopen, hf, ht⟩
  · rintro ⟨pre, e, post, hsince, hf, ht⟩
    exact ⟨pre, e, post, hsince.congr fun mid hmid => (hopen mid hmid).symm, hf, ht⟩

end Agreement

theorem ordinary_snoc (hhistory : ∀ e ∈ history, Ordinary e.now) (he : Ordinary e.now) :
    ∀ f ∈ history ++ [e], Ordinary f.now := by
  intro f hf
  rcases List.mem_append.mp hf with hf | hf
  · exact hhistory f hf
  · rw [List.mem_singleton.mp hf]
    exact he

/-- The entries of one key agree with the same entry, so they are equal. -/
theorem entry_of_agrees {threshold : ℤ} {entry : WeisleyRpc.CircuitBreakerEntry}
    {x y : CircuitBreakerEntry} (hx : EntryAgrees threshold entry x)
    (hy : EntryAgrees threshold entry y) : x = y := by
  obtain ⟨state, failureCount, openedAt⟩ := x
  obtain ⟨state', failureCount', openedAt'⟩ := y
  have hstate : state = state' := hx.state.trans hy.state.symm
  have hcount : failureCount = failureCount' := hx.failureCount.trans hy.failureCount.symm
  have hopened : openedAt = openedAt' := hx.openedAt.trans hy.openedAt.symm
  rw [hstate, hcount, hopened]

theorem semantics_of_threshold (hthreshold : options.failureThreshold < 2 ^ 53 + 1)
    (hhistory : ∀ e ∈ history, Ordinary e.now) : Semantics options key history := by
  have hsemantics := WeisleyRpc.CircuitBreaker.breaker_semantics options key history
  have hstate : (ofFinite options history).getState key =
      (WeisleyRpc.CircuitBreaker.after options history).getState key :=
    getState_ofFinite hthreshold hhistory
  have hopened : ∀ t, OpenedAt options key history t ↔
      WeisleyRpc.CircuitBreaker.OpenedAt options key history t :=
    fun t => openedAt_ofFinite hthreshold hhistory
  constructor
  · rw [hstate]
    exact hsemantics.state_iff
  · rw [hstate]
    simp only [hopened]
    exact hsemantics.opened
  · intro now hnow
    rw [(ofFinite_agrees hthreshold hhistory).canRequest key hnow, hstate]
    simp only [hopened]
    exact hsemantics.request_iff now
  · intro e he
    rw [hstate, getState_ofFinite hthreshold (ordinary_snoc hhistory he)]
    simp only [hopened]
    exact hsemantics.halfOpen e
  · intro e he
    rw [hstate, getState_ofFinite hthreshold (ordinary_snoc hhistory he),
      openedAt_ofFinite hthreshold (ordinary_snoc hhistory he)]
    exact hsemantics.reopened e
  · have hordinary : ∀ e ∈ history.filter fun e => e.key = key, Ordinary e.now :=
      fun e he => hhistory e (List.mem_of_mem_filter he)
    have hfilter := ofFinite_agrees hthreshold hordinary
    have hentry := (ofFinite_agrees hthreshold hhistory).entries key
    have hentry' := hfilter.entries key
    rw [hsemantics.others, (WeisleyRpc.CircuitBreaker.after_options options _).1] at hentry'
    rw [(WeisleyRpc.CircuitBreaker.after_options options _).1] at hentry
    exact entry_of_agrees hentry' hentry

/-- Failures of one key at one time. -/
def failing (n : ℕ) : List BreakerEvent := List.replicate n ⟨.recordFailure, "", 0⟩

theorem timed_failing (n : ℕ) : Timed (failing n) := by
  constructor
  · intro e he
    rw [List.eq_of_mem_replicate he]
    exact ⟨le_refl _, by decide⟩
  · exact List.pairwise_replicate.mpr (Or.inr (le_refl _))

theorem failuresSince_failing (n : ℕ) : failuresSince "" (failing n) = n := by
  induction n with
  | zero => rfl
  | succ n ih =>
    rw [failing, List.replicate_succ',
      failuresSince_failure (e := ⟨.recordFailure, "", 0⟩) _ rfl rfl]
    exact congrArg (· + 1) ih

theorem unreachable_of_threshold {reset : JsNumber}
    (h : 2 ^ 53 + 1 ≤ options.failureThreshold) :
    CircuitBreakerEntry.Unreachable (CircuitBreakerOptions.normalize
      ⟨.finite options.failureThreshold, reset⟩).failureThreshold := by
  intro n hn
  rw [CircuitBreakerOptions.normalize, floorFrom_finite]
  have hfloor : (2 : ℤ) ^ 53 + 1 ≤ ⌊options.failureThreshold⌋ :=
    Int.le_floor.mpr (by exact_mod_cast h)
  have hlt : (n : ℤ) < max ((1 : ℕ) : ℤ) ⌊options.failureThreshold⌋ := by
    refine lt_of_lt_of_le ?_ (le_max_right _ _)
    omega
  change (JsNumber.ofInt (max ((1 : ℕ) : ℤ) ⌊options.failureThreshold⌋)).le (.ofNat n) = false
  rw [le_ofNat]
  exact decide_eq_false (not_le.mpr hlt)

/-- A threshold above `2 ^ 53` is never reached. -/
theorem closed_of_threshold (h : 2 ^ 53 + 1 ≤ options.failureThreshold)
    (history : List BreakerEvent) : (ofFinite options history).getState key = .closed :=
  (counting_after (unreachable_of_threshold h) history).closed

/-- The finite thresholds with which the breaker does what its options say. -/
theorem semantics_iff (options : WeisleyRpc.CircuitBreakerOptions) :
    (∀ key history, Timed history → Semantics options key history) ↔
      options.failureThreshold < 2 ^ 53 + 1 := by
  constructor
  · intro h
    by_contra hle
    have hle' : 2 ^ 53 + 1 ≤ options.failureThreshold := not_lt.mp hle
    have hstate := (h "" _ (timed_failing (max 1 ⌊options.failureThreshold⌋).toNat)).state_iff
    have hone : 1 ≤ max 1 ⌊options.failureThreshold⌋ := le_max_left _ _
    rw [closed_of_threshold hle', failuresSince_failing] at hstate
    exact hstate.mpr (by omega) rfl
  · intro hthreshold key history hhistory
    exact semantics_of_threshold hthreshold hhistory.ordinary

theorem saturated_count : Timed (failing (2 ^ 53 + 2)) ∧
    (ofFinite ⟨2 ^ 53 + 2, 0⟩ (failing (2 ^ 53 + 2))).getState "" = .closed ∧
    max 1 ⌊(2 ^ 53 + 2 : ℚ)⌋ ≤ (failuresSince "" (failing (2 ^ 53 + 2)) : ℤ) := by
  refine ⟨timed_failing _, closed_of_threshold (by norm_num) _, ?_⟩
  rw [failuresSince_failing]
  norm_num

end WeisleyRpc.Numeric.CircuitBreaker
