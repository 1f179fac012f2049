import WeisleyRpc.CircuitBreaker

/-!
# The breaker over whole histories

The failures of a key since its last success decide whether it is closed, and the failure
that opened it decides how long it stays so.
-/

namespace WeisleyRpc

namespace BreakerEvent

def isSuccess (key : String) (e : BreakerEvent) : Bool := e.key = key && e.call = .recordSuccess
def isFailure (key : String) (e : BreakerEvent) : Bool := e.key = key && e.call = .recordFailure
def isRequest (key : String) (e : BreakerEvent) : Bool := e.key = key && e.call = .canRequest

end BreakerEvent

/-- How many failures of a key stand behind its last success. -/
def failuresSince (key : String) (history : List BreakerEvent) : ℕ :=
  (history.reverse.takeWhile fun e => !e.isSuccess key).countP (BreakerEvent.isFailure key)

theorem failuresSince_snoc (key : String) (history : List BreakerEvent) (e : BreakerEvent) :
    failuresSince key (history ++ [e]) =
      if e.isSuccess key then 0
      else failuresSince key history + if e.isFailure key then 1 else 0 := by
  rw [failuresSince, List.reverse_append, List.reverse_singleton, List.singleton_append,
    List.takeWhile_cons]
  cases hs : e.isSuccess key
  · simp [failuresSince, List.countP_cons]
  · simp

section Counting
variable {key : String} {e : BreakerEvent} (history : List BreakerEvent)

theorem failuresSince_other (hk : e.key ≠ key) :
    failuresSince key (history ++ [e]) = failuresSince key history := by
  simp [failuresSince_snoc, BreakerEvent.isSuccess, BreakerEvent.isFailure, hk]

theorem failuresSince_request (hcall : e.call = .canRequest) :
    failuresSince key (history ++ [e]) = failuresSince key history := by
  simp [failuresSince_snoc, BreakerEvent.isSuccess, BreakerEvent.isFailure, hcall]

theorem failuresSince_success (hk : e.key = key) (hcall : e.call = .recordSuccess) :
    failuresSince key (history ++ [e]) = 0 := by
  simp [failuresSince_snoc, BreakerEvent.isSuccess, hk, hcall]

theorem failuresSince_failure (hk : e.key = key) (hcall : e.call = .recordFailure) :
    failuresSince key (history ++ [e]) = failuresSince key history + 1 := by
  simp [failuresSince_snoc, BreakerEvent.isSuccess, BreakerEvent.isFailure, hk, hcall]

end Counting

namespace CircuitBreaker
variable (options : CircuitBreakerOptions) (key : String)

def IsOpen (history : List BreakerEvent) : Prop :=
  ((after options history).entry key).state = .opened

/-- A failure at time `t` has opened the key, which has been open ever since. -/
def OpenedAt (history : List BreakerEvent) (t : ℤ) : Prop :=
  ∃ pre e post, Histories.Since (IsOpen options key) history pre e post ∧
    e.isFailure key = true ∧ e.now = t

/-- What an entry says about the history of its key. -/
structure Recorded (history : List BreakerEvent) (entry : CircuitBreakerEntry) : Prop where
  closed : entry.state = .closed → entry.failureCount = failuresSince key history ∧
    (entry.failureCount : ℤ) < max 1 ⌊options.failureThreshold⌋
  tripped : entry.state ≠ .closed →
    max 1 ⌊options.failureThreshold⌋ ≤ (failuresSince key history : ℤ)
  openedAt : entry.state = .opened → ∃ t, entry.openedAt = some t ∧
    OpenedAt options key history t

variable {options : CircuitBreakerOptions} {key : String} {history : List BreakerEvent}
  {e : BreakerEvent} {entry entry' : CircuitBreakerEntry} {t : ℤ}

theorem OpenedAt.snoc (h : OpenedAt options key history t)
    (ho : IsOpen options key (history ++ [e])) : OpenedAt options key (history ++ [e]) t := by
  obtain ⟨pre, f, post, hs, hf, ht⟩ := h
  exact ⟨pre, f, post ++ [e], hs.snoc ho, hf, ht⟩

theorem openedAt_last (hbefore : ¬ IsOpen options key history)
    (ho : IsOpen options key (history ++ [e])) (hf : e.isFailure key = true) :
    OpenedAt options key (history ++ [e]) e.now :=
  ⟨history, e, [], Histories.since_last hbefore ho, hf, rfl⟩

theorem isFailure_of (hk : e.key = key) (hcall : e.call = .recordFailure) :
    e.isFailure key = true := by
  simp [BreakerEvent.isFailure, hk, hcall]

theorem Recorded.step (h : Recorded options key history entry)
    (hentry : (after options history).entry key = entry)
    (hentry' : (after options (history ++ [e])).entry key = entry')
    (hs : EntryStep (after options history) key e entry entry') :
    Recorded options key (history ++ [e]) entry' := by
  have hthreshold := (after_options options history).1
  have hopen : entry'.state = .opened → IsOpen options key (history ++ [e]) := by
    intro ho
    rw [IsOpen, hentry', ho]
  have hshut : entry.state ≠ .opened → ¬ IsOpen options key history := by
    intro hne
    rw [IsOpen, hentry]
    exact hne
  -- An entry that stays open keeps its time, and one that opens now takes the clock's.
  have hkeep : entry.state = .opened → entry'.openedAt = entry.openedAt →
      entry'.state = .opened → ∃ t, entry'.openedAt = some t ∧
        OpenedAt options key (history ++ [e]) t := by
    intro ho heq ho'
    obtain ⟨t, ht, hsince⟩ := h.openedAt ho
    exact ⟨t, heq.trans ht, hsince.snoc (hopen ho')⟩
  cases hs with
  | other hk =>
    refine ⟨?_, ?_, fun ho => hkeep ho rfl ho⟩
    · rw [failuresSince_other history hk]
      exact h.closed
    · rw [failuresSince_other history hk]
      exact h.tripped
  | admitted hk hcall hne =>
    refine ⟨?_, ?_, fun ho => absurd ho hne⟩
    · rw [failuresSince_request history hcall]
      exact h.closed
    · rw [failuresSince_request history hcall]
      exact h.tripped
  | probe hk hcall ho _ =>
    refine ⟨fun hc => (by cases hc), fun _ => ?_, fun hc => (by cases hc)⟩
    rw [failuresSince_request history hcall]
    exact h.tripped (by rw [ho]; decide)
  | refused hk hcall ho _ =>
    refine ⟨?_, ?_, fun ho => hkeep ho rfl ho⟩
    · rw [failuresSince_request history hcall]
      exact h.closed
    · rw [failuresSince_request history hcall]
      exact h.tripped
  | succeeded hk hcall =>
    refine ⟨fun _ => ⟨?_, ?_⟩, fun hne => absurd rfl hne, fun hc => (by cases hc)⟩
    · rw [failuresSince_success history hk hcall]
      rfl
    · exact lt_of_lt_of_le Int.zero_lt_one (le_max_left 1 _)
  | reopened hk hcall hhalf =>
    have hne : entry.state ≠ .opened := by rw [hhalf]; decide
    have htripped := h.tripped (by rw [hhalf]; decide)
    refine ⟨fun hc => (by cases hc), fun _ => ?_, fun ho => ⟨e.now, rfl, ?_⟩⟩
    · rw [failuresSince_failure history hk hcall]
      push_cast
      omega
    · exact openedAt_last (hshut hne) (hopen rfl) (isFailure_of hk hcall)
  | ignored hk hcall ho =>
    have htripped := h.tripped (by rw [ho]; decide)
    refine ⟨fun hc => (by rw [ho] at hc; cases hc), fun _ => ?_, fun ho => hkeep ho rfl ho⟩
    rw [failuresSince_failure history hk hcall]
    push_cast
    omega
  | counted hk hcall hc hlt =>
    obtain ⟨hcount, -⟩ := h.closed hc
    rw [hthreshold] at hlt
    refine ⟨fun _ => ⟨?_, hlt⟩, fun hne => absurd hc hne, fun ho => ?_⟩
    · rw [failuresSince_failure history hk hcall, ← hcount]
    · rw [hc] at ho
      cases ho
  | tripped hk hcall hc hle =>
    obtain ⟨hcount, -⟩ := h.closed hc
    have hne : entry.state ≠ .opened := by rw [hc]; decide
    rw [hthreshold] at hle
    refine ⟨fun hc => (by cases hc), fun _ => ?_, fun _ => ⟨e.now, rfl, ?_⟩⟩
    · rw [failuresSince_failure history hk hcall, ← hcount]
      exact hle
    · exact openedAt_last (hshut hne) (hopen rfl) (isFailure_of hk hcall)

theorem recorded (options : CircuitBreakerOptions) (key : String) (history : List BreakerEvent) :
    Recorded options key history ((after options history).entry key) := by
  induction history using List.reverseRecOn with
  | nil =>
    refine ⟨fun _ => ⟨rfl, ?_⟩, fun hne => absurd rfl hne, fun ho => (by cases ho)⟩
    exact lt_of_lt_of_le Int.zero_lt_one (le_max_left 1 _)
  | append_singleton history e ih => exact ih.step rfl rfl (entry_snoc key e options history)

theorem other_step {b : CircuitBreaker} (hk : e.key ≠ key) (h : EntryStep b key e entry entry') :
    entry' = entry := by
  cases h with
  | other => rfl
  | admitted hk' => exact absurd hk' hk
  | probe hk' => exact absurd hk' hk
  | refused hk' => exact absurd hk' hk
  | succeeded hk' => exact absurd hk' hk
  | reopened hk' => exact absurd hk' hk
  | ignored hk' => exact absurd hk' hk
  | counted hk' => exact absurd hk' hk
  | tripped hk' => exact absurd hk' hk

/-- The entry before an operation determines the one behind it. -/
theorem step_unique {b c : CircuitBreaker} {x y : CircuitBreakerEntry}
    (hthreshold : b.failureThreshold = c.failureThreshold)
    (hreset : b.resetTimeoutMs = c.resetTimeoutMs) (h : EntryStep b key e entry x)
    (h' : EntryStep c key e entry y) : x = y := by
  cases h <;> cases h' <;> first | rfl | (exfalso; simp_all; done) | (exfalso; simp_all; omega)

/-- The operations on other keys leave no trace. -/
theorem entry_filter (options : CircuitBreakerOptions) (key : String)
    (history : List BreakerEvent) :
    (after options (history.filter fun e => e.key = key)).entry key =
      (after options history).entry key := by
  induction history using List.reverseRecOn with
  | nil => rfl
  | append_singleton history e ih =>
    have hs := entry_snoc key e options history
    rw [List.filter_append]
    by_cases hk : e.key = key
    · have hs' := entry_snoc key e options (history.filter fun e => e.key = key)
      obtain ⟨hthreshold, hreset⟩ := after_options options history
      obtain ⟨hthreshold', hreset'⟩ :=
        after_options options (history.filter fun e => e.key = key)
      rw [ih] at hs'
      rw [List.filter_cons_of_pos (by simpa using hk), List.filter_nil]
      exact step_unique (hthreshold'.trans hthreshold.symm) (hreset'.trans hreset.symm) hs' hs
    · rw [List.filter_cons_of_neg (by simpa using hk), List.filter_nil, List.append_nil, ih]
      exact (other_step hk hs).symm

/-- The half-open state is entered from the open one, by a request that came late enough. -/
theorem probe_of_entered {b : CircuitBreaker} (h : EntryStep b key e entry entry')
    (hnot : entry.state ≠ .halfOpen) (hhalf : entry'.state = .halfOpen) :
    e.isRequest key = true ∧ entry.state = .opened ∧
      b.resetTimeoutMs ≤ e.now - entry.openedAt.getD 0 := by
  cases h with
  | other => exact absurd hhalf hnot
  | admitted => exact absurd hhalf hnot
  | probe hk hcall ho hle => exact ⟨by simp [BreakerEvent.isRequest, hk, hcall], ho, hle⟩
  | refused => exact absurd hhalf hnot
  | succeeded => cases hhalf
  | reopened => cases hhalf
  | ignored => exact absurd hhalf hnot
  | counted hk hcall hc =>
    rw [hc] at hhalf
    cases hhalf
  | tripped => cases hhalf

theorem reopened_of_failure {b : CircuitBreaker} (h : EntryStep b key e entry entry')
    (hf : e.isFailure key = true) (hhalf : entry.state = .halfOpen) : entry'.state = .opened := by
  rw [BreakerEvent.isFailure, Bool.and_eq_true, decide_eq_true_eq, decide_eq_true_eq] at hf
  obtain ⟨hk, hcall⟩ := hf
  cases h with
  | reopened => rfl
  | other hk' => exact absurd hk hk'
  | admitted _ hcall' => simp [hcall] at hcall'
  | probe _ hcall' => simp [hcall] at hcall'
  | refused _ hcall' => simp [hcall] at hcall'
  | succeeded _ hcall' => simp [hcall] at hcall'
  | ignored _ _ ho => simp [hhalf] at ho
  | counted _ _ hc => simp [hhalf] at hc
  | tripped _ _ hc => simp [hhalf] at hc

theorem OpenedAt.unique {t' : ℤ} (h : OpenedAt options key history t)
    (h' : OpenedAt options key history t') : t = t' := by
  obtain ⟨pre, f, post, hs, -, rfl⟩ := h
  obtain ⟨pre', f', post', hs', -, rfl⟩ := h'
  rw [hs.unique hs']

/-- The time that is looked up is the one of the failure that opened the key. -/
theorem openedAt_iff (ho : ((after options history).entry key).state = .opened) :
    OpenedAt options key history t ↔
      t = ((after options history).entry key).openedAt.getD 0 := by
  obtain ⟨t', ht', hsince⟩ := (recorded options key history).openedAt ho
  rw [ht', Option.getD_some]
  constructor
  · intro h
    exact h.unique hsince
  · rintro rfl
    exact hsince

/-- What the state of a key and the answers to its requests are in terms of the history. -/
structure Semantics (options : CircuitBreakerOptions) (key : String)
    (history : List BreakerEvent) : Prop where
  state_iff : (after options history).getState key ≠ .closed ↔
    max 1 ⌊options.failureThreshold⌋ ≤ (failuresSince key history : ℤ)
  opened : (after options history).getState key = .opened →
    ∃! t, OpenedAt options key history t
  request_iff : ∀ now, ((after options history).canRequest key now).1 = false ↔
    (after options history).getState key = .opened ∧
      ∃ t, OpenedAt options key history t ∧ now - t < max 0 ⌊options.resetTimeoutMs⌋
  halfOpen : ∀ e, (after options history).getState key ≠ .halfOpen →
    (after options (history ++ [e])).getState key = .halfOpen →
    e.isRequest key = true ∧ (after options history).getState key = .opened ∧
      ∃ t, OpenedAt options key history t ∧ max 0 ⌊options.resetTimeoutMs⌋ ≤ e.now - t
  reopened : ∀ e, (after options history).getState key = .halfOpen → e.isFailure key = true →
    (after options (history ++ [e])).getState key = .opened ∧
      OpenedAt options key (history ++ [e]) e.now
  others : (after options (history.filter fun e => e.key = key)).entry key =
    (after options history).entry key

theorem breaker_semantics (options : CircuitBreakerOptions) (key : String)
    (history : List BreakerEvent) : Semantics options key history := by
  have hrecorded := recorded options key history
  have hreset := (after_options options history).2
  constructor
  · rw [getState_eq]
    constructor
    · exact hrecorded.tripped
    · intro hle hc
      obtain ⟨hcount, hlt⟩ := hrecorded.closed hc
      rw [hcount] at hlt
      omega
  · intro ho
    obtain ⟨t, -, hsince⟩ := hrecorded.openedAt ho
    exact ⟨t, hsince, fun t' h' => h'.unique hsince⟩
  · intro now
    rw [canRequest_eq_false_iff, getState_eq, hreset]
    refine and_congr_right fun ho => ?_
    simp only [openedAt_iff ho, exists_eq_left]
  · intro e hnot hhalf
    obtain ⟨hrequest, ho, hle⟩ := probe_of_entered (entry_snoc key e options history) hnot hhalf
    rw [hreset] at hle
    exact ⟨hrequest, ho, _, (openedAt_iff ho).2 rfl, hle⟩
  · intro e hhalf hf
    have ho := reopened_of_failure (entry_snoc key e options history) hf hhalf
    refine ⟨ho, openedAt_last ?_ ho hf⟩
    rw [IsOpen, ← getState_eq, hhalf]
    decide
  · exact entry_filter options key history

end CircuitBreaker

end WeisleyRpc
