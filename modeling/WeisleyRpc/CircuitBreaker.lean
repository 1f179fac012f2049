import Mathlib.Algebra.Order.Ring.Rat
import Mathlib.Data.Rat.Floor
import WeisleyRpc.Histories
import WeisleyRpc.OrderedMap

/-!
# The circuit breaker

`circuit-breaker.ts`: one entry for each key, created when it is first looked at. The clock
is an argument of the operations that read it. Failures are counted by a whole number here; with
a threshold of at most `2 ^ 53` the breaker on numbers does the same (`BreakerAgrees`), and with a
higher one it never opens.
-/

namespace WeisleyRpc

inductive CircuitBreakerState
  | closed
  | opened
  | halfOpen
  deriving DecidableEq, Repr

structure CircuitBreakerOptions where
  failureThreshold : ℚ
  resetTimeoutMs : ℚ

structure CircuitBreakerEntry where
  state : CircuitBreakerState
  failureCount : ℕ
  openedAt : Option ℤ
  deriving DecidableEq

/-- The options are the normalized ones. -/
structure CircuitBreaker where
  failureThreshold : ℤ
  resetTimeoutMs : ℤ
  entries : OrderedMap String CircuitBreakerEntry

namespace CircuitBreakerEntry

def fresh : CircuitBreakerEntry := ⟨.closed, 0, none⟩

def close (_entry : CircuitBreakerEntry) : CircuitBreakerEntry := ⟨.closed, 0, none⟩

def «open» (entry : CircuitBreakerEntry) (now : ℤ) : CircuitBreakerEntry :=
  { entry with state := .opened, openedAt := some now }

end CircuitBreakerEntry

namespace CircuitBreaker

def new (options : CircuitBreakerOptions) : CircuitBreaker where
  failureThreshold := max 1 ⌊options.failureThreshold⌋
  resetTimeoutMs := max 0 ⌊options.resetTimeoutMs⌋
  entries := .empty

def getOrCreateEntry (b : CircuitBreaker) (key : String) : CircuitBreakerEntry × CircuitBreaker :=
  let entry := (b.entries.get key).getD .fresh
  (entry, { b with entries := b.entries.set key entry })

/-- The entry is changed in place. -/
def write (b : CircuitBreaker) (key : String) (entry : CircuitBreakerEntry) : CircuitBreaker :=
  { b with entries := b.entries.set key entry }

def canRequest (b : CircuitBreaker) (key : String) (now : ℤ) : Bool × CircuitBreaker :=
  let (entry, b) := b.getOrCreateEntry key
  match entry.state with
  | .closed => (true, b)
  | .halfOpen => (true, b)
  | .opened =>
    let openedAt := entry.openedAt.getD 0
    let elapsedMs := now - openedAt
    if elapsedMs ≥ b.resetTimeoutMs then (true, b.write key { entry with state := .halfOpen })
    else (false, b)

def recordSuccess (b : CircuitBreaker) (key : String) : CircuitBreaker :=
  let (entry, b) := b.getOrCreateEntry key
  b.write key entry.close

def recordFailure (b : CircuitBreaker) (key : String) (now : ℤ) : CircuitBreaker :=
  let (entry, b) := b.getOrCreateEntry key
  match entry.state with
  | .halfOpen => b.write key (entry.open now)
  | .opened => b
  | .closed =>
    let counted := { entry with failureCount := entry.failureCount + 1 }
    if counted.failureCount ≥ b.failureThreshold then b.write key (counted.open now)
    else b.write key counted

def getState (b : CircuitBreaker) (key : String) : CircuitBreakerState :=
  (b.getOrCreateEntry key).1.state

end CircuitBreaker

inductive BreakerCall
  | canRequest
  | recordSuccess
  | recordFailure
  deriving DecidableEq, Repr

/-- An operation with the key it is for and the time it is called at. -/
structure BreakerEvent where
  call : BreakerCall
  key : String
  now : ℤ
  deriving DecidableEq

namespace CircuitBreaker

def apply (b : CircuitBreaker) (e : BreakerEvent) : CircuitBreaker :=
  match e.call with
  | .canRequest => (b.canRequest e.key e.now).2
  | .recordSuccess => b.recordSuccess e.key
  | .recordFailure => b.recordFailure e.key e.now

/-- A new breaker after some operations. -/
def after (options : CircuitBreakerOptions) (history : List BreakerEvent) : CircuitBreaker :=
  history.foldl apply (new options)

/-- The entry of a key, which is a fresh one until the key is looked at. -/
def entry (b : CircuitBreaker) (key : String) : CircuitBreakerEntry :=
  (b.entries.get key).getD .fresh

section Entries
variable (b : CircuitBreaker) (key k : String) (now : ℤ)

theorem entry_write (entry : CircuitBreakerEntry) :
    (b.write key entry).entry k = if k = key then entry else b.entry k := by
  simp only [CircuitBreaker.entry, write, OrderedMap.get_set]
  split_ifs <;> rfl

theorem failureThreshold_write (entry : CircuitBreakerEntry) :
    (b.write key entry).failureThreshold = b.failureThreshold := rfl

theorem resetTimeoutMs_write (entry : CircuitBreakerEntry) :
    (b.write key entry).resetTimeoutMs = b.resetTimeoutMs := rfl

theorem getOrCreateEntry_eq :
    b.getOrCreateEntry key = (b.entry key, b.write key (b.entry key)) := rfl

theorem entry_created : (b.write key (b.entry key)).entry k = b.entry k := by
  rw [entry_write]
  split_ifs with h
  · rw [h]
  · rfl

theorem getState_eq : b.getState key = (b.entry key).state := rfl

theorem canRequest_eq_false_iff : (b.canRequest key now).1 = false ↔
    (b.entry key).state = .opened ∧ now - (b.entry key).openedAt.getD 0 < b.resetTimeoutMs := by
  unfold canRequest
  rw [getOrCreateEntry_eq]
  cases hs : (b.entry key).state with
  | closed => simp [hs]
  | halfOpen => simp [hs]
  | opened =>
    simp only [hs, true_and]
    split_ifs with h
    · simpa [write] using h
    · simpa [write] using h

end Entries

end CircuitBreaker

/-- What an operation makes of the entry of a key. -/
inductive EntryStep (b : CircuitBreaker) (key : String) (e : BreakerEvent)
    (entry : CircuitBreakerEntry) : CircuitBreakerEntry → Prop
  | other : e.key ≠ key → EntryStep b key e entry entry
  | admitted : e.key = key → e.call = .canRequest → entry.state ≠ .opened →
      EntryStep b key e entry entry
  | probe : e.key = key → e.call = .canRequest → entry.state = .opened →
      b.resetTimeoutMs ≤ e.now - entry.openedAt.getD 0 →
      EntryStep b key e entry { entry with state := .halfOpen }
  | refused : e.key = key → e.call = .canRequest → entry.state = .opened →
      e.now - entry.openedAt.getD 0 < b.resetTimeoutMs → EntryStep b key e entry entry
  | succeeded : e.key = key → e.call = .recordSuccess → EntryStep b key e entry entry.close
  | reopened : e.key = key → e.call = .recordFailure → entry.state = .halfOpen →
      EntryStep b key e entry (entry.open e.now)
  | ignored : e.key = key → e.call = .recordFailure → entry.state = .opened →
      EntryStep b key e entry entry
  | counted : e.key = key → e.call = .recordFailure → entry.state = .closed →
      ((entry.failureCount + 1 : ℕ) : ℤ) < b.failureThreshold →
      EntryStep b key e entry { entry with failureCount := entry.failureCount + 1 }
  | tripped : e.key = key → e.call = .recordFailure → entry.state = .closed →
      b.failureThreshold ≤ ((entry.failureCount + 1 : ℕ) : ℤ) →
      EntryStep b key e entry ⟨.opened, entry.failureCount + 1, some e.now⟩

namespace CircuitBreaker
variable (b : CircuitBreaker) (key : String) (e : BreakerEvent)

theorem canRequest_step (hcall : e.call = .canRequest) :
    EntryStep b key e (b.entry key) ((b.canRequest e.key e.now).2.entry key) := by
  by_cases hk : e.key = key
  · subst hk
    unfold canRequest
    rw [getOrCreateEntry_eq]
    cases hs : (b.entry e.key).state with
    | closed =>
      simp only [hs, entry_created]
      exact .admitted rfl hcall (by simp [hs])
    | halfOpen =>
      simp only [hs, entry_created]
      exact .admitted rfl hcall (by simp [hs])
    | opened =>
      simp only [hs]
      split_ifs with h
      · rw [entry_write, if_pos rfl]
        exact .probe rfl hcall hs h
      · rw [entry_created]
        exact .refused rfl hcall hs (not_le.1 h)
  · have hother : (b.canRequest e.key e.now).2.entry key = b.entry key := by
      unfold canRequest
      rw [getOrCreateEntry_eq]
      cases hs : (b.entry e.key).state with
      | closed => simp only [hs, entry_created]
      | halfOpen => simp only [hs, entry_created]
      | opened =>
        simp only [hs]
        split_ifs
        · rw [entry_write, if_neg (Ne.symm hk), entry_created]
        · rw [entry_created]
    rw [hother]
    exact .other hk

theorem recordSuccess_step (hcall : e.call = .recordSuccess) :
    EntryStep b key e (b.entry key) ((b.recordSuccess e.key).entry key) := by
  rw [recordSuccess, getOrCreateEntry_eq]
  simp only [entry_write]
  split_ifs with hk
  · subst hk
    exact .succeeded rfl hcall
  · exact .other (Ne.symm hk)

theorem recordFailure_step (hcall : e.call = .recordFailure) :
    EntryStep b key e (b.entry key) ((b.recordFailure e.key e.now).entry key) := by
  unfold recordFailure
  rw [getOrCreateEntry_eq]
  by_cases hk : e.key = key
  · subst hk
    cases hs : (b.entry e.key).state with
    | halfOpen =>
      simp only [hs, entry_write, if_true]
      exact .reopened rfl hcall hs
    | opened =>
      simp only [hs, entry_created]
      exact .ignored rfl hcall hs
    | closed =>
      simp only [hs]
      split_ifs with h
      · rw [entry_write, if_pos rfl]
        exact .tripped rfl hcall hs h
      · rw [entry_write, if_pos rfl, ← hs]
        exact .counted rfl hcall hs (not_le.1 h)
  · cases hs : (b.entry e.key).state with
    | halfOpen =>
      simp only [hs, entry_write, if_neg (Ne.symm hk)]
      exact .other hk
    | opened =>
      simp only [hs, entry_created]
      exact .other hk
    | closed =>
      simp only [hs]
      split_ifs
      · rw [entry_write, if_neg (Ne.symm hk), entry_created]
        exact .other hk
      · rw [entry_write, if_neg (Ne.symm hk), entry_created]
        exact .other hk

theorem canRequest_options (now : ℤ) :
    (b.canRequest key now).2.failureThreshold = b.failureThreshold ∧
      (b.canRequest key now).2.resetTimeoutMs = b.resetTimeoutMs := by
  unfold canRequest
  rw [getOrCreateEntry_eq]
  cases hs : (b.entry key).state with
  | closed => exact ⟨by simp only [hs]; rfl, by simp only [hs]; rfl⟩
  | halfOpen => exact ⟨by simp only [hs]; rfl, by simp only [hs]; rfl⟩
  | opened =>
    simp only [hs]
    split_ifs <;> exact ⟨rfl, rfl⟩

theorem recordFailure_options (now : ℤ) :
    (b.recordFailure key now).failureThreshold = b.failureThreshold ∧
      (b.recordFailure key now).resetTimeoutMs = b.resetTimeoutMs := by
  unfold recordFailure
  rw [getOrCreateEntry_eq]
  cases hs : (b.entry key).state with
  | halfOpen => exact ⟨by simp only [hs]; rfl, by simp only [hs]; rfl⟩
  | opened => exact ⟨by simp only [hs]; rfl, by simp only [hs]; rfl⟩
  | closed =>
    simp only [hs]
    split_ifs <;> exact ⟨rfl, rfl⟩

/-- The options stay as they are. -/
theorem apply_options : (b.apply e).failureThreshold = b.failureThreshold ∧
    (b.apply e).resetTimeoutMs = b.resetTimeoutMs := by
  unfold apply
  cases e.call with
  | canRequest => exact canRequest_options b e.key e.now
  | recordSuccess => exact ⟨rfl, rfl⟩
  | recordFailure => exact recordFailure_options b e.key e.now

theorem apply_step : EntryStep b key e (b.entry key) ((b.apply e).entry key) := by
  unfold apply
  cases hcall : e.call with
  | canRequest => exact canRequest_step b key e hcall
  | recordSuccess => exact recordSuccess_step b key e hcall
  | recordFailure => exact recordFailure_step b key e hcall

variable {key e} in
theorem entry_apply_other (h : e.key ≠ key) : (b.apply e).entry key = b.entry key := by
  have hs := apply_step b key e
  generalize (b.apply e).entry key = entry' at hs
  cases hs with
  | other => rfl
  | admitted hk | probe hk | refused hk | succeeded hk | reopened hk | ignored hk | counted hk
  | tripped hk => exact absurd hk h

/-- Breakers that agree on their options and on a key treat the key alike. -/
structure SameKey (b b' : CircuitBreaker) (key : String) : Prop where
  failureThreshold : b.failureThreshold = b'.failureThreshold
  resetTimeoutMs : b.resetTimeoutMs = b'.resetTimeoutMs
  entry : b.entry key = b'.entry key

variable {b key} {b' : CircuitBreaker}

theorem SameKey.canRequest (h : SameKey b b' key) (now : ℤ) :
    (b.canRequest key now).1 = (b'.canRequest key now).1 := by
  have hrefused : (b.canRequest key now).1 = false ↔ (b'.canRequest key now).1 = false := by
    rw [canRequest_eq_false_iff, canRequest_eq_false_iff, h.entry, h.resetTimeoutMs]
  cases hb : (b.canRequest key now).1 with
  | false => exact (hrefused.1 hb).symm
  | true =>
    cases hb' : (b'.canRequest key now).1 with
    | false => exact absurd (hrefused.2 hb') (by rw [hb]; decide)
    | true => rfl

theorem SameKey.apply (h : SameKey b b' key) (e : BreakerEvent) :
    SameKey (b.apply e) (b'.apply e) key := by
  refine ⟨?_, ?_, ?_⟩
  · rw [(apply_options b e).1, (apply_options b' e).1, h.failureThreshold]
  · rw [(apply_options b e).2, (apply_options b' e).2, h.resetTimeoutMs]
  · by_cases hk : e.key = key
    · subst hk
      unfold CircuitBreaker.apply
      cases e.call with
      | canRequest =>
        unfold CircuitBreaker.canRequest
        rw [getOrCreateEntry_eq, getOrCreateEntry_eq, h.entry]
        cases hs : (b'.entry e.key).state with
        | closed => simp only [hs, entry_write, if_true]
        | halfOpen => simp only [hs, entry_write, if_true]
        | opened =>
          simp only [hs, resetTimeoutMs_write, h.resetTimeoutMs, ge_iff_le]
          by_cases hle : b'.resetTimeoutMs ≤ e.now - (b'.entry e.key).openedAt.getD 0
          · simp only [if_pos hle, entry_write, if_true]
          · simp only [if_neg hle, entry_write, if_true]
      | recordSuccess =>
        rw [recordSuccess, recordSuccess, getOrCreateEntry_eq, getOrCreateEntry_eq]
        simp only [entry_write, if_true]
        rfl
      | recordFailure =>
        unfold recordFailure
        rw [getOrCreateEntry_eq, getOrCreateEntry_eq, h.entry]
        cases hs : (b'.entry e.key).state with
        | halfOpen => simp only [hs, entry_write, if_true]
        | opened => simp only [hs, entry_write, if_true]
        | closed =>
          simp only [hs, failureThreshold_write, h.failureThreshold, ge_iff_le]
          by_cases hle : b'.failureThreshold ≤ (((b'.entry e.key).failureCount + 1 : ℕ) : ℤ)
          · simp only [if_pos hle, entry_write, if_true]
          · simp only [if_neg hle, entry_write, if_true]
    · rw [entry_apply_other _ hk, entry_apply_other _ hk, h.entry]

end CircuitBreaker

namespace CircuitBreaker
variable (key : String) (e : BreakerEvent) (options : CircuitBreakerOptions)
  (history : List BreakerEvent)

theorem after_snoc : after options (history ++ [e]) = (after options history).apply e := by
  rw [after, List.foldl_append]
  rfl

theorem after_options :
    (after options history).failureThreshold = max 1 ⌊options.failureThreshold⌋ ∧
      (after options history).resetTimeoutMs = max 0 ⌊options.resetTimeoutMs⌋ := by
  induction history using List.reverseRecOn with
  | nil => exact ⟨rfl, rfl⟩
  | append_singleton history e ih =>
    rw [after_snoc, (apply_options _ e).1, (apply_options _ e).2]
    exact ih

theorem entry_snoc : EntryStep (after options history) key e ((after options history).entry key)
    ((after options (history ++ [e])).entry key) := by
  rw [after_snoc]
  exact apply_step (after options history) key e

end CircuitBreaker

end WeisleyRpc
