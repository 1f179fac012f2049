import WeisleyRpc.CircuitBreaker
import WeisleyRpc.LimiterNumbers

/-!
# The circuit breaker on JavaScript numbers

`circuit-breaker.ts` once more, for options that may be any number: the failures are counted
in a number, which is compared with a number.
-/

namespace WeisleyRpc.Numeric

structure CircuitBreakerOptions where
  failureThreshold : JsNumber
  resetTimeoutMs : JsNumber

structure CircuitBreakerEntry where
  state : CircuitBreakerState
  failureCount : JsNumber
  openedAt : Option ℤ
  deriving DecidableEq

structure CircuitBreaker where
  options : CircuitBreakerOptions
  entries : OrderedMap String CircuitBreakerEntry

def CircuitBreakerOptions.normalize (options : CircuitBreakerOptions) :
    CircuitBreakerOptions where
  failureThreshold := floorFrom 1 options.failureThreshold
  resetTimeoutMs := floorFrom 0 options.resetTimeoutMs

namespace CircuitBreakerEntry

def fresh : CircuitBreakerEntry := ⟨.closed, .ofNat 0, none⟩

def close (_entry : CircuitBreakerEntry) : CircuitBreakerEntry := ⟨.closed, .ofNat 0, none⟩

def «open» (entry : CircuitBreakerEntry) (now : ℤ) : CircuitBreakerEntry :=
  { entry with state := .opened, openedAt := some now }

end CircuitBreakerEntry

namespace CircuitBreaker

def new (options : CircuitBreakerOptions) : CircuitBreaker where
  options := options.normalize
  entries := .empty

def getOrCreateEntry (b : CircuitBreaker) (key : String) : CircuitBreakerEntry × CircuitBreaker :=
  let entry := (b.entries.get key).getD .fresh
  (entry, { b with entries := b.entries.set key entry })

/-- The entry is changed in place. -/
def write (b : CircuitBreaker) (key : String) (entry : CircuitBreakerEntry) : CircuitBreaker :=
  { b with entries := b.entries.set key entry }

def canRequest (b : CircuitBreaker) (key : String) (now : ℤ) : Bool × CircuitBreaker :=
  let (entry, b) := b.getOrCreateEntry key
  match entry.state with
  | .closed => (true, b)
  | .halfOpen => (true, b)
  | .opened =>
    let openedAt := entry.openedAt.getD 0
    let elapsedMs := (JsNumber.ofInt now).sub (.ofInt openedAt)
    if b.options.resetTimeoutMs.le elapsedMs then
      (true, b.write key { entry with state := .halfOpen })
    else (false, b)

def recordSuccess (b : CircuitBreaker) (key : String) : CircuitBreaker :=
  let (entry, b) := b.getOrCreateEntry key
  b.write key entry.close

def recordFailure (b : CircuitBreaker) (key : String) (now : ℤ) : CircuitBreaker :=
  let (entry, b) := b.getOrCreateEntry key
  match entry.state with
  | .halfOpen => b.write key (entry.open now)
  | .opened => b
  | .closed =>
    let counted := { entry with failureCount := entry.failureCount.add (.ofNat 1) }
    if b.options.failureThreshold.le counted.failureCount then b.write key (counted.open now)
    else b.write key counted

def getState (b : CircuitBreaker) (key : String) : CircuitBreakerState :=
  (b.getOrCreateEntry key).1.state

def apply (b : CircuitBreaker) (e : BreakerEvent) : CircuitBreaker :=
  match e.call with
  | .canRequest => (b.canRequest e.key e.now).2
  | .recordSuccess => b.recordSuccess e.key
  | .recordFailure => b.recordFailure e.key e.now

/-- A new breaker after some operations. -/
def after (options : CircuitBreakerOptions) (history : List BreakerEvent) : CircuitBreaker :=
  history.foldl apply (new options)

/-- The entry of a key, which is a fresh one until the key is looked at. -/
def entry (b : CircuitBreaker) (key : String) : CircuitBreakerEntry :=
  (b.entries.get key).getD .fresh

end CircuitBreaker

/-- What an operation makes of the entry of its key. -/
def CircuitBreakerEntry.next (options : CircuitBreakerOptions) (entry : CircuitBreakerEntry)
    (e : BreakerEvent) : CircuitBreakerEntry :=
  match e.call, entry.state with
  | .recordSuccess, _ => entry.close
  | .canRequest, .opened =>
    if options.resetTimeoutMs.le ((JsNumber.ofInt e.now).sub (.ofInt (entry.openedAt.getD 0))) then
      { entry with state := .halfOpen }
    else entry
  | .canRequest, _ => entry
  | .recordFailure, .halfOpen => entry.open e.now
  | .recordFailure, .opened => entry
  | .recordFailure, .closed =>
    let counted := { entry with failureCount := entry.failureCount.add (.ofNat 1) }
    if options.failureThreshold.le counted.failureCount then counted.open e.now else counted

namespace CircuitBreaker
variable (b : CircuitBreaker) (key k : String) (e : BreakerEvent)

theorem entry_write (entry : CircuitBreakerEntry) :
    (b.write key entry).entry k = if k = key then entry else b.entry k := by
  simp only [CircuitBreaker.entry, write, OrderedMap.get_set]
  split_ifs <;> rfl

theorem getOrCreateEntry_eq :
    b.getOrCreateEntry key = (b.entry key, b.write key (b.entry key)) := rfl

theorem getState_eq : b.getState key = (b.entry key).state := rfl

/-- An operation writes the entry of its key, twice at most, and nothing else. -/
theorem apply_writes : ∃ entry, b.apply e =
      (b.write e.key entry).write e.key ((b.entry e.key).next b.options e) ∨
    b.apply e = b.write e.key ((b.entry e.key).next b.options e) := by
  refine ⟨b.entry e.key, ?_⟩
  unfold apply CircuitBreakerEntry.next
  cases e.call with
  | recordSuccess => exact Or.inl rfl
  | canRequest =>
    simp only [canRequest, getOrCreateEntry_eq]
    cases hs : (b.entry e.key).state with
    | closed => exact Or.inr rfl
    | halfOpen => exact Or.inr rfl
    | opened =>
      cases h : b.options.resetTimeoutMs.le
          ((JsNumber.ofInt e.now).sub (.ofInt ((b.entry e.key).openedAt.getD 0))) with
      | true => exact Or.inl (by simp [write, h])
      | false => exact Or.inr (by simp [write, h])
  | recordFailure =>
    simp only [recordFailure, getOrCreateEntry_eq]
    cases hs : (b.entry e.key).state with
    | closed =>
      cases h : b.options.failureThreshold.le ((b.entry e.key).failureCount.add (.ofNat 1)) with
      | true => exact Or.inl (by simp [write, h])
      | false => exact Or.inl (by simp [write, h])
    | halfOpen => exact Or.inl rfl
    | opened => exact Or.inr rfl

theorem apply_options : (b.apply e).options = b.options := by
  obtain ⟨entry, h | h⟩ := b.apply_writes e <;> rw [h] <;> rfl

theorem entry_apply : (b.apply e).entry key =
    if key = e.key then (b.entry key).next b.options e else b.entry key := by
  obtain ⟨entry, h | h⟩ := b.apply_writes e
  · rw [h, entry_write, entry_write]
    split_ifs with hk
    · rw [hk]
    · rfl
  · rw [h, entry_write]
    split_ifs with hk
    · rw [hk]
    · rfl

theorem after_options (options : CircuitBreakerOptions) (history : List BreakerEvent) :
    (after options history).options = options.normalize := by
  induction history using List.reverseRecOn with
  | nil => rfl
  | append_singleton history e ih =>
    rw [after, List.foldl_append]
    exact (apply_options _ e).trans ih

/-- How often a call of the key has failed. -/
def failures (key : String) (es : List BreakerEvent) : ℕ :=
  es.countP fun e => e.key = key ∧ e.call = .recordFailure

end CircuitBreaker

theorem add_one {n : ℕ} (h : n < 2 ^ 53) :
    (JsNumber.finite n).add (.ofNat 1) = .finite (n + 1 : ℕ) := by
  have hadd := JsNumber.add_ofInt (m := n) (n := 1) (by omega)
  simp only [JsNumber.ofInt, Int.cast_natCast] at hadd
  rw [JsNumber.ofNat, Nat.cast_one, ← Int.cast_one, hadd]
  push_cast
  rfl

theorem add_one_le {n : ℕ} (h : n ≤ 2 ^ 53) :
    ∃ m ≤ 2 ^ 53, (JsNumber.finite n).add (.ofNat 1) = .finite (m : ℕ) := by
  rcases h.lt_or_eq with hlt | rfl
  · exact ⟨n + 1, hlt, add_one hlt⟩
  · refine ⟨2 ^ 53, le_refl _, ?_⟩
    have hadd : (JsNumber.finite (2 ^ 53 : ℕ)).add (.ofNat 1) =
        JsNumber.ofExact ((2 ^ 53 + 1 : ℤ) : ℚ) := by
      simp only [JsNumber.ofNat, JsNumber.add]
      norm_num
    rw [hadd, JsNumber.ofExact_eq_finite (by norm_num) (by norm_num), JsNumber.nearest_top]
    norm_num

namespace CircuitBreakerEntry
variable {options : CircuitBreakerOptions} {entry : CircuitBreakerEntry} {e : BreakerEvent}
  {threshold m : ℕ}

/-- The entry opens with the `m`-th failure from here at the latest. -/
inductive OpensWithin (threshold m : ℕ) (entry : CircuitBreakerEntry) : Prop
  | opened : entry.state = .opened → OpensWithin threshold m entry
  | halfOpen : entry.state = .halfOpen → 0 < m → OpensWithin threshold m entry
  | closed {n : ℕ} : entry.state = .closed → entry.failureCount = .finite n → n < threshold →
      threshold ≤ n + m → OpensWithin threshold m entry

theorem OpensWithin.failed (h : OpensWithin threshold (m + 1) entry)
    (hthreshold : options.failureThreshold = .finite threshold) (hbound : threshold ≤ 2 ^ 53)
    (hcall : e.call = .recordFailure) : OpensWithin threshold m (entry.next options e) := by
  unfold CircuitBreakerEntry.next
  rw [hcall]
  cases h with
  | opened hs =>
    simp only [hs]
    exact .opened hs
  | halfOpen hs _ =>
    simp only [hs]
    exact .opened rfl
  | @closed n hs hcount hlt hle =>
    simp only [hs, hcount, hthreshold, add_one (by omega : n < 2 ^ 53)]
    by_cases hreached : threshold ≤ n + 1
    · have hcast : (threshold : ℚ) ≤ ((n + 1 : ℕ) : ℚ) := Nat.cast_le.mpr hreached
      rw [if_pos (by simpa [JsNumber.le] using hcast)]
      exact .opened rfl
    · have hcast : ¬ (threshold : ℚ) ≤ ((n + 1 : ℕ) : ℚ) := by
        rw [Nat.cast_le]
        exact hreached
      rw [if_neg (by simpa [JsNumber.le] using hcast)]
      exact .closed (n := n + 1) rfl rfl (by omega) (by omega)

theorem next_canRequest (hcall : e.call = .canRequest) (hs : entry.state ≠ .opened) :
    entry.next options e = entry := by
  unfold CircuitBreakerEntry.next
  rw [hcall]
  cases h : entry.state with
  | closed => rfl
  | halfOpen => rfl
  | opened => exact absurd h hs

/-- Whatever is made of it, an entry opens with as many failures as the threshold. -/
theorem OpensWithin.next (h : OpensWithin threshold threshold entry)
    (hthreshold : options.failureThreshold = .finite threshold) (hpos : 0 < threshold)
    (hbound : threshold ≤ 2 ^ 53) : OpensWithin threshold threshold (entry.next options e) := by
  cases hcall : e.call with
  | recordSuccess =>
    have hnext : entry.next options e = entry.close := by
      unfold CircuitBreakerEntry.next
      rw [hcall]
    rw [hnext]
    exact .closed (n := 0) rfl rfl hpos (by omega)
  | canRequest =>
    by_cases hs : entry.state = .opened
    · have hnext : entry.next options e = { entry with state := .halfOpen } ∨
          entry.next options e = entry := by
        unfold CircuitBreakerEntry.next
        rw [hcall]
        simp only [hs]
        split_ifs
        · exact Or.inl rfl
        · exact Or.inr rfl
      rcases hnext with hnext | hnext
      · rw [hnext]
        exact .halfOpen rfl hpos
      · rw [hnext]
        exact h
    · rw [next_canRequest hcall hs]
      exact h
  | recordFailure =>
    obtain ⟨m, rfl⟩ : ∃ m, threshold = m + 1 := ⟨threshold - 1, by omega⟩
    cases h.failed hthreshold hbound hcall with
    | opened hs => exact .opened hs
    | halfOpen hs hm => exact .halfOpen hs (by omega)
    | closed hs hcount hlt hle => exact .closed hs hcount hlt (by omega)

/-- A threshold that no count of failures reaches. -/
def Unreachable (threshold : JsNumber) : Prop :=
  ∀ n ≤ 2 ^ 53, threshold.le (.finite (n : ℕ)) = false

/-- A closed entry that has counted as far as numbers go. -/
structure Counting (entry : CircuitBreakerEntry) : Prop where
  closed : entry.state = .closed
  failureCount : ∃ n ≤ 2 ^ 53, entry.failureCount = .finite (n : ℕ)

theorem Counting.fresh : Counting fresh := ⟨rfl, 0, Nat.zero_le _, rfl⟩

theorem Counting.next (h : Counting entry) (hthreshold : Unreachable options.failureThreshold) :
    Counting (entry.next options e) := by
  unfold CircuitBreakerEntry.next
  rw [h.closed]
  cases e.call with
  | recordSuccess => exact Counting.fresh
  | canRequest => exact h
  | recordFailure =>
    obtain ⟨n, hn, hcount⟩ := h.failureCount
    obtain ⟨m, hm, hadd⟩ := add_one_le hn
    simp only [hcount, hadd, hthreshold m hm, Bool.false_eq_true, if_false]
    exact ⟨rfl, m, hm, rfl⟩

end CircuitBreakerEntry

namespace CircuitBreaker
open WeisleyRpc.Numeric.CircuitBreakerEntry
variable {options : CircuitBreakerOptions} {threshold m : ℕ} {key : String}

theorem opens {b : CircuitBreaker} (hb : b.options.failureThreshold = .finite threshold)
    (hbound : threshold ≤ 2 ^ 53) (h : OpensWithin threshold m (b.entry key))
    {es : List BreakerEvent} (hes : ∀ e ∈ es, e.key = key → e.call ≠ .recordSuccess)
    (hm : m ≤ failures key es) :
    ∃ pre, pre <+: es ∧ (pre.foldl apply b).getState key = .opened := by
  induction es generalizing b m with
  | nil =>
    refine ⟨[], List.prefix_refl _, ?_⟩
    obtain rfl : m = 0 := Nat.le_zero.mp hm
    cases h with
    | opened hs => exact hs
    | halfOpen hs hpos => exact absurd hpos (lt_irrefl _)
    | closed hs hcount hlt hle => omega
  | cons e es ih =>
    by_cases hs : (b.entry key).state = .opened
    · exact ⟨[], List.nil_prefix, hs⟩
    · have hb' : (b.apply e).options.failureThreshold = .finite threshold := by
        rw [apply_options, hb]
      have hes' : ∀ e' ∈ es, e'.key = key → e'.call ≠ .recordSuccess :=
        fun e' he' => hes e' (List.mem_cons_of_mem _ he')
      have hrest : (∃ m', OpensWithin threshold m' ((b.apply e).entry key) ∧
          m' ≤ failures key es) → ∃ pre, pre <+: e :: es ∧
            (pre.foldl apply b).getState key = .opened := by
        rintro ⟨m', h', hm'⟩
        obtain ⟨pre, hpre, hopened⟩ := ih hb' h' hes' hm'
        exact ⟨e :: pre, List.cons_prefix_cons.mpr ⟨rfl, hpre⟩, hopened⟩
      apply hrest
      rw [entry_apply]
      split_ifs with hk
      · have hsuccess := hes e List.mem_cons_self hk.symm
        cases hcall : e.call with
        | recordSuccess => exact absurd hcall hsuccess
        | canRequest =>
          rw [next_canRequest hcall hs]
          refine ⟨m, h, ?_⟩
          simpa [failures, List.countP_cons, hcall] using hm
        | recordFailure =>
          have hcount : failures key (e :: es) = failures key es + 1 := by
            simp [failures, hcall, hk]
          obtain rfl | ⟨m', rfl⟩ : m = 0 ∨ ∃ m', m = m' + 1 := by
            cases m with
            | zero => exact Or.inl rfl
            | succ m' => exact Or.inr ⟨m', rfl⟩
          · cases h with
            | opened hopened => exact absurd hopened hs
            | halfOpen hhalf hpos => exact absurd hpos (lt_irrefl _)
            | closed hclosed hfailed hlt hle => omega
          · exact ⟨m', h.failed hb hbound hcall, by omega⟩
      · refine ⟨m, h, ?_⟩
        simpa [failures, List.countP_cons, Ne.symm hk] using hm

theorem opensWithin_after (hthreshold : options.normalize.failureThreshold = .finite threshold)
    (hpos : 0 < threshold) (hbound : threshold ≤ 2 ^ 53) (history : List BreakerEvent) :
    OpensWithin threshold threshold ((after options history).entry key) := by
  induction history using List.reverseRecOn with
  | nil => exact .closed (n := 0) rfl rfl hpos (by omega)
  | append_singleton history e ih =>
    rw [after, List.foldl_append]
    change OpensWithin threshold threshold (((after options history).apply e).entry key)
    rw [entry_apply, after_options]
    split_ifs
    · exact ih.next hthreshold hpos hbound
    · exact ih

/-- With a threshold that no count reaches no key is ever opened. -/
theorem counting_after (hthreshold : Unreachable options.normalize.failureThreshold)
    (history : List BreakerEvent) : Counting ((after options history).entry key) := by
  induction history using List.reverseRecOn with
  | nil => exact Counting.fresh
  | append_singleton history e ih =>
    rw [after, List.foldl_append]
    change Counting (((after options history).apply e).entry key)
    rw [entry_apply, after_options]
    split_ifs
    · exact ih.next hthreshold
    · exact ih

/-- A breaker whose threshold is `NaN` admits every request. -/
theorem nan_canRequest {options : CircuitBreakerOptions} (h : options.failureThreshold = .nan)
    (history : List BreakerEvent) (key : String) (now : ℤ) :
    ((after options history).canRequest key now).1 = true := by
  have hunreachable : Unreachable options.normalize.failureThreshold := by
    intro n _
    rw [CircuitBreakerOptions.normalize, h]
    rfl
  have hcounting : Counting ((after options history).entry key) :=
    counting_after hunreachable history
  simp only [canRequest, getOrCreateEntry_eq, hcounting.closed]

end CircuitBreaker

end WeisleyRpc.Numeric
