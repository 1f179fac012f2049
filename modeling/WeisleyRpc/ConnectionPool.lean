import Mathlib.Algebra.Order.Floor.Semiring
import Mathlib.Data.Rat.Floor
import WeisleyRpc.CodecPeers
import WeisleyRpc.Connection
import WeisleyRpc.ListChoices

/-!
# The connection pool

`connection-pool.ts`: connections are created until their number reaches the limit, then
they are handed out in turn. The limit is compared as the number it is, so a fractional one
lets the pool grow to the next whole number.
-/

/-- `length < x`. -/
def JsNumber.exceeds (length : ℕ) : JsNumber → Bool
  | .nan | .negInfinity => false
  | .infinity => true
  | .finite q => (length : ℚ) < q

/-- `x <= 0`. -/
def JsNumber.nonpositive : JsNumber → Bool
  | .nan | .infinity => false
  | .negInfinity => true
  | .finite q => q ≤ 0

namespace WeisleyRpc.Client

/-- A connection object, known by how many were created before it. -/
abbrev ConnectionRef := ℕ

structure RpcConnectionPoolOptions where
  maxConnections : JsNumber
  connectionOptions : RpcConnectionOptions

structure RpcConnectionPool where
  options : RpcConnectionPoolOptions
  connections : List ConnectionRef
  nextIndex : ℕ
  created : ConnectionRef

namespace RpcConnectionPool

def new (options : RpcConnectionPoolOptions) : Except JsError RpcConnectionPool :=
  if options.maxConnections.nonpositive then
    .error (.rangeError "maxConnections must be greater than 0")
  else .ok ⟨options, [], 0, 0⟩

/-- The constructor of `RpcConnection` throws when that of its codec does. -/
def createConnection (p : RpcConnectionPool) : Except JsError ConnectionRef := do
  let _ ← RpcCodec.new p.options.connectionOptions.codecOptions
  return p.created

def noConnection : JsError := .platform "Error" "Connection pool has no available connection"

def getConnection (p : RpcConnectionPool) : Except JsError (ConnectionRef × RpcConnectionPool) :=
  if p.options.maxConnections.exceeds p.connections.length then do
    let connection ← p.createConnection
    return (connection,
      { p with connections := p.connections ++ [connection], created := p.created + 1 })
  else
    match p.connections[p.nextIndex]? with
    | none => .error noConnection
    | some connection =>
      .ok (connection, { p with nextIndex := (p.nextIndex + 1) % p.connections.length })

/-- The pool after a call, which leaves it as it was when it throws. -/
def step (p : RpcConnectionPool) : RpcConnectionPool :=
  match p.getConnection with
  | .ok (_, p') => p'
  | .error _ => p

/-- The pool after so many calls. -/
def after (p : RpcConnectionPool) (calls : ℕ) : RpcConnectionPool := step^[calls] p

/-- What the call of this number, from zero, ends in. -/
def returned (p : RpcConnectionPool) (call : ℕ) : Except JsError ConnectionRef :=
  (p.after call).getConnection.map Prod.fst

end RpcConnectionPool

/-- A pool of at most `max 1 q` connections that are handed out in turn. -/
structure Rotates (p : RpcConnectionPool) (q : ℚ) : Prop where
  returns : ∀ k, ∃ c, p.returned k = .ok c
  bounded : ∀ k, ((p.after k).connections.length : ℚ) ≤ max 1 q
  kept : ∀ k l, k ≤ l → (p.after k).connections <+: (p.after l).connections
  rotation : ∃ n, 0 < n ∧ ∀ k, n ≤ k → (p.after k).connections.length = n ∧
    (p.after k).connections.Nodup ∧
    (∃ c, (p.after k).connections[k % n]? = some c ∧ p.returned k = .ok c) ∧
    ((List.range n).map fun i => p.returned (k + i)).Perm ((p.after k).connections.map .ok)

/-- The body limits are left out or are numbers that a codec takes. -/
def RpcConnectionOptions.LimitsValid (o : RpcConnectionOptions) : Prop :=
  (∀ v ∈ o.maxBodyLength, ∃ q, v = .finite q ∧ 0 < q) ∧
    ∀ v ∈ o.maxDecompressedBodyLength, ∃ q, v = .finite q ∧ 0 < q

theorem new_isOk_iff (o : RpcConnectionOptions) :
    (∃ codec, RpcCodec.new o.codecOptions = .ok codec) ↔ o.LimitsValid := by
  simp only [RpcCodec.new, Except.bind_eq_ok_iff]
  unfold RpcConnectionOptions.LimitsValid
  constructor
  · rintro ⟨_, n, hn, m, hm, -⟩
    exact ⟨normalizeLimit_isOk_iff.1 ⟨n, hn⟩, normalizeLimit_isOk_iff.1 ⟨m, hm⟩⟩
  · rintro ⟨hbody, hdecompressed⟩
    obtain ⟨n, hn⟩ : ∃ n, normalizeLimit o.maxBodyLength MAX_PACKET_LENGTH = .ok n :=
      normalizeLimit_isOk_iff.2 hbody
    obtain ⟨m, hm⟩ : ∃ m, normalizeLimit o.maxDecompressedBodyLength n = .ok m :=
      normalizeLimit_isOk_iff.2 hdecompressed
    exact ⟨_, n, hn, m, hm, rfl⟩

namespace RpcConnectionPool

/-- How far a pool with a finite limit grows. -/
def capacity (q : ℚ) : ℕ := ⌈q⌉₊

theorem exceeds_iff (length : ℕ) (q : ℚ) :
    JsNumber.exceeds length (.finite q) = true ↔ length < capacity q := by
  simp only [JsNumber.exceeds, decide_eq_true_eq, capacity, Nat.lt_ceil]

/-- The pool in its growth, and later in its rotation, after `k` calls. -/
structure Stands (options : RpcConnectionPoolOptions) (n k : ℕ) (p : RpcConnectionPool) : Prop where
  options_eq : p.options = options
  connections : p.connections = List.range (min k n)
  created : p.created = min k n
  nextIndex : p.nextIndex = if k ≤ n then 0 else k % n

section Runs
variable {options : RpcConnectionPoolOptions} {q : ℚ} {p : RpcConnectionPool} {k : ℕ}

theorem new_eq_ok (h : new options = .ok p) (hq : options.maxConnections = .finite q) :
    0 < q ∧ Stands options (capacity q) 0 p := by
  unfold new at h
  rw [hq] at h
  split_ifs at h with hpos
  obtain rfl := Except.ok.inj h
  exact ⟨by simpa [JsNumber.nonpositive] using hpos, rfl, by simp, by simp, by simp⟩

theorem getConnection_growing (hq : options.maxConnections = .finite q)
    (hnew : ∃ codec, RpcCodec.new options.connectionOptions.codecOptions = .ok codec)
    (h : Stands options (capacity q) k p) (hk : k < capacity q) :
    ∃ p', p.getConnection = .ok (k, p') ∧ Stands options (capacity q) (k + 1) p' := by
  obtain ⟨codec, hcodec⟩ := hnew
  have hmin : min k (capacity q) = k := Nat.min_eq_left hk.le
  have hlength : p.connections.length = k := by rw [h.connections, List.length_range, hmin]
  have hcreated : p.created = k := h.created.trans hmin
  have hcreate : p.createConnection = .ok k := by
    unfold createConnection
    rw [h.options_eq, hcodec, hcreated]
    rfl
  unfold getConnection
  rw [h.options_eq, hq, hlength, if_pos ((exceeds_iff k q).2 hk), hcreate]
  refine ⟨_, rfl, rfl, ?_, ?_, ?_⟩
  · have hnext : min (k + 1) (capacity q) = k + 1 := Nat.min_eq_left hk
    rw [h.connections, hmin, hnext, List.range_succ]
  · have hnext : min (k + 1) (capacity q) = k + 1 := Nat.min_eq_left hk
    rw [hnext, hcreated]
  · rw [if_pos (show k + 1 ≤ capacity q from hk)]
    exact h.nextIndex.trans (if_pos hk.le)

theorem getConnection_full (hq : options.maxConnections = .finite q) (hpos : 0 < capacity q)
    (h : Stands options (capacity q) k p) (hk : capacity q ≤ k) :
    ∃ p', p.getConnection = .ok (k % capacity q, p') ∧ Stands options (capacity q) (k + 1) p' := by
  have hmin : min k (capacity q) = capacity q := Nat.min_eq_right hk
  have hlength : p.connections.length = capacity q := by
    rw [h.connections, List.length_range, hmin]
  have hindex : p.nextIndex = k % capacity q := by
    rw [h.nextIndex]
    split_ifs with hle
    · rw [Nat.le_antisymm hle hk, Nat.mod_self]
    · rfl
  have hlookup : p.connections[p.nextIndex]? = some (k % capacity q) := by
    rw [h.connections, hmin, hindex, List.getElem?_range (Nat.mod_lt k hpos)]
  unfold getConnection
  rw [h.options_eq, hq, hlength, if_neg (by rw [exceeds_iff]; exact Nat.lt_irrefl _), hlookup]
  refine ⟨_, rfl, rfl, ?_, ?_, ?_⟩
  · have hnext : min (k + 1) (capacity q) = capacity q := Nat.min_eq_right (hk.trans k.le_succ)
    rw [hnext, ← hmin]
    exact h.connections
  · have hnext : min (k + 1) (capacity q) = capacity q := Nat.min_eq_right (hk.trans k.le_succ)
    rw [hnext, ← hmin]
    exact h.created
  · rw [if_neg (by omega)]
    change (p.nextIndex + 1) % capacity q = _
    rw [hindex, Nat.mod_add_mod]

theorem getConnection_stands (hq : options.maxConnections = .finite q) (hpos : 0 < capacity q)
    (hnew : ∃ codec, RpcCodec.new options.connectionOptions.codecOptions = .ok codec)
    (h : Stands options (capacity q) k p) :
    ∃ p', p.getConnection = .ok (k % capacity q, p') ∧ Stands options (capacity q) (k + 1) p' := by
  by_cases hk : k < capacity q
  · rw [Nat.mod_eq_of_lt hk]
    exact getConnection_growing hq hnew h hk
  · exact getConnection_full hq hpos h (Nat.not_lt.mp hk)

theorem after_succ (p : RpcConnectionPool) (k : ℕ) : p.after (k + 1) = (p.after k).step :=
  Function.iterate_succ_apply' step k p

theorem after_stands (hq : options.maxConnections = .finite q) (hpos : 0 < capacity q)
    (hnew : ∃ codec, RpcCodec.new options.connectionOptions.codecOptions = .ok codec)
    (h : Stands options (capacity q) 0 p) (k : ℕ) :
    Stands options (capacity q) k (p.after k) ∧ p.returned k = .ok (k % capacity q) := by
  have hstands : Stands options (capacity q) k (p.after k) := by
    induction k with
    | zero => exact h
    | succ k ih =>
      obtain ⟨p', hget, hnext⟩ := getConnection_stands hq hpos hnew ih
      rw [after_succ, step, hget]
      exact hnext
  obtain ⟨p', hget, -⟩ := getConnection_stands hq hpos hnew hstands
  exact ⟨hstands, by rw [returned, hget]; rfl⟩

end Runs

theorem Stands.connections_full {options : RpcConnectionPoolOptions} {n k : ℕ}
    {p : RpcConnectionPool} (h : Stands options n k p) (hk : n ≤ k) :
    p.connections = List.range n := by rw [h.connections, Nat.min_eq_right hk]

/-- A pool whose codec options are accepted rotates over its capacity. -/
theorem rotates_of_le {options : RpcConnectionPoolOptions} {p : RpcConnectionPool} {q : ℚ}
    (hnew : new options = .ok p) (hq : options.maxConnections = .finite q)
    (hcodec : ∃ codec, RpcCodec.new options.connectionOptions.codecOptions = .ok codec)
    (hle : (capacity q : ℚ) ≤ max 1 q) : Rotates p q := by
  obtain ⟨hpos, hstart⟩ := new_eq_ok hnew hq
  have hcap : 0 < capacity q := Nat.ceil_pos.2 hpos
  have hall := after_stands hq hcap hcodec hstart
  refine ⟨fun k => ⟨_, (hall k).2⟩, ?_, ?_, capacity q, hcap, ?_⟩
  · intro k
    rw [(hall k).1.connections, List.length_range]
    refine le_trans ?_ hle
    exact_mod_cast Nat.min_le_right k (capacity q)
  · intro k l hkl
    rw [(hall k).1.connections, (hall l).1.connections]
    have hmin : min k (capacity q) ≤ min l (capacity q) := min_le_min_right _ hkl
    rw [← Nat.add_sub_cancel' hmin, List.range_add]
    exact List.prefix_append _ _
  · intro k hk
    rw [(hall k).1.connections_full hk]
    refine ⟨List.length_range, List.nodup_range, ?_, ?_⟩
    · exact ⟨_, List.getElem?_range (Nat.mod_lt k hcap), (hall k).2⟩
    · have hreturned : (fun i => p.returned (k + i)) =
          Except.ok ∘ fun i => (k + i) % capacity q := by
        funext i
        exact (hall (k + i)).2
      rw [hreturned, ← List.map_map]
      exact (WeightedCycle.range_rotate_perm _ k).map _

theorem capacity_le_iff {q : ℚ} (hq : 0 < q) :
    (capacity q : ℚ) ≤ max 1 q ↔ q ≤ 1 ∨ ∃ n : ℕ, q = n := by
  constructor
  · intro h
    rcases le_max_iff.1 h with hone | hle
    · exact Or.inl ((Nat.le_ceil q).trans hone)
    · exact Or.inr ⟨capacity q, le_antisymm (Nat.le_ceil q) hle⟩
  · rintro (hone | ⟨n, rfl⟩)
    · refine le_max_of_le_left ?_
      exact_mod_cast Nat.ceil_le.2 (by exact_mod_cast hone)
    · rw [capacity, Nat.ceil_natCast]
      exact le_max_right _ _

end RpcConnectionPool

/-- A pool with a finite limit behaves as one of that many connections exactly when the limit
is a whole number or at most one, and its codec takes the body limits. -/
theorem pool_rotates_iff (options : RpcConnectionPoolOptions) (p : RpcConnectionPool) (q : ℚ)
    (hnew : RpcConnectionPool.new options = .ok p) (hq : options.maxConnections = .finite q) :
    Rotates p q ↔
      (q ≤ 1 ∨ ∃ n : ℕ, q = n) ∧ options.connectionOptions.LimitsValid := by
  obtain ⟨hpos, hstart⟩ := RpcConnectionPool.new_eq_ok hnew hq
  have hcap : 0 < RpcConnectionPool.capacity q := Nat.ceil_pos.2 hpos
  rw [← new_isOk_iff, ← RpcConnectionPool.capacity_le_iff hpos]
  constructor
  · intro h
    have hcodec : ∃ codec, RpcCodec.new options.connectionOptions.codecOptions = .ok codec := by
      obtain ⟨c, hc⟩ := h.returns 0
      unfold RpcConnectionPool.new at hnew
      split_ifs at hnew
      obtain rfl := Except.ok.inj hnew
      cases hok : RpcCodec.new options.connectionOptions.codecOptions with
      | ok codec => exact ⟨codec, rfl⟩
      | error e =>
        have hexceeds := (RpcConnectionPool.exceeds_iff 0 q).2 hcap
        simp [RpcConnectionPool.returned, RpcConnectionPool.after, RpcConnectionPool.getConnection,
          RpcConnectionPool.createConnection, hq, hexceeds, hok, bind, Except.bind, Except.map] at hc
    refine ⟨?_, hcodec⟩
    have hstands := (RpcConnectionPool.after_stands hq hcap hcodec hstart
      (RpcConnectionPool.capacity q)).1
    have hbound := h.bounded (RpcConnectionPool.capacity q)
    rwa [hstands.connections_full le_rfl, List.length_range] at hbound
  · rintro ⟨hle, hcodec⟩
    exact RpcConnectionPool.rotates_of_le hnew hq hcodec hle

def samplePoolOptions (maxConnections : JsNumber) : RpcConnectionPoolOptions where
  maxConnections := maxConnections
  connectionOptions := {
    timeoutMs := .ofNat 1000
    serializer := .ofTable sampleTable
    compression := none
    maxBodyLength := none
    maxDecompressedBodyLength := none
    heartbeatIntervalMs := none
    heartbeatTimeoutMs := none
    reconnect := none
    reconnectInitialDelayMs := none
    reconnectMaxDelayMs := none }

theorem new_samplePool {q : ℚ} (hq : 0 < q) :
    RpcConnectionPool.new (samplePoolOptions (.finite q)) =
      .ok ⟨samplePoolOptions (.finite q), [], 0, 0⟩ := by
  unfold RpcConnectionPool.new samplePoolOptions
  rw [if_neg (by simpa [JsNumber.nonpositive] using hq)]

theorem sample_pool_rotates : Rotates ⟨samplePoolOptions (.finite 2), [], 0, 0⟩ 2 :=
  (pool_rotates_iff (samplePoolOptions (.finite 2)) _ 2 (new_samplePool (by decide)) rfl).2
    ⟨Or.inr ⟨2, rfl⟩, by simp [samplePoolOptions, RpcConnectionOptions.LimitsValid]⟩

/-- Two and a half connections are three. -/
theorem fractional_limit_exceeded : ¬ ∀ options p q, RpcConnectionPool.new options = .ok p →
    options.maxConnections = .finite q → Rotates p q := by
  intro h
  have hbound := (h _ _ (5 / 2) (new_samplePool (by decide +kernel)) rfl).bounded 3
  have hlength : (RpcConnectionPool.after ⟨samplePoolOptions (.finite (5 / 2)), [], 0, 0⟩
      3).connections.length = 3 := by decide +kernel
  rw [hlength] at hbound
  revert hbound
  decide +kernel

end WeisleyRpc.Client
