import Mathlib.Algebra.Order.Ring.Rat
import Mathlib.Data.Rat.Floor
import WeisleyRpc.JsValue
import WeisleyRpc.OrderedMap
import WeisleyRpc.ListChoices

/-!
# Load balancers

`discovery/`: the four balancers. A rotating balancer keeps one cursor for each service. A
draw is what `Math.random()` returns; the rounding of its product is not modelled.
-/

namespace WeisleyRpc.Discovery

structure Endpoint where
  host : String
  port : ℕ
  weight : Option JsNumber
  deriving DecidableEq, Repr

def Endpoint.address (endpoint : Endpoint) : String × ℕ := (endpoint.host, endpoint.port)

structure Draw where
  value : ℚ
  nonneg : 0 ≤ value
  lt_one : value < 1

def noEndpointsAvailable (serviceName : String) : JsError :=
  .rpcError s!"No endpoints available for service: {serviceName}" (.string "NO_ENDPOINT_AVAILABLE")

/-- The cursors of a rotating balancer. -/
abbrev Cursors := OrderedMap String ℕ

namespace Cursors

def cursor (cursors : Cursors) (serviceName : String) : ℕ := (cursors.get serviceName).getD 0

def advance (cursors : Cursors) (serviceName : String) : Cursors :=
  OrderedMap.set cursors serviceName (cursors.cursor serviceName + 1)

theorem cursor_advance (cursors : Cursors) (serviceName service : String) :
    (cursors.advance serviceName).cursor service =
      cursors.cursor service + if service = serviceName then 1 else 0 := by
  simp only [cursor, advance, OrderedMap.get_set]
  split_ifs with h
  · rw [h]
    rfl
  · rfl

end Cursors

structure RoundRobinLoadBalancer where
  cursors : Cursors

def RoundRobinLoadBalancer.select (balancer : RoundRobinLoadBalancer) (serviceName : String)
    (endpoints : List Endpoint) : Except JsError (Endpoint × RoundRobinLoadBalancer) :=
  if h : endpoints.length = 0 then .error (noEndpointsAvailable serviceName)
  else
    let cursor := balancer.cursors.cursor serviceName
    let endpoint :=
      endpoints.get ⟨cursor % endpoints.length, Nat.mod_lt _ (Nat.pos_of_ne_zero h)⟩
    .ok (endpoint, ⟨balancer.cursors.advance serviceName⟩)

structure WeightedRoundRobinLoadBalancer where
  cursors : Cursors

namespace WeightedRoundRobinLoadBalancer

def getWeight (endpoint : Endpoint) : ℕ :=
  match endpoint.weight.getD (.finite 1) with
  | .finite weight => (max 1 ⌊weight⌋).toNat
  | _ => 1

theorem getWeight_pos (endpoint : Endpoint) : 0 < getWeight endpoint := by
  unfold getWeight
  split
  · omega
  · exact Nat.one_pos

def expandWeightedEndpoints (endpoints : List Endpoint) : List Endpoint :=
  WeightedCycle.expand getWeight endpoints

theorem length_pos {endpoints : List Endpoint} (h : endpoints.length ≠ 0) :
    0 < (expandWeightedEndpoints endpoints).length := by
  have hle : endpoints.length ≤ WeightedCycle.total getWeight endpoints :=
    WeightedCycle.length_le_total fun endpoint _ => getWeight_pos endpoint
  rw [expandWeightedEndpoints, WeightedCycle.length_expand]
  omega

def select (balancer : WeightedRoundRobinLoadBalancer) (serviceName : String)
    (endpoints : List Endpoint) : Except JsError (Endpoint × WeightedRoundRobinLoadBalancer) :=
  if h : endpoints.length = 0 then .error (noEndpointsAvailable serviceName)
  else
    let weightedEndpoints := expandWeightedEndpoints endpoints
    let cursor := balancer.cursors.cursor serviceName
    let endpoint :=
      weightedEndpoints.get ⟨cursor % weightedEndpoints.length, Nat.mod_lt _ (length_pos h)⟩
    .ok (endpoint, ⟨balancer.cursors.advance serviceName⟩)

end WeightedRoundRobinLoadBalancer

namespace RandomLoadBalancer

def index (endpoints : List Endpoint) (random : Draw) : ℕ :=
  ⌊random.value * (endpoints.length : ℚ)⌋.toNat

theorem index_lt {endpoints : List Endpoint} (h : endpoints.length ≠ 0) (random : Draw) :
    index endpoints random < endpoints.length := by
  have hpos : (0 : ℚ) < (endpoints.length : ℚ) := by exact_mod_cast Nat.pos_of_ne_zero h
  have hlt : random.value * (endpoints.length : ℚ) < ((endpoints.length : ℤ) : ℚ) := by
    have hmul := mul_lt_mul_of_pos_right random.lt_one hpos
    rw [one_mul] at hmul
    exact_mod_cast hmul
  have hfloor := Int.floor_lt.2 hlt
  unfold index
  omega

def select (serviceName : String) (endpoints : List Endpoint) (random : Draw) :
    Except JsError Endpoint :=
  if h : endpoints.length = 0 then .error (noEndpointsAvailable serviceName)
  else .ok (endpoints.get ⟨index endpoints random, index_lt h random⟩)

end RandomLoadBalancer

structure LeastActiveLoadBalancer where
  activeCounts : OrderedMap String ℕ

namespace LeastActiveLoadBalancer

def getEndpointKey (endpoint : Endpoint) : String := s!"{endpoint.host}:{endpoint.port}"

def getActiveCount (balancer : LeastActiveLoadBalancer) (endpoint : Endpoint) : ℕ :=
  (balancer.activeCounts.get (getEndpointKey endpoint)).getD 0

def setActiveCount (balancer : LeastActiveLoadBalancer) (endpoint : Endpoint)
    (count : JsNumber) : LeastActiveLoadBalancer :=
  let normalizedCount := match count with
    | .finite count => (max 0 ⌊count⌋).toNat
    | _ => 0
  ⟨balancer.activeCounts.set (getEndpointKey endpoint) normalizedCount⟩

/-- One round of the loop over the endpoints behind the first. -/
def lessActive (balancer : LeastActiveLoadBalancer) (best : Endpoint × ℕ) (endpoint : Endpoint) :
    Endpoint × ℕ :=
  let (_, selectedActiveCount) := best
  let activeCount := balancer.getActiveCount endpoint
  if activeCount < selectedActiveCount then (endpoint, activeCount) else best

def select (balancer : LeastActiveLoadBalancer) (serviceName : String)
    (endpoints : List Endpoint) : Except JsError Endpoint :=
  match endpoints with
  | [] => .error (noEndpointsAvailable serviceName)
  | first :: rest =>
    .ok (rest.foldl balancer.lessActive (first, balancer.getActiveCount first)).1

end LeastActiveLoadBalancer

inductive LoadBalancer
  | roundRobin (balancer : RoundRobinLoadBalancer)
  | weightedRoundRobin (balancer : WeightedRoundRobinLoadBalancer)
  | random
  | leastActive (balancer : LeastActiveLoadBalancer)

namespace LoadBalancer

def select (balancer : LoadBalancer) (serviceName : String) (endpoints : List Endpoint)
    (random : Draw) : Except JsError (Endpoint × LoadBalancer) :=
  match balancer with
  | .roundRobin b =>
    (b.select serviceName endpoints).map fun (endpoint, b) => (endpoint, .roundRobin b)
  | .weightedRoundRobin b =>
    (b.select serviceName endpoints).map fun (endpoint, b) => (endpoint, .weightedRoundRobin b)
  | .random =>
    (RandomLoadBalancer.select serviceName endpoints random).map fun endpoint =>
      (endpoint, .random)
  | .leastActive b =>
    (b.select serviceName endpoints).map fun endpoint => (endpoint, .leastActive b)

/-- Only the least active balancer is told about active requests. -/
def setActiveCount (balancer : LoadBalancer) (endpoint : Endpoint) (count : JsNumber) :
    LoadBalancer :=
  match balancer with
  | .leastActive b => .leastActive (b.setActiveCount endpoint count)
  | balancer => balancer

/-- The position of the endpoint that is selected. -/
def Picks (balancer : LoadBalancer) (serviceName : String) (endpoints : List Endpoint)
    (random : Draw) (k : ℕ) : Prop :=
  match balancer with
  | .roundRobin b => b.cursors.cursor serviceName % endpoints.length = k
  | .weightedRoundRobin b =>
    WeightedCycle.InBlock WeightedRoundRobinLoadBalancer.getWeight endpoints k
      (b.cursors.cursor serviceName %
        WeightedCycle.total WeightedRoundRobinLoadBalancer.getWeight endpoints)
  | .random => RandomLoadBalancer.index endpoints random = k
  | .leastActive b => ∃ endpoint, FirstLeast b.getActiveCount endpoints k endpoint

/-- What a selection for a service leaves behind. -/
def advance (balancer : LoadBalancer) (serviceName : String) : LoadBalancer :=
  match balancer with
  | .roundRobin b => .roundRobin ⟨b.cursors.advance serviceName⟩
  | .weightedRoundRobin b => .weightedRoundRobin ⟨b.cursors.advance serviceName⟩
  | .random => .random
  | .leastActive b => .leastActive b

section Select
variable (balancer : LoadBalancer) (serviceName : String) {endpoints : List Endpoint}
  (random : Draw)

theorem total_pos (h : endpoints ≠ []) :
    0 < WeightedCycle.total WeightedRoundRobinLoadBalancer.getWeight endpoints := by
  have hlen := WeightedRoundRobinLoadBalancer.length_pos
    (fun hlen => h (List.length_eq_zero_iff.1 hlen))
  rw [WeightedRoundRobinLoadBalancer.expandWeightedEndpoints, WeightedCycle.length_expand] at hlen
  exact hlen

theorem select_nil : balancer.select serviceName [] random =
    .error (noEndpointsAvailable serviceName) := by
  cases balancer <;> rfl

theorem select_roundRobin (b : RoundRobinLoadBalancer) (h : endpoints ≠ []) :
    ∃ k endpoint, (LoadBalancer.roundRobin b).Picks serviceName endpoints random k ∧
      endpoints[k]? = some endpoint ∧
      b.select serviceName endpoints = .ok (endpoint, ⟨b.cursors.advance serviceName⟩) := by
  have hlen : endpoints.length ≠ 0 := fun hlen => h (List.length_eq_zero_iff.1 hlen)
  have hlt : b.cursors.cursor serviceName % endpoints.length < endpoints.length :=
    Nat.mod_lt _ (Nat.pos_of_ne_zero hlen)
  refine ⟨_, endpoints[b.cursors.cursor serviceName % endpoints.length], rfl,
    List.getElem?_eq_getElem hlt, ?_⟩
  rw [RoundRobinLoadBalancer.select, dif_neg hlen]
  rfl

theorem select_weightedRoundRobin (b : WeightedRoundRobinLoadBalancer) (h : endpoints ≠ []) :
    ∃ k endpoint, (LoadBalancer.weightedRoundRobin b).Picks serviceName endpoints random k ∧
      endpoints[k]? = some endpoint ∧
      b.select serviceName endpoints = .ok (endpoint, ⟨b.cursors.advance serviceName⟩) := by
  have hlen : endpoints.length ≠ 0 := fun hlen => h (List.length_eq_zero_iff.1 hlen)
  set weight := WeightedRoundRobinLoadBalancer.getWeight
  set position := b.cursors.cursor serviceName % WeightedCycle.total weight endpoints
  have hlt : position < WeightedCycle.total weight endpoints := Nat.mod_lt _ (total_pos h)
  obtain ⟨endpoint, hget⟩ : ∃ endpoint,
      (WeightedCycle.expand weight endpoints)[position]? = some endpoint :=
    ⟨_, List.getElem?_eq_getElem (by rw [WeightedCycle.length_expand]; exact hlt)⟩
  refine ⟨_, endpoint, (WeightedCycle.block_eq_iff hlt).1 rfl,
    (WeightedCycle.getElem?_expand hlt).symm.trans hget, ?_⟩
  obtain ⟨_, hval⟩ := List.getElem?_eq_some_iff.1 hget
  rw [WeightedRoundRobinLoadBalancer.select, dif_neg hlen]
  simp only [WeightedRoundRobinLoadBalancer.expandWeightedEndpoints, List.get_eq_getElem,
    WeightedCycle.length_expand]
  rw [← hval]

theorem select_random (h : endpoints ≠ []) :
    ∃ k endpoint, LoadBalancer.random.Picks serviceName endpoints random k ∧
      endpoints[k]? = some endpoint ∧
      RandomLoadBalancer.select serviceName endpoints random = .ok endpoint := by
  have hlen : endpoints.length ≠ 0 := fun hlen => h (List.length_eq_zero_iff.1 hlen)
  refine ⟨_, _, rfl, List.getElem?_eq_getElem (RandomLoadBalancer.index_lt hlen random), ?_⟩
  rw [RandomLoadBalancer.select, dif_neg hlen]
  rfl

theorem select_leastActive (b : LeastActiveLoadBalancer) (h : endpoints ≠ []) :
    ∃ k endpoint, (LoadBalancer.leastActive b).Picks serviceName endpoints random k ∧
      endpoints[k]? = some endpoint ∧ b.select serviceName endpoints = .ok endpoint := by
  cases endpoints with
  | nil => exact absurd rfl h
  | cons first rest =>
    obtain ⟨k, endpoint, hleast, hfold⟩ := FirstLeast.scan b.getActiveCount first rest
    refine ⟨k, endpoint, ⟨endpoint, hleast⟩, hleast.get, ?_⟩
    exact congrArg (fun best : Endpoint × ℕ => Except.ok best.1) hfold

/-- A balancer with endpoints to choose from selects the one it picks. -/
theorem select_spec (h : endpoints ≠ []) :
    ∃ k endpoint, balancer.Picks serviceName endpoints random k ∧ endpoints[k]? = some endpoint ∧
      balancer.select serviceName endpoints random =
        .ok (endpoint, balancer.advance serviceName) := by
  cases balancer with
  | roundRobin b =>
    obtain ⟨k, endpoint, hk, hget, hsel⟩ := select_roundRobin serviceName random b h
    exact ⟨k, endpoint, hk, hget, by rw [select, hsel]; rfl⟩
  | weightedRoundRobin b =>
    obtain ⟨k, endpoint, hk, hget, hsel⟩ := select_weightedRoundRobin serviceName random b h
    exact ⟨k, endpoint, hk, hget, by rw [select, hsel]; rfl⟩
  | random =>
    obtain ⟨k, endpoint, hk, hget, hsel⟩ := select_random serviceName random h
    exact ⟨k, endpoint, hk, hget, by rw [select, hsel]; rfl⟩
  | leastActive b =>
    obtain ⟨k, endpoint, hk, hget, hsel⟩ := select_leastActive serviceName random b h
    exact ⟨k, endpoint, hk, hget, by rw [select, hsel]; rfl⟩

theorem Picks.unique {balancer : LoadBalancer} {serviceName : String} {random : Draw} {k j : ℕ}
    (h : endpoints ≠ []) (hk : balancer.Picks serviceName endpoints random k)
    (hj : balancer.Picks serviceName endpoints random j) : k = j := by
  cases balancer with
  | roundRobin b => exact hk.symm.trans hj
  | weightedRoundRobin b =>
    have hlt := Nat.mod_lt (b.cursors.cursor serviceName) (total_pos h)
    exact ((WeightedCycle.block_eq_iff hlt).2 hk).symm.trans ((WeightedCycle.block_eq_iff hlt).2 hj)
  | random => exact hk.symm.trans hj
  | leastActive b =>
    obtain ⟨endpoint, hk⟩ := hk
    obtain ⟨endpoint', hj⟩ := hj
    exact hk.unique hj

end Select

end LoadBalancer

end WeisleyRpc.Discovery
