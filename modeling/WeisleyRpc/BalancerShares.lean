import WeisleyRpc.BalancerHistories

/-!
# The shares of the rotating balancers

Both round robin balancers go round a weighted cycle, the plain one with weight one. A
window of as many selections as the cycle is long therefore visits every copy once.
-/

namespace WeisleyRpc.Discovery

/-- The weight that an endpoint is listed with. -/
def Endpoint.share (endpoint : Endpoint) : ℕ :=
  match endpoint.weight with
  | some (.finite weight) => (max 1 ⌊weight⌋).toNat
  | _ => 1

theorem getWeight_eq_share : WeightedRoundRobinLoadBalancer.getWeight = Endpoint.share := by
  funext endpoint
  unfold WeightedRoundRobinLoadBalancer.getWeight Endpoint.share
  cases endpoint.weight with
  | none => decide
  | some weight => cases weight <;> rfl

/-- What a rotating balancer goes round by. -/
structure Rotation where
  weight : Endpoint → ℕ
  cursors : Cursors

def Rotation.position (r : Rotation) (serviceName : String) (endpoints : List Endpoint) : ℕ :=
  WeightedCycle.block r.weight endpoints
    (r.cursors.cursor serviceName % WeightedCycle.total r.weight endpoints)

namespace LoadBalancer

def rotation : LoadBalancer → Option Rotation
  | .roundRobin b => some ⟨fun _ => 1, b.cursors⟩
  | .weightedRoundRobin b => some ⟨WeightedRoundRobinLoadBalancer.getWeight, b.cursors⟩
  | .random => none
  | .leastActive _ => none

def cursor (balancer : LoadBalancer) (serviceName : String) : Option ℕ :=
  balancer.rotation.map fun r => r.cursors.cursor serviceName

/-- The position that a selection for the service falls on. -/
def turn (serviceName : String) (balancer : LoadBalancer) : BalancerEvent → Option ℕ
  | .select s =>
    if s.serviceName = serviceName ∧ s.endpoints ≠ [] then
      balancer.rotation.map fun r => r.position serviceName s.endpoints
    else none
  | .setActiveCount .. => none

def turns (balancer : LoadBalancer) (serviceName : String) (history : List BalancerEvent) :
    List ℕ := Histories.outputs apply (turn serviceName) balancer history

variable {balancer : LoadBalancer} {r : Rotation} {serviceName : String}
  {endpoints : List Endpoint} {history : List BalancerEvent}

theorem rotation_picks (hr : balancer.rotation = some r) (h : endpoints ≠ []) (random : Draw) :
    balancer.Picks serviceName endpoints random (r.position serviceName endpoints) := by
  cases balancer with
  | roundRobin b =>
    obtain rfl := Option.some.inj hr
    have hlt : b.cursors.cursor serviceName % endpoints.length < endpoints.length :=
      Nat.mod_lt _ (List.length_pos_iff.2 h)
    rw [Picks, Rotation.position, WeightedCycle.total_one, WeightedCycle.block_one hlt]
  | weightedRoundRobin b =>
    obtain rfl := Option.some.inj hr
    exact (WeightedCycle.block_eq_iff (Nat.mod_lt _ (total_pos h))).1 rfl
  | random => cases hr
  | leastActive b => cases hr

/-- A selection returns the endpoint at its turn. -/
theorem select_turn {s : Selection} {k : ℕ}
    (h : turn serviceName balancer (.select s) = some k) :
    ∃ endpoint, s.endpoints[k]? = some endpoint ∧
      balancer.select s.serviceName s.endpoints s.random =
        .ok (endpoint, balancer.advance s.serviceName) := by
  rw [turn] at h
  split_ifs at h with hs
  obtain ⟨hservice, hne⟩ := hs
  obtain ⟨r, hr, rfl⟩ := Option.map_eq_some_iff.1 h
  obtain ⟨j, endpoint, hj, hget, hsel⟩ := balancer.select_spec s.serviceName s.random hne
  rw [← hservice, (rotation_picks hr hne s.random).unique hne hj]
  exact ⟨endpoint, hget, hsel⟩

theorem rotation_apply (hr : balancer.rotation = some r) (e : BalancerEvent) :
    (balancer.apply e).rotation = some { r with cursors := r.cursors.told e } := by
  cases e with
  | select s =>
    rw [apply_select, Cursors.told]
    cases balancer with
    | roundRobin b =>
      obtain rfl := Option.some.inj hr
      split_ifs <;> rfl
    | weightedRoundRobin b =>
      obtain rfl := Option.some.inj hr
      split_ifs <;> rfl
    | random => cases hr
    | leastActive b => cases hr
  | setActiveCount endpoint count =>
    cases balancer with
    | roundRobin b => exact hr
    | weightedRoundRobin b => exact hr
    | random => cases hr
    | leastActive b => cases hr

/-- The turns of a service go on from its cursor, whatever is selected for others. -/
theorem turns_eq (hr : balancer.rotation = some r)
    (hfixed : ∀ s, .select s ∈ history → s.serviceName = serviceName → s.endpoints = endpoints) :
    balancer.turns serviceName history =
      (List.range (selections serviceName history)).map fun i =>
        WeightedCycle.block r.weight endpoints
          ((r.cursors.cursor serviceName + i) % WeightedCycle.total r.weight endpoints) := by
  induction history generalizing balancer r with
  | nil => rfl
  | cons e history ih =>
    have hrest := ih (rotation_apply hr e) fun s hs => hfixed s (List.mem_cons_of_mem _ hs)
    have hturns : balancer.turns serviceName (e :: history) =
        (turn serviceName balancer e).toList ++ (balancer.apply e).turns serviceName history := rfl
    have hcount : selections serviceName (e :: history) =
        selections serviceName history + if e.selectsFor serviceName then 1 else 0 :=
      List.countP_cons
    rw [hturns, hrest, hcount]
    simp only [Cursors.cursor_told]
    by_cases he : e.selectsFor serviceName = true
    · cases e with
      | setActiveCount endpoint count => cases he
      | select s =>
        obtain ⟨hservice, hne⟩ : s.serviceName = serviceName ∧ s.endpoints ≠ [] := by
          simpa [BalancerEvent.selectsFor] using he
        have hlist := hfixed s List.mem_cons_self hservice
        have hturn : turn serviceName balancer (.select s) =
            some (r.position serviceName endpoints) := by
          rw [turn, if_pos ⟨hservice, hne⟩, hr, hlist]
          rfl
        rw [hturn, if_pos he, List.range_succ_eq_map, List.map_cons, List.map_map]
        refine congrArg₂ List.cons rfl (List.map_congr_left ?_)
        intro i _
        simp only [Function.comp]
        rw [Nat.add_assoc, Nat.add_comm 1 i]
    · have hturn : turn serviceName balancer e = none := by
        cases e with
        | setActiveCount endpoint count => rfl
        | select s =>
          rw [turn, if_neg]
          simpa [BalancerEvent.selectsFor] using he
      rw [hturn, if_neg he]
      rfl

theorem cursor_apply (s : Selection) {service : String} (h : service ≠ s.serviceName) :
    (balancer.apply (.select s)).cursor service = balancer.cursor service := by
  cases hr : balancer.rotation with
  | none =>
    cases balancer with
    | roundRobin b => cases hr
    | weightedRoundRobin b => cases hr
    | random => rw [apply_select]; split_ifs <;> rfl
    | leastActive b => rw [apply_select]; split_ifs <;> rfl
  | some r =>
    rw [cursor, cursor, rotation_apply hr, hr, Option.map_some, Option.map_some,
      Cursors.cursor_told]
    simp [BalancerEvent.selectsFor, h.symm]

theorem count_turns (hr : balancer.rotation = some r)
    (hfixed : ∀ s, .select s ∈ history → s.serviceName = serviceName → s.endpoints = endpoints)
    (hround : selections serviceName history = WeightedCycle.total r.weight endpoints)
    {k : ℕ} (hk : k < endpoints.length) :
    (balancer.turns serviceName history).count k = r.weight endpoints[k] := by
  rw [turns_eq hr hfixed, hround]
  exact WeightedCycle.count_turns _ hk

/-- A window of one round, beginning anywhere, gives every position its share. -/
theorem proportional_share {window : List BalancerEvent}
    (hfixed : ∀ s, .select s ∈ window → s.serviceName = serviceName → s.endpoints = endpoints) :
    (∀ b : RoundRobinLoadBalancer, selections serviceName window = endpoints.length →
      ∀ k < endpoints.length, ((roundRobin b).turns serviceName window).count k = 1) ∧
    (∀ b : WeightedRoundRobinLoadBalancer,
      selections serviceName window = WeightedCycle.total Endpoint.share endpoints →
      ∀ k (hk : k < endpoints.length),
        ((weightedRoundRobin b).turns serviceName window).count k = endpoints[k].share) ∧
    (∀ (balancer : LoadBalancer) (s : Selection) (k : ℕ),
      balancer.turn serviceName (.select s) = some k →
      ∃ endpoint, s.endpoints[k]? = some endpoint ∧
        balancer.select s.serviceName s.endpoints s.random =
          .ok (endpoint, balancer.advance s.serviceName)) ∧
    ∀ (balancer : LoadBalancer) (s : Selection), ∀ service ≠ s.serviceName,
      (balancer.apply (.select s)).cursor service = balancer.cursor service := by
  refine ⟨?_, ?_, ?_, ?_⟩
  · intro b hround k hk
    exact count_turns (r := ⟨fun _ => 1, b.cursors⟩) rfl hfixed
      (hround.trans WeightedCycle.total_one.symm) hk
  · intro b hround k hk
    rw [← getWeight_eq_share] at hround ⊢
    exact count_turns (r := ⟨WeightedRoundRobinLoadBalancer.getWeight, b.cursors⟩) rfl hfixed
      hround hk
  · intro balancer s k h
    exact select_turn h
  · intro balancer s service h
    exact cursor_apply s h

def sampleShares : List Endpoint :=
  [⟨"10.0.0.1", 4000, some (.finite (5 / 2))⟩, ⟨"10.0.0.2", 4000, none⟩]

def sampleWindow : List BalancerEvent :=
  let random : Draw := ⟨1 / 2, by norm_num, by norm_num⟩
  [.select ⟨"a", "orders", sampleShares, random⟩,
    .select ⟨"b", "users", [⟨"10.0.0.3", 4000, none⟩], random⟩,
    .select ⟨"c", "orders", sampleShares, random⟩, .select ⟨"a", "orders", sampleShares, random⟩]

theorem proportional_share_sample :
    ((weightedRoundRobin ⟨.empty⟩).turns "orders" sampleWindow).count 0 = 2 ∧
      ((weightedRoundRobin ⟨.empty⟩).turns "orders" sampleWindow).count 1 = 1 := by
  have hfixed : ∀ s, .select s ∈ sampleWindow → s.serviceName = "orders" →
      s.endpoints = sampleShares := by
    intro s hs hservice
    simp only [sampleWindow, List.mem_cons, BalancerEvent.select.injEq, List.not_mem_nil,
      or_false] at hs
    rcases hs with rfl | rfl | rfl | rfl
    · rfl
    · exact absurd hservice (by decide)
    · rfl
    · rfl
  have hshare := (proportional_share hfixed).2.1 ⟨.empty⟩ (by decide +kernel)
  have h0 := hshare 0 (by decide)
  have h1 := hshare 1 (by decide)
  exact ⟨h0.trans (by decide +kernel), h1.trans (by decide +kernel)⟩

end LoadBalancer

end WeisleyRpc.Discovery
