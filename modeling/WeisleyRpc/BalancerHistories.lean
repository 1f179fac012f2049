import Mathlib.Data.Nat.ModEq
import WeisleyRpc.Histories
import WeisleyRpc.LoadBalancers

/-!
# Histories of a load balancer

What a balancer is asked and told, in order. Every selection carries the call that asks for
it, so that the endpoints one call is given can be told from those of the calls between.
-/

namespace WeisleyRpc.Discovery

structure Selection where
  call : String
  serviceName : String
  endpoints : List Endpoint
  random : Draw

inductive BalancerEvent
  | select (selection : Selection)
  | setActiveCount (endpoint : Endpoint) (count : JsNumber)

def BalancerEvent.selectsFor (serviceName : String) : BalancerEvent → Bool
  | .select s => s.serviceName = serviceName ∧ s.endpoints ≠ []
  | .setActiveCount .. => false

/-- The selections for a service; a selection from an empty list throws and does not count. -/
def selections (serviceName : String) (history : List BalancerEvent) : ℕ :=
  history.countP (BalancerEvent.selectsFor serviceName)

namespace Cursors

def told (cursors : Cursors) : BalancerEvent → Cursors
  | .select s => if s.endpoints = [] then cursors else cursors.advance s.serviceName
  | .setActiveCount .. => cursors

def after (cursors : Cursors) (history : List BalancerEvent) : Cursors :=
  history.foldl told cursors

theorem cursor_told (cursors : Cursors) (e : BalancerEvent) (service : String) :
    (cursors.told e).cursor service =
      cursors.cursor service + if e.selectsFor service then 1 else 0 := by
  cases e with
  | select s =>
    by_cases hnil : s.endpoints = []
    · simp [told, BalancerEvent.selectsFor, hnil]
    · simp only [told, hnil, if_false, cursor_advance]
      congr 1
      simp [BalancerEvent.selectsFor, hnil, eq_comm]
  | setActiveCount endpoint count => rfl

theorem cursor_after (cursors : Cursors) (history : List BalancerEvent) (service : String) :
    (cursors.after history).cursor service =
      cursors.cursor service + selections service history := by
  induction history generalizing cursors with
  | nil => rfl
  | cons e history ih =>
    rw [after, List.foldl_cons]
    have htold := ih (cursors.told e)
    rw [after] at htold
    rw [htold, cursor_told, selections, selections, List.countP_cons]
    omega

end Cursors

namespace LeastActiveLoadBalancer

def told (balancer : LeastActiveLoadBalancer) : BalancerEvent → LeastActiveLoadBalancer
  | .select _ => balancer
  | .setActiveCount endpoint count => balancer.setActiveCount endpoint count

/-- The counts after everything the balancer was told. -/
def afterCounts (balancer : LeastActiveLoadBalancer) (history : List BalancerEvent) :
    LeastActiveLoadBalancer := history.foldl told balancer

end LeastActiveLoadBalancer

namespace LoadBalancer

def apply (balancer : LoadBalancer) : BalancerEvent → LoadBalancer
  | .select s =>
    match balancer.select s.serviceName s.endpoints s.random with
    | .ok (_, balancer) => balancer
    | .error _ => balancer
  | .setActiveCount endpoint count => balancer.setActiveCount endpoint count

def after (balancer : LoadBalancer) (history : List BalancerEvent) : LoadBalancer :=
  history.foldl apply balancer

/-- The endpoint that an event gives to a call. -/
def given (call : String) (balancer : LoadBalancer) : BalancerEvent → Option Endpoint
  | .select s =>
    if s.call = call then
      match balancer.select s.serviceName s.endpoints s.random with
      | .ok (endpoint, _) => some endpoint
      | .error _ => none
    else none
  | .setActiveCount .. => none

def attempts (balancer : LoadBalancer) (call : String) (history : List BalancerEvent) :
    List Endpoint := Histories.outputs apply (given call) balancer history

section Histories
variable (balancer : LoadBalancer) (call serviceName : String) (history : List BalancerEvent)
  (e : BalancerEvent) (s : Selection)

theorem apply_select : balancer.apply (.select s) =
    if s.endpoints = [] then balancer else balancer.advance s.serviceName := by
  split_ifs with h
  · rw [apply, h, select_nil]
  · obtain ⟨k, endpoint, -, -, hsel⟩ := balancer.select_spec s.serviceName s.random h
    rw [apply, hsel]

theorem attempts_concat : balancer.attempts call (history ++ [e]) =
    balancer.attempts call history ++ (given call (balancer.after history) e).toList := by
  rw [attempts, Histories.outputs_append]
  simp only [Histories.outputs, List.append_nil]
  rfl

theorem after_concat : balancer.after (history ++ [e]) = (balancer.after history).apply e :=
  List.foldl_concat ..

/-- A history moves the cursors or sets the counts. -/
theorem after_eq : balancer.after history =
    match balancer with
    | .roundRobin b => .roundRobin ⟨b.cursors.after history⟩
    | .weightedRoundRobin b => .weightedRoundRobin ⟨b.cursors.after history⟩
    | .random => .random
    | .leastActive b => .leastActive (b.afterCounts history) := by
  induction history generalizing balancer with
  | nil => cases balancer <;> rfl
  | cons e history ih =>
    rw [after, List.foldl_cons]
    refine (ih (balancer.apply e)).trans ?_
    cases e with
    | select s =>
      rw [apply_select]
      cases balancer with
      | roundRobin b => split_ifs with h <;> simp [advance, Cursors.after, Cursors.told, h]
      | weightedRoundRobin b => split_ifs with h <;> simp [advance, Cursors.after, Cursors.told, h]
      | random => split_ifs <;> rfl
      | leastActive b => split_ifs <;> rfl
    | setActiveCount endpoint count => cases balancer <;> rfl

theorem given_other (h : s.call ≠ call) : given call balancer (.select s) = none := if_neg h

variable {balancer call s} in
theorem given_call {endpoint : Endpoint} (h : given call balancer (.select s) = some endpoint) :
    s.call = call := by
  by_contra hne
  rw [given_other balancer call s hne] at h
  cases h

theorem given_nil (h : s.endpoints = []) : given call balancer (.select s) = none := by
  rw [given, h, select_nil]
  split_ifs <;> rfl

theorem given_mem {endpoint : Endpoint} (h : given call balancer (.select s) = some endpoint) :
    endpoint ∈ s.endpoints := by
  by_cases hnil : s.endpoints = []
  · rw [given_nil balancer call s hnil] at h
    cases h
  · obtain ⟨k, e, -, hget, hsel⟩ := balancer.select_spec s.serviceName s.random hnil
    rw [given, hsel] at h
    split_ifs at h
    obtain rfl := Option.some.inj h
    exact List.mem_of_getElem? hget

theorem attempts_eq_nil (h : ∀ s, .select s ∈ history → s.call ≠ call) :
    balancer.attempts call history = [] := by
  rw [List.eq_nil_iff_forall_not_mem]
  intro endpoint hmem
  obtain ⟨pre, e, post, rfl, hgiven⟩ := (Histories.mem_outputs _ _).1 hmem
  cases e with
  | select s =>
    have hs := h s (List.mem_append_right _ List.mem_cons_self)
    rw [given_other _ call s hs] at hgiven
    cases hgiven
  | setActiveCount endpoint count => cases hgiven

end Histories

/-- `s'` is made after `s` with `mid` between them, and from the same endpoints. They fall on
the same endpoint: a whole number of rounds apart, inside the block of one endpoint, by equal
draws, or with the same endpoint the least active. -/
def Collide (balancer : LoadBalancer) (pre mid : List BalancerEvent) (s s' : Selection) : Prop :=
  match balancer with
  | .roundRobin _ => s.endpoints.length ∣ selections s.serviceName mid + 1
  | .weightedRoundRobin b =>
    let weight := WeightedRoundRobinLoadBalancer.getWeight
    let cursor := b.cursors.cursor s.serviceName + selections s.serviceName pre
    let cursor' := cursor + (selections s.serviceName mid + 1)
    ∃ k, WeightedCycle.InBlock weight s.endpoints k
        (cursor % WeightedCycle.total weight s.endpoints) ∧
      WeightedCycle.InBlock weight s.endpoints k
        (cursor' % WeightedCycle.total weight s.endpoints)
  | .random => ∃ k < s.endpoints.length, RandomLoadBalancer.index s.endpoints s.random = k ∧
      RandomLoadBalancer.index s.endpoints s'.random = k
  | .leastActive b => ∃ k,
    (∃ endpoint, FirstLeast (b.afterCounts pre).getActiveCount s.endpoints k endpoint) ∧
      ∃ endpoint, FirstLeast (b.afterCounts (pre ++ mid)).getActiveCount s.endpoints k endpoint

section Collide
variable {balancer : LoadBalancer} {pre mid : List BalancerEvent} {s s' : Selection}

theorem selections_between (h : s.endpoints ≠ []) :
    selections s.serviceName (pre ++ .select s :: mid) =
      selections s.serviceName pre + (selections s.serviceName mid + 1) := by
  simp [selections, List.countP_append, BalancerEvent.selectsFor, h]

/-- Two selections collide when the balancer picks the same position both times. -/
theorem collide_iff (h : s.endpoints ≠ []) (hservice : s'.serviceName = s.serviceName)
    (hlist : s'.endpoints = s.endpoints) :
    balancer.Collide pre mid s s' ↔
      ∃ k, (balancer.after pre).Picks s.serviceName s.endpoints s.random k ∧
        (balancer.after (pre ++ .select s :: mid)).Picks s'.serviceName s'.endpoints
          s'.random k := by
  rw [after_eq, after_eq, hservice, hlist]
  cases balancer with
  | roundRobin b =>
    simp only [Collide, Picks, Cursors.cursor_after, selections_between h, ← Nat.add_assoc]
    constructor
    · intro hdvd
      exact ⟨_, rfl, (Nat.left_modEq_add_iff.2 hdvd).symm⟩
    · rintro ⟨k, hk, hk'⟩
      exact Nat.left_modEq_add_iff.1 (hk.trans hk'.symm)
  | weightedRoundRobin b =>
    simp only [Collide, Picks, Cursors.cursor_after, selections_between h, Nat.add_assoc]
  | random =>
    constructor
    · rintro ⟨k, -, hk⟩
      exact ⟨k, hk⟩
    · rintro ⟨k, rfl, hk⟩
      exact ⟨_, RandomLoadBalancer.index_lt (by simpa using h) s.random, rfl, hk⟩
  | leastActive b =>
    simp only [Collide, Picks, LeastActiveLoadBalancer.afterCounts, List.foldl_append,
      List.foldl_cons, LeastActiveLoadBalancer.told]

theorem given_eq_some_iff {call : String} (h : s.endpoints ≠ []) (hcall : s.call = call)
    {endpoint : Endpoint} : given call balancer (.select s) = some endpoint ↔
      ∃ k, balancer.Picks s.serviceName s.endpoints s.random k ∧
        s.endpoints[k]? = some endpoint := by
  obtain ⟨k, e, hk, hget, hsel⟩ := balancer.select_spec s.serviceName s.random h
  simp only [given, if_pos hcall, hsel]
  constructor
  · intro he
    obtain rfl := Option.some.inj he
    exact ⟨k, hk, hget⟩
  · rintro ⟨j, hj, hget'⟩
    rw [hk.unique h hj, hget'] at hget
    exact hget.symm

end Collide

/-- No two selections of the call fall on the same endpoint. -/
def Spread (balancer : LoadBalancer) (call : String) (history : List BalancerEvent) : Prop :=
  ∀ pre s mid s' post, history = pre ++ .select s :: (mid ++ .select s' :: post) →
    s.call = call → s'.call = call → ¬ balancer.Collide pre mid s s'

theorem not_collide_nil (balancer : LoadBalancer) (pre mid : List BalancerEvent)
    {s : Selection} (s' : Selection) (h : s.endpoints = []) : ¬ balancer.Collide pre mid s s' := by
  cases balancer with
  | roundRobin b => simp [Collide, h]
  | weightedRoundRobin b => simp [Collide, WeightedCycle.InBlock, h]
  | random => simp [Collide, h]
  | leastActive b =>
    rintro ⟨k, ⟨endpoint, hleast⟩, -⟩
    have hlt := hleast.lt
    rw [h] at hlt
    exact Nat.not_lt_zero k hlt

theorem given_twice_iff {balancer : LoadBalancer} {call : String} {pre mid : List BalancerEvent}
    {s s' : Selection} (hcall : s.call = call) (hcall' : s'.call = call)
    (hservice : s'.serviceName = s.serviceName) (hlist : s'.endpoints = s.endpoints)
    (hdistinct : s.endpoints.Nodup) :
    (∃ endpoint, given call (balancer.after pre) (.select s) = some endpoint ∧
      given call (balancer.after (pre ++ .select s :: mid)) (.select s') = some endpoint) ↔
        balancer.Collide pre mid s s' := by
  by_cases hnil : s.endpoints = []
  · constructor
    · rintro ⟨endpoint, hgiven, -⟩
      rw [given_nil _ call s hnil] at hgiven
      cases hgiven
    · intro hcollide
      exact absurd hcollide (not_collide_nil balancer pre mid s' hnil)
  · rw [collide_iff hnil hservice hlist]
    have hnil' : s'.endpoints ≠ [] := hlist ▸ hnil
    constructor
    · rintro ⟨endpoint, hgiven, hgiven'⟩
      obtain ⟨k, hk, hget⟩ := (given_eq_some_iff hnil hcall).1 hgiven
      obtain ⟨j, hj, hget'⟩ := (given_eq_some_iff hnil' hcall').1 hgiven'
      have hlt := (List.getElem?_eq_some_iff.1 hget).1
      have hkj : k = j := (List.getElem?_inj hlt hdistinct).1 (by rw [hget, ← hlist, hget'])
      exact ⟨k, hk, hkj ▸ hj⟩
    · rintro ⟨k, hk, hk'⟩
      obtain ⟨j, endpoint, hj, hget, -⟩ :=
        (balancer.after pre).select_spec s.serviceName s.random hnil
      obtain rfl := hk.unique hnil hj
      exact ⟨endpoint, (given_eq_some_iff hnil hcall).2 ⟨k, hk, hget⟩,
        (given_eq_some_iff hnil' hcall').2 ⟨k, hk', hlist ▸ hget⟩⟩

section Attempts
variable (balancer : LoadBalancer) {call serviceName : String} {history : List BalancerEvent}
  {endpoints : List Endpoint}

theorem attempts_subset
    (hasked : ∀ s, .select s ∈ history → s.call = call → s.endpoints = endpoints) :
    balancer.attempts call history ⊆ endpoints := by
  intro endpoint hmem
  obtain ⟨pre, e, post, rfl, hgiven⟩ := (Histories.mem_outputs _ _).1 hmem
  cases e with
  | select s =>
    rw [← hasked s (List.mem_append_right _ List.mem_cons_self) (given_call hgiven)]
    exact given_mem _ call s hgiven
  | setActiveCount endpoint count => cases hgiven

/-- A call that always asks for the same endpoints is given different ones exactly when its
selections are spread. -/
theorem attempts_nodup_iff
    (hasked : ∀ s, .select s ∈ history → s.call = call →
      s.serviceName = serviceName ∧ s.endpoints = endpoints)
    (hdistinct : endpoints.Nodup) :
    (balancer.attempts call history).Nodup ↔ balancer.Spread call history := by
  rw [attempts, Histories.nodup_outputs]
  constructor
  · intro h pre s mid s' post hsplit hcall hcall' hcollide
    have hs := hasked s (by simp [hsplit]) hcall
    have hs' := hasked s' (by simp [hsplit]) hcall'
    obtain ⟨endpoint, hgiven, hgiven'⟩ :=
      (given_twice_iff hcall hcall' (hs'.1.trans hs.1.symm) (hs'.2.trans hs.2.symm)
        (hs.2.symm ▸ hdistinct)).2 hcollide
    exact h pre _ mid _ post endpoint hsplit hgiven hgiven'
  · intro h pre e mid e' post endpoint hsplit hgiven hgiven'
    cases e with
    | setActiveCount endpoint count => cases hgiven
    | select s =>
      cases e' with
      | setActiveCount endpoint count => cases hgiven'
      | select s' =>
        have hcall := given_call hgiven
        have hcall' := given_call hgiven'
        have hs := hasked s (by simp [hsplit]) hcall
        have hs' := hasked s' (by simp [hsplit]) hcall'
        exact h pre s mid s' post hsplit hcall hcall'
          ((given_twice_iff hcall hcall' (hs'.1.trans hs.1.symm) (hs'.2.trans hs.2.symm)
            (hs.2.symm ▸ hdistinct)).1 ⟨endpoint, hgiven, hgiven'⟩)

end Attempts

/-- Nothing is given twice while the round robin has not gone round. -/
theorem spread_roundRobin (b : RoundRobinLoadBalancer) {call : String}
    {history : List BalancerEvent}
    (h : ∀ pre s mid s' post, history = pre ++ .select s :: (mid ++ .select s' :: post) →
      s.call = call → s'.call = call → selections s.serviceName mid + 1 < s.endpoints.length) :
    (LoadBalancer.roundRobin b).Spread call history := by
  intro pre s mid s' post hsplit hcall hcall'
  exact Nat.not_dvd_of_pos_of_lt (Nat.succ_pos _) (h pre s mid s' post hsplit hcall hcall')

/-- The least active balancer gives the same endpoint until it is told other counts. -/
theorem collide_leastActive (b : LeastActiveLoadBalancer) {pre mid : List BalancerEvent}
    {s : Selection} (s' : Selection) (h : s.endpoints ≠ [])
    (hmid : ∀ endpoint count, .setActiveCount endpoint count ∉ mid) :
    (LoadBalancer.leastActive b).Collide pre mid s s' := by
  have hkept : ∀ c : LeastActiveLoadBalancer, c.afterCounts mid = c := by
    intro c
    refine List.foldlRecOn mid LeastActiveLoadBalancer.told (motive := fun c' => c' = c) rfl ?_
    intro c' hc' e he
    cases e with
    | select s => exact hc'
    | setActiveCount endpoint count => exact absurd he (hmid endpoint count)
  obtain ⟨k, endpoint, hk, -⟩ := select_leastActive s.serviceName s.random (b.afterCounts pre) h
  refine ⟨k, hk, ?_⟩
  have happend : b.afterCounts (pre ++ mid) = (b.afterCounts pre).afterCounts mid :=
    List.foldl_append
  rw [happend, hkept]
  exact hk

end LoadBalancer

end WeisleyRpc.Discovery
