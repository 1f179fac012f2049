import WeisleyRpc.FailoverResults

/-!
# What the least active balancer knows

The balancer of a client selects by the counts that the application has told it. The loop of
the client tells it nothing, so the requests in flight decide only as far as the application
reports them.
-/

namespace WeisleyRpc.Discovery

namespace LeastActiveLoadBalancer

def hears (b : LeastActiveLoadBalancer) : ClientEvent → LeastActiveLoadBalancer
  | .setActiveCount endpoint count => b.setActiveCount endpoint count
  | _ => b

/-- The balancer after everything the application has told it in a run. -/
def informed (b : LeastActiveLoadBalancer) (events : List ClientEvent) : LeastActiveLoadBalancer :=
  events.foldl hears b

end LeastActiveLoadBalancer

namespace DiscoveryClient

/-- The requests of the client that wait for the endpoint. -/
def inFlight (client : DiscoveryClient) (endpoint : Endpoint) : ℕ :=
  client.calls.entries.countP fun entry =>
    match entry.2.phase with
    | .attempting e =>
      LeastActiveLoadBalancer.getEndpointKey e = LeastActiveLoadBalancer.getEndpointKey endpoint
    | _ => false

variable {options : RetryOptions} {client client' : DiscoveryClient} {e : ClientEvent}
  {b : LeastActiveLoadBalancer} {id : String} {call : DiscoveryCall} {endpoint : Endpoint}

theorem loadBalancer_put (client : DiscoveryClient) (id : String) (call : DiscoveryCall) :
    (client.put id call).loadBalancer = client.loadBalancer := rfl

/-- The head of the loop selects the first of the endpoints told least, and tells nothing. -/
theorem iterate_leastActive (hb : client.loadBalancer = .leastActive b) (id : String)
    (call : DiscoveryCall) (random : Draw) :
    (client.iterate id call random).loadBalancer = .leastActive b ∧
      ∀ call' endpoint, (client.iterate id call random).attemptingAt id = some (call', endpoint) →
        call'.endpoints = call.endpoints ∧
          ∃ k, FirstLeast b.getActiveCount call.endpoints k endpoint := by
  by_cases hlt : call.attempt < call.maxAttempts
  · obtain ⟨phase, heq, hphase⟩ := client.iterate_eq id call random hlt
    rw [heq]
    refine ⟨?_, ?_⟩
    · rw [loadBalancer_put, balance, LoadBalancer.apply_select, hb]
      split_ifs <;> rfl
    · intro call' endpoint hat
      obtain ⟨hget, hattempting⟩ := attemptingAt_eq_some hat
      rw [put, OrderedMap.get_set, if_pos rfl] at hget
      obtain rfl := Option.some.inj hget
      rcases hphase with ⟨-, -, error, rfl⟩ | ⟨endpoint', hgiven, rfl⟩
      · cases hattempting
      · obtain rfl := CallPhase.attempting.inj hattempting
        have hne : call.endpoints ≠ [] := by
          intro hnil
          rw [LoadBalancer.given_nil _ id _ hnil] at hgiven
          cases hgiven
        obtain ⟨k, hk, hget'⟩ := (LoadBalancer.given_eq_some_iff hne rfl).1 hgiven
        rw [hb] at hk
        obtain ⟨endpoint'', hleast⟩ := hk
        obtain rfl := Option.some.inj (hget'.symm.trans hleast.get)
        exact ⟨rfl, k, hleast⟩
  · rw [iterate, if_neg hlt]
    refine ⟨hb, ?_⟩
    intro call' endpoint hat
    obtain ⟨hget, hattempting⟩ := attemptingAt_eq_some hat
    rw [put, OrderedMap.get_set, if_pos rfl] at hget
    obtain rfl := Option.some.inj hget
    cases hattempting

theorem step_informed (hb : client.loadBalancer = .leastActive b)
    (hs : (machine options).Step client e client') :
    client'.loadBalancer = .leastActive (b.hears e) := by
  obtain ⟨-, happly⟩ := hs
  obtain rfl := Except.ok.inj happly
  cases e with
  | call id serviceName method endpoints random => exact (iterate_leastActive hb id _ random).1
  | succeeded id value =>
    simp only [DiscoveryClient.apply]
    split
    · exact hb
    · exact hb
  | failed id error retry =>
    simp only [DiscoveryClient.apply]
    split
    · obtain ⟨call', -, heq⟩ := attemptFailed_step options client id _ _ error retry
      rw [heq]
      exact hb
    · exact hb
  | woken id random =>
    simp only [DiscoveryClient.apply]
    split
    · exact (iterate_leastActive hb id _ random).1
    · exact hb
  | setActiveCount endpoint count =>
    simp only [DiscoveryClient.apply, hb]
    rfl

theorem run_informed {events : List ClientEvent}
    (hrun : (machine options).Run (start (.leastActive b)) events client) :
    client.loadBalancer = .leastActive (b.informed events) := by
  refine hrun.invariant_history
    (I := fun (events : List ClientEvent) (client : DiscoveryClient) =>
      client.loadBalancer = .leastActive (b.informed events)) ?_ rfl
  intro pre client e client' h hs
  rw [step_informed h hs, LeastActiveLoadBalancer.informed, LeastActiveLoadBalancer.informed,
    List.foldl_concat]

theorem FailedStep.not_attempting {error : Thrown} {retry : Bool} {call' : DiscoveryCall}
    {endpoint' : Endpoint} (h : FailedStep options call endpoint error retry call') :
    call'.phase ≠ .attempting endpoint' := by
  intro hphase
  cases h <;> cases hphase

/-- A step that sends a call to an endpoint has selected it. -/
theorem step_selects (hb : client.loadBalancer = .leastActive b)
    (hs : (machine options).Step client e client') (hbefore : client.attemptingAt id = none)
    (hafter : client'.attemptingAt id = some (call, endpoint)) :
    ∃ k, FirstLeast b.getActiveCount call.endpoints k endpoint := by
  have hcall := call_step hs id
  obtain ⟨henabled, happly⟩ := hs
  obtain rfl := Except.ok.inj happly
  obtain ⟨hget, hphase⟩ := attemptingAt_eq_some hafter
  rw [hget] at hcall
  generalize hold : client.calls.get id = before at hcall
  cases hcall with
  | other _ hid =>
    rw [attemptingAt, hold] at hbefore
    simp only [hphase] at hbefore
    cases hbefore
  | started random hiterated =>
    obtain ⟨hlist, hleast⟩ := (iterate_leastActive hb id _ random).2 call endpoint hafter
    rw [hlist]
    exact hleast
  | succeeded value _ => cases hphase
  | failed _ hfailed => exact absurd hphase hfailed.not_attempting
  | @woken call₀ _ backoffMs random hsleeps hiterated =>
    have hsleeping : client.sleepingCall id = some call₀ := by
      simp only [sleepingCall, hold, hsleeps]
    simp only [DiscoveryClient.apply, hsleeping] at hafter
    obtain ⟨hlist, hleast⟩ := (iterate_leastActive hb id _ random).2 call endpoint hafter
    rw [hlist]
    exact hleast

/-- Every selection of a run falls on the first of the listed endpoints whose told counts are
least, so on one with the fewest requests in flight when the told counts are those. -/
theorem selects_least_told {events : List ClientEvent}
    (hrun : (machine options).Run (start (.leastActive b)) events client)
    (hs : (machine options).Step client e client') (hbefore : client.attemptingAt id = none)
    (hafter : client'.attemptingAt id = some (call, endpoint)) :
    client.loadBalancer = .leastActive (b.informed events) ∧
      (∃ k, FirstLeast (b.informed events).getActiveCount call.endpoints k endpoint) ∧
      ((∀ e ∈ call.endpoints, (b.informed events).getActiveCount e = client.inFlight e) →
        ∀ e ∈ call.endpoints, client.inFlight endpoint ≤ client.inFlight e) := by
  have hb := run_informed hrun
  obtain ⟨k, hleast⟩ := step_selects hb hs hbefore hafter
  refine ⟨hb, ⟨k, hleast⟩, ?_⟩
  intro htold e he
  rw [← htold e he, ← htold endpoint hleast.mem]
  exact hleast.least e he

def sampleFirst : ClientEvent := .call "1" "UserService" "getUser" sampleEndpoints sampleDraw

def sampleSecond : ClientEvent := .call "2" "UserService" "getUser" sampleEndpoints sampleDraw

/-- What a sample run shows of the call `2` that comes next, and of the requests in flight. -/
structure SecondCall where
  enabled : Bool
  unsent : Bool
  sent : Option (List Endpoint × Endpoint)
  counts : List ℕ
  deriving DecidableEq

def secondCall (client : DiscoveryClient) : SecondCall where
  enabled := decide (client.Enabled sampleSecond)
  unsent := (client.attemptingAt "2").isNone
  sent := ((client.apply sampleOptions sampleSecond).attemptingAt "2").map fun sent =>
    (sent.1.endpoints, sent.2)
  counts := sampleEndpoints.map client.inFlight

theorem step_of_secondCall {events : List ClientEvent} {counts : List ℕ}
    (h : ((machine sampleOptions).exec (start (.leastActive b)) events).map secondCall =
      some ⟨true, true, some (sampleEndpoints, endpoint), counts⟩) :
    ∃ (client : DiscoveryClient) (call : DiscoveryCall),
      (machine sampleOptions).Run (start (.leastActive b)) events client ∧
      (machine sampleOptions).Step client sampleSecond (client.apply sampleOptions sampleSecond) ∧
      client.attemptingAt "2" = none ∧
      (client.apply sampleOptions sampleSecond).attemptingAt "2" = some (call, endpoint) ∧
      call.endpoints = sampleEndpoints ∧ sampleEndpoints.map client.inFlight = counts := by
  obtain ⟨client, hexec, hparts⟩ := Option.map_eq_some_iff.1 h
  simp only [secondCall, SecondCall.mk.injEq, decide_eq_true_eq, Option.isNone_iff_eq_none,
    Option.map_eq_some_iff, Prod.mk.injEq] at hparts
  obtain ⟨henabled, hbefore, ⟨⟨call, endpoint'⟩, hafter, hlist, rfl⟩, hcounts⟩ := hparts
  exact ⟨client, call, Machine.run_of_exec hexec, ⟨henabled, rfl⟩, hbefore, hafter, hlist, hcounts⟩

/-- A second call goes to the node that the first one waits for, unless the balancer is told. -/
theorem selects_busy_endpoint : ¬ ∀ (b : LeastActiveLoadBalancer) (options : RetryOptions)
    (events : List ClientEvent) (client client' : DiscoveryClient) (e : ClientEvent) (id : String)
    (call : DiscoveryCall) (endpoint : Endpoint),
    (machine options).Run (start (.leastActive b)) events client →
      (machine options).Step client e client' → client.attemptingAt id = none →
      client'.attemptingAt id = some (call, endpoint) →
        ∀ e ∈ call.endpoints, client.inFlight endpoint ≤ client.inFlight e := by
  intro h
  have hsample : ((machine sampleOptions).exec (start (.leastActive ⟨.empty⟩)) [sampleFirst]).map
      secondCall = some ⟨true, true, some (sampleEndpoints, ⟨"10.0.0.1", 4000, none⟩), [1, 0]⟩ := by
    decide +kernel
  obtain ⟨client, call, hrun, hs, hbefore, hafter, hlist, hcounts⟩ := step_of_secondCall hsample
  have hle := h _ _ _ _ _ _ _ _ _ hrun hs hbefore hafter ⟨"10.0.0.2", 4000, none⟩
    (by rw [hlist]; decide)
  simp only [sampleEndpoints, List.map_cons, List.map_nil, List.cons.injEq] at hcounts
  omega

theorem selects_idle_endpoint_told : ∃ (client : DiscoveryClient) (call : DiscoveryCall),
    (client.apply sampleOptions sampleSecond).attemptingAt "2" =
      some (call, ⟨"10.0.0.2", 4000, none⟩) ∧
    ∀ e ∈ call.endpoints,
      client.inFlight ⟨"10.0.0.2", 4000, none⟩ ≤ client.inFlight e := by
  have hsample : ((machine sampleOptions).exec (start (.leastActive ⟨.empty⟩))
      [sampleFirst, .setActiveCount ⟨"10.0.0.1", 4000, none⟩ (.ofNat 1)]).map secondCall =
        some ⟨true, true, some (sampleEndpoints, ⟨"10.0.0.2", 4000, none⟩), [1, 0]⟩ := by
    decide +kernel
  obtain ⟨client, call, hrun, hs, hbefore, hafter, hlist, hcounts⟩ := step_of_secondCall hsample
  refine ⟨client, call, hafter, (selects_least_told hrun hs hbefore hafter).2.2 ?_⟩
  simp only [sampleEndpoints, List.map_cons, List.map_nil, List.cons.injEq] at hcounts
  rw [hlist]
  intro e he
  rcases List.mem_pair.1 he with rfl | rfl
  · rw [hcounts.1]
    decide +kernel
  · rw [hcounts.2.1]
    decide +kernel

end DiscoveryClient

end WeisleyRpc.Discovery
