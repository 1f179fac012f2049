import WeisleyRpc.Failover

/-!
# Which endpoints a failover reaches

In every run the endpoints a call has attempted are those the shared balancer has given it,
so they differ exactly when no two of its selections collide.
-/

namespace WeisleyRpc.Discovery

/-- Every attempt so far has failed, and the loop has counted it. -/
structure DiscoveryCall.Counted (call : DiscoveryCall) : Prop where
  attempted : call.attempted = call.failures.map FailedAttempt.endpoint
  attempt : call.failures.length = call.attempt

/-- What holds of the attempts of a call where it waits. -/
def DiscoveryCall.Accounted (call : DiscoveryCall) : Prop :=
  match call.phase with
  | .running => False
  | .attempting endpoint =>
    call.attempted = call.failures.map FailedAttempt.endpoint ++ [endpoint] ∧
      call.failures.length = call.attempt
  | .backingOff _ => call.Counted
  | .returned _ => True
  | .thrown _ => call.attempted = call.failures.map FailedAttempt.endpoint ∧
      ((∀ failure ∈ call.failures, failure.retry = true) → call.endpoints ≠ [] →
        call.maxAttempts ≤ call.failures.length)

structure DiscoveryCall.Valid (options : RetryOptions) (call : DiscoveryCall) : Prop where
  limit : call.maxAttempts =
    options.getMaxAttempts call.serviceName call.method call.endpoints.length
  accounted : call.Accounted

namespace DiscoveryClient

/-- The call has attempted what the balancer gave it, and asked for its own endpoints only. -/
structure Held (balancer : LoadBalancer) (client : DiscoveryClient) (id : String)
    (call : DiscoveryCall) : Prop where
  attempted : call.attempted = balancer.attempts id client.balancing
  asked : ∀ s, .select s ∈ client.balancing → s.call = id →
    s.serviceName = call.serviceName ∧ s.endpoints = call.endpoints

structure Valid (balancer : LoadBalancer) (options : RetryOptions) (client : DiscoveryClient) :
    Prop where
  balanced : client.loadBalancer = balancer.after client.balancing
  calls : ∀ id call, client.calls.get id = some call → call.Valid options ∧
    client.Held balancer id call
  known : ∀ s, .select s ∈ client.balancing → client.calls.get s.call ≠ none

/-- The balancer is asked or told something. -/
def balance (client : DiscoveryClient) (e : BalancerEvent) : DiscoveryClient :=
  { client with
    loadBalancer := client.loadBalancer.apply e
    balancing := client.balancing ++ [e] }

section Steps
variable {balancer : LoadBalancer} {options : RetryOptions} {client : DiscoveryClient}
  {id : String} {call : DiscoveryCall}

theorem start_valid : (start balancer).Valid balancer options := by
  refine ⟨rfl, ?_, ?_⟩
  · intro id call h
    cases h
  · intro s h
    cases h

theorem Valid.put (h : client.Valid balancer options) (hcall : call.Valid options)
    (hheld : client.Held balancer id call) : (client.put id call).Valid balancer options := by
  refine ⟨h.balanced, ?_, ?_⟩
  · intro id' call' hget
    rw [DiscoveryClient.put, OrderedMap.get_set] at hget
    split_ifs at hget with hid
    · obtain rfl := Option.some.inj hget
      rw [hid]
      exact ⟨hcall, hheld.attempted, hheld.asked⟩
    · obtain ⟨hvalid, hheld'⟩ := h.calls id' call' hget
      exact ⟨hvalid, hheld'.attempted, hheld'.asked⟩
  · intro s hs
    rw [DiscoveryClient.put, OrderedMap.get_set]
    split_ifs
    · exact Option.some_ne_none call
    · exact h.known s hs

theorem Held.balance_other (h : client.Held balancer id call) {e : BalancerEvent}
    (he : ∀ s, e = .select s → s.call ≠ id) : (client.balance e).Held balancer id call := by
  refine ⟨?_, ?_⟩
  · have hnone : (balancer.after client.balancing).given id e = none := by
      cases e with
      | select s => exact LoadBalancer.given_other _ id s (he s rfl)
      | setActiveCount endpoint count => rfl
    rw [h.attempted, balance, LoadBalancer.attempts_concat, hnone]
    exact (List.append_nil _).symm
  · intro s hs hid
    rcases List.mem_append.1 hs with hs | hs
    · exact h.asked s hs hid
    · exact absurd hid (he s (List.mem_singleton.1 hs).symm)

theorem Valid.held_new (h : client.Valid balancer options) (hnone : client.calls.get id = none)
    (hnil : call.attempted = []) : client.Held balancer id call := by
  have hother : ∀ s, .select s ∈ client.balancing → s.call ≠ id := by
    rintro s hs rfl
    exact h.known s hs hnone
  refine ⟨?_, ?_⟩
  · rw [hnil, LoadBalancer.attempts_eq_nil _ _ _ hother]
  · intro s hs hid
    exact absurd hid (hother s hs)

theorem Valid.setActiveCount (h : client.Valid balancer options) (endpoint : Endpoint)
    (count : JsNumber) :
    (client.balance (.setActiveCount endpoint count)).Valid balancer options := by
  refine ⟨?_, ?_, ?_⟩
  · rw [balance, LoadBalancer.after_concat, h.balanced]
  · intro id call hget
    obtain ⟨hvalid, hheld⟩ := h.calls id call hget
    refine ⟨hvalid, hheld.balance_other ?_⟩
    intro s hs
    cases hs
  · intro s hs
    rcases List.mem_append.1 hs with hs | hs
    · exact h.known s hs
    · cases List.mem_singleton.1 hs

/-- A selection, and the call that has got the endpoint. -/
theorem Valid.selected (h : client.Valid balancer options) (s : Selection) (hid : s.call = id)
    (hheld : client.Held balancer id call) (call' : DiscoveryCall) (hcall' : call'.Valid options)
    (hservice : s.serviceName = call.serviceName) (hlist : s.endpoints = call.endpoints)
    (hservice' : call'.serviceName = call.serviceName)
    (hlist' : call'.endpoints = call.endpoints)
    (hattempted : call'.attempted =
      call.attempted ++ (client.loadBalancer.given id (.select s)).toList) :
    ((client.balance (.select s)).put id call').Valid balancer options := by
  refine ⟨?_, ?_, ?_⟩
  · rw [DiscoveryClient.put, balance, LoadBalancer.after_concat, h.balanced]
  · intro id' call'' hget
    rw [DiscoveryClient.put, balance, OrderedMap.get_set] at hget
    split_ifs at hget with hid'
    · obtain rfl := Option.some.inj hget
      refine ⟨hcall', ?_, ?_⟩
      · rw [hattempted, hheld.attempted, hid', h.balanced, ← LoadBalancer.attempts_concat]
        rfl
      · intro s' hs' hcall
        rw [hservice', hlist']
        rcases List.mem_append.1 hs' with hs' | hs'
        · exact hheld.asked s' hs' (hid' ▸ hcall)
        · cases List.mem_singleton.1 hs'
          exact ⟨hservice, hlist⟩
    · obtain ⟨hvalid, hheld'⟩ := h.calls id' call'' hget
      have hother := hheld'.balance_other (e := .select s) (by
        rintro s' hs'
        cases hs'
        rw [hid]
        exact Ne.symm hid')
      exact ⟨hvalid, hother.attempted, hother.asked⟩
  · intro s' hs'
    rw [DiscoveryClient.put, balance, OrderedMap.get_set]
    split_ifs with hid'
    · exact Option.some_ne_none call'
    · rcases List.mem_append.1 hs' with hs' | hs'
      · exact h.known s' hs'
      · cases List.mem_singleton.1 hs'
        exact absurd hid hid'

/-- The head of the loop asks the balancer for the call and waits for the endpoint it gives. -/
theorem iterate_eq (client : DiscoveryClient) (id : String) (call : DiscoveryCall) (random : Draw)
    (hlt : call.attempt < call.maxAttempts) :
    let s : Selection := ⟨id, call.serviceName, call.endpoints, random⟩
    ∃ phase, client.iterate id call random = (client.balance (.select s)).put id { call with
        phase
        attempted := call.attempted ++ (client.loadBalancer.given id (.select s)).toList } ∧
      ((call.endpoints = [] ∧ client.loadBalancer.given id (.select s) = none ∧
          ∃ e, phase = .thrown (.error e)) ∨
        ∃ endpoint, client.loadBalancer.given id (.select s) = some endpoint ∧
          phase = .attempting endpoint) := by
  intro s
  unfold DiscoveryClient.iterate
  rw [if_pos hlt, balance, LoadBalancer.apply_select]
  by_cases hnil : call.endpoints = []
  · have hgiven := LoadBalancer.given_nil client.loadBalancer id s hnil
    have hsel : client.loadBalancer.select call.serviceName call.endpoints random =
        .error (noEndpointsAvailable call.serviceName) := by
      rw [hnil]
      exact LoadBalancer.select_nil _ _ _
    refine ⟨.thrown (.error (noEndpointsAvailable call.serviceName)), ?_,
      Or.inl ⟨hnil, hgiven, _, rfl⟩⟩
    simp only [hsel, hgiven, s, if_pos hnil, Option.toList_none, List.append_nil]
  · obtain ⟨k, endpoint, -, -, hsel⟩ :=
      client.loadBalancer.select_spec call.serviceName random hnil
    have hgiven : client.loadBalancer.given id (.select s) = some endpoint := by
      rw [LoadBalancer.given, if_pos rfl, hsel]
    refine ⟨.attempting endpoint, ?_, Or.inr ⟨endpoint, hgiven, rfl⟩⟩
    simp only [hsel, hgiven, s, if_neg hnil, Option.toList_some]

theorem Valid.iterate (h : client.Valid balancer options) (hheld : client.Held balancer id call)
    (hlimit : call.maxAttempts =
      options.getMaxAttempts call.serviceName call.method call.endpoints.length)
    (hcounted : call.Counted) (random : Draw) :
    (client.iterate id call random).Valid balancer options := by
  by_cases hlt : call.attempt < call.maxAttempts
  · obtain ⟨phase, heq, hphase⟩ := client.iterate_eq id call random hlt
    rw [heq]
    refine h.selected _ rfl hheld _ ⟨hlimit, ?_⟩ rfl rfl rfl rfl rfl
    rcases hphase with ⟨hnil, hgiven, e, rfl⟩ | ⟨endpoint, hgiven, rfl⟩
    · refine ⟨?_, fun _ hne => absurd hnil hne⟩
      rw [hgiven, hcounted.attempted]
      exact List.append_nil _
    · refine ⟨?_, hcounted.attempt⟩
      rw [hgiven, hcounted.attempted]
      rfl
  · unfold DiscoveryClient.iterate
    rw [if_neg hlt]
    refine h.put ⟨hlimit, hcounted.attempted, ?_⟩ ⟨hheld.attempted, hheld.asked⟩
    intro _ _
    have hle := Nat.le_of_not_lt hlt
    rw [← hcounted.attempt] at hle
    exact hle

theorem Valid.attemptFailed (h : client.Valid balancer options)
    (hget : client.calls.get id = some call) {endpoint : Endpoint}
    (hphase : call.phase = .attempting endpoint) (error : Thrown) (retry : Bool) :
    (client.attemptFailed options id call endpoint error retry).Valid balancer options := by
  obtain ⟨⟨hlimit, haccounted⟩, hattempted, hasked⟩ := h.calls id call hget
  rw [DiscoveryCall.Accounted, hphase] at haccounted
  obtain ⟨hmap, hlen⟩ := haccounted
  have hfailed : ∀ retry, call.attempted =
      (call.failed endpoint error retry).failures.map FailedAttempt.endpoint := by
    intro retry
    rw [hmap, DiscoveryCall.failed, List.map_append]
    rfl
  have hcount : ∀ retry, (call.failed endpoint error retry).failures.length = call.attempt + 1 := by
    intro retry
    rw [DiscoveryCall.failed, List.length_append, hlen]
    rfl
  have hrefused : ¬ ∀ failure ∈ (call.failed endpoint error false).failures,
      failure.retry = true := by
    intro hall
    cases hall ⟨endpoint, error, false⟩ (List.mem_append_right _ (List.mem_singleton_self _))
  obtain ⟨call', hs, heq⟩ := attemptFailed_step options client id call endpoint error retry
  rw [heq]
  cases hs with
  | unread _ _ =>
    exact h.put ⟨hlimit, hfailed false, fun hall => absurd hall hrefused⟩ ⟨hattempted, hasked⟩
  | refused =>
    exact h.put ⟨hlimit, hfailed false, fun hall => absurd hall hrefused⟩ ⟨hattempted, hasked⟩
  | sleeps _ => exact h.put ⟨hlimit, hfailed true, hcount true⟩ ⟨hattempted, hasked⟩
  | exhausted hle =>
    refine h.put ⟨hlimit, hfailed true, fun _ _ => ?_⟩ ⟨hattempted, hasked⟩
    exact hle.trans (hcount true).ge

theorem attemptingAt_eq_some {endpoint : Endpoint}
    (h : client.attemptingAt id = some (call, endpoint)) :
    client.calls.get id = some call ∧ call.phase = .attempting endpoint := by
  unfold attemptingAt at h
  split at h
  · split at h
    · obtain ⟨rfl, rfl⟩ := Prod.mk.inj (Option.some.inj h)
      exact ⟨by assumption, by assumption⟩
    · cases h
  · cases h

theorem sleepingCall_eq_some (h : client.sleepingCall id = some call) :
    client.calls.get id = some call ∧ ∃ backoffMs, call.phase = .backingOff backoffMs := by
  unfold sleepingCall at h
  split at h
  · split at h
    · obtain rfl := Option.some.inj h
      exact ⟨by assumption, _, by assumption⟩
    · cases h
  · cases h

theorem Valid.step (h : client.Valid balancer options) {e : ClientEvent}
    {client' : DiscoveryClient} (hs : (machine options).Step client e client') :
    client'.Valid balancer options := by
  obtain ⟨henabled, happly⟩ := hs
  obtain rfl := Except.ok.inj happly
  cases e with
  | call id serviceName method endpoints random =>
    exact h.iterate (h.held_new henabled rfl) rfl ⟨rfl, rfl⟩ random
  | succeeded id value =>
    simp only [DiscoveryClient.apply]
    split
    · obtain ⟨hget, -⟩ := attemptingAt_eq_some (by assumption)
      obtain ⟨⟨hlimit, -⟩, hattempted, hasked⟩ := h.calls _ _ hget
      exact h.put ⟨hlimit, trivial⟩ ⟨hattempted, hasked⟩
    · exact h
  | failed id error retry =>
    simp only [DiscoveryClient.apply]
    split
    · obtain ⟨hget, hphase⟩ := attemptingAt_eq_some (by assumption)
      exact h.attemptFailed hget hphase error retry
    · exact h
  | woken id random =>
    simp only [DiscoveryClient.apply]
    split
    · obtain ⟨hget, backoffMs, hphase⟩ := sleepingCall_eq_some (by assumption)
      obtain ⟨⟨hlimit, haccounted⟩, hheld⟩ := h.calls _ _ hget
      rw [DiscoveryCall.Accounted, hphase] at haccounted
      exact h.iterate hheld hlimit haccounted random
    · exact h
  | setActiveCount endpoint count => exact h.setActiveCount endpoint count

theorem run_valid {events : List ClientEvent}
    (h : (machine options).Run (start balancer) events client) : client.Valid balancer options :=
  h.invariant (fun _ _ _ hvalid hs => hvalid.step hs) start_valid

end Steps

end DiscoveryClient

/-- The endpoints that were attempted differ; and a call with one attempt for each endpoint and
only retryable failures fails only after every endpoint has failed. -/
structure DiscoveryCall.ReachesDifferent (options : RetryOptions) (call : DiscoveryCall) :
    Prop where
  different : (call.attempted.map Endpoint.address).Nodup
  exhaustive : options.getMaxAttempts call.serviceName call.method call.endpoints.length =
      call.endpoints.length → (∀ failure ∈ call.failures, failure.retry = true) →
    ∀ error, call.phase = .thrown error →
      ∀ endpoint ∈ call.endpoints, ∃ failure ∈ call.failures, failure.endpoint = endpoint

namespace DiscoveryClient
variable {balancer : LoadBalancer} {options : RetryOptions} {client : DiscoveryClient}
  {id : String} {call : DiscoveryCall}

theorem Valid.attempted_subset (h : client.Valid balancer options)
    (hget : client.calls.get id = some call) : call.attempted ⊆ call.endpoints := by
  obtain ⟨-, hattempted, hasked⟩ := h.calls id call hget
  rw [hattempted]
  exact balancer.attempts_subset fun s hs hid => (hasked s hs hid).2

/-- When the attempts differ, as many failures as endpoints are failures of all endpoints. -/
theorem Valid.exhaustive (h : client.Valid balancer options)
    (hget : client.calls.get id = some call) (hnodup : call.attempted.Nodup)
    (hlimit : options.getMaxAttempts call.serviceName call.method call.endpoints.length =
      call.endpoints.length)
    (hretry : ∀ failure ∈ call.failures, failure.retry = true) {error : Thrown}
    (hphase : call.phase = .thrown error) {endpoint : Endpoint} (hmem : endpoint ∈ call.endpoints) :
    ∃ failure ∈ call.failures, failure.endpoint = endpoint := by
  obtain ⟨⟨hmax, haccounted⟩, -⟩ := h.calls id call hget
  rw [DiscoveryCall.Accounted, hphase] at haccounted
  obtain ⟨hmap, hall⟩ := haccounted
  have hlen := hall hretry (List.ne_nil_of_mem hmem)
  have hle : call.endpoints.length ≤ call.attempted.length := by
    rw [hmap, List.length_map]
    omega
  have hperm := (List.subperm_of_subset hnodup (h.attempted_subset hget)).perm_of_length_le hle
  have hattempted : endpoint ∈ call.attempted := hperm.mem_iff.2 hmem
  rw [hmap] at hattempted
  exact List.mem_map.1 hattempted

/-- In every run a call reaches different endpoints exactly when its selections are spread. -/
theorem reaches_different_iff_spread {events : List ClientEvent}
    (hrun : (machine options).Run (start balancer) events client)
    (hcall : client.calls.get id = some call)
    (hdistinct : (call.endpoints.map Endpoint.address).Nodup) :
    call.ReachesDifferent options ↔ balancer.Spread id client.balancing := by
  have hvalid := run_valid hrun
  have hheld := (hvalid.calls id call hcall).2
  have hspread := balancer.attempts_nodup_iff hheld.asked (hdistinct.of_map _)
  rw [← hheld.attempted] at hspread
  rw [← hspread]
  constructor
  · intro h
    exact h.different.of_map _
  · intro hnodup
    refine ⟨?_, ?_⟩
    · refine hnodup.map_on ?_
      intro endpoint hendpoint endpoint' hendpoint' haddress
      have hsubset := hvalid.attempted_subset hcall
      exact List.inj_on_of_nodup_map hdistinct (hsubset hendpoint) (hsubset hendpoint') haddress
    · intro hlimit hretry error hphase endpoint hmem
      exact hvalid.exhaustive hcall hnodup hlimit hretry hphase hmem

/-- Two nodes, both refusing, asked by a call with one attempt for each of them. -/
def sampleEndpoints : List Endpoint := [⟨"10.0.0.1", 4000, none⟩, ⟨"10.0.0.2", 4000, none⟩]

def sampleOptions : RetryOptions := ⟨none, none, none, .empty⟩

def sampleDraw : Draw := ⟨0, le_rfl, by decide⟩

def sampleError : Thrown :=
  .error (.native "Error" "connect ECONNREFUSED" none (some "ECONNREFUSED"))

def sampleEvents : List ClientEvent :=
  [.call "1" "UserService" "getUser" sampleEndpoints sampleDraw, .failed "1" sampleError true,
    .woken "1" sampleDraw, .failed "1" sampleError true]

def sampleCall (balancer : LoadBalancer) : Option DiscoveryCall :=
  ((machine sampleOptions).exec (start balancer) sampleEvents).bind fun client =>
    client.calls.get "1"

/-- Another call that asks between its two selections sends it to the same node. -/
example : (LoadBalancer.roundRobin ⟨.empty⟩).attempts "1"
    [.select ⟨"1", "UserService", sampleEndpoints, sampleDraw⟩,
      .select ⟨"2", "UserService", sampleEndpoints, sampleDraw⟩,
      .select ⟨"1", "UserService", sampleEndpoints, sampleDraw⟩] =
    [⟨"10.0.0.1", 4000, none⟩, ⟨"10.0.0.1", 4000, none⟩] := by decide +kernel

theorem run_exec_call {events : List ClientEvent}
    (h : (((machine options).exec (start balancer) events).bind fun client =>
      client.calls.get id) = some call) :
    ∃ client, (machine options).Run (start balancer) events client ∧
      client.calls.get id = some call := by
  obtain ⟨client, hexec, hget⟩ := Option.bind_eq_some_iff.1 h
  exact ⟨client, Machine.run_of_exec hexec, hget⟩

theorem run_sampleCall (h : sampleCall balancer = some call) : ∃ client,
    (machine sampleOptions).Run (start balancer) sampleEvents client ∧
      client.calls.get "1" = some call := run_exec_call h

/-- In turn, the two nodes are tried one after the other. -/
theorem refusing_nodes_tried_in_turn : ∃ (client : DiscoveryClient) (call : DiscoveryCall),
    client.calls.get "1" = some call ∧ call.attempted = sampleEndpoints ∧
      (call.ReachesDifferent sampleOptions ↔
        (LoadBalancer.roundRobin ⟨.empty⟩).Spread "1" client.balancing) := by
  have hsample : (sampleCall (.roundRobin ⟨.empty⟩)).map
      (fun call => (call.endpoints, call.attempted)) = some (sampleEndpoints, sampleEndpoints) := by
    decide +kernel
  obtain ⟨call, hcall, hparts⟩ := Option.map_eq_some_iff.1 hsample
  obtain ⟨hendpoints, hattempted⟩ := Prod.mk.inj hparts
  obtain ⟨client, hrun, hget⟩ := run_sampleCall hcall
  exact ⟨client, call, hget, hattempted,
    reaches_different_iff_spread hrun hget (by rw [hendpoints]; decide)⟩

/-- The least active balancer sends the second attempt to the node that has just refused. -/
theorem refusing_node_tried_again : ¬ ∀ (balancer : LoadBalancer) (options : RetryOptions)
    (events : List ClientEvent) (client : DiscoveryClient) (id : String) (call : DiscoveryCall),
    (machine options).Run (start balancer) events client → client.calls.get id = some call →
      (call.endpoints.map Endpoint.address).Nodup → call.ReachesDifferent options := by
  intro h
  have hsample : (sampleCall (.leastActive ⟨.empty⟩)).map
      (fun call => (call.endpoints, call.attempted)) =
        some (sampleEndpoints, [⟨"10.0.0.1", 4000, none⟩, ⟨"10.0.0.1", 4000, none⟩]) := by
    decide +kernel
  obtain ⟨call, hcall, hparts⟩ := Option.map_eq_some_iff.1 hsample
  obtain ⟨hendpoints, hattempted⟩ := Prod.mk.inj hparts
  obtain ⟨client, hrun, hget⟩ := run_sampleCall hcall
  have hreach := h _ _ _ _ _ _ hrun hget (by rw [hendpoints]; decide)
  have hnodup := hreach.different
  rw [hattempted] at hnodup
  exact absurd hnodup (by decide)

end DiscoveryClient

end WeisleyRpc.Discovery
