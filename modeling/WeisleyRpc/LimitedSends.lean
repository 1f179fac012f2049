import WeisleyRpc.AdmittedCalls
import WeisleyRpc.DirectResults
import WeisleyRpc.NetworkedResults

/-!
# The rate limiter over the network

Whatever the connections, the retries and the other calls do, what the calls of a stretch of time
send is bounded by what the limiter grants in this time: once for each granted call in direct mode,
and as often as a call may be attempted in discovery mode.
-/

namespace WeisleyRpc

namespace Client
open ClientNetwork (sampleConnected)

def DirectEvent.readings : DirectEvent → List CallReading
  | .call request times _ => [⟨request.id, times.limiterAt⟩]
  | .settled .. | .connect | .resetMetrics | .network _ => []

namespace DirectClient
variable {o : DirectRpcClientOptions} {codec : RpcCodec} {w w' : DirectClient} {e : DirectEvent}
  {before events : List DirectEvent} {limits : RateLimiterOptions} {first last : ℤ}

/-- The calls of a step are those that the client part takes. -/
theorem client_reads (hs : (machine o codec).Step w e w') :
    (w'.client = w.client ∧ e.readings = []) ∨
      ∃ e', RpcClient.machine.Step w.client e' w'.client ∧ e'.readings = e.readings := by
  obtain ⟨henabled, happly⟩ := hs
  cases e with
  | call request times warn =>
    obtain rfl := Except.ok.inj happly
    refine Or.inr ⟨.call request.id request.service request.method times warn, ⟨henabled, ?_⟩, rfl⟩
    simp only [DirectClient.call]
    split_ifs <;> rfl
  | settled id times info error =>
    obtain ⟨outcome, houtcome⟩ := Option.ne_none_iff_exists'.1 henabled.2
    simp only [machine, apply, houtcome] at happly
    obtain rfl := Except.ok.inj happly
    exact Or.inr ⟨.settled id outcome times info error, ⟨henabled.1, rfl⟩, rfl⟩
  | connect =>
    obtain rfl := Except.ok.inj happly
    exact Or.inl ⟨rfl, rfl⟩
  | resetMetrics =>
    obtain rfl := Except.ok.inj happly
    exact Or.inr ⟨.resetMetrics, ⟨trivial, rfl⟩, rfl⟩
  | network e =>
    obtain ⟨network, -, rfl⟩ := apply_network happly
    exact Or.inl ⟨rfl, rfl⟩

theorem client_of_run (hrun : (machine o codec).Run w events w') : ∃ es,
    RpcClient.machine.Run w.client es w'.client ∧
      es.flatMap RpcClientEvent.readings = events.flatMap DirectEvent.readings :=
  hrun.part_traced DirectClient.client (I := fun _ => True) (fun _ _ _ _ _ => trivial)
    (fun _ _ _ _ hs => client_reads hs) trivial

theorem admitted_le_of_run {breaker : Option CircuitBreakerOptions} {now : ℤ}
    (hbefore : (machine o codec).Run (start ⟨breaker, some limits⟩ now codec) before w)
    (hrun : (machine o codec).Run w events w')
    (hcounted : limits.Counted now ((before ++ events).flatMap DirectEvent.readings))
    (hclock : ∀ r ∈ events.flatMap DirectEvent.readings, first ≤ r.now ∧ r.now ≤ last) :
    ((events.flatMap DirectEvent.readings).map CallReading.id).countP w'.client.admitted ≤
        limits.granted now (before.flatMap DirectEvent.readings)
          (events.flatMap DirectEvent.readings) ∧
      limits.granted now (before.flatMap DirectEvent.readings)
        (events.flatMap DirectEvent.readings) ≤ limits.normalize.most first last := by
  obtain ⟨cs₀, hclient₀, htrace₀⟩ := client_of_run hbefore
  obtain ⟨cs, hclient, htrace⟩ := client_of_run hrun
  rw [List.flatMap_append, ← htrace, ← htrace₀, ← List.flatMap_append] at hcounted
  rw [← htrace] at hclock ⊢
  rw [← htrace₀]
  exact RpcClient.admitted_le_granted hclient₀ hclient hcounted hclock

theorem Wf.sends_le (h : Wf o codec w) (id : String) :
    (w.network.transmissions.countP fun x => x.request.id = id) ≤
      if w.client.admitted id then 1 else 0 := by
  have honce := h.sentOnce
  by_cases hid : w.client.admitted id = true
  · rw [if_pos hid]
    exact honce.once id
  · rw [if_neg hid, Nat.le_zero, List.countP_eq_zero]
    intro x hx hsame
    obtain ⟨call, hcall, hphase, -⟩ := honce.owned x hx
    rw [of_decide_eq_true hsame] at hcall
    exact hid (RpcClient.admitted_of_get hcall hphase)

/-- The sends of the calls that are made between `first` and `last` are no more than the calls that
the limiter grants there. -/
theorem direct_sends_limited {breaker : Option CircuitBreakerOptions} {now : ℤ}
    (hbefore : (machine o codec).Run (start ⟨breaker, some limits⟩ now codec) before w)
    (hrun : (machine o codec).Run w events w')
    (hcounted : limits.Counted now ((before ++ events).flatMap DirectEvent.readings))
    (hclock : ∀ r ∈ events.flatMap DirectEvent.readings, first ≤ r.now ∧ r.now ≤ last) :
    (w'.network.transmissions.countP fun x =>
        x.request.id ∈ (events.flatMap DirectEvent.readings).map CallReading.id) ≤
        limits.granted now (before.flatMap DirectEvent.readings)
          (events.flatMap DirectEvent.readings) ∧
      limits.granted now (before.flatMap DirectEvent.readings)
        (events.flatMap DirectEvent.readings) ≤ limits.normalize.most first last := by
  have hwf := Wf.of_reachable ⟨_, hbefore.append hrun⟩
  obtain ⟨hadmitted, hmost⟩ := admitted_le_of_run hbefore hrun hcounted hclock
  have hsent := ListCounts.sum_le_mul_countP _ w'.client.admitted 1
    ((events.flatMap DirectEvent.readings).map CallReading.id) fun id _ => hwf.sends_le id
  have hunion := ListCounts.countP_mem_le (fun x : Transmission => x.request.id)
    ((events.flatMap DirectEvent.readings).map CallReading.id) w'.network.transmissions
  exact ⟨by omega, hmost⟩

/-- Two calls in one interval of a limiter with one token; the first is sent. -/
def sampleBurst : List DirectEvent :=
  .call ⟨"1", "s", "m", [], none⟩ ⟨0, 0, 0⟩ none ::
    .call ⟨"2", "s", "m", [], none⟩ ⟨1, 1, 1⟩ none :: sampleConnected.tail.map .network

def sampleLimited : Option DirectClient :=
  (machine sampleDirectOptions sampleCodec).exec
    (start ⟨none, some ⟨1, 1, 100⟩⟩ 0 sampleCodec) sampleBurst

theorem sampleLimited_isSome : sampleLimited.isSome := by decide +kernel

theorem direct_sends_limited_sampleLimited :
    ((sampleLimited.get sampleLimited_isSome).network.transmissions.countP fun x =>
        x.request.id ∈ (sampleBurst.flatMap DirectEvent.readings).map CallReading.id) ≤
        RateLimiterOptions.granted ⟨1, 1, 100⟩ 0 (([] : List DirectEvent).flatMap
          DirectEvent.readings) (sampleBurst.flatMap DirectEvent.readings) ∧
      RateLimiterOptions.granted ⟨1, 1, 100⟩ 0 (([] : List DirectEvent).flatMap
        DirectEvent.readings) (sampleBurst.flatMap DirectEvent.readings) ≤
        (RateLimiterOptions.normalize ⟨1, 1, 100⟩).most 0 1 :=
  direct_sends_limited (.nil _) (Machine.run_exec_get sampleLimited_isSome)
    ⟨by norm_num, by decide, by decide +kernel⟩ (by decide +kernel)

end DirectClient

end Client

namespace Discovery
open Client (ClientNetwork CommonRpcClientOptions Transmission)
open Client.ClientNetwork (sampleClientOptions sampleConnected)
open DiscoveryClient (sampleOptions sampleDraw)

def NetworkedEvent.readings : NetworkedEvent → List CallReading
  | .call request times _ _ _ => [⟨request.id, times.limiterAt⟩]
  | .woken .. | .finished .. | .settled .. | .setActiveCount .. | .resetMetrics | .network _ => []

namespace NetworkedClient
variable {o : CommonRpcClientOptions} {codec : RpcCodec} {options : RetryOptions}
  {w w' : NetworkedClient} {e : NetworkedEvent} {before events : List NetworkedEvent}
  {limits : RateLimiterOptions} {first last : ℤ} {id : String} {n : ℕ}

theorem client_reads (hs : (machine o codec options).Step w e w') :
    (w'.failover.client = w.failover.client ∧ e.readings = []) ∨ ∃ e',
      RpcClient.machine.Step w.failover.client e' w'.failover.client ∧ e'.readings = e.readings := by
  obtain ⟨henabled, happly⟩ := hs
  cases e with
  | call request times warn endpoints random =>
    obtain rfl := Except.ok.inj happly
    rw [startAttempt_failover]
    refine Or.inr ⟨.call request.id request.service request.method times warn,
      ⟨henabled.1, ?_⟩, rfl⟩
    simp only [FailoverClient.apply, FailoverClient.call]
    split_ifs <;> rfl
  | woken id random =>
    obtain rfl := Except.ok.inj happly
    rw [startAttempt_failover]
    exact Or.inl ⟨rfl, rfl⟩
  | finished id retry =>
    obtain rfl := Except.ok.inj happly
    refine Or.inl ⟨?_, rfl⟩
    unfold NetworkedClient.finished
    repeat' split
    all_goals rfl
  | settled id times info error =>
    obtain rfl := Except.ok.inj happly
    obtain ⟨outcome, houtcome⟩ := Option.ne_none_iff_exists'.1 henabled.2
    refine Or.inr ⟨.settled id outcome times info error, ⟨henabled.1, ?_⟩, rfl⟩
    simp only [FailoverClient.apply, houtcome]
    rfl
  | setActiveCount endpoint count =>
    obtain rfl := Except.ok.inj happly
    exact Or.inl ⟨rfl, rfl⟩
  | resetMetrics =>
    obtain rfl := Except.ok.inj happly
    exact Or.inr ⟨.resetMetrics, ⟨trivial, rfl⟩, rfl⟩
  | network e =>
    obtain ⟨network, -, rfl⟩ := apply_network happly
    exact Or.inl ⟨rfl, rfl⟩

theorem client_of_run (hrun : (machine o codec options).Run w events w') : ∃ es,
    RpcClient.machine.Run w.failover.client es w'.failover.client ∧
      es.flatMap RpcClientEvent.readings = events.flatMap NetworkedEvent.readings :=
  hrun.part_traced (fun w => w.failover.client) (I := fun _ => True) (fun _ _ _ _ _ => trivial)
    (fun _ _ _ _ hs => client_reads hs) trivial

theorem admitted_le_of_run {breaker : Option CircuitBreakerOptions} {now : ℤ}
    {loadBalancer : LoadBalancer} (hbefore : (machine o codec options).Run
      (start ⟨breaker, some limits⟩ now loadBalancer codec) before w)
    (hrun : (machine o codec options).Run w events w')
    (hcounted : limits.Counted now ((before ++ events).flatMap NetworkedEvent.readings))
    (hclock : ∀ r ∈ events.flatMap NetworkedEvent.readings, first ≤ r.now ∧ r.now ≤ last) :
    ((events.flatMap NetworkedEvent.readings).map CallReading.id).countP
        w'.failover.client.admitted ≤ limits.granted now
          (before.flatMap NetworkedEvent.readings) (events.flatMap NetworkedEvent.readings) ∧
      limits.granted now (before.flatMap NetworkedEvent.readings)
        (events.flatMap NetworkedEvent.readings) ≤ limits.normalize.most first last := by
  obtain ⟨cs₀, hclient₀, htrace₀⟩ := client_of_run hbefore
  obtain ⟨cs, hclient, htrace⟩ := client_of_run hrun
  rw [List.flatMap_append, ← htrace, ← htrace₀, ← List.flatMap_append] at hcounted
  rw [← htrace] at hclock ⊢
  rw [← htrace₀]
  exact RpcClient.admitted_le_granted hclient₀ hclient hcounted hclock

/-- The loop of a call that is made in a run has the limit that the call was given. -/
theorem limit_of_run (hrun : (machine o codec options).Run w events w')
    (hlimit : ∀ e ∈ events, ∀ p ∈ e.limit options, p.2 ≤ n) (hfresh : w.loopOf id = none) :
    ∀ loop, w'.loopOf id = some loop → loop.maxAttempts ≤ n := by
  refine hrun.invariant_mem (I := fun v => ∀ loop, v.loopOf id = some loop → loop.maxAttempts ≤ n)
    (fun v e v' he hi hs loop hget => ?_) fun loop hget => ?_
  · rcases limit_of_part (failover_step hs) hget with hnew | ⟨before, hbefore, hsame⟩
    · exact hlimit e he _ hnew
    · exact hsame ▸ hi before hbefore
  · rw [hfresh] at hget
    cases hget

theorem Wf.loop_none (h : Wf o codec options w) (hid : w.failover.client.admitted id ≠ true) :
    w.loopOf id = none := by
  have hmatched := h.matched id
  unfold FailoverClient.MatchedAt Matched at hmatched
  unfold RpcClient.admitted at hid
  split at hid
  · exact absurd rfl hid
  · exact absurd rfl hid
  · rename_i error hphase
    rw [hphase] at hmatched
    exact hmatched
  · rename_i hphase
    rw [hphase] at hmatched
    exact hmatched

theorem Wf.sends_le (h : Wf o codec options w)
    (hlimit : ∀ loop, w.loopOf id = some loop → loop.maxAttempts ≤ n) :
    (w.network.transmissions.countP fun x => x.request.id = id) ≤
      if w.failover.client.admitted id then n else 0 := by
  have hbounded := h.sendsBounded
  cases hget : w.loopOf id with
  | none =>
    have hnone : (w.network.transmissions.countP fun x => x.request.id = id) = 0 := by
      rw [List.countP_eq_zero]
      intro x hx hsame
      obtain ⟨loop, endpoint, hloop, -⟩ := hbounded.owned x hx
      rw [of_decide_eq_true hsame, hget] at hloop
      cases hloop
    omega
  | some loop =>
    obtain ⟨request, -, hsends, -⟩ := hbounded.bounded id loop hget
    have hid : w.failover.client.admitted id = true := by
      by_contra hid
      rw [h.loop_none hid] at hget
      cases hget
    have hattempted := (h.bounded id loop hget).length_le
    have hn := hlimit loop hget
    rw [if_pos hid]
    omega

theorem sends_le_of_run {clientOptions : RpcClientOptions} {now : ℤ} {loadBalancer : LoadBalancer}
    (h : (machine o codec options).Reachable (start clientOptions now loadBalancer codec) w)
    (hrun : (machine o codec options).Run w events w')
    (hlimit : ∀ e ∈ events, ∀ p ∈ e.limit options, p.2 ≤ n)
    (hid : id ∈ (events.flatMap NetworkedEvent.readings).map CallReading.id) :
    (w'.network.transmissions.countP fun x => x.request.id = id) ≤
      if w'.failover.client.admitted id then n else 0 := by
  obtain ⟨es, hclient, htrace⟩ := client_of_run hrun
  obtain ⟨r, hr, rfl⟩ := List.mem_map.mp hid
  rw [← htrace] at hr
  have hfresh := RpcClient.fresh_of_run hclient hr
  have hnew : w.failover.client.admitted r.id ≠ true := by
    simp [RpcClient.admitted, hfresh]
  exact (Wf.of_reachable (h.trans ⟨events, hrun⟩)).sends_le
    (limit_of_run hrun hlimit ((Wf.of_reachable h).loop_none hnew))

/-- The sends of the calls that are made between `first` and `last` are no more than the attempts of
the calls that the limiter grants there. -/
theorem sends_limited {breaker : Option CircuitBreakerOptions} {now : ℤ}
    {loadBalancer : LoadBalancer} (hbefore : (machine o codec options).Run
      (start ⟨breaker, some limits⟩ now loadBalancer codec) before w)
    (hrun : (machine o codec options).Run w events w')
    (hcounted : limits.Counted now ((before ++ events).flatMap NetworkedEvent.readings))
    (hclock : ∀ r ∈ events.flatMap NetworkedEvent.readings, first ≤ r.now ∧ r.now ≤ last)
    (hlimit : ∀ e ∈ events, ∀ p ∈ e.limit options, p.2 ≤ n) :
    (w'.network.transmissions.countP fun x =>
        x.request.id ∈ (events.flatMap NetworkedEvent.readings).map CallReading.id) ≤
        n * limits.granted now (before.flatMap NetworkedEvent.readings)
          (events.flatMap NetworkedEvent.readings) ∧
      limits.granted now (before.flatMap NetworkedEvent.readings)
        (events.flatMap NetworkedEvent.readings) ≤ limits.normalize.most first last := by
  obtain ⟨hadmitted, hmost⟩ := admitted_le_of_run hbefore hrun hcounted hclock
  have hsent := ListCounts.sum_le_mul_countP _ w'.failover.client.admitted n
    ((events.flatMap NetworkedEvent.readings).map CallReading.id)
    fun id hid => sends_le_of_run ⟨_, hbefore⟩ hrun hlimit hid
  have hunion := ListCounts.countP_mem_le (fun x : Transmission => x.request.id)
    ((events.flatMap NetworkedEvent.readings).map CallReading.id) w'.network.transmissions
  exact ⟨hunion.trans (hsent.trans (Nat.mul_le_mul_left n hadmitted)), hmost⟩

/-- The same two calls in discovery mode. -/
def sampleBurst : List NetworkedEvent :=
  .call ⟨"1", "s", "m", [], none⟩ ⟨0, 0, 0⟩ none [⟨"127.0.0.1", 4000, none⟩] sampleDraw ::
    .call ⟨"2", "s", "m", [], none⟩ ⟨1, 1, 1⟩ none [⟨"127.0.0.1", 4000, none⟩] sampleDraw ::
      sampleConnected.tail.map .network

def sampleLimited : Option NetworkedClient :=
  (machine sampleClientOptions sampleCodec sampleOptions).exec
    (start ⟨none, some ⟨1, 1, 100⟩⟩ 0 (.roundRobin ⟨.empty⟩) sampleCodec) sampleBurst

theorem sampleLimited_isSome : sampleLimited.isSome := by decide +kernel

theorem sends_limited_sampleLimited :
    ((sampleLimited.get sampleLimited_isSome).network.transmissions.countP fun x =>
        x.request.id ∈ (sampleBurst.flatMap NetworkedEvent.readings).map CallReading.id) ≤
        1 * RateLimiterOptions.granted ⟨1, 1, 100⟩ 0 (([] : List NetworkedEvent).flatMap
          NetworkedEvent.readings) (sampleBurst.flatMap NetworkedEvent.readings) ∧
      RateLimiterOptions.granted ⟨1, 1, 100⟩ 0 (([] : List NetworkedEvent).flatMap
        NetworkedEvent.readings) (sampleBurst.flatMap NetworkedEvent.readings) ≤
        (RateLimiterOptions.normalize ⟨1, 1, 100⟩).most 0 1 :=
  sends_limited (.nil _) (Machine.run_exec_get sampleLimited_isSome)
    ⟨by norm_num, by decide, by decide +kernel⟩ (by decide +kernel) (by decide +kernel)

end NetworkedClient

end Discovery

end WeisleyRpc
