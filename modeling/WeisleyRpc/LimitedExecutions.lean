import WeisleyRpc.DirectDeployment
import WeisleyRpc.LimitedSends
import WeisleyRpc.NetworkedDeployment

/-!
# The rate limiter up to the servers' methods

A method runs no more often than its request was sent. So the limiter of a client bounds how often
the servers run methods for it.
-/

namespace WeisleyRpc

def DeploymentEvent.ofClient {ε : Type} : DeploymentEvent ε → List ε
  | .client e => [e]
  | .server _ _ => []

/-- The calls that the client takes in a run, with what its limiter reads for them. -/
def clientReadings {ε : Type} (readings : ε → List CallReading)
    (events : List (DeploymentEvent ε)) : List CallReading :=
  (events.flatMap DeploymentEvent.ofClient).flatMap readings

namespace Deployment

/-- The client of a deployment makes a run of its own. -/
theorem client_of_run {σ ε : Type} {W : Wiring} {M : ClientMode σ ε} {d d' : Deployment σ}
    {events : List (DeploymentEvent ε)} (hrun : (machine W M).Run d events d') :
    M.machine.Run d.client (events.flatMap DeploymentEvent.ofClient) d'.client := by
  have hstep : ∀ s e t, True → (machine W M).Step s e t →
      (t.client = s.client ∧ DeploymentEvent.ofClient e = []) ∨
        ∃ z, M.machine.Step s.client z t.client ∧ [z] = DeploymentEvent.ofClient e := by
    rintro s e t - ⟨henabled, happly⟩
    cases e with
    | client e =>
      obtain ⟨client, hclient, rfl⟩ := apply_client happly
      exact Or.inr ⟨e, ⟨henabled.1, hclient⟩, rfl⟩
    | server endpoint e =>
      obtain ⟨w, -, rfl⟩ := apply_server (M := M) happly
      exact Or.inl ⟨rfl, rfl⟩
  obtain ⟨es, hclient, htrace⟩ :=
    hrun.part_traced Deployment.client (fun _ _ _ _ _ => trivial) hstep trivial
  rw [← htrace, List.flatMap_singleton']
  exact hclient

end Deployment

namespace Client.DirectClient
open ClientNetwork (sampleConnection sampleConnected)
variable {W : Wiring} {o : DirectRpcClientOptions} {codec : RpcCodec}
  {carry : String → JsValue → JsValue} {d d' : Deployment DirectClient}
  {before events : List (DeploymentEvent DirectEvent)} {limits : RateLimiterOptions}
  {first last : ℤ} {sockets : List (ConnectionId × SocketId)}

/-- Methods run for the calls that are made between `first` and `last` no more often than the
limiter grants calls there. -/
theorem direct_executions_limited {breaker : Option CircuitBreakerOptions} {now : ℤ}
    {serializer : Serializer} (hagreed : Agreed o.common codec carry (before ++ events))
    (hbefore : ((Deployment.machine W (mode o codec)).guard
      (Deployment.QueuesOwn (mode o codec))).Run
        (.start (start ⟨breaker, some limits⟩ now codec) serializer) before d)
    (hrun : ((Deployment.machine W (mode o codec)).guard
      (Deployment.QueuesOwn (mode o codec))).Run d events d')
    (hcounted : limits.Counted now (clientReadings DirectEvent.readings (before ++ events)))
    (hclock : ∀ r ∈ clientReadings DirectEvent.readings events, first ≤ r.now ∧ r.now ≤ last)
    (hn : sockets.Nodup) (ha : ∀ p ∈ sockets, d'.Accepted W p.1 p.2) :
    (((clientReadings DirectEvent.readings events).map CallReading.id).map fun id =>
        d'.executions W id sockets).sum ≤ limits.granted now
          (clientReadings DirectEvent.readings before)
          (clientReadings DirectEvent.readings events) ∧
      limits.granted now (clientReadings DirectEvent.readings before)
        (clientReadings DirectEvent.readings events) ≤ limits.normalize.most first last := by
  have hwhole := hbefore.append hrun
  have h := Deployment.wf_of_run mode_moves (wf_start ⟨breaker, some limits⟩ now) rfl hwhole
  have hexecuted := h.executed mode_moves (Deployment.shared_of_run hagreed hwhole.unguard)
  rw [clientReadings, List.flatMap_append] at hcounted
  obtain ⟨hadmitted, hmost⟩ := admitted_le_of_run (Deployment.client_of_run hbefore.unguard)
    (Deployment.client_of_run hrun.unguard) hcounted hclock
  have hsum := ListCounts.sum_le_mul_countP (fun id => d'.executions W id sockets)
    d'.client.client.admitted 1 ((clientReadings DirectEvent.readings events).map CallReading.id)
    fun id _ => (hexecuted.sent id sockets hn ha).trans (h.client.sends_le id)
  rw [Nat.one_mul] at hsum
  exact ⟨hsum.trans hadmitted, hmost⟩

/-- The granted call of the burst reaches the server. -/
def sampleBurstEvents : List (DeploymentEvent DirectEvent) :=
  [.server sampleConnection.endpoint (.registerService "s" ⟨[("m", true)], []⟩),
    .server sampleConnection.endpoint (.listen Server.sampleServerOptions),
    .server sampleConnection.endpoint (.listening 0),
    .server sampleConnection.endpoint (.connection 0)] ++
  sampleBurst.map .client ++
  [.server sampleConnection.endpoint (.data 0 (samplePacket sampleRequest) 1)]

def sampleBurstDeployed : Option (Deployment DirectClient) :=
  ((Deployment.machine .pairing (mode sampleDirectOptions sampleCodec)).guard
    (Deployment.QueuesOwn (mode sampleDirectOptions sampleCodec))).exec
      (.start (start ⟨none, some ⟨1, 1, 100⟩⟩ 0 sampleCodec) (.ofTable sampleTable))
      sampleBurstEvents

theorem sampleBurstDeployed_isSome : sampleBurstDeployed.isSome := by decide +kernel

theorem sampleBurstEvents_agreed :
    Agreed sampleDirectOptions.common sampleCodec (fun _ v => v) ([] ++ sampleBurstEvents) where
  new := rfl
  roundTrips := System.roundTrips_sample
  inflates _ h := by cases h
  listens endpoint listening h := by
    have hlisten : endpoint = sampleConnection.endpoint ∧
        listening = Server.sampleServerOptions := by
      simpa [sampleBurstEvents, sampleBurst, sampleConnected] using h
    rw [hlisten.2]
    rfl

theorem sampleBurstDeployed_run :
    ((Deployment.machine .pairing (mode sampleDirectOptions sampleCodec)).guard
      (Deployment.QueuesOwn (mode sampleDirectOptions sampleCodec))).Run
        (.start (start ⟨none, some ⟨1, 1, 100⟩⟩ 0 sampleCodec) (.ofTable sampleTable))
        sampleBurstEvents (sampleBurstDeployed.get sampleBurstDeployed_isSome) :=
  Machine.run_exec_get sampleBurstDeployed_isSome

theorem direct_executions_limited_sampleBurst :
    (((clientReadings DirectEvent.readings sampleBurstEvents).map CallReading.id).map fun id =>
      (sampleBurstDeployed.get sampleBurstDeployed_isSome).executions .pairing id
        [(sampleConnection, 0)]).sum ≤ RateLimiterOptions.granted ⟨1, 1, 100⟩ 0
          (clientReadings DirectEvent.readings [])
          (clientReadings DirectEvent.readings sampleBurstEvents) ∧
      RateLimiterOptions.granted ⟨1, 1, 100⟩ 0 (clientReadings DirectEvent.readings [])
        (clientReadings DirectEvent.readings sampleBurstEvents) ≤
          (RateLimiterOptions.normalize ⟨1, 1, 100⟩).most 0 1 :=
  direct_executions_limited sampleBurstEvents_agreed (.nil _) sampleBurstDeployed_run
    ⟨by norm_num, by decide, by decide +kernel⟩ (by decide +kernel) (by decide +kernel)
    (by decide +kernel)

end Client.DirectClient

namespace Discovery.NetworkedClient
open Client (CommonRpcClientOptions ConnectionId)
open Client.ClientNetwork (sampleClientOptions sampleConnection sampleConnected)
open DiscoveryClient (sampleOptions)
variable {W : Wiring} {o : CommonRpcClientOptions} {codec : RpcCodec} {options : RetryOptions}
  {carry : String → JsValue → JsValue} {d d' : Deployment NetworkedClient}
  {before events : List (DeploymentEvent NetworkedEvent)} {limits : RateLimiterOptions}
  {first last : ℤ} {sockets : List (ConnectionId × Client.SocketId)} {n : ℕ}

/-- Methods run for the calls that are made between `first` and `last`, on all servers together, no
more often than the calls that the limiter grants there may be attempted. -/
theorem executions_limited {breaker : Option CircuitBreakerOptions} {now : ℤ}
    {loadBalancer : LoadBalancer} {serializer : Serializer}
    (hagreed : Agreed o codec carry (before ++ events))
    (hbefore : ((Deployment.machine W (mode o codec options)).guard
      (Deployment.QueuesOwn (mode o codec options))).Run
        (.start (start ⟨breaker, some limits⟩ now loadBalancer codec) serializer) before d)
    (hrun : ((Deployment.machine W (mode o codec options)).guard
      (Deployment.QueuesOwn (mode o codec options))).Run d events d')
    (hcounted : limits.Counted now (clientReadings NetworkedEvent.readings (before ++ events)))
    (hclock : ∀ r ∈ clientReadings NetworkedEvent.readings events, first ≤ r.now ∧ r.now ≤ last)
    (hlimit : ∀ e ∈ events.flatMap DeploymentEvent.ofClient, ∀ p ∈ e.limit options, p.2 ≤ n)
    (hn : sockets.Nodup) (ha : ∀ p ∈ sockets, d'.Accepted W p.1 p.2) :
    (((clientReadings NetworkedEvent.readings events).map CallReading.id).map fun id =>
        d'.executions W id sockets).sum ≤ n * limits.granted now
          (clientReadings NetworkedEvent.readings before)
          (clientReadings NetworkedEvent.readings events) ∧
      limits.granted now (clientReadings NetworkedEvent.readings before)
        (clientReadings NetworkedEvent.readings events) ≤ limits.normalize.most first last := by
  have hwhole := hbefore.append hrun
  have hexecuted := (deployed_of_run hwhole).executed mode_moves
    (Deployment.shared_of_run hagreed hwhole.unguard)
  have hstart : (machine o codec options).Reachable
      (start ⟨breaker, some limits⟩ now loadBalancer codec) d.client :=
    ⟨_, Deployment.client_of_run hbefore.unguard⟩
  have hclient := Deployment.client_of_run hrun.unguard
  rw [clientReadings, List.flatMap_append] at hcounted
  obtain ⟨hadmitted, hmost⟩ := admitted_le_of_run (Deployment.client_of_run hbefore.unguard)
    hclient hcounted hclock
  have hsum := ListCounts.sum_le_mul_countP (fun id => d'.executions W id sockets)
    d'.client.failover.client.admitted n
    ((clientReadings NetworkedEvent.readings events).map CallReading.id) fun id hid =>
      (hexecuted.sent id sockets hn ha).trans (sends_le_of_run hstart hclient hlimit hid)
  exact ⟨hsum.trans (Nat.mul_le_mul_left n hadmitted), hmost⟩

/-- The granted call of the burst reaches the server. -/
def sampleBurstEvents : List (DeploymentEvent NetworkedEvent) :=
  [.server sampleConnection.endpoint (.registerService "s" ⟨[("m", true)], []⟩),
    .server sampleConnection.endpoint (.listen Server.sampleServerOptions),
    .server sampleConnection.endpoint (.listening 0),
    .server sampleConnection.endpoint (.connection 0)] ++
  sampleBurst.map .client ++
  [.server sampleConnection.endpoint (.data 0 (samplePacket sampleRequest) 1)]

def sampleBurstDeployed : Option (Deployment NetworkedClient) :=
  ((Deployment.machine .pairing (mode sampleClientOptions sampleCodec sampleOptions)).guard
    (Deployment.QueuesOwn (mode sampleClientOptions sampleCodec sampleOptions))).exec
      (.start (start ⟨none, some ⟨1, 1, 100⟩⟩ 0 (.roundRobin ⟨.empty⟩) sampleCodec)
        (.ofTable sampleTable)) sampleBurstEvents

theorem sampleBurstDeployed_isSome : sampleBurstDeployed.isSome := by decide +kernel

theorem sampleBurstEvents_agreed :
    Agreed sampleClientOptions sampleCodec (fun _ v => v) ([] ++ sampleBurstEvents) where
  new := rfl
  roundTrips := System.roundTrips_sample
  inflates _ h := by cases h
  listens endpoint listening h := by
    have hlisten : endpoint = sampleConnection.endpoint ∧
        listening = Server.sampleServerOptions := by
      simpa [sampleBurstEvents, sampleBurst, sampleConnected] using h
    rw [hlisten.2]
    rfl

theorem sampleBurstDeployed_run :
    ((Deployment.machine .pairing (mode sampleClientOptions sampleCodec sampleOptions)).guard
      (Deployment.QueuesOwn (mode sampleClientOptions sampleCodec sampleOptions))).Run
        (.start (start ⟨none, some ⟨1, 1, 100⟩⟩ 0 (.roundRobin ⟨.empty⟩) sampleCodec)
          (.ofTable sampleTable)) sampleBurstEvents
        (sampleBurstDeployed.get sampleBurstDeployed_isSome) :=
  Machine.run_exec_get sampleBurstDeployed_isSome

theorem executions_limited_sampleBurst :
    (((clientReadings NetworkedEvent.readings sampleBurstEvents).map CallReading.id).map fun id =>
      (sampleBurstDeployed.get sampleBurstDeployed_isSome).executions .pairing id
        [(sampleConnection, 0)]).sum ≤ 1 * RateLimiterOptions.granted ⟨1, 1, 100⟩ 0
          (clientReadings NetworkedEvent.readings [])
          (clientReadings NetworkedEvent.readings sampleBurstEvents) ∧
      RateLimiterOptions.granted ⟨1, 1, 100⟩ 0 (clientReadings NetworkedEvent.readings [])
        (clientReadings NetworkedEvent.readings sampleBurstEvents) ≤
          (RateLimiterOptions.normalize ⟨1, 1, 100⟩).most 0 1 :=
  executions_limited sampleBurstEvents_agreed (.nil _) sampleBurstDeployed_run
    ⟨by norm_num, by decide, by decide +kernel⟩ (by decide +kernel) (by decide +kernel)
    (by decide +kernel) (by decide +kernel)

end Discovery.NetworkedClient

end WeisleyRpc
