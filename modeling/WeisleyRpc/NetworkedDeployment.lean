import WeisleyRpc.DeploymentResults
import WeisleyRpc.NetworkedResults

/-!
# Calls in discovery mode up to the servers' methods

The value of a call is what the method of the request returned in an invocation on the server of
an endpoint that was attempted, and the attempts of a call bound how often methods run for it on
all servers together.
-/

namespace WeisleyRpc.Discovery
open Client (ClientNetwork CommonRpcClientOptions ConnectionId)
open Client.ClientNetwork (sampleClientOptions sampleConnection sampleConnected)
open DiscoveryClient (sampleOptions sampleDraw)

namespace NetworkedClient
variable {W : Wiring} {o : CommonRpcClientOptions} {codec : RpcCodec} {options : RetryOptions}
  {carry : String → JsValue → JsValue} {d : Deployment NetworkedClient}

def delivery : NetworkedEvent → Option Delivery
  | .network (.connection c (.socketData s chunk _)) => some ⟨c, s, chunk⟩
  | _ => none

def mode (o : CommonRpcClientOptions) (codec : RpcCodec) (options : RetryOptions) :
    ClientMode NetworkedClient NetworkedEvent where
  machine := machine o codec options
  network := network
  delivery := delivery

instance (o : CommonRpcClientOptions) (codec : RpcCodec) (options : RetryOptions)
    (w : NetworkedClient) (e : NetworkedEvent) :
    Decidable ((mode o codec options).machine.Enabled w e) :=
  inferInstanceAs (Decidable ((machine o codec options).Enabled w e))

theorem mode_moves : (mode o codec options).Moves o codec (Wf o codec options) where
  keeps _ _ _ h hs := h.step hs
  reachable _ h := h.network
  network w e w' h hs := by
    refine (network_step h.coupled hs).imp (fun hsame => hsame.2) ?_
    rintro ⟨e', -, hcarries, hstep⟩
    refine ⟨e', hstep, ?_⟩
    rintro c k chunk now rfl
    rcases hcarries with rfl | ⟨request, host, port, hbegin⟩
    · rfl
    · cases hbegin

theorem deployed_of_run {clientOptions : RpcClientOptions} {now : ℤ} {loadBalancer : LoadBalancer}
    {serializer : Serializer} {es : List (DeploymentEvent NetworkedEvent)}
    (hrun : ((Deployment.machine W (mode o codec options)).guard
      (Deployment.QueuesOwn (mode o codec options))).Run
        (.start (start clientOptions now loadBalancer codec) serializer) es d) :
    Deployment.Wf W (mode o codec options) codec (Wf o codec options) d :=
  Deployment.wf_of_run mode_moves (wf_start clientOptions now loadBalancer) rfl hrun

/-- A call to a server whose method returns seven. -/
def sampleEvents : List (DeploymentEvent NetworkedEvent) :=
  [.server sampleConnection.endpoint (.registerService "s" ⟨[("m", true)], []⟩),
    .server sampleConnection.endpoint (.listen Server.sampleServerOptions),
    .server sampleConnection.endpoint (.listening 0),
    .server sampleConnection.endpoint (.connection 0)] ++
  sampleCall.map .client ++
  [.server sampleConnection.endpoint (.data 0 (samplePacket sampleRequest) 1),
    .server sampleConnection.endpoint (.settle 0 0 (.ok (.number (.ofNat 7))) 2),
    .client (.network (.connection sampleConnection
      (.socketData 0 ((samplePacket sampleResponse).take 20) 3))),
    .server sampleConnection.endpoint (.wrote 0 0 (.ok ()) 4),
    .client (.network (.connection sampleConnection
      (.socketData 0 ((samplePacket sampleResponse).drop 20) 5))),
    .client (.network (.resume "1")), .client (.finished "1" false),
    .client (.settled "1" ⟨5, 5, 5⟩ none none)]

def sampleDeployed : Option (Deployment NetworkedClient) :=
  ((Deployment.machine .pairing (mode sampleClientOptions sampleCodec sampleOptions)).guard
    (Deployment.QueuesOwn (mode sampleClientOptions sampleCodec sampleOptions))).exec
      (.start sampleStart (.ofTable sampleTable)) sampleEvents

theorem sampleDeployed_isSome : sampleDeployed.isSome := by decide +kernel

theorem sampleEvents_agreed :
    Agreed sampleClientOptions sampleCodec (fun _ v => v) sampleEvents where
  new := rfl
  roundTrips := System.roundTrips_sample
  inflates _ h := by cases h
  listens endpoint listening h := by
    have hlisten : endpoint = sampleConnection.endpoint ∧
        listening = Server.sampleServerOptions := by
      simpa [sampleEvents, sampleCall, sampleConnected] using h
    rw [hlisten.2]
    rfl

theorem sampleDeployed_run :
    ((Deployment.machine .pairing (mode sampleClientOptions sampleCodec sampleOptions)).guard
      (Deployment.QueuesOwn (mode sampleClientOptions sampleCodec sampleOptions))).Run
        (.start sampleStart (.ofTable sampleTable)) sampleEvents
        (sampleDeployed.get sampleDeployed_isSome) :=
  Machine.run_exec_get sampleDeployed_isSome

/-- A value that `call` returns is what the method of the request returned, for the arguments of
the request, in an invocation on the server at an endpoint that was attempted for the call. -/
theorem call_returns_invocation {clientOptions : RpcClientOptions} {now : ℤ}
    {loadBalancer : LoadBalancer} {serializer : Serializer}
    {es : List (DeploymentEvent NetworkedEvent)} (hagreed : Agreed o codec carry es)
    (hrun : ((Deployment.machine W (mode o codec options)).guard
      (Deployment.QueuesOwn (mode o codec options))).Run
        (.start (start clientOptions now loadBalancer codec) serializer) es d)
    {id : String} {call : RpcCall} {outcome : Except Thrown JsValue} {value : JsValue}
    (hcall : d.client.failover.client.calls.get id = some call)
    (hsettled : call.phase = .settled outcome (.ok value)) :
    ∃ request loop endpoint c s m, d.client.requests.get id = some request ∧
      d.client.loopOf id = some loop ∧ d.client.AnsweredBy request loop value endpoint c m ∧
        Answers carry (d.remote W c s) request m (.ok value) := by
  have h := deployed_of_run hrun
  have hshared := Deployment.shared_of_run hagreed hrun.unguard
  obtain ⟨request, loop, endpoint, c, m, hrequest, hloop, hanswered⟩ :=
    h.client.value_answered hcall hsettled
  obtain ⟨s, hm⟩ := hanswered.received
  have hvalue : Client.World.responseOutcome m = .ok (.ok value) := by
    rw [Client.World.responseOutcome, if_pos hanswered.result.1, hanswered.result.2]
  obtain ⟨x, hx, -, -, hid, hanswers⟩ :=
    h.answers mode_moves hshared hm hanswered.responds hvalue
  obtain ⟨loop', endpoint', -, howned⟩ := h.client.ownedBy hx
  have hstored := howned.request
  rw [hid, h.client.coupled.named id request hrequest, hrequest] at hstored
  have hsame : x.request = request := (Option.some.inj hstored).symm
  exact ⟨request, loop, endpoint, c, s, m, hrequest, hloop, hanswered, hsame ▸ hanswers⟩

theorem call_returns_invocation_sampleDeployed : ∃ request loop endpoint c s m,
    (sampleDeployed.get sampleDeployed_isSome).client.requests.get "1" = some request ∧
      (sampleDeployed.get sampleDeployed_isSome).client.loopOf "1" = some loop ∧
        (sampleDeployed.get sampleDeployed_isSome).client.AnsweredBy request loop
          (.number (.ofNat 7)) endpoint c m ∧
        Answers (fun _ v => v) ((sampleDeployed.get sampleDeployed_isSome).remote .pairing c s)
          request m (.ok (.number (.ofNat 7))) := by
  have hcall : (sampleDeployed.get sampleDeployed_isSome).client.failover.client.calls.get "1" =
      some ⟨"s", "m", 0, .settled (.ok (.number (.ofNat 7))) (.ok (.number (.ofNat 7))), [],
        [true]⟩ := by
    decide +kernel
  exact call_returns_invocation sampleEvents_agreed sampleDeployed_run hcall rfl

/-- Methods run for a call, on all sockets together, no more often than it has attempts, and only
for requests that were sent. A call that was refused runs none. -/
structure ExecutionsBounded (W : Wiring) (options : RetryOptions)
    (carry : String → JsValue → JsValue) (d : Deployment NetworkedClient) : Prop where
  executed : d.Executed W carry d.client.network
  bounded : ∀ id loop, d.client.loopOf id = some loop → ∃ request,
    d.client.requests.get id = some request ∧
      loop.attempted.length ≤
        options.getMaxAttempts request.service request.method loop.endpoints.length ∧
      ∀ sockets : List (ConnectionId × Client.SocketId), sockets.Nodup →
        (∀ p ∈ sockets, d.Accepted W p.1 p.2) →
          d.executions W id sockets ≤ loop.attempted.length
  refused : ∀ id call error, d.client.failover.client.calls.get id = some call →
    call.phase = .refused error → ∀ c s, d.Accepted W c s →
      ∀ v ∈ (d.remote W c s).invocations, v.request.prop "id" ≠ .string id

theorem executions_bounded {clientOptions : RpcClientOptions} {now : ℤ}
    {loadBalancer : LoadBalancer} {serializer : Serializer}
    {es : List (DeploymentEvent NetworkedEvent)} (hagreed : Agreed o codec carry es)
    (hrun : ((Deployment.machine W (mode o codec options)).guard
      (Deployment.QueuesOwn (mode o codec options))).Run
        (.start (start clientOptions now loadBalancer codec) serializer) es d) :
    ExecutionsBounded W options carry d := by
  have h := deployed_of_run hrun
  have hexecuted := h.executed mode_moves (Deployment.shared_of_run hagreed hrun.unguard)
  have hbounded := h.client.sendsBounded
  refine ⟨hexecuted, fun id loop hloop => ?_, fun id call error hget hphase c s ha v hv hid => ?_⟩
  · obtain ⟨request, hrequest, hle, hmax⟩ := hbounded.bounded id loop hloop
    exact ⟨request, hrequest, hmax,
      fun sockets hn ha => Nat.le_trans (hexecuted.sent id sockets hn ha) hle⟩
  · obtain ⟨x, hx, -, -, harrived⟩ := hexecuted.arrived c s ha v hv
    rw [harrived.id] at hid
    exact hbounded.refused id call error hget hphase x hx (JsValue.string.inj hid)

theorem executions_bounded_sampleDeployed : ExecutionsBounded .pairing sampleOptions
    (fun _ v => v) (sampleDeployed.get sampleDeployed_isSome) :=
  executions_bounded sampleEvents_agreed sampleDeployed_run

end NetworkedClient

end WeisleyRpc.Discovery
