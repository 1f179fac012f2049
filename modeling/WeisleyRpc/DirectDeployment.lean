import WeisleyRpc.DeploymentResults
import WeisleyRpc.DirectResults

/-!
# Calls in direct mode up to the server's methods

Whatever the connections do, a call in direct mode runs a method at most once, on all sockets
together, and the value that it returns is what this run returned.
-/

namespace WeisleyRpc.Client
open ClientNetwork (sampleClientOptions sampleConnection sampleConnected)

namespace DirectClient
variable {W : Wiring} {o : DirectRpcClientOptions} {codec : RpcCodec}
  {carry : String → JsValue → JsValue} {d : Deployment DirectClient}

def delivery : DirectEvent → Option Delivery
  | .network (.connection c (.socketData s chunk _)) => some ⟨c, s, chunk⟩
  | _ => none

def mode (o : DirectRpcClientOptions) (codec : RpcCodec) : ClientMode DirectClient DirectEvent where
  machine := machine o codec
  network := network
  delivery := delivery

instance (o : DirectRpcClientOptions) (codec : RpcCodec) (w : DirectClient) (e : DirectEvent) :
    Decidable ((mode o codec).machine.Enabled w e) :=
  inferInstanceAs (Decidable ((machine o codec).Enabled w e))

/-- A step of the client is a step of its network, or leaves it as it is. -/
theorem Wf.network_moves {w w' : DirectClient} {e : DirectEvent} (h : Wf o codec w)
    (hs : (machine o codec).Step w e w') : w'.network = w.network ∨ ∃ e',
      (ClientNetwork.machine o.common codec).Step w.network e' w'.network ∧
        ∀ c k chunk now, e' = .connection c (.socketData k chunk now) →
          delivery e = some ⟨c, k, chunk⟩ := by
  obtain ⟨henabled, happly⟩ := hs
  cases e with
  | call request times warn =>
    obtain rfl := Except.ok.inj happly
    simp only [DirectClient.call]
    split_ifs
    · exact Or.inl rfl
    · refine Or.inr ⟨.begin request o.host o.port, ⟨h.idle henabled, rfl⟩, fun _ _ _ _ he => ?_⟩
      cases he
  | settled id times info error =>
    obtain ⟨outcome, houtcome⟩ := Option.ne_none_iff_exists'.1 henabled.2
    simp only [machine, apply, houtcome] at happly
    obtain rfl := Except.ok.inj happly
    exact Or.inl rfl
  | connect =>
    obtain rfl := Except.ok.inj happly
    refine Or.inr ⟨.connect o.host o.port, connect_step o codec w.network, fun _ _ _ _ he => ?_⟩
    cases he
  | resetMetrics =>
    obtain rfl := Except.ok.inj happly
    exact Or.inl rfl
  | network e =>
    obtain ⟨network, hnetwork, rfl⟩ := apply_network happly
    refine Or.inr ⟨e, ⟨?_, hnetwork⟩, ?_⟩
    · cases e with
      | begin | connect => exact henabled.elim
      | resume | connection | close => exact henabled
    · rintro c k chunk now rfl
      rfl

theorem mode_moves : (mode o codec).Moves o.common codec (Wf o codec) where
  keeps _ _ _ h hs := h.step hs
  reachable _ h := h.network
  network _ _ _ h hs := h.network_moves hs

/-- A call to a server whose method returns seven. -/
def sampleEvents : List (DeploymentEvent DirectEvent) :=
  [.server sampleConnection.endpoint (.registerService "s" ⟨[("m", true)], []⟩),
    .server sampleConnection.endpoint (.listen Server.sampleServerOptions),
    .server sampleConnection.endpoint (.listening 0),
    .server sampleConnection.endpoint (.connection 0)] ++
  sampleCall.map .client ++
  [.server sampleConnection.endpoint (.data 0 (samplePacket sampleRequest) 1),
    .server sampleConnection.endpoint (.settle 0 0 (.ok (.number (.ofNat 7))) 2),
    .client (.network (.connection sampleConnection
      (.socketData 0 (samplePacket sampleResponse) 3))),
    .client (.network (.resume "1")), .client (.settled "1" ⟨5, 5, 5⟩ none none)]

def sampleDeployed : Option (Deployment DirectClient) :=
  ((Deployment.machine .pairing (mode sampleDirectOptions sampleCodec)).guard
    (Deployment.QueuesOwn (mode sampleDirectOptions sampleCodec))).exec
      (.start (start ⟨none, none⟩ 0 sampleCodec) (.ofTable sampleTable)) sampleEvents

theorem sampleDeployed_isSome : sampleDeployed.isSome := by decide +kernel

theorem sampleEvents_agreed :
    Agreed sampleDirectOptions.common sampleCodec (fun _ v => v) sampleEvents where
  new := rfl
  roundTrips := System.roundTrips_sample
  inflates _ h := by cases h
  listens endpoint listening h := by
    have hlisten : endpoint = sampleConnection.endpoint ∧
        listening = Server.sampleServerOptions := by
      simpa [sampleEvents, sampleCall, sampleConnected] using h
    rw [hlisten.2]
    rfl

theorem sampleDeployed_run :
    ((Deployment.machine .pairing (mode sampleDirectOptions sampleCodec)).guard
      (Deployment.QueuesOwn (mode sampleDirectOptions sampleCodec))).Run
      (.start (start ⟨none, none⟩ 0 sampleCodec) (.ofTable sampleTable)) sampleEvents
      (sampleDeployed.get sampleDeployed_isSome) :=
  Machine.run_exec_get sampleDeployed_isSome

/-- A call runs a method at most once on all sockets together, for the request it has sent, and a
call that was refused runs none. -/
structure ExecutedOnce (W : Wiring) (carry : String → JsValue → JsValue)
    (d : Deployment DirectClient) : Prop where
  arrived : ∀ c s, d.Accepted W c s → ∀ v ∈ (d.remote W c s).invocations,
    ∃ x ∈ d.client.network.transmissions, x.connection = c ∧ x.socket = s ∧
      Arrived carry x.request v.request ∧
        ∃ call, d.client.client.calls.get x.request.id = some call ∧
          (∀ error, call.phase ≠ .refused error) ∧ call.service = x.request.service ∧
            call.method = x.request.method
  once : ∀ id sockets, sockets.Nodup → (∀ p ∈ sockets, d.Accepted W p.1 p.2) →
    d.executions W id sockets ≤ 1

theorem direct_executes_once {options : RpcClientOptions} {now : ℤ} {serializer : Serializer}
    {es : List (DeploymentEvent DirectEvent)} (hagreed : Agreed o.common codec carry es)
    (hrun : ((Deployment.machine W (mode o codec)).guard (Deployment.QueuesOwn (mode o codec))).Run
      (.start (start options now codec) serializer) es d) : ExecutedOnce W carry d := by
  have h := Deployment.wf_of_run mode_moves (wf_start options now) rfl hrun
  have hexecuted := h.executed mode_moves (Deployment.shared_of_run hagreed hrun.unguard)
  have honce := h.client.sentOnce
  refine ⟨fun c s ha v hv => ?_, fun id sockets hn ha => ?_⟩
  · obtain ⟨x, hx, hconnection, hsocket, harrived⟩ := hexecuted.arrived c s ha v hv
    obtain ⟨call, hcall, hphase, hservice, hmethod, -⟩ := honce.owned x hx
    exact ⟨x, hx, hconnection, hsocket, harrived, call, hcall, hphase, hservice, hmethod⟩
  · exact Nat.le_trans (hexecuted.sent id sockets hn ha) (honce.once id)

theorem direct_executes_once_sampleDeployed : ExecutedOnce .pairing (fun _ v => v)
    (sampleDeployed.get sampleDeployed_isSome) :=
  direct_executes_once sampleEvents_agreed sampleDeployed_run

/-- The value of a call is what the method returned, for the arguments of the request, in an
invocation on the server's end of a connection to the address of the options. -/
structure ReturnedBy (W : Wiring) (o : DirectRpcClientOptions) (carry : String → JsValue → JsValue)
    (d : Deployment DirectClient) (id : String) (call : RpcCall) (value : JsValue)
    (x : Transmission) (m : JsValue) : Prop where
  sent : x ∈ d.client.network.transmissions
  named : x.request.id = id
  service : x.request.service = call.service
  method : x.request.method = call.method
  pooled : d.client.network.PooledFor x.connection o.host o.port
  answers : Answers carry (d.remote W x.connection x.socket) x.request m (.ok value)

theorem direct_returns_invocation {options : RpcClientOptions} {now : ℤ} {serializer : Serializer}
    {es : List (DeploymentEvent DirectEvent)} (hagreed : Agreed o.common codec carry es)
    (hrun : ((Deployment.machine W (mode o codec)).guard (Deployment.QueuesOwn (mode o codec))).Run
      (.start (start options now codec) serializer) es d) {id : String} {call : RpcCall}
    {outcome : Except Thrown JsValue} {value : JsValue}
    (hcall : d.client.client.calls.get id = some call)
    (hphase : call.phase = .settled outcome (.ok value)) :
    ∃ x m, ReturnedBy W o carry d id call value x m := by
  have h := Deployment.wf_of_run mode_moves (wf_start options now) rfl hrun
  have hshared := Deployment.shared_of_run hagreed hrun.unguard
  obtain ⟨⟨a, hsettled⟩, hvalue⟩ := h.client.settledBy hcall hphase
  obtain rfl := hvalue value rfl
  rcases hsettled.because with ⟨e, -, herror⟩ | ⟨ended, -, hended, hbecause⟩
  · cases herror
  · cases ended with
    | error e => cases hended
    | ok value' =>
      obtain rfl : value = value' := Except.ok.inj hended
      cases hbecause with
      | @answered c y s m _ _ _ _ received responds _ response _ =>
        obtain ⟨x, hx, rfl, rfl, hid, hanswers⟩ :=
          h.answers mode_moves hshared received responds response
        rw [hsettled.named] at hid
        obtain ⟨call', hcall', -, hservice, hmethod, hpooled⟩ := h.client.sentOnce.owned x hx
        rw [hid, hcall] at hcall'
        obtain rfl := Option.some.inj hcall'
        exact ⟨x, m, hx, hid, hservice.symm, hmethod.symm, hpooled, hanswers⟩

theorem direct_returns_invocation_sampleDeployed :
    ∃ x m, ReturnedBy .pairing sampleDirectOptions (fun _ v => v)
      (sampleDeployed.get sampleDeployed_isSome) "1" sampleRpcCall (.number (.ofNat 7)) x m := by
  have hcall : (sampleDeployed.get sampleDeployed_isSome).client.client.calls.get "1" =
      some sampleRpcCall := by
    decide +kernel
  exact direct_returns_invocation sampleEvents_agreed sampleDeployed_run hcall rfl

end DirectClient

end WeisleyRpc.Client
