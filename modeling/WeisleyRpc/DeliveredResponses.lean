import WeisleyRpc.DirectDeployment
import WeisleyRpc.NetworkedDeployment

/-!
# Responses that have been delivered

What a server has written as a response goes back to a request that was sent before, so the
connection that reads it holds the call as pending or has settled it already. When a call has sent
once on a socket, the response there leaves it settled, however the bytes were cut, and what waits
for it goes on.
-/

namespace WeisleyRpc.Client.World
variable {o : RpcConnectionOptions} {w w' : World}

/-- A response that a step has decoded leaves its call settled. -/
theorem settled_of_response {e : Event} (hs : (machine o).Step w e w') (hc : w.CallsWf)
    {a : AcceptedCall} (ha : a ∈ w.accepted) {s : SocketId} {m : JsValue}
    (hm : m ∈ (w'.sockets s).handled) (hr : Responds m a.id) :
    m ∈ (w.sockets s).handled ∨ a.call ∈ w'.settled.map Settlement.call := by
  change m ∈ (w'.stream s).handled at hm
  rcases step_stream hs s with ⟨-, he | ⟨-, he⟩ | ⟨payload, -, he⟩⟩ | ⟨chunk, now, messages, rfl, he⟩
  · rw [he] at hm
    exact Or.inl hm
  · rw [he] at hm
    cases hm
  · rw [he] at hm
    exact Or.inl hm
  · by_cases hsettled : a.call ∈ w.settled.map Settlement.call
    · exact Or.inr (((Extends.step hs).settled.map Settlement.call).subset hsettled)
    · cases answer_of_step hs with
      | socketData _ _ _ hd =>
        obtain ⟨messages', -, hf⟩ := handleData_eq_ok hd
        change m ∈ (w'.sockets s).handled at hm
        rw [handled_handleMessages hf] at hm
        refine (List.mem_append.mp hm).imp_right fun hm => ?_
        obtain ⟨t, hget⟩ := hc.unsettled a ha hsettled
        rcases handleMessages_pending hf hget with ⟨-, hno⟩ | ⟨-, cause, outcome, -, hx⟩
        · exact absurd ⟨m, hm, hr, rfl⟩ (hno (.response m))
        · exact List.mem_map_of_mem hx

end WeisleyRpc.Client.World

namespace WeisleyRpc.Client.ClientNetwork
variable {o : CommonRpcClientOptions} {codec : RpcCodec} {u w w' : ClientNetwork}

theorem SendTurn.keeps {attempt : CallAttempt} {c : ConnectionId}
    (turn : SendTurn codec w attempt c u) : List.Sublist w.transmissions u.transmissions := by
  cases turn with
  | unencoded threw => exact List.Sublist.refl _
  | refused encoded refusal => exact List.Sublist.refl _
  | accepted encoded accepts => exact List.sublist_append_left _ _

/-- Sends are not forgotten. -/
theorem transmissions_kept {e : NetworkEvent} (hs : (machine o codec).Step w e w') :
    List.Sublist w.transmissions w'.transmissions := by
  cases networkStep_of_step hs with
  | unconnected _ pooled _ => exact pooled.transmissions ▸ List.Sublist.refl _
  | connecting _ pooled _ _ => exact pooled.transmissions ▸ List.Sublist.refl _
  | sending _ pooled _ _ turn => exact pooled.transmissions ▸ turn.keeps
  | unreached _ _ _ => exact List.Sublist.refl _
  | connected _ _ _ turn => exact turn.keeps
  | answered _ _ _ => exact List.Sublist.refl _
  | connection _ _ _ => exact List.Sublist.refl _
  | unpooled pooled => exact pooled.transmissions ▸ List.Sublist.refl _
  | connect pooled _ => exact pooled.transmissions ▸ List.Sublist.refl _
  | close => exact List.Sublist.refl _

end WeisleyRpc.Client.ClientNetwork

namespace WeisleyRpc
open Client (ClientNetwork CommonRpcClientOptions ConnectionId Transmission)

theorem Agreed.mono {ε : Type} {o : CommonRpcClientOptions} {codec : RpcCodec}
    {carry : String → JsValue → JsValue} {es es' : List (DeploymentEvent ε)}
    (h : Agreed o codec carry es) (hsub : es' ⊆ es) : Agreed o codec carry es' :=
  ⟨h.new, h.roundTrips, h.inflates, fun _ _ hl => h.listens _ _ (hsub hl)⟩

namespace Deployment
variable {σ ε : Type} {W : Wiring} {M : ClientMode σ ε} {o : CommonRpcClientOptions}
  {codec : RpcCodec} {I : σ → Prop} {d d' : Deployment σ} {carry : String → JsValue → JsValue}
  {c : ConnectionId} {s : Client.SocketId} {x : Transmission}

/-- Copies of a response carry its id. -/
theorem responds_of_copy {conn : Server.ServerSocket} (hrec : conn.Recorded) {wr : Server.Write}
    (hwr : wr ∈ conn.written) (hz : codec.config.defaultSerializer.RoundTrips carry)
    {m : JsValue} {id : String} (hresponds : Client.Responds wr.message id)
    (hcopy : codec.config.Copy wr.message m) : Client.Responds m id := by
  obtain ⟨_, _, -, -, -, hreplies⟩ := hrec.replies hwr hresponds.1
  have htoJson := hreplies.fields.1
  refine ⟨(JsValue.get_eq_ok_iff.mp (hcopy.1.trans (get_of_prop hresponds.1))).2, ?_⟩
  rw [hcopy.field hz hresponds.1 htoJson (by simp [messageFields]), hresponds.2, hz.string]

/-- The request of a response on the socket was sent there. -/
theorem Wf.asked (h : Wf W M codec I d) (hM : M.Moves o codec I)
    (hshared : Shared codec carry W d) (ha : d.Accepted W c s) {wr : Server.Write}
    (hwr : wr ∈ (d.remote W c s).written) {m : JsValue} {id : String}
    (hcopy : codec.config.Copy wr.message m) (hresponds : Client.Responds m id) :
    ∃ x ∈ (M.network d.client).transmissions, x.connection = c ∧ x.socket = s ∧
      x.request.id = id := by
  have hz := hshared.carries
  have htype := hcopy.type hresponds.1
  obtain ⟨sources, hsources⟩ := h.sources hM hshared ha
  obtain ⟨y, q, hy, hq, hreq, hreplies⟩ :=
    ((h.servers c.endpoint).recorded _ ha).replies hwr htype
  obtain ⟨x, hx, hconnection, hsocket, harrived⟩ :=
    hsources.origin hz (System.mem_messages hy hq) hreq
  refine ⟨x, hx, hconnection, hsocket, ?_⟩
  have hm := id_of_reply hz hreplies htype hcopy
  rw [hresponds.2, harrived.id, hz.string] at hm
  exact (JsValue.string.inj hm).symm

/-- The call has sent on this socket only once. -/
def SentAlone (w : ClientNetwork) (x : Transmission) : Prop :=
  (w.transmissions.countP fun y => y.request.id = x.request.id ∧ y.connection = x.connection ∧
    y.socket = x.socket) ≤ 1

/-- Every response that the socket of a send has brought has left the call settled. -/
def Heard (w : ClientNetwork) : Prop :=
  ∀ x ∈ w.transmissions, SentAlone w x →
    ∀ m ∈ ((w.connections x.connection).sockets x.socket).handled, Client.Responds m x.request.id →
      x.call ∈ (w.connections x.connection).settled.map Client.Settlement.call

theorem SentAlone.mono {v w : ClientNetwork} (h : SentAlone w x)
    (hkept : List.Sublist v.transmissions w.transmissions) : SentAlone v x :=
  hkept.countP_le.trans h

/-- A step of the client leaves every send heard: what it decodes settles old sends, and no
response is there for a send that it makes. -/
theorem Wf.heard_step (h : Wf W M codec I d) (hM : M.Moves o codec I)
    (hshared : Shared codec carry W d) {client : σ} {e : ε}
    (h' : Wf W M codec I { d with client }) (hshared' : Shared codec carry W { d with client })
    (hs : M.machine.Step d.client e client) (hheard : Heard (M.network d.client)) :
    Heard (M.network client) := by
  rcases hM.network _ _ _ h.client hs with hsame | ⟨e', hnetwork, -⟩
  · rw [hsame]
    exact hheard
  · have hkept := ClientNetwork.transmissions_kept hnetwork
    have hw := ClientNetwork.NetworkWf.of_reachable (hM.reachable _ h.client)
    have hrecords := ClientNetwork.Records.of_reachable (hM.reachable _ h.client)
    intro x hx halone m hm hresponds
    by_cases hold : x ∈ (M.network d.client).transmissions
    · have hbefore := hheard x hold (halone.mono hkept)
      rcases ClientNetwork.connection_step hnetwork x.connection with hsame | ⟨e'', hstep, -⟩
      · rw [hsame] at hm ⊢
        exact hbefore m hm hresponds
      · have haccepted : x.accepted ∈ ((M.network d.client).connections x.connection).accepted := by
          rw [← hrecords.accepted]
          exact List.mem_map_of_mem (List.mem_filter.mpr ⟨hold, decide_eq_true rfl⟩)
        rcases Client.World.settled_of_response hstep (hw.callsWf _) haccepted hm hresponds with
          hm | hsettled
        · have hsettled := hbefore m hm hresponds
          exact ((Client.World.Extends.step hstep).settled.map Client.Settlement.call).subset hsettled
        · exact hsettled
    · obtain ⟨ha, wr, hwr, hcopy⟩ := h'.written hshared' hm
      obtain ⟨y, hy, hconnection, hsocket, hid⟩ := h.asked hM hshared ha hwr hcopy hresponds
      have hsame := ListCounts.eq_of_countP_le_one halone hx (decide_eq_true ⟨rfl, rfl, rfl⟩)
        (hkept.subset hy) (decide_eq_true ⟨hid, hconnection, hsocket⟩)
      exact absurd (hsame ▸ hy) hold

theorem heard_of_run (hM : M.Moves o codec I) {client : σ} (hclient : I client)
    (hnetwork : M.network client = .init codec) {serializer : Serializer}
    {es : List (DeploymentEvent ε)} (hagreed : Agreed o codec carry es)
    (hrun : ((machine W M).guard (QueuesOwn M)).Run (start client serializer) es d) :
    Heard (M.network d.client) := by
  have hhistory : ((machine W M).guard (QueuesOwn M)).Run (start client serializer) es d ∧
      (Agreed o codec carry es → Heard (M.network d.client)) := by
    refine hrun.invariant_history (I := fun pre d =>
      ((machine W M).guard (QueuesOwn M)).Run (start client serializer) pre d ∧
        (Agreed o codec carry pre → Heard (M.network d.client))) ?_ ⟨.nil _, fun _ x hx => ?_⟩
    · rintro pre d e d' ⟨hpre, hheard⟩ hs
      have hpost := hpre.append (.single hs)
      refine ⟨hpost, fun hagreed => ?_⟩
      have hbefore := hagreed.mono (List.subset_append_left pre [e])
      have h := wf_of_run hM hclient hnetwork hpre
      have h' := wf_of_run hM hclient hnetwork hpost
      have hshared := shared_of_run hbefore hpre.unguard
      have hshared' := shared_of_run hagreed hpost.unguard
      obtain ⟨-, henabled, happly⟩ := Machine.guard_step.mp hs
      cases e with
      | client e =>
        obtain ⟨client', hclient', rfl⟩ := apply_client happly
        exact h.heard_step hM hshared h' hshared' ⟨henabled.1, hclient'⟩ (hheard hbefore)
      | server endpoint e =>
        obtain ⟨w, -, rfl⟩ := apply_server (M := M) happly
        exact hheard hbefore
    · change x ∈ (M.network client).transmissions at hx
      rw [hnetwork] at hx
      cases hx
  exact hhistory.2 hagreed

/-- The server has written a response to the send, and the client has read the bytes up to its
end. -/
structure Delivered (W : Wiring) (M : ClientMode σ ε) (d : Deployment σ) (x : Transmission) :
    Prop where
  accepted : d.Accepted W x.connection x.socket
  response : ∃ k wr, (d.remote W x.connection x.socket).written[k]? = some wr ∧
    Client.Responds wr.message x.request.id ∧
      (((d.remote W x.connection x.socket).written.take (k + 1)).map Server.Write.payload).flatten
        <+: (((M.network d.client).connections x.connection).sockets x.socket).received.flatten

/-- What has been delivered has been decoded. -/
theorem Wf.decoded (h : Wf W M codec I d) (hshared : Shared codec carry W d)
    (hdelivered : Delivered W M d x) :
    ∃ m ∈ (((M.network d.client).connections x.connection).sockets x.socket).handled,
      Client.Responds m x.request.id := by
  obtain ⟨ha, k, wr, hwr, hresponds, hread⟩ := hdelivered
  have hstream := (h.streams x.connection).decoded x.socket
  have hpackets := h.encoded hshared ha
  have hprefix := (h.linked x.connection x.socket).left
  obtain ⟨hk, -⟩ := List.getElem?_eq_some_iff.mp hwr
  have hitems : (codec.config.decode
      (((M.network d.client).connections x.connection).sockets x.socket).received.flatten).items =
        (((M.network d.client).connections x.connection).sockets x.socket).handled :=
    congrArg Parsed.items hstream
  have hcomplete := CodecConfig.decode_complete (j := k + 1) hshared.reads hpackets hprefix
    (congrArg Parsed.error hstream) (by rw [List.length_map]; exact hk)
    (by rw [← List.map_take]; exact hread.length_le)
  have hcopies := CodecConfig.decode_copies hshared.reads hpackets hprefix
  change List.Forall₂ _ _ (codec.config.decode (((M.network d.client).connections
    x.connection).sockets x.socket).received.flatten).items at hcopies
  change k + 1 ≤ (codec.config.decode (((M.network d.client).connections
    x.connection).sockets x.socket).received.flatten).items.length at hcomplete
  have hmem : wr.message ∈ ((d.remote W x.connection x.socket).written.map
      Server.Write.message).take (codec.config.decode (((M.network d.client).connections
        x.connection).sockets x.socket).received.flatten).items.length := by
    refine List.mem_of_getElem? (i := k) ?_
    rw [List.getElem?_take_of_lt hcomplete, List.getElem?_map, hwr]
    rfl
  obtain ⟨m, hm, hcopy⟩ := exists_left_of_forall₂ hcopies.flip hmem
  rw [hitems] at hm
  exact ⟨m, hm, responds_of_copy ((h.servers x.connection.endpoint).recorded _ ha)
    (List.mem_of_getElem? hwr) hshared.carries hresponds hcopy⟩

/-- A response that has been delivered has left its call settled. -/
theorem settled_of_delivered (hM : M.Moves o codec I) {client : σ} (hclient : I client)
    (hnetwork : M.network client = .init codec) {serializer : Serializer}
    {es : List (DeploymentEvent ε)} (hagreed : Agreed o codec carry es)
    (hrun : ((machine W M).guard (QueuesOwn M)).Run (start client serializer) es d)
    (hx : x ∈ (M.network d.client).transmissions) (halone : SentAlone (M.network d.client) x)
    (hdelivered : Delivered W M d x) :
    x.call ∈ ((M.network d.client).connections x.connection).settled.map
      Client.Settlement.call := by
  have hshared := shared_of_run hagreed hrun.unguard
  obtain ⟨m, hm, hresponds⟩ :=
    (wf_of_run hM hclient hnetwork hrun).decoded hshared hdelivered
  exact heard_of_run hM hclient hnetwork hagreed hrun x hx halone m hm hresponds

end Deployment
end WeisleyRpc

namespace WeisleyRpc.Client

/-- An attempt that waits for a settled call can go on. -/
theorem ClientNetwork.ready_of_settled {w : ClientNetwork} {id : String} {a : CallAttempt}
    {c : ConnectionId} {call : CallId} (ha : w.attempts.get id = some a)
    (hphase : a.phase = .sending c call)
    (hsettled : call ∈ (w.connections c).settled.map Settlement.call) : w.Ready id := by
  refine ⟨a, ha, ?_⟩
  simp only [awaited, hphase]
  exact settlement_of_mem hsettled

namespace DirectClient
open ClientNetwork (sampleConnection)
variable {W : Wiring} {o : DirectRpcClientOptions} {codec : RpcCodec}
  {carry : String → JsValue → JsValue} {d : Deployment DirectClient} {w : DirectClient}
  {x : Transmission}

/-- The call has an outcome or its attempt has got what it waits for. -/
def GoesOn (w : DirectClient) (id : String) : Prop :=
  (∀ times info error, w.Enabled (.settled id times info error)) ∨
    w.Enabled (.network (.resume id))

/-- A call whose send has settled waits for nothing any more. -/
theorem Wf.goesOn (h : Wf o codec w) (hx : x ∈ w.network.transmissions)
    (hsettled : x.call ∈ (w.network.connections x.connection).settled.map Settlement.call)
    (hremote : w.client.remoteCall x.request.id ≠ none) : w.GoesOn x.request.id := by
  have hw := ClientNetwork.NetworkWf.of_reachable h.network
  have hrecords := ClientNetwork.Records.of_reachable h.network
  cases h.waits hremote with
  | settles enabled => exact Or.inl enabled
  | resumes enabled => exact Or.inr enabled
  | @connects a c n current phase awaits =>
    -- an attempt that has still to send leaves no room for the send of the call
    obtain ⟨call, -, hcall, hphase⟩ := RpcClient.remoteCall_ne_none hremote
    have hbegun := h.countP_begun hcall fun _ hr => (by rw [hphase] at hr; cases hr)
    have hcounted := hrecords.counted x.request.id
    have hpos : 0 < w.network.transmissions.countP fun y => y.request.id = x.request.id :=
      List.countP_pos_iff.mpr ⟨x, hx, decide_eq_true rfl⟩
    have hawaiting : w.network.awaiting x.request.id = 1 := by
      simp [ClientNetwork.awaiting, current, CallAttempt.awaiting, phase]
    omega
  | @answers a c call t current phase pending timer =>
    have hlocated := hrecords.located x.request.id a current
    simp only [ClientNetwork.Located, phase] at hlocated
    obtain ⟨-, s, hsent⟩ := hlocated
    have hsame := h.sent_unique hsent hx (hrecords.named _ _ current)
    refine absurd hsettled ?_
    rw [← hsame]
    exact ((hw.callsWf c).outstanding _ _ pending).2

/-- In direct mode a response that has been delivered ends the wait of its caller. -/
theorem delivered_call_goes_on {options : RpcClientOptions} {now : ℤ} {serializer : Serializer}
    {es : List (DeploymentEvent DirectEvent)} (hagreed : Agreed o.common codec carry es)
    (hrun : ((Deployment.machine W (mode o codec)).guard (Deployment.QueuesOwn (mode o codec))).Run
      (.start (start options now codec) serializer) es d)
    (hx : x ∈ d.client.network.transmissions)
    (hdelivered : Deployment.Delivered W (mode o codec) d x) :
    x.call ∈ (d.client.network.connections x.connection).settled.map Settlement.call ∧
      (d.client.client.remoteCall x.request.id ≠ none → d.client.GoesOn x.request.id) := by
  have h := (Deployment.wf_of_run mode_moves (wf_start options now) rfl hrun).client
  have halone : Deployment.SentAlone d.client.network x := by
    refine Nat.le_trans (List.countP_mono_left fun y _ hy => ?_) (h.sentOnce.once x.request.id)
    exact decide_eq_true (of_decide_eq_true hy).1
  have hsettled := Deployment.settled_of_delivered mode_moves (wf_start options now) rfl hagreed hrun
    hx halone hdelivered
  exact ⟨hsettled, h.goesOn hx hsettled⟩

/-- The response has been read, and the caller still waits. -/
def sampleRead : Option (Deployment DirectClient) :=
  ((Deployment.machine .pairing (mode sampleDirectOptions sampleCodec)).guard
    (Deployment.QueuesOwn (mode sampleDirectOptions sampleCodec))).exec
      (.start (start ⟨none, none⟩ 0 sampleCodec) (.ofTable sampleTable))
        sampleEvents.dropLast.dropLast

theorem sampleRead_isSome : sampleRead.isSome := by decide +kernel

theorem sampleRead_run :
    ((Deployment.machine .pairing (mode sampleDirectOptions sampleCodec)).guard
      (Deployment.QueuesOwn (mode sampleDirectOptions sampleCodec))).Run
      (.start (start ⟨none, none⟩ 0 sampleCodec) (.ofTable sampleTable))
      sampleEvents.dropLast.dropLast (sampleRead.get sampleRead_isSome) :=
  Machine.run_exec_get sampleRead_isSome

def sampleTransmission : Transmission := ⟨⟨"1", "s", "m", [], none⟩, sampleConnection, 0, 0⟩

theorem sampleRead_delivered : Deployment.Delivered .pairing (mode sampleDirectOptions sampleCodec)
    (sampleRead.get sampleRead_isSome) sampleTransmission :=
  ⟨by decide +kernel, 0, _, List.getElem?_eq_getElem (by decide +kernel),
    ⟨by decide +kernel, by decide +kernel⟩, by decide +kernel⟩

theorem delivered_call_goes_on_sampleRead :
    sampleTransmission.call ∈ ((sampleRead.get sampleRead_isSome).client.network.connections
      sampleTransmission.connection).settled.map Settlement.call ∧
      ((sampleRead.get sampleRead_isSome).client.client.remoteCall sampleTransmission.request.id ≠
        none → (sampleRead.get sampleRead_isSome).client.GoesOn sampleTransmission.request.id) :=
  delivered_call_goes_on (sampleEvents_agreed.mono
    (List.Subset.trans (List.dropLast_subset _) (List.dropLast_subset _))) sampleRead_run
    (by decide +kernel) sampleRead_delivered

end DirectClient
end WeisleyRpc.Client

namespace WeisleyRpc.Discovery.NetworkedClient
open Client (ClientNetwork CommonRpcClientOptions CallAttempt Transmission Settlement)
open Client.ClientNetwork (sampleClientOptions)
open Client.DirectClient (sampleTransmission)
open DiscoveryClient (sampleOptions)
variable {W : Wiring} {o : CommonRpcClientOptions} {codec : RpcCodec} {options : RetryOptions}
  {carry : String → JsValue → JsValue} {d : Deployment NetworkedClient} {x : Transmission}

/-- With failover a response that has been delivered ends the wait of the attempt that has sent
alone on its socket. -/
theorem delivered_attempt_resumes {clientOptions : RpcClientOptions} {now : ℤ}
    {loadBalancer : LoadBalancer} {serializer : Serializer}
    {es : List (DeploymentEvent NetworkedEvent)} (hagreed : Agreed o codec carry es)
    (hrun : ((Deployment.machine W (mode o codec options)).guard
      (Deployment.QueuesOwn (mode o codec options))).Run
        (.start (start clientOptions now loadBalancer codec) serializer) es d)
    (hx : x ∈ d.client.network.transmissions)
    (halone : Deployment.SentAlone d.client.network x)
    (hdelivered : Deployment.Delivered W (mode o codec options) d x) :
    x.call ∈ (d.client.network.connections x.connection).settled.map Settlement.call ∧
      ∀ a, d.client.network.attempts.get x.request.id = some a →
        a.phase = .sending x.connection x.call →
          d.client.Enabled (.network (.resume x.request.id)) := by
  have hsettled := Deployment.settled_of_delivered mode_moves
    (wf_start clientOptions now loadBalancer) rfl hagreed hrun hx halone hdelivered
  exact ⟨hsettled, fun a ha hphase => ClientNetwork.ready_of_settled ha hphase hsettled⟩

/-- The response has been read in two chunks, and the loop still waits. -/
def sampleRead : Option (Deployment NetworkedClient) :=
  ((Deployment.machine .pairing (mode sampleClientOptions sampleCodec sampleOptions)).guard
    (Deployment.QueuesOwn (mode sampleClientOptions sampleCodec sampleOptions))).exec
      (.start sampleStart (.ofTable sampleTable)) sampleEvents.dropLast.dropLast.dropLast

theorem sampleRead_isSome : sampleRead.isSome := by decide +kernel

theorem sampleRead_run :
    ((Deployment.machine .pairing (mode sampleClientOptions sampleCodec sampleOptions)).guard
      (Deployment.QueuesOwn (mode sampleClientOptions sampleCodec sampleOptions))).Run
        (.start sampleStart (.ofTable sampleTable)) sampleEvents.dropLast.dropLast.dropLast
        (sampleRead.get sampleRead_isSome) :=
  Machine.run_exec_get sampleRead_isSome

theorem sampleRead_delivered :
    Deployment.Delivered .pairing (mode sampleClientOptions sampleCodec sampleOptions)
      (sampleRead.get sampleRead_isSome) sampleTransmission :=
  ⟨by decide +kernel, 0, _, List.getElem?_eq_getElem (by decide +kernel),
    ⟨by decide +kernel, by decide +kernel⟩, by decide +kernel⟩

theorem sampleRead_alone :
    Deployment.SentAlone (sampleRead.get sampleRead_isSome).client.network sampleTransmission := by
  unfold Deployment.SentAlone
  decide +kernel

theorem delivered_attempt_resumes_sampleRead :
    sampleTransmission.call ∈ ((sampleRead.get sampleRead_isSome).client.network.connections
      sampleTransmission.connection).settled.map Settlement.call ∧
      ∀ a, (sampleRead.get sampleRead_isSome).client.network.attempts.get
          sampleTransmission.request.id = some a →
        a.phase = .sending sampleTransmission.connection sampleTransmission.call →
          (sampleRead.get sampleRead_isSome).client.Enabled
            (.network (.resume sampleTransmission.request.id)) :=
  delivered_attempt_resumes (sampleEvents_agreed.mono (List.Subset.trans (List.dropLast_subset _)
    (List.Subset.trans (List.dropLast_subset _) (List.dropLast_subset _)))) sampleRead_run
    (by decide +kernel) sampleRead_alone sampleRead_delivered

end WeisleyRpc.Discovery.NetworkedClient
