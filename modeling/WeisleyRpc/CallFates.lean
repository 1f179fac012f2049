import WeisleyRpc.DirectDeployment

/-!
# What the end of a call says about the server

A call in direct mode ends before its send, without a response to it, or with the response to it.
Before its send no method runs for it; behind a response the caller knows whether one has run, and
only a call that lost its response cannot tell.
-/

namespace WeisleyRpc.Client.DirectClient
open ClientNetwork (sampleClientOptions sampleConnection)
variable {W : Wiring} {o : DirectRpcClientOptions} {codec : RpcCodec}
  {carry : String → JsValue → JsValue} {d : Deployment DirectClient} {w : DirectClient} {id : String}

/-- The send is that of the call. -/
structure SentFor (o : DirectRpcClientOptions) (w : DirectClient) (id : String) (call : RpcCall)
    (x : Transmission) : Prop where
  sent : x ∈ w.network.transmissions
  named : x.request.id = id
  service : x.request.service = call.service
  method : x.request.method = call.method
  pooled : w.network.PooledFor x.connection o.host o.port

/-- No method has run for the call on any server. -/
def Unrun (W : Wiring) (d : Deployment DirectClient) (id : String) : Prop :=
  ∀ c s, d.Accepted W c s → ∀ v ∈ (d.remote W c s).invocations, v.request.prop "id" ≠ .string id

/-- What has become of a call that got the outcome. -/
inductive Fate (W : Wiring) (o : DirectRpcClientOptions) (carry : String → JsValue → JsValue)
    (d : Deployment DirectClient) (id : String) (call : RpcCall) : Except JsError JsValue → Prop
  | unsent {e : JsError} (unsent : ∀ x ∈ d.client.network.transmissions, x.request.id ≠ id)
      (unrun : Unrun W d id) : Fate W o carry d id call (.error e)
  | lost {x : Transmission} {y : Settlement} {e : JsError} (sent : SentFor o d.client id call x)
      (settled : y ∈ (d.client.network.connections x.connection).settled) (own : y.call = x.call)
      (unanswered : World.Unanswered o.common.connectionOptions y) (outcome : y.outcome = .error e) :
      Fate W o carry d id call (.error e)
  | ran {x : Transmission} {m : JsValue} {v : Server.Invocation} {outcome : Except JsError JsValue}
      (sent : SentFor o d.client id call x)
      (invoked : v ∈ (d.remote W x.connection x.socket).invocations)
      (arrived : Arrived carry x.request v.request)
      (answers : Answers carry (d.remote W x.connection x.socket) x.request m outcome) :
      Fate W o carry d id call outcome
  | drained {x : Transmission} {m : JsValue} {message : String} (sent : SentFor o d.client id call x)
      (answers : Answers carry (d.remote W x.connection x.socket) x.request m
        (.error (.rpcError message (.string "SERVER_DRAINING"))))
      (unrun : Unrun W d id) :
      Fate W o carry d id call (.error (.rpcError message (.string "SERVER_DRAINING")))

theorem Wf.sentFor (h : Wf o codec w) {call : RpcCall} (hcall : w.client.calls.get id = some call)
    {x : Transmission} (hx : x ∈ w.network.transmissions) (hid : x.request.id = id) :
    SentFor o w id call x := by
  obtain ⟨call', hcall', -, hservice, hmethod, hpooled⟩ := h.sentOnce.owned x hx
  rw [hid, hcall] at hcall'
  obtain rfl := Option.some.inj hcall'
  exact ⟨hx, hid, hservice.symm, hmethod.symm, hpooled⟩

/-- What the attempt of a settled call has come to. -/
theorem Wf.ended (h : Wf o codec w) {call : RpcCall} {outcome result : Except Thrown JsValue}
    (hcall : w.client.calls.get id = some call) (hphase : call.phase = .settled outcome result) :
    (∃ e, outcome = .error (.error e) ∧ ∀ x ∈ w.network.transmissions, x.request.id ≠ id) ∨
      ∃ x ∈ w.network.transmissions, x.request.id = id ∧
        ∃ y ∈ (w.network.connections x.connection).settled, y.call = x.call ∧
          outcome = y.outcome.mapError .error := by
  have hrecords := ClientNetwork.Records.of_reachable h.network
  have hat := h.calls id
  unfold TracksAt at hat
  rw [hcall] at hat
  obtain ⟨a, b, ha, -, -⟩ := hat.admitted fun _ hr => (by rw [hphase] at hr; cases hr)
  have hended := (hat.settled outcome result hphase).1
  rw [ha, Option.bind_some] at hended
  have hunsent : w.network.Spare id → ∀ x ∈ w.network.transmissions, x.request.id ≠ id := by
    intro hspare x hx hid
    unfold ClientNetwork.Spare at hspare
    rw [h.countP_begun hcall fun _ hr => (by rw [hphase] at hr; cases hr)] at hspare
    have hpos : 0 < w.network.transmissions.countP fun x => x.request.id = id :=
      List.countP_pos_iff.mpr ⟨x, hx, decide_eq_true hid⟩
    omega
  cases hattempt : a.phase with
  | connecting c n => simp [CallAttempt.outcome, hattempt] at hended
  | sending c n => simp [CallAttempt.outcome, hattempt] at hended
  | unconnected e =>
    simp only [CallAttempt.outcome, hattempt, Option.some.injEq] at hended
    have hlocated := hrecords.located id a ha
    simp only [ClientNetwork.Located, hattempt, hrecords.named id a ha] at hlocated
    exact Or.inl ⟨e, hended.symm, hunsent hlocated⟩
  | ended r =>
    simp only [CallAttempt.outcome, hattempt, Option.some.injEq] at hended
    subst hended
    rcases hrecords.unsent_or_settled ha hattempt with ⟨e, rfl, hspare⟩ |
      ⟨c, n, y, hy, ⟨s, hsent⟩, hown, rfl⟩
    · exact Or.inl ⟨e, rfl, hunsent hspare⟩
    · exact Or.inr ⟨_, hsent, hrecords.named id a ha, y, hy, hown, rfl⟩

theorem unrun_of_unsent (h : Deployment.Executed W carry d.client.network d)
    (hunsent : ∀ x ∈ d.client.network.transmissions, x.request.id ≠ id) : Unrun W d id := by
  intro c s ha v hv hid
  obtain ⟨x, hx, -, -, harrived⟩ := h.arrived c s ha v hv
  rw [harrived.id] at hid
  exact hunsent x hx (JsValue.string.inj hid)

/-- In direct mode methods run for a call on the socket of its send alone. -/
theorem unrun_of_socket (h : Deployment.Executed W carry d.client.network d)
    (hwf : Wf o codec d.client) {x : Transmission} (hx : x ∈ d.client.network.transmissions)
    (hid : x.request.id = id) (hunrun : ∀ v ∈ (d.remote W x.connection x.socket).invocations,
      v.request.prop "id" ≠ .string id) : Unrun W d id := by
  intro c s ha v hv hvid
  obtain ⟨y, hy, rfl, rfl, harrived⟩ := h.arrived c s ha v hv
  have hsame : y.request.id = id := by
    rw [harrived.id] at hvid
    exact JsValue.string.inj hvid
  obtain rfl := hwf.sent_unique hy hx (hsame.trans hid.symm)
  exact hunrun v hv hvid

/-- A response that settles the send of the call says what the server has done for it. -/
theorem fate_of_response (h : Deployment.Wf W (mode o codec) codec (Wf o codec) d)
    (hshared : Deployment.Shared codec carry W d) {call : RpcCall} {x : Transmission}
    {y : Settlement} {m : JsValue} {s : SocketId} (hsent : SentFor o d.client id call x)
    (hm : m ∈ ((d.client.network.connections x.connection).sockets s).handled)
    (hresponds : Responds m id) (hout : World.responseOutcome m = .ok y.outcome) :
    Fate W o carry d id call y.outcome := by
  have hexecuted := h.executed mode_moves hshared
  obtain ⟨x', hx', hconnection, hsocket, hid, hresponded⟩ :=
    h.responded mode_moves hshared hm hresponds hout
  obtain rfl := h.client.sent_unique hx' hsent.sent (hid.trans hsent.named.symm)
  subst hsocket
  generalize y.outcome = outcome at hresponded
  cases hresponded with
  | ran invoked arrived answers => exact .ran hsent invoked arrived answers
  | @refused wr q z message arrived isRequest written handler place refusal copy uninvoked =>
    have ha := (h.written hshared hm).1
    have hrec := (h.servers x'.connection.endpoint).recorded _ ha
    have hq : q.prop "id" = .string id := by
      rw [arrived.id, hid]
    have honce : ((d.remote W x'.connection x'.socket).messages.countP fun q =>
        Server.IsRequest q ∧ q.prop "id" = .string id) ≤ 1 := by
      obtain ⟨sources, hsources⟩ := h.sources mode_moves hshared ha
      refine ((hsources.countP_le hshared.carries id).trans ?_).trans (h.client.sentOnce.once id)
      refine List.countP_mono_left fun z _ hz => ?_
      exact (Bool.and_eq_true_iff.mp hz).2
    have hunrun := Deployment.uninvoked_of_once hrec honce isRequest hq handler place uninvoked
    refine .drained hsent (.refused message arrived written refusal copy ?_)
      (unrun_of_socket hexecuted h.client hx' hid hunrun)
    rw [hid]
    exact hunrun

end WeisleyRpc.Client.DirectClient
