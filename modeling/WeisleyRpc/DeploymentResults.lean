import WeisleyRpc.DeploymentRuns
import WeisleyRpc.ListCounts
import Mathlib.Algebra.Order.BigOperators.Group.List

/-!
# What the servers of a deployment do for a call

The requests that arrive on a socket are copies of the sends that were accepted there, in their
order. So a method runs at most once for each send, and a response that brings a value says what
the method returned in one of these runs.
-/

namespace WeisleyRpc
open Client (ClientNetwork CommonRpcClientOptions ConnectionId)

/-- All processes have the same codec options, with a serializer that brings messages back and a
compressor that brings bodies back. -/
structure Agreed {ε : Type} (o : CommonRpcClientOptions) (codec : RpcCodec)
    (carry : String → JsValue → JsValue) (es : List (DeploymentEvent ε)) : Prop where
  new : RpcCodec.new o.connectionOptions.codecOptions = .ok codec
  roundTrips : o.connectionOptions.serializer.RoundTrips carry
  inflates : ∀ e, o.connectionOptions.compression = some e → ∀ b z,
    e.compressor.compress b = .ok z → e.compressor.decompress z = .ok b
  listens : ∀ endpoint listening, .server endpoint (.listen listening) ∈ es →
    listening.codecOptions = o.connectionOptions.codecOptions

namespace Deployment
variable {σ ε : Type} {W : Wiring} {M : ClientMode σ ε} {o : CommonRpcClientOptions}
  {codec : RpcCodec} {I : σ → Prop} {d d' : Deployment σ} {carry : String → JsValue → JsValue}

theorem configured {client : σ} {serializer : Serializer} {es : List (DeploymentEvent ε)}
    (hagreed : Agreed o codec carry es)
    (hrun : (machine W M).Run (start client serializer) es d) (endpoint : String) :
    (d.servers endpoint).Configured o.connectionOptions.codecOptions codec := by
  refine hrun.invariant_mem (I := fun v : Deployment σ =>
    (v.servers endpoint).Configured o.connectionOptions.codecOptions codec)
    (fun v e v' he hi hs => ?_)
    ⟨fun hn => absurd hn (Nat.not_lt_zero 0), fun _ hn => absurd hn (Nat.not_lt_zero _)⟩
  obtain ⟨henabled, happly⟩ := hs
  cases e with
  | client e =>
    obtain ⟨client, -, rfl⟩ := apply_client happly
    exact hi
  | server endpoint' e =>
    obtain ⟨w, hw, rfl⟩ := apply_server (M := M) happly
    change (Function.update v.servers endpoint' w endpoint).Configured _ codec
    by_cases heq : endpoint = endpoint'
    · subst heq
      rw [Function.update_self]
      exact hi.step hagreed.new ⟨henabled.1, hw⟩
        fun listening hl => hagreed.listens _ listening (hl ▸ he)
    · rw [Function.update_of_ne heq]
      exact hi

/-- The codec on both ends. -/
structure Shared (codec : RpcCodec) (carry : String → JsValue → JsValue) (W : Wiring)
    (d : Deployment σ) : Prop where
  reads : codec.config.Reads codec.config
  carries : codec.config.defaultSerializer.RoundTrips carry
  config : ∀ c s, d.Accepted W c s → (d.remote W c s).codec.config = codec.config

theorem shared_of_run {client : σ} {serializer : Serializer} {es : List (DeploymentEvent ε)}
    (hagreed : Agreed o codec carry es)
    (hrun : (machine W M).Run (start client serializer) es d) : Shared codec carry W d := by
  refine ⟨CodecConfig.reads_new hagreed.new rfl hagreed.inflates, ?_, fun c s ha =>
    (configured hagreed hrun c.endpoint).config _ ha⟩
  obtain ⟨_, _, rfl⟩ := RpcCodec.new_eq_ok hagreed.new
  exact hagreed.roundTrips

/-- What the messages on a server's socket are copies of. -/
structure Sources (c : CodecConfig) (requests : List JsValue) (conn : Server.ServerSocket)
    (sources : List JsValue) : Prop where
  copies : List.Forall₂ c.Copy sources conn.messages
  requests : List.Sublist (sources.filter fun m => Server.IsRequest m) requests

theorem Wf.sources (h : Wf W M codec I d) (hM : M.Moves o codec I)
    (hshared : Shared codec carry W d) {c : ConnectionId} {s : Client.SocketId}
    (ha : d.Accepted W c s) : ∃ sources,
      Sources codec.config ((M.network d.client).requestsOn c s) (d.remote W c s) sources := by
  obtain ⟨messages, hm⟩ :=
    (ClientNetwork.Packeted.of_reachable (hM.reachable _ h.client)).written c s
  have hitems := CodecConfig.decode_copies hshared.reads hm.encoded (h.linked c s).right
  obtain ⟨rest, hrest⟩ := ((h.servers c.endpoint).streamed _ ha).seen
  change (d.remote W c s).messages ++ rest = ((d.remote W c s).codec.config.decode
    (d.remote W c s).received.flatten).items at hrest
  rw [hshared.config c s ha] at hrest
  change List.Forall₂ _ _ (codec.config.decode (d.remote W c s).received.flatten).items at hitems
  rw [← hrest] at hitems
  refine ⟨_, List.forall₂_take_append _ _ _ hitems, List.Sublist.trans ?_ hm.requests⟩
  exact ((List.take_sublist _ _).trans (List.take_sublist _ _)).filter _

section Copies
variable {c : CodecConfig} {conn : Server.ServerSocket}
  {sources : List JsValue} {w : ClientNetwork} {connection : ConnectionId} {s : Client.SocketId}

/-- A request on the socket is what arrived of a send. -/
theorem Sources.origin (h : Sources c (w.requestsOn connection s) conn sources)
    (hz : c.defaultSerializer.RoundTrips carry) {q : JsValue} (hq : q ∈ conn.messages)
    (hreq : Server.IsRequest q) : ∃ x ∈ w.transmissions, x.connection = connection ∧
      x.socket = s ∧ Arrived carry x.request q := by
  obtain ⟨m, hm, hcopy⟩ := exists_left_of_forall₂ h.copies hq
  have hmem := h.requests.subset (List.mem_filter.mpr ⟨hm, decide_eq_true (hcopy.type hreq)⟩)
  obtain ⟨x, hx, rfl⟩ := List.mem_map.mp hmem
  obtain ⟨hx, hon⟩ := List.mem_filter.mp hx
  obtain ⟨hconnection, hsocket⟩ := of_decide_eq_true hon
  exact ⟨x, hx, hconnection, hsocket, arrived_of_copy hz hcopy⟩

theorem Sources.countP_le (h : Sources c (w.requestsOn connection s) conn sources)
    (hz : c.defaultSerializer.RoundTrips carry) (id : String) :
    (conn.messages.countP fun q => Server.IsRequest q ∧ q.prop "id" = .string id) ≤
      w.transmissions.countP fun x =>
        decide ((x.connection, x.socket) = (connection, s)) && decide (x.request.id = id) := by
  have hsent : ∀ m ∈ sources, Server.IsRequest m → ∃ request : RpcRequest,
      m = request.toValue := by
    intro m hm hreq
    obtain ⟨x, -, hx⟩ := List.mem_map.mp
      (h.requests.subset (List.mem_filter.mpr ⟨hm, decide_eq_true hreq⟩))
    exact ⟨x.request, hx.symm⟩
  have hcopies := (List.forall₂_and_left _ _).mpr ⟨hsent, h.copies⟩
  have harrived : (conn.messages.countP fun q => Server.IsRequest q ∧ q.prop "id" = .string id) ≤
      sources.countP fun m => decide (m.prop "id" = .string id) && Server.IsRequest m := by
    refine ListCounts.countP_le_of_forall₂ ?_ hcopies
    rintro m q ⟨hm, hcopy⟩ hq
    obtain ⟨hreq, hid⟩ := of_decide_eq_true hq
    obtain ⟨request, rfl⟩ := hm (hcopy.type hreq)
    rw [(arrived_of_copy hz hcopy).id] at hid
    rw [Bool.and_eq_true, decide_eq_true_iff, decide_eq_true_iff, RpcRequest.prop_id]
    exact ⟨hid, request.prop_type⟩
  calc (conn.messages.countP fun q => Server.IsRequest q ∧ q.prop "id" = .string id)
    _ ≤ (sources.filter fun m => Server.IsRequest m).countP fun m => m.prop "id" = .string id := by
      rw [List.countP_filter]
      exact harrived
    _ ≤ (w.requestsOn connection s).countP fun m => m.prop "id" = .string id :=
      h.requests.countP_le
    _ = w.transmissions.countP fun x =>
        decide ((x.connection, x.socket) = (connection, s)) && decide (x.request.id = id) := by
      rw [ClientNetwork.requestsOn, List.countP_map, List.countP_filter]
      refine List.countP_congr fun x _ => ?_
      simp [RpcRequest.prop_id, and_comm]

/-- Different invocations are those of different messages. -/
theorem countP_invocations_le (hrec : conn.Recorded) (id : String) :
    (conn.invocations.countP fun v => v.request.prop "id" = .string id) ≤
      conn.messages.countP fun q => Server.IsRequest q ∧ q.prop "id" = .string id := by
  rw [List.countP_eq_length_filter]
  refine ListCounts.length_le_countP
    (hrec.invokedOnce.sublist (List.filter_sublist.map _)) fun v hv => ?_
  obtain ⟨hv, hid⟩ := List.mem_filter.mp hv
  obtain ⟨y, hy, hq, hreq, -⟩ := hrec.invocation v hv
  refine ⟨y.messages, v.request, ?_, hq, decide_eq_true ⟨hreq, of_decide_eq_true hid⟩⟩
  change (conn.handlers.map Server.Handler.messages)[v.handler]? = _
  rw [List.getElem?_map, hy]
  rfl

/-- Where one request with the id has arrived and was refused, no method has run for the id. -/
theorem uninvoked_of_once (hrec : conn.Recorded) {id : String}
    (honce : (conn.messages.countP fun q => Server.IsRequest q ∧ q.prop "id" = .string id) ≤ 1)
    {wr : Server.Write} {y : Server.Handler} {q : JsValue} (hreq : Server.IsRequest q)
    (hid : q.prop "id" = .string id) (hy : conn.handlers[wr.handler]? = some y)
    (hq : y.messages[wr.index]? = some q)
    (huninvoked : ∀ v ∈ conn.invocations, ¬ (v.handler = wr.handler ∧ v.index = wr.index)) :
    ∀ v ∈ conn.invocations, v.request.prop "id" ≠ .string id := by
  intro v hv hvid
  obtain ⟨y', hy', hq', hreq', -⟩ := hrec.invocation v hv
  have hplace : ∀ {n : ℕ} {y : Server.Handler}, conn.handlers[n]? = some y →
      (conn.handlers.map Server.Handler.messages)[n]? = some y.messages := by
    intro n y hn
    rw [List.getElem?_map, hn]
    rfl
  have htwo : [(v.handler, v.index), (wr.handler, wr.index)].length ≤
      conn.messages.countP fun q => Server.IsRequest q ∧ q.prop "id" = .string id := by
    have hn : ([(v.handler, v.index), (wr.handler, wr.index)].map fun n => n).Nodup := by
      simpa using huninvoked v hv
    refine ListCounts.length_le_countP hn fun n hmem => ?_
    rcases List.mem_pair.mp hmem with rfl | rfl
    · exact ⟨_, _, hplace hy', hq', decide_eq_true ⟨hreq', hvid⟩⟩
    · exact ⟨_, _, hplace hy, hq, decide_eq_true ⟨hreq, hid⟩⟩
  rw [List.length_cons, List.length_singleton] at htwo
  omega

end Copies

section Servers
variable {c : ConnectionId} {s : Client.SocketId}

/-- The packets on a server's socket are the encodings of what it has written. -/
theorem Wf.encoded (h : Wf W M codec I d) (hshared : Shared codec carry W d)
    (ha : d.Accepted W c s) : List.Forall₂ (fun m p => codec.config.encode m = .ok p)
      ((d.remote W c s).written.map Server.Write.message)
      ((d.remote W c s).written.map Server.Write.payload) := by
  rw [List.forall₂_map_left_iff, List.forall₂_map_right_iff, List.forall₂_same]
  intro wr hwr
  obtain ⟨x, q, -, -, -, hwrote⟩ := ((h.servers c.endpoint).recorded _ ha).write wr hwr
  rw [← hshared.config c s ha]
  exact hwrote.encoded

/-- Each message that the client has handled is a copy of one that the server has written. -/
theorem Wf.written (h : Wf W M codec I d) (hshared : Shared codec carry W d) {m : JsValue}
    (hm : m ∈ (((M.network d.client).connections c).sockets s).handled) :
    d.Accepted W c s ∧ ∃ wr ∈ (d.remote W c s).written, codec.config.Copy wr.message m := by
  have hdecoded : (codec.config.decode
      (((M.network d.client).connections c).sockets s).received.flatten).items =
        (((M.network d.client).connections c).sockets s).handled :=
    congrArg Parsed.items ((h.streams c).decoded s)
  have ha : d.Accepted W c s := by
    by_contra hno
    have hreceived : (((M.network d.client).connections c).sockets s).received.flatten = [] :=
      (h.linked c s).left_down hno
    rw [hreceived, CodecConfig.decode_nil] at hdecoded
    rw [← hdecoded] at hm
    cases hm
  have hitems := CodecConfig.decode_copies hshared.reads (h.encoded hshared ha) (h.linked c s).left
  change List.Forall₂ _ _ (codec.config.decode
    (((M.network d.client).connections c).sockets s).received.flatten).items at hitems
  rw [hdecoded] at hitems
  obtain ⟨m', hm', hcopy⟩ := exists_left_of_forall₂ hitems hm
  obtain ⟨wr, hwr, rfl⟩ := List.mem_map.mp (List.mem_of_mem_take hm')
  exact ⟨ha, wr, hwr, hcopy⟩

/-- What a response on the socket says about the request: a method has run for it, or the server
was draining and has run none for the message that it refused. -/
inductive Responded (carry : String → JsValue → JsValue) (conn : Server.ServerSocket)
    (request : RpcRequest) (m : JsValue) : Except JsError JsValue → Prop
  | ran {v : Server.Invocation} {outcome : Except JsError JsValue} (invoked : v ∈ conn.invocations)
      (arrived : Arrived carry request v.request) (answers : Answers carry conn request m outcome) :
      Responded carry conn request m outcome
  | refused {wr : Server.Write} {q : JsValue} {x : Server.Handler} (message : String)
      (arrived : Arrived carry request q) (isRequest : Server.IsRequest q)
      (written : wr ∈ conn.written) (handler : conn.handlers[wr.handler]? = some x)
      (place : x.messages[wr.index]? = some q) (refusal : wr.message = drainingResponse q)
      (copy : conn.codec.config.Copy wr.message m)
      (uninvoked : ∀ v ∈ conn.invocations, ¬ (v.handler = wr.handler ∧ v.index = wr.index)) :
      Responded carry conn request m (.error (.rpcError message (.string "SERVER_DRAINING")))

/-- A response with the id of a call answers a send of this call on the same socket. -/
theorem Wf.responded (h : Wf W M codec I d) (hM : M.Moves o codec I)
    (hshared : Shared codec carry W d) {m : JsValue} {id : String}
    {outcome : Except JsError JsValue}
    (hm : m ∈ (((M.network d.client).connections c).sockets s).handled)
    (hresponds : Client.Responds m id) (hout : Client.World.responseOutcome m = .ok outcome) :
    ∃ x ∈ (M.network d.client).transmissions, x.connection = c ∧ x.socket = s ∧ x.request.id = id ∧
      Responded carry (d.remote W c s) x.request m outcome := by
  obtain ⟨ha, wr, hwr, hcopy⟩ := h.written hshared hm
  have hconfig := hshared.config c s ha
  have hz := hshared.carries
  have hrec := (h.servers c.endpoint).recorded _ ha
  obtain ⟨sources, hsources⟩ := h.sources hM hshared ha
  have htype := hcopy.type hresponds.1
  obtain ⟨y, q, hy, hq, hreq, hreplies⟩ := hrec.replies hwr htype
  have hmq := id_of_reply hz hreplies htype hcopy
  obtain ⟨x, hx, hconnection, hsocket, harrived⟩ :=
    hsources.origin hz (System.mem_messages hy hq) hreq
  rw [hresponds.2, harrived.id, hz.string] at hmq
  refine ⟨x, hx, hconnection, hsocket, (JsValue.string.inj hmq).symm, ?_⟩
  have hcalled := (h.servers c.endpoint).called _ ha
  rcases answers_of_reply hz hcalled hconfig hwr hreplies htype hcopy hout with
    ⟨text, hcause, hmessage, rfl⟩ | ⟨v, hv, rfl, hanswers⟩
  · exact .refused text harrived hreq hwr hy hq hmessage (hconfig.symm ▸ hcopy)
      (hrec.refused wr hwr hcause)
  · exact .ran hv harrived (hanswers _ harrived)

theorem Wf.answers (h : Wf W M codec I d) (hM : M.Moves o codec I)
    (hshared : Shared codec carry W d) {m : JsValue}
    {id : String} {value : JsValue}
    (hm : m ∈ (((M.network d.client).connections c).sockets s).handled)
    (hresponds : Client.Responds m id)
    (hvalue : Client.World.responseOutcome m = .ok (.ok value)) :
    ∃ x ∈ (M.network d.client).transmissions, x.connection = c ∧ x.socket = s ∧ x.request.id = id ∧
      Answers carry (d.remote W c s) x.request m (.ok value) := by
  obtain ⟨x, hx, hconnection, hsocket, hid, hresponded⟩ :=
    h.responded hM hshared hm hresponds hvalue
  cases hresponded with
  | ran _ _ answers => exact ⟨x, hx, hconnection, hsocket, hid, answers⟩

end Servers

/-- How often methods have run for the call on the servers' ends of the sockets. -/
def executions (W : Wiring) (d : Deployment σ) (id : String)
    (sockets : List (ConnectionId × Client.SocketId)) : ℕ :=
  (sockets.map fun p => (d.remote W p.1 p.2).invocations.countP fun v =>
    v.request.prop "id" = .string id).sum

/-- Every invocation is of a request that the client has sent on this socket, and a call runs
methods no more often than it has sent requests. -/
structure Executed (W : Wiring) (carry : String → JsValue → JsValue) (w : ClientNetwork)
    (d : Deployment σ) : Prop where
  arrived : ∀ c s, d.Accepted W c s → ∀ v ∈ (d.remote W c s).invocations,
    ∃ x ∈ w.transmissions, x.connection = c ∧ x.socket = s ∧ Arrived carry x.request v.request
  sent : ∀ id sockets, sockets.Nodup → (∀ p ∈ sockets, d.Accepted W p.1 p.2) →
    d.executions W id sockets ≤ w.transmissions.countP fun x => x.request.id = id

theorem Wf.executed (h : Wf W M codec I d) (hM : M.Moves o codec I)
    (hshared : Shared codec carry W d) : Executed W carry (M.network d.client) d := by
  refine ⟨fun c s ha v hv => ?_, fun id sockets hn ha => ?_⟩
  · obtain ⟨sources, hs⟩ := h.sources hM hshared ha
    obtain ⟨y, hy, hq, hreq, -⟩ := ((h.servers c.endpoint).recorded _ ha).invocation v hv
    exact hs.origin hshared.carries (System.mem_messages hy hq) hreq
  · refine Nat.le_trans (List.sum_le_sum fun p hp => ?_)
      (ListCounts.sum_countP_le (fun x : Client.Transmission => (x.connection, x.socket))
        (fun x => x.request.id = id) hn (M.network d.client).transmissions)
    obtain ⟨sources, hs⟩ := h.sources hM hshared (ha p hp)
    exact Nat.le_trans (countP_invocations_le ((h.servers p.1.endpoint).recorded _ (ha p hp)) id)
      (hs.countP_le hshared.carries id)

end Deployment

end WeisleyRpc
