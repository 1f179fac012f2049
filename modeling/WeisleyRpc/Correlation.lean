import WeisleyRpc.EndToEnd

/-!
# A call is settled by its own request's response

What arrives at either end are copies of what the other end has encoded. As the ids of
the calls differ, a response that settles a call answers the request of that call, and
the server has at most one invocation for it.
-/

namespace WeisleyRpc

section Lists
variable {α β : Type*} {R : α → β → Prop}

theorem exists_left_of_forall₂ {l : List α} {l' : List β} (h : List.Forall₂ R l l') {b : β}
    (hb : b ∈ l') : ∃ a ∈ l, R a b := by
  induction h with
  | nil => cases hb
  | @cons a b' l l' hab _ ih =>
    rcases List.mem_cons.mp hb with rfl | hb
    · exact ⟨a, by simp, hab⟩
    · obtain ⟨a', ha', hr⟩ := ih hb
      exact ⟨a', List.mem_cons_of_mem _ ha', hr⟩

theorem forall₂_pairwise {S : α → α → Prop} {T : β → β → Prop}
    (hST : ∀ a a' b b', R a b → R a' b' → S a a' → T b b') {l : List α} {l' : List β}
    (h : List.Forall₂ R l l') (hl : l.Pairwise S) : l'.Pairwise T := by
  induction h with
  | nil => exact .nil
  | @cons a b l l' hab hrest ih =>
    obtain ⟨ha, hl⟩ := List.pairwise_cons.mp hl
    refine List.pairwise_cons.mpr ⟨fun b' hb' => ?_, ih hl⟩
    obtain ⟨a', ha', hr⟩ := exists_left_of_forall₂ hrest hb'
    exact hST a a' b b' hab hr (ha a' ha')

theorem pairwise_getElem? {S : α → α → Prop} {l : List α} (h : l.Pairwise S) {i j : ℕ} {x y : α}
    (hx : l[i]? = some x) (hy : l[j]? = some y) (hij : i < j) : S x y := by
  obtain ⟨hi, rfl⟩ := List.getElem?_eq_some_iff.mp hx
  obtain ⟨hj, rfl⟩ := List.getElem?_eq_some_iff.mp hy
  exact List.pairwise_iff_getElem.mp h i j hi hj hij

theorem pairwise_flatten_position {S : α → α → Prop} {L : List (List α)}
    (h : L.flatten.Pairwise S) {n n' i i' : ℕ} {l l' : List α} {x x' : α} (hl : L[n]? = some l)
    (hx : l[i]? = some x) (hl' : L[n']? = some l') (hx' : l'[i']? = some x') (hno : ¬ S x x')
    (hno' : ¬ S x' x) : n = n' ∧ i = i' := by
  obtain ⟨hin, hout⟩ := List.pairwise_flatten.mp h
  have hmem := List.mem_of_getElem? hx
  have hmem' := List.mem_of_getElem? hx'
  rcases Nat.lt_trichotomy n n' with hn | rfl | hn
  · exact absurd (pairwise_getElem? hout hl hl' hn x hmem x' hmem') hno
  · obtain rfl := Option.some.inj (hl.symm.trans hl')
    have hp := hin l (List.mem_of_getElem? hl)
    rcases Nat.lt_trichotomy i i' with hi | rfl | hi
    · exact absurd (pairwise_getElem? hp hx hx' hi) hno
    · exact ⟨rfl, rfl⟩
    · exact absurd (pairwise_getElem? hp hx' hx hi) hno'
  · exact absurd (pairwise_getElem? hout hl' hl hn x' hmem' x hmem) hno'

theorem length_filter_le_one {p : α → Bool} {l : List α} (hl : l.Nodup)
    (h : ∀ a ∈ l, ∀ b ∈ l, p a → p b → a = b) : (l.filter p).length ≤ 1 := by
  cases hf : l.filter p with
  | nil => simp
  | cons a rest =>
    cases rest with
    | nil => simp
    | cons b rest =>
      have hn := hl.filter p
      rw [hf] at hn
      obtain ⟨ha, hpa⟩ := List.mem_filter.mp (hf ▸ List.mem_cons_self : a ∈ l.filter p)
      have hb' : b ∈ l.filter p := by rw [hf]; simp
      obtain ⟨hb, hpb⟩ := List.mem_filter.mp hb'
      exact absurd (h a ha b hb hpa hpb) fun he => by simp [he] at hn

end Lists

/-- The fields of requests and responses that the two ends look at. -/
def messageFields : String → List String
  | "request" => ["id", "service", "method", "params"]
  | "response" => ["id", "ok", "result", "error"]
  | _ => []

/-- The round trip of a serializer, field by field: `carry key` is what becomes of a value
under the given key of a message. Strings and the `ok` flag arrive as they are, and the
code of an error object is carried like a field. -/
structure Serializer.RoundTrips (z : Serializer) (carry : String → JsValue → JsValue) : Prop where
  field : ∀ message type body copy, message.prop "type" = .string type →
    message.prop "toJSON" = .undefined → z.serialize message = .ok body →
    z.deserialize body = .ok copy → ∀ key ∈ messageFields type,
      copy.prop key = carry key (message.prop key)
  code : ∀ fields, (JsValue.object fields).prop "toJSON" = .undefined →
    (carry "error" (.object fields)).prop "code" = carry "code" ((JsValue.object fields).prop "code")
  string : ∀ key text, carry key (.string text) = .string text
  ok : ∀ b, carry "ok" (.boolean b) = .boolean b

theorem get_of_prop {v : JsValue} {key text : String} (h : v.prop key = .string text) :
    v.get key = .ok (.string text) := by
  refine JsValue.get_eq_ok_iff.mpr ⟨?_, h⟩
  cases v <;> first | rfl | simp [JsValue.prop] at h

theorem CodecConfig.Copy.type {c : CodecConfig} {message copy : JsValue}
    (h : c.Copy message copy) {text : String} (ht : copy.prop "type" = .string text) :
    message.prop "type" = .string text :=
  (JsValue.get_eq_ok_iff.mp (h.1.symm.trans (get_of_prop ht))).2

theorem CodecConfig.Copy.field {c : CodecConfig} {carry : String → JsValue → JsValue}
    (hz : c.defaultSerializer.RoundTrips carry) {message copy : JsValue} (h : c.Copy message copy)
    {type key : String} (ht : message.prop "type" = .string type)
    (hj : message.prop "toJSON" = .undefined) (hk : key ∈ messageFields type) :
    copy.prop key = carry key (message.prop key) := by
  obtain ⟨-, body, hs, hd⟩ := h
  exact hz.field message type body copy ht hj hs hd key hk

/-- `q` is what arrives of the request. -/
structure Arrived (carry : String → JsValue → JsValue) (request : RpcRequest) (q : JsValue) :
    Prop where
  id : q.prop "id" = .string request.id
  service : q.prop "service" = .string request.service
  method : q.prop "method" = .string request.method
  params : q.prop "params" = carry "params" (.array request.params)

/-- The call is the one that the request asks for. -/
structure Asked (carry : String → JsValue → JsValue) (request : RpcRequest) (call : Call) :
    Prop where
  service : call.method.service = request.service
  method : call.method.name = request.method
  params : spread (carry "params" (.array request.params)) = .ok call.params

theorem arrived_of_copy {c : CodecConfig} {carry : String → JsValue → JsValue}
    (hz : c.defaultSerializer.RoundTrips carry) {request : RpcRequest} {q : JsValue}
    (h : c.Copy request.toValue q) : Arrived carry request q := by
  have hj : request.toValue.prop "toJSON" = .undefined := by
    unfold RpcRequest.toValue
    cases request.metadata <;> rfl
  have hfield : ∀ key ∈ messageFields "request",
      q.prop key = carry key (request.toValue.prop key) :=
    fun key hk => h.field hz request.prop_type hj hk
  refine ⟨?_, ?_, ?_, ?_⟩
  · rw [hfield "id" (by simp [messageFields]), request.prop_id, hz.string]
  · rw [hfield "service" (by simp [messageFields]), request.prop_service, hz.string]
  · rw [hfield "method" (by simp [messageFields]), request.prop_method, hz.string]
  · rw [hfield "params" (by simp [messageFields]), request.prop_params]

theorem Arrived.asked {carry : String → JsValue → JsValue} {request : RpcRequest} {q : JsValue}
    (h : Arrived carry request q) {registry : ServiceRegistry} {call : Call}
    (hc : MethodInvoker.call registry q = .ok call) : Asked carry request call := by
  obtain ⟨hs, hm, hp⟩ := MethodInvoker.call_eq_ok hc
  refine ⟨?_, ?_, ?_⟩
  · exact JsValue.string.inj (hs.symm.trans h.service)
  · rw [h.method, JsValue.toText_string] at hm
    exact (Except.ok.inj hm).symm
  · rw [← h.params]
    exact hp

/-- The code with which `new RpcError(message, code)` rejects. -/
def rejectionCode (code : JsValue) : JsValue :=
  if code = .undefined then .string "RPC_ERROR" else code

/-- The handler of invocation `v` has written `wr` for its outcome, and `m` arrived of it. -/
structure Server.ServerSocket.Returned (conn : Server.ServerSocket) (v : Server.Invocation)
    (outcome : Except Thrown JsValue) (wr : Server.Write) (m : JsValue) : Prop where
  invoked : v ∈ conn.invocations
  written : wr ∈ conn.written
  place : v.handler = wr.handler ∧ v.index = wr.index
  cause : wr.cause = .response outcome
  ended : ∃ returned, outcome = MethodInvoker.outcome v.called returned
  response : MethodInvoker.response v.request outcome = .ok wr.message
  copy : conn.codec.config.Copy wr.message m

/-- What response `m` to a request says about its invocation, by the outcome of the call. -/
inductive Answers (carry : String → JsValue → JsValue) (conn : Server.ServerSocket)
    (request : RpcRequest) (m : JsValue) : Except JsError JsValue → Prop
  | returned {v : Server.Invocation} {wr : Server.Write} {call : Call} {value : JsValue}
      (arrived : Arrived carry request v.request) (called : v.called = .ok call)
      (asked : Asked carry request call) (response : conn.Returned v (.ok value) wr m) :
      Answers carry conn request m (.ok (carry "result" value))
  | failed {v : Server.Invocation} {wr : Server.Write} {thrown : Thrown} (message : String)
      (arrived : Arrived carry request v.request)
      (response : conn.Returned v (.error thrown) wr m) :
      Answers carry conn request m
        (.error (.rpcError message (rejectionCode (carry "code" thrown.code))))
  | refused {wr : Server.Write} {q : JsValue} (message : String)
      (arrived : Arrived carry request q) (written : wr ∈ conn.written)
      (refusal : wr.message = drainingResponse q) (copy : conn.codec.config.Copy wr.message m)
      (uninvoked : ∀ v ∈ conn.invocations, v.request.prop "id" ≠ .string request.id) :
      Answers carry conn request m (.error (.rpcError message (.string "SERVER_DRAINING")))

/-- Every call that is settled by a response is settled by the response to its own request,
every invocation is that of an accepted call, and each call has at most one. -/
structure System.Correlated (carry : String → JsValue → JsValue) (s : Client.SocketId)
    (k : Server.SocketId) (w : System) : Prop where
  settled : ∀ x ∈ w.client.settled, ∀ m, x.cause = .response m → ∃ a ∈ w.client.accepted,
    a.call = x.call ∧ a.socket = s ∧
      Answers carry (w.server.conns k) (w.requests a.call) m x.outcome
  invoked : ∀ v ∈ (w.server.conns k).invocations, ∃ a ∈ w.client.accepted, a.socket = s ∧
    Arrived carry (w.requests a.call) v.request
  once : ∀ a ∈ w.client.accepted, ((w.server.conns k).invocations.filter fun v =>
    v.request.prop "id" = .string (w.requests a.call).id).length ≤ 1

theorem responseError_eq_ok {m : JsValue} {e : JsError}
    (h : Client.World.responseError m = .ok e) :
    ∃ text, e = .rpcError text (rejectionCode ((m.prop "error").prop "code")) := by
  unfold Client.World.responseError newRpcError at h
  by_cases hm : ((m.prop "error").prop "message").orElse (.string "RPC call failed") = .undefined
  · rw [if_pos hm] at h
    obtain ⟨text, -, he⟩ := Except.bind_eq_ok_iff.mp h
    exact ⟨text, (Except.ok.inj he).symm⟩
  · rw [if_neg hm] at h
    obtain ⟨text, -, he⟩ := Except.bind_eq_ok_iff.mp h
    exact ⟨text, (Except.ok.inj he).symm⟩

theorem responseOutcome_of_ok {m : JsValue} {b : Bool} {outcome : Except JsError JsValue}
    (hok : m.prop "ok" = .boolean b) (h : Client.World.responseOutcome m = .ok outcome) :
    (b = true ∧ outcome = .ok (m.prop "result")) ∨ (b = false ∧
      ∃ text, outcome = .error (.rpcError text (rejectionCode ((m.prop "error").prop "code")))) := by
  unfold Client.World.responseOutcome at h
  rw [hok] at h
  cases b with
  | true => exact Or.inl ⟨rfl, (Except.ok.inj h).symm⟩
  | false =>
    refine Or.inr ⟨rfl, ?_⟩
    change (Client.World.responseError m).map Except.error = _ at h
    cases he : Client.World.responseError m with
    | error x => simp [he, Except.map] at h
    | ok e =>
      rw [he] at h
      obtain rfl := Except.ok.inj h
      obtain ⟨text, rfl⟩ := responseError_eq_ok he
      exact ⟨text, rfl⟩

section Outcomes
variable {c : CodecConfig} {carry : String → JsValue → JsValue} {q m : JsValue}
  {outcome : Except JsError JsValue}

theorem outcome_of_success (hz : c.defaultSerializer.RoundTrips carry) {value : JsValue}
    (h : c.Copy (successResponse q value) m) (ho : Client.World.responseOutcome m = .ok outcome) :
    outcome = .ok (carry "result" value) := by
  have hfield : ∀ key ∈ messageFields "response",
      m.prop key = carry key ((successResponse q value).prop key) :=
    fun key hk => h.field hz rfl rfl hk
  have hok : m.prop "ok" = .boolean true :=
    (hfield "ok" (by simp [messageFields])).trans (hz.ok true)
  rcases responseOutcome_of_ok hok ho with ⟨-, he⟩ | ⟨hf, -⟩
  · rw [he, hfield "result" (by simp [messageFields])]
    rfl
  · cases hf

theorem outcome_of_failure (hz : c.defaultSerializer.RoundTrips carry) {message : JsValue}
    (fields : List (String × JsValue)) (ht : message.prop "type" = .string "response")
    (hj : message.prop "toJSON" = .undefined) (hok : message.prop "ok" = .boolean false)
    (he : message.prop "error" = .object fields)
    (hej : (JsValue.object fields).prop "toJSON" = .undefined)
    (h : c.Copy message m) (ho : Client.World.responseOutcome m = .ok outcome) :
    ∃ text, outcome = .error (.rpcError text
      (rejectionCode (carry "code" ((JsValue.object fields).prop "code")))) := by
  have hfield : ∀ key ∈ messageFields "response", m.prop key = carry key (message.prop key) :=
    fun key hk => h.field hz ht hj hk
  have hflag : m.prop "ok" = .boolean false := by
    rw [hfield "ok" (by simp [messageFields]), hok, hz.ok]
  rcases responseOutcome_of_ok hflag ho with ⟨hf, -⟩ | ⟨-, text, rfl⟩
  · cases hf
  · refine ⟨text, ?_⟩
    rw [hfield "error" (by simp [messageFields]), he, hz.code fields hej]

section Replies
variable {conn : Server.ServerSocket} {wr : Server.Write}

/-- A copy of the reply carries the id of the request as the serializer carries it. -/
theorem id_of_reply (hz : c.defaultSerializer.RoundTrips carry) (h : conn.Replies q wr)
    (htype : wr.message.prop "type" = .string "response") (hcopy : c.Copy wr.message m) :
    m.prop "id" = carry "id" (q.prop "id") := by
  obtain ⟨htoJson, hid⟩ := h.fields
  have hkey : "id" ∈ messageFields "response" := by simp [messageFields]
  rw [hcopy.field hz htype htoJson hkey, hid]

/-- What the client makes of a copy of the reply. -/
theorem answers_of_reply (hz : c.defaultSerializer.RoundTrips carry) (hcalled : conn.Called)
    (hconfig : conn.codec.config = c) (hwr : wr ∈ conn.written) (h : conn.Replies q wr)
    (htype : wr.message.prop "type" = .string "response") (hcopy : c.Copy wr.message m)
    (ho : Client.World.responseOutcome m = .ok outcome) :
    (∃ text, wr.cause = .refusal ∧ wr.message = drainingResponse q ∧
      outcome = .error (.rpcError text (.string "SERVER_DRAINING"))) ∨
    ∃ v ∈ conn.invocations, v.request = q ∧
      ∀ request, Arrived carry request q → Answers carry conn request m outcome := by
  have htoJson := h.fields.1
  cases h with
  | refused cause message =>
    obtain ⟨text, hout⟩ := outcome_of_failure hz
      [("code", .string "SERVER_DRAINING"), ("message", .string "RPC server is draining")] htype
      htoJson (message ▸ rfl) (message ▸ rfl) rfl hcopy ho
    have hcode : rejectionCode (carry "code" (.string "SERVER_DRAINING")) =
        .string "SERVER_DRAINING" := by
      rw [hz.string]
      rfl
    exact Or.inl ⟨text, cause, message,
      hout.trans (congrArg (fun code => Except.error (JsError.rpcError text code)) hcode)⟩
  | @ended v returned cause response invoked place request ended =>
    subst request
    refine Or.inr ⟨v, invoked, rfl, fun request harrived => ?_⟩
    have hreturned : conn.Returned v returned wr m :=
      ⟨invoked, hwr, place, cause, ended, response, hconfig.symm ▸ hcopy⟩
    cases returned with
    | ok value =>
      have hmessage : successResponse v.request value = wr.message := Except.ok.inj response
      obtain rfl := outcome_of_success hz (hmessage.symm ▸ hcopy) ho
      obtain ⟨registry, hregistry⟩ := hcalled v invoked
      obtain ⟨result, hended⟩ := ended
      cases hcall : v.called with
      | error e => simp [MethodInvoker.outcome, hcall] at hended
      | ok call =>
        exact .returned harrived hcall (harrived.asked (hregistry.symm.trans hcall)) hreturned
    | error thrown =>
      obtain ⟨error, herror, he⟩ := Except.bind_eq_ok_iff.mp response
      have hmessage : failureResponse v.request error = wr.message := Except.ok.inj he
      obtain ⟨fields, rfl, hej, hcode⟩ := MethodInvoker.toRpcError_eq_ok herror
      obtain ⟨text, rfl⟩ := outcome_of_failure hz _ htype htoJson (hmessage ▸ rfl)
        (hmessage ▸ rfl) hej hcopy ho
      rw [hcode]
      exact .failed text harrived hreturned

end Replies

end Outcomes

namespace System
variable {c : CodecConfig} {carry : String → JsValue → JsValue} {s : Client.SocketId}
  {k : Server.SocketId} {w : System}

/-- What the requests on the server's socket come from. -/
structure Sources (c : CodecConfig) (s : Client.SocketId) (k : Server.SocketId) (w : System)
    (sources : List JsValue) : Prop where
  copies : List.Forall₂ c.Copy sources (w.server.conns k).messages
  request : ∀ m ∈ sources, Server.IsRequest m →
    ∃ a ∈ w.client.accepted, a.socket = s ∧ m = (w.requests a.call).toValue
  distinct : sources.Pairwise OwnIds

theorem Paired.sources (h : w.Paired c s k) (hreads : c.Reads c)
    (hstream : (w.server.conns k).Streamed) (hconfig : (w.server.conns k).codec.config = c) :
    ∃ sources, w.Sources c s k sources := by
  obtain ⟨messages, hm⟩ := h.sent
  have hitems := CodecConfig.decode_copies hreads hm.encoded h.linked.right
  obtain ⟨rest, hrest⟩ := hstream.seen
  rw [hconfig] at hrest
  change List.Forall₂ _ _ (c.decode (w.server.conns k).received.flatten).items at hitems
  rw [← hrest] at hitems
  have hsub := (List.take_sublist (w.server.conns k).messages.length _).trans
    (List.take_sublist (c.decode (w.server.conns k).received.flatten).items.length messages)
  exact ⟨_, List.forall₂_take_append _ _ _ hitems, fun m hmem => hm.request m (hsub.mem hmem),
    hm.distinct.sublist hsub⟩

theorem Sources.origin {sources : List JsValue} (h : w.Sources c s k sources)
    (hz : c.defaultSerializer.RoundTrips carry) {q : JsValue}
    (hq : q ∈ (w.server.conns k).messages) (hreq : Server.IsRequest q) :
    ∃ a ∈ w.client.accepted, a.socket = s ∧ Arrived carry (w.requests a.call) q := by
  obtain ⟨m, hm, hcopy⟩ := exists_left_of_forall₂ h.copies hq
  obtain ⟨a, ha, hs, rfl⟩ := h.request m hm (hcopy.type hreq)
  exact ⟨a, ha, hs, arrived_of_copy hz hcopy⟩

theorem Sources.pairwise {sources : List JsValue} (h : w.Sources c s k sources)
    (hz : c.defaultSerializer.RoundTrips carry) :
    (w.server.conns k).messages.Pairwise OwnIds := by
  have hcopies := (List.forall₂_and_left _ _).mpr ⟨h.request, h.copies⟩
  refine forall₂_pairwise ?_ hcopies h.distinct
  rintro m m' q q' ⟨hm, hq⟩ ⟨hm', hq'⟩ hown hreq hreq' hid
  obtain ⟨a, -, -, rfl⟩ := hm (hq.type hreq)
  obtain ⟨a', -, -, rfl⟩ := hm' (hq'.type hreq')
  refine hown rfl rfl ?_
  rw [(arrived_of_copy hz hq).id, (arrived_of_copy hz hq').id] at hid
  rw [RpcRequest.prop_id, RpcRequest.prop_id, hid]

theorem Sources.position {sources : List JsValue} (h : w.Sources c s k sources)
    (hz : c.defaultSerializer.RoundTrips carry) {n n' i i' : ℕ} {x x' : Server.Handler}
    {q q' : JsValue} (hx : (w.server.conns k).handlers[n]? = some x) (hq : x.messages[i]? = some q)
    (hx' : (w.server.conns k).handlers[n']? = some x') (hq' : x'.messages[i']? = some q')
    (hreq : Server.IsRequest q) (hreq' : Server.IsRequest q')
    (hid : q.prop "id" = q'.prop "id") : n = n' ∧ i = i' := by
  have hl : ((w.server.conns k).handlers.map Server.Handler.messages)[n]? = some x.messages := by
    rw [List.getElem?_map, hx]
    rfl
  have hl' : ((w.server.conns k).handlers.map Server.Handler.messages)[n']? = some x'.messages := by
    rw [List.getElem?_map, hx']
    rfl
  exact pairwise_flatten_position (h.pairwise hz) hl hq hl' hq'
    (fun hno => hno hreq hreq' hid) fun hno => hno hreq' hreq hid.symm

theorem mem_messages {conn : Server.ServerSocket} {n i : ℕ} {x : Server.Handler} {q : JsValue}
    (hx : conn.handlers[n]? = some x) (hq : x.messages[i]? = some q) : q ∈ conn.messages :=
  List.mem_flatten.mpr ⟨x.messages, List.mem_map_of_mem (List.mem_of_getElem? hx),
    List.mem_of_getElem? hq⟩

theorem Paired.written (h : w.Paired c s k) (hreads : c.Reads c)
    (hrec : (w.server.conns k).Recorded) (hconfig : (w.server.conns k).codec.config = c)
    {m : JsValue} (hm : m ∈ (w.client.sockets s).handled) :
    ∃ wr ∈ (w.server.conns k).written, c.Copy wr.message m := by
  have hencoded : List.Forall₂ (fun m p => c.encode m = .ok p)
      ((w.server.conns k).written.map Server.Write.message)
      ((w.server.conns k).written.map Server.Write.payload) := by
    rw [List.forall₂_map_left_iff, List.forall₂_map_right_iff, List.forall₂_same]
    intro wr hwr
    obtain ⟨x, q, -, -, -, hwrote⟩ := hrec.write wr hwr
    rw [← hconfig]
    exact hwrote.encoded
  have hitems := CodecConfig.decode_copies hreads hencoded h.linked.left
  have hhandled : (c.decode (w.client.sockets s).received.flatten).items =
      (w.client.sockets s).handled := congrArg Parsed.items (h.streams.decoded s)
  change List.Forall₂ _ _ (c.decode (w.client.sockets s).received.flatten).items at hitems
  rw [hhandled] at hitems
  obtain ⟨m', hm', hcopy⟩ := exists_left_of_forall₂ hitems hm
  obtain ⟨wr, hwr, rfl⟩ := List.mem_map.mp (List.mem_of_mem_take hm')
  exact ⟨wr, hwr, hcopy⟩

theorem Paired.caller (h : w.Paired c s k) {sources : List JsValue} (hs : w.Sources c s k sources)
    (hz : c.defaultSerializer.RoundTrips carry) {a : Client.AcceptedCall}
    (ha : a ∈ w.client.accepted) {m q : JsValue} (hid : m.prop "id" = .string a.id)
    (hq : q ∈ (w.server.conns k).messages) (hreq : Server.IsRequest q)
    (hmq : m.prop "id" = carry "id" (q.prop "id")) :
    a.socket = s ∧ Arrived carry (w.requests a.call) q := by
  obtain ⟨a', ha', hsocket, harrived⟩ := hs.origin hz hq hreq
  have hsame : a'.id = a.id := by
    rw [harrived.id, hz.string, hid, h.named a' ha'] at hmq
    exact (JsValue.string.inj hmq).symm
  obtain rfl := List.inj_on_of_nodup_map h.ids ha' ha hsame
  exact ⟨hsocket, harrived⟩

theorem Paired.settlement (h : w.Paired c s k) {sources : List JsValue}
    (hs : w.Sources c s k sources) (hreads : c.Reads c) (hz : c.defaultSerializer.RoundTrips carry)
    (hrec : (w.server.conns k).Recorded) (hcalled : (w.server.conns k).Called)
    (hconfig : (w.server.conns k).codec.config = c) {x : Client.Settlement}
    (hx : x ∈ w.client.settled) {m : JsValue} (hm : x.cause = .response m) :
    ∃ a ∈ w.client.accepted, a.call = x.call ∧ a.socket = s ∧
      Answers carry (w.server.conns k) (w.requests a.call) m x.outcome := by
  obtain ⟨a, ha, hcall, hresponds⟩ := h.calls.own x hx
  obtain ⟨ht, hid⟩ := hresponds m hm
  obtain ⟨hin, -, ho⟩ := h.answered x hx m hm
  obtain ⟨wr, hwr, hcopy⟩ := h.written hreads hrec hconfig hin
  have htype := hcopy.type ht
  obtain ⟨y, q, hy, hq, hreq, hreplies⟩ := hrec.replies hwr htype
  obtain ⟨hsocket, harrived⟩ := h.caller hs hz ha hid (mem_messages hy hq) hreq
    (id_of_reply hz hreplies htype hcopy)
  refine ⟨a, ha, hcall, hsocket, ?_⟩
  rcases answers_of_reply hz hcalled hconfig hwr hreplies htype hcopy ho with
    ⟨text, hcause, hmessage, hout⟩ | ⟨v, -, -, hanswers⟩
  · rw [hout]
    refine .refused text harrived hwr hmessage (hconfig.symm ▸ hcopy) fun v hv hvid => ?_
    obtain ⟨y', hy', hv', hvreq, -⟩ := hrec.invocation v hv
    exact hrec.refused wr hwr hcause v hv
      (hs.position hz hy' hv' hy hq hvreq hreq (hvid.trans harrived.id.symm))
  · exact hanswers _ harrived

theorem configured {o : Client.RpcConnectionOptions} {serializer : Serializer} {codec : RpcCodec}
    {es : List Event} (hnew : RpcCodec.new o.codecOptions = .ok codec)
    (hrun : (machine o s k).Run (init codec serializer) es w)
    (hsame : ∀ options, .server (.listen options) ∈ es → options.codecOptions = o.codecOptions) :
    ∀ k < w.server.nextSocket, (w.server.conns k).codec.config = codec.config := by
  refine (hrun.invariant_mem (I := fun v : System => v.server.Configured o.codecOptions codec)
    (fun v e v' he hi hv => ?_)
    ⟨fun hn => absurd hn (Nat.not_lt_zero 0), fun _ hn => absurd hn (Nat.not_lt_zero _)⟩).config
  obtain ⟨henabled, ha⟩ := hv
  cases e with
  | call request =>
    obtain rfl := Except.ok.inj ha
    unfold System.call
    split <;> exact hi
  | client e =>
    change (Client.apply o v.client e).map _ = _ at ha
    cases hc : Client.apply o v.client e with
    | error x => simp [hc, Except.map] at ha
    | ok client =>
      rw [hc] at ha
      obtain rfl := Except.ok.inj ha
      exact hi
  | server e =>
    change (Server.apply v.server e).map _ = _ at ha
    cases hc : Server.apply v.server e with
    | error x => simp [hc, Except.map] at ha
    | ok server =>
      rw [hc] at ha
      obtain rfl := Except.ok.inj ha
      exact hi.step hnew ⟨henabled.1, hc⟩ fun options heq => hsame options (heq ▸ he)

/-- Calls and invocations of one connection, in every run in which each call has an id of
its own and the server listens with the client's codec options. -/
theorem calls_correlated (o : Client.RpcConnectionOptions) (carry : String → JsValue → JsValue)
    (serializer : Serializer) (s : Client.SocketId) (k : Server.SocketId) (codec : RpcCodec)
    (w : System) (es : List Event) (hnew : RpcCodec.new o.codecOptions = .ok codec)
    (hz : o.serializer.RoundTrips carry)
    (hinflate : ∀ e, o.compression = some e → ∀ b z, e.compressor.compress b = .ok z →
      e.compressor.decompress z = .ok b)
    (hrun : ((machine o s k).guard FreshCall).Run (init codec serializer) es w)
    (hsame : ∀ options, .server (.listen options) ∈ es → options.codecOptions = o.codecOptions)
    (hk : k < w.server.nextSocket) : w.Correlated carry s k := by
  have hconfig := configured hnew hrun.unguard hsame k hk
  have h : w.Paired codec.config s k :=
    hrun.invariant (fun _ _ _ hi hs => hi.step hs) (paired_init (RpcCodec.queue_new hnew) serializer)
  have hreads := CodecConfig.reads_new hnew rfl hinflate
  have hz' : codec.config.defaultSerializer.RoundTrips carry := by
    obtain ⟨_, _, rfl⟩ := RpcCodec.new_eq_ok hnew
    exact hz
  have hrec := h.server.recorded k hk
  obtain ⟨sources, hs⟩ := h.sources hreads (h.server.streamed k hk) hconfig
  refine ⟨fun x hx m hm => h.settlement hs hreads hz' hrec (h.server.called k hk) hconfig hx hm,
    fun v hv => ?_, fun a _ => ?_⟩
  · obtain ⟨y, hy, hq, hreq, -⟩ := hrec.invocation v hv
    exact hs.origin hz' (mem_messages hy hq) hreq
  · refine length_filter_le_one (List.Nodup.of_map _ hrec.invokedOnce) fun v hv v' hv' hid hid' => ?_
    obtain ⟨y, hy, hq, hreq, -⟩ := hrec.invocation v hv
    obtain ⟨y', hy', hq', hreq', -⟩ := hrec.invocation v' hv'
    obtain ⟨hn, hi⟩ := hs.position hz' hy hq hy' hq' hreq hreq'
      ((of_decide_eq_true hid).trans (of_decide_eq_true hid').symm)
    exact List.inj_on_of_nodup_map hrec.invokedOnce hv hv' (Prod.ext hn hi)

def sampleRpcRequest : RpcRequest := ⟨"1", "s", "m", [], none⟩

def sampleSecondRequest : RpcRequest := ⟨"2", "s", "m", [], none⟩

def sampleSecondResponse : JsValue :=
  .object [("type", .string "response"), ("id", .string "2"), ("ok", .boolean true),
    ("result", .number (.ofNat 8))]

/-- Two calls are under way at once, and the second one is answered first. The first chunk that the
client receives ends inside the second response. -/
def sampleCalled : Option System :=
  ((machine Client.sampleOptions 0 0).guard FreshCall).exec (init sampleCodec (.ofTable sampleTable))
    [.server (.registerService "s" ⟨[("m", true)], []⟩), .server (.listen Server.sampleServerOptions),
      .server (.listening 0), .client (.connect 0), .server (.connection 0),
      .client (.socketConnect 0), .client (.microtask 0), .client (.microtask 0),
      .client (.microtask 0), .call sampleRpcRequest, .call sampleSecondRequest,
      .server (.data 0 (samplePacket sampleRequest) 1),
      .server (.data 0 (samplePacket sampleSecondRequest.toValue) 1),
      .server (.settle 0 1 (.ok (.number (.ofNat 8))) 2),
      .server (.settle 0 0 (.ok (.number (.ofNat 7))) 3),
      .client (.socketData 0
        (samplePacket sampleSecondResponse ++ (samplePacket sampleResponse).take 20) 3),
      .server (.wrote 0 1 (.ok ()) 4), .server (.wrote 0 0 (.ok ()) 4),
      .client (.socketData 0 ((samplePacket sampleResponse).drop 20) 5)]

theorem sampleCalled_isSome : sampleCalled.isSome := by decide +kernel

theorem roundTrips_sample : (Serializer.ofTable sampleTable).RoundTrips fun _ v => v := by
  have hkeep : ∀ e ∈ sampleTable, ∀ e' ∈ sampleTable,
      e'.2.toUTF8.data.toList = e.2.toUTF8.data.toList →
        ∀ key ∈ messageFields "request" ++ messageFields "response",
          e'.1.prop key = e.1.prop key := by decide +kernel
  refine ⟨fun message type body copy _ _ hs hd key hk => ?_, fun _ _ => rfl, fun _ _ => rfl,
    fun _ => rfl⟩
  have hkey : key ∈ messageFields "request" ++ messageFields "response" := by
    unfold messageFields at hk
    split at hk
    · exact List.mem_append_left _ hk
    · exact List.mem_append_right _ hk
    · cases hk
  simp only [Serializer.ofTable] at hs hd
  split at hs
  · rename_i e he
    obtain rfl := Except.ok.inj hs
    split at hd
    · rename_i e' he'
      obtain rfl := Except.ok.inj hd
      have hmessage : e.1 = message := by simpa using List.find?_some he
      have hbody : e'.2.toUTF8.data.toList = e.2.toUTF8.data.toList := by
        simpa using List.find?_some he'
      rw [← hmessage]
      exact hkeep e (List.mem_of_find?_eq_some he) e' (List.mem_of_find?_eq_some he') hbody key hkey
    · cases hd
  · cases hs

theorem calls_correlated_sample :
    (sampleCalled.get sampleCalled_isSome).Correlated (fun _ v => v) 0 0 :=
  calls_correlated Client.sampleOptions _ (.ofTable sampleTable) 0 0 sampleCodec _ _ rfl
    roundTrips_sample (fun _ hn => by cases hn) (Machine.run_exec_get sampleCalled_isSome)
    (by simp [Client.sampleOptions, Server.sampleServerOptions,
      Server.RpcServerOptions.codecOptions, Client.RpcConnectionOptions.codecOptions,
      Client.RpcConnectionOptions.ofSerializer]) (by decide +kernel)

end System

end WeisleyRpc
