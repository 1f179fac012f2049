import WeisleyRpc.ConnectionRecords
import WeisleyRpc.Duplex
import WeisleyRpc.ServerStreams

/-!
# A client and a server on one TCP connection

Socket `s` of the client and socket `k` of the server are the two ends of the
connection. Either end receives, in chunks of any size, what the other has written; all
other events of the two processes come in any order. Calls enter as `callDirect` makes
them.
-/

namespace WeisleyRpc

structure System where
  client : Client.World
  server : Server.World
  requests : Client.CallId → RpcRequest

namespace System

inductive Event
  | call (request : RpcRequest)
  | client (e : Client.Event)
  | server (e : Server.Event)

def init (codec : RpcCodec) (serializer : Serializer) : System where
  client := .init codec
  server := .init serializer
  requests := fun _ => ⟨"", "", "", [], none⟩

/-- `connection.send(request.id, codec.encode(request))`. An encoder that throws rejects
the call and nothing is sent. -/
def call (w : System) (request : RpcRequest) : System :=
  match w.client.codec.encode request.toValue with
  | .error _ => w
  | .ok payload =>
    { w with
      client := w.client.send request.id payload
      requests := Function.update w.requests w.client.nextCall request }

def apply (o : Client.RpcConnectionOptions) (w : System) : Event → Except JsError System
  | .call request => .ok (w.call request)
  | .client e => (Client.apply o w.client e).map fun client => { w with client := client }
  | .server e => (Server.apply w.server e).map fun server => { w with server := server }

/-- The client's other sockets bring nothing, and calls come by `call`. -/
def ClientReads (s : Client.SocketId) (k : Server.SocketId) (w : System) : Client.Event → Prop
  | .send _ _ => False
  | .socketData s' chunk _ => s' = s ∧ k < w.server.nextSocket ∧
      (w.client.sockets s).received.flatten ++ chunk <+:
        ((w.server.conns k).written.map Server.Write.payload).flatten
  | _ => True

def ServerReads (s : Client.SocketId) (k : Server.SocketId) (w : System) : Server.Event → Prop
  | .data k' chunk _ => k' = k → s < w.client.nextSocket ∧
      (w.server.conns k).received.flatten ++ chunk <+: (w.client.sockets s).written.flatten
  | _ => True

def Enabled (s : Client.SocketId) (k : Server.SocketId) (w : System) : Event → Prop
  | .call _ => True
  | .client e => Client.Enabled w.client e ∧ w.ClientReads s k e
  | .server e => Server.Enabled w.server e ∧ w.ServerReads s k e

def machine (o : Client.RpcConnectionOptions) (s : Client.SocketId) (k : Server.SocketId) :
    Machine System Event JsError where
  Enabled := Enabled s k
  apply := apply o

/-- No accepted call has the id of the new one. -/
def FreshCall (w : System) : Event → Prop
  | .call request => ∀ a ∈ w.client.accepted, a.id ≠ request.id
  | _ => True

instance (s : Client.SocketId) (k : Server.SocketId) (w : System) (e : Client.Event) :
    Decidable (w.ClientReads s k e) :=
  match e with
  | .send _ _ => isFalse id
  | .socketData _ _ _ => inferInstanceAs (Decidable (_ ∧ _ ∧ _))
  | .connect _ | .close | .timer _ _ _ | .socketConnect _ | .socketError _ _ | .socketDestroyed _
  | .socketClose _ | .microtask _ => isTrue trivial

instance (s : Client.SocketId) (k : Server.SocketId) (w : System) (e : Server.Event) :
    Decidable (w.ServerReads s k e) :=
  match e with
  | .data _ _ _ => inferInstanceAs (Decidable (_ → _ ∧ _))
  | .registerService _ _ | .listen _ | .listening _ | .listenError _ | .connection _
  | .settle _ _ _ _ | .wrote _ _ _ _ | .peerEnd _ | .finished _ | .socketError _ _
  | .socketClose _ | .close _ | .drainTimeout _ | .resumeDrain _ | .closeCallback _
  | .resumeClose _ => isTrue trivial

instance (o : Client.RpcConnectionOptions) (s : Client.SocketId) (k : Server.SocketId) (w : System)
    (e : Event) : Decidable ((machine o s k).Enabled w e) :=
  match e with
  | .call _ => isTrue trivial
  | .client _ | .server _ => inferInstanceAs (Decidable (_ ∧ _))

instance (w : System) (e : Event) : Decidable (FreshCall w e) :=
  match e with
  | .call _ => inferInstanceAs (Decidable (∀ a ∈ w.client.accepted, _))
  | .client _ | .server _ => isTrue trivial

end System

namespace Client

/-- The client's end of a connection. -/
def World.endpoint (s : SocketId) : Endpoint World Event UInt8 where
  up w := s < w.nextSocket
  sent w := (w.sockets s).written.flatten
  received w := (w.sockets s).received.flatten
  taken
    | .socketData s' chunk _ => if s' = s then chunk else []
    | _ => []

theorem World.endpoint_sound (o : RpcConnectionOptions) (s : SocketId) :
    (endpoint s).Sound (machine o).Step := by
  refine ⟨fun w e w' hs hup => Nat.lt_of_lt_of_le hup (step_nextSocket hs), fun w e w' hs hup => ?_,
    fun w e w' hs => ?_⟩
  · have hwritten : (w.stream s).written <+: (w'.stream s).written := by
      rcases step_stream hs s with ⟨-, he | ⟨hle, -⟩ | ⟨payload, -, he⟩⟩ | ⟨chunk, now, messages, -, he⟩
      · rw [he]
      · exact absurd hup (Nat.not_lt.mpr hle)
      · rw [he]
        exact List.prefix_append _ _
      · rw [he]
    exact hwritten.flatten
  · have htaken : (∀ chunk now, e ≠ .socketData s chunk now) → (endpoint s).taken e = [] := by
      intro hne
      cases e with
      | socketData s' chunk now => exact if_neg fun hss : s' = s => hne chunk now (hss ▸ rfl)
      | _ => rfl
    change (w'.stream s).received.flatten = (w.stream s).received.flatten ++ _ ∨
      (w'.stream s).received.flatten = []
    rcases step_stream hs s with ⟨hne, he | ⟨-, he⟩ | ⟨payload, -, he⟩⟩ | ⟨chunk, now, messages, rfl, he⟩
    · exact Or.inl (by rw [he, htaken hne, List.append_nil])
    · exact Or.inr (by rw [he]; rfl)
    · exact Or.inl (by rw [he, htaken hne, List.append_nil])
    · exact Or.inl (by simp [he, endpoint])

end Client

namespace Server

/-- The server's end of a connection. -/
def World.endpoint (k : SocketId) : Endpoint World Event UInt8 where
  up w := k < w.nextSocket
  sent w := ((w.conns k).written.map Write.payload).flatten
  received w := (w.conns k).received.flatten
  taken e := (e.chunks k).flatten

theorem World.endpoint_sound (k : SocketId) : (endpoint k).Sound machine.Step := by
  refine ⟨fun w e w' hs hup => ?_, fun w e w' hs hup => ?_, fun w e w' hs => ?_⟩
  · rcases (answer_of_step hs).nextSocket with hn | ⟨hn, -⟩
    · exact Nat.lt_of_lt_of_le hup (Nat.le_of_eq hn.symm)
    · exact Nat.lt_of_lt_of_le hup (hn ▸ Nat.le_succ _)
  · exact ((step_written hs hup).map _).flatten
  · rcases step_received hs k with he | he
    · exact Or.inl (by simp [endpoint, he])
    · exact Or.inr (by simp [endpoint, he])

end Server
namespace System
variable {o : Client.RpcConnectionOptions} {c : CodecConfig} {s : Client.SocketId}
  {k : Server.SocketId}

/-- The ids of requests are not shared. -/
def OwnIds (m m' : JsValue) : Prop :=
  Server.IsRequest m → Server.IsRequest m' → m.prop "id" ≠ m'.prop "id"

/-- The messages written to the client's socket: requests of accepted calls, each with its
own id, and pings. -/
structure Sent (c : CodecConfig) (s : Client.SocketId) (w : System) (messages : List JsValue) :
    Prop where
  encoded : List.Forall₂ (fun m p => c.encode m = .ok p) messages (w.client.sockets s).written
  request : ∀ m ∈ messages, Server.IsRequest m →
    ∃ a ∈ w.client.accepted, a.socket = s ∧ m = (w.requests a.call).toValue
  distinct : messages.Pairwise OwnIds

/-- The calls that were accepted keep their requests. -/
def KeepsRequests (w w' : System) : Prop :=
  ∀ a ∈ w.client.accepted, a ∈ w'.client.accepted ∧ w'.requests a.call = w.requests a.call

theorem Sent.same {w w' : System} {messages : List JsValue} (h : w.Sent c s messages)
    (hw : (w'.client.sockets s).written = (w.client.sockets s).written)
    (hr : KeepsRequests w w') : w'.Sent c s messages := by
  refine ⟨hw ▸ h.encoded, fun m hm hreq => ?_, h.distinct⟩
  obtain ⟨a, ha, hs, rfl⟩ := h.request m hm hreq
  obtain ⟨ha', he⟩ := hr a ha
  exact ⟨a, ha', hs, by rw [he]⟩

theorem Sent.snoc {w w' : System} {messages : List JsValue} (h : w.Sent c s messages)
    {m : JsValue} {payload : Buffer} (he : c.encode m = .ok payload)
    (hw : (w'.client.sockets s).written = (w.client.sockets s).written ++ [payload])
    (hr : KeepsRequests w w')
    (hm : Server.IsRequest m →
      (∃ a ∈ w'.client.accepted, a.socket = s ∧ m = (w'.requests a.call).toValue) ∧
        ∀ a ∈ w.client.accepted, (w.requests a.call).toValue.prop "id" ≠ m.prop "id") :
    w'.Sent c s (messages ++ [m]) := by
  refine ⟨?_, fun m' hm' hreq => ?_, ?_⟩
  · rw [hw]
    exact List.rel_append h.encoded (.cons he .nil)
  · rcases List.mem_append.mp hm' with hm' | hm'
    · obtain ⟨a, ha, hs, rfl⟩ := h.request m' hm' hreq
      obtain ⟨ha', he'⟩ := hr a ha
      exact ⟨a, ha', hs, by rw [he']⟩
    · obtain rfl := List.mem_singleton.mp hm'
      exact (hm hreq).1
  · rw [List.pairwise_append]
    refine ⟨h.distinct, List.pairwise_singleton _ _, fun m' hm' m'' hm'' hreq' hreq => ?_⟩
    obtain rfl := List.mem_singleton.mp hm''
    obtain ⟨a, ha, -, rfl⟩ := h.request m' hm' hreq'
    exact (hm hreq).2 a ha

/-- What every state of the two ends has. -/
structure Paired (c : CodecConfig) (s : Client.SocketId) (k : Server.SocketId) (w : System) :
    Prop where
  calls : w.client.CallsWf
  streams : w.client.StreamsWf c
  own : w.client.lastData = some s ∨ w.client.codec.queue.length = 0
  ids : (w.client.accepted.map Client.AcceptedCall.id).Nodup
  named : ∀ a ∈ w.client.accepted, (w.requests a.call).id = a.id
  sent : ∃ messages, w.Sent c s messages
  answered : ∀ x ∈ w.client.settled, ∀ m, x.cause = .response m →
    m ∈ (w.client.sockets s).handled ∧ Client.World.SettledBy x m
  server : Server.Reachable w.server
  linked : (Client.World.endpoint s).Linked (Server.World.endpoint k) w.client w.server

theorem paired_init {codec : RpcCodec} (hq : codec.queue = .empty) (serializer : Serializer) :
    (init codec serializer).Paired codec.config s k where
  calls := Client.World.callsWf_init codec
  streams := Client.World.streamsWf_init codec
  own := Or.inr (by
    change codec.queue.length = 0
    rw [hq]
    rfl)
  ids := List.nodup_nil
  named _ ha := by cases ha
  sent := ⟨[], .nil, (by simp), .nil⟩
  answered _ ha := by cases ha
  server := ⟨serializer, .refl _ _⟩
  linked := ⟨List.prefix_rfl, List.prefix_rfl, fun _ => rfl, fun _ => rfl⟩

/-- The event is a call of `send` for the request that is recorded for the next call. -/
def SendsRequest (w : System) (requests : Client.CallId → RpcRequest) (c : CodecConfig)
    (e : Client.Event) : Prop :=
  ∀ id payload, e = .send id payload → (requests w.client.nextCall).id = id ∧
    c.encode (requests w.client.nextCall).toValue = .ok payload ∧
    ∀ a ∈ w.client.accepted, a.id ≠ id

section ClientStep
variable {w : System} {e : Client.Event} {client : Client.World}
  {requests : Client.CallId → RpcRequest}

theorem Paired.sent_step (h : w.Paired c s k) (hs : (Client.machine o).Step w.client e client)
    (hsend : w.SendsRequest requests c e) (hr : w.KeepsRequests ⟨client, w.server, requests⟩) :
    ∃ messages, Sent c s ⟨client, w.server, requests⟩ messages := by
  obtain ⟨messages, hm⟩ := h.sent
  rcases Client.World.step_stream hs s with ⟨-, he | ⟨-, he⟩ | ⟨payload, hsends, he⟩⟩ | ⟨chunk, now,
    items, -, he⟩
  · exact ⟨messages, hm.same (congrArg Client.World.Stream.written he) hr⟩
  · have hw : (client.sockets s).written = [] := congrArg Client.World.Stream.written he
    refine ⟨[], ?_, (by simp), .nil⟩
    rw [hw]
    exact .nil
  · have hw : (client.sockets s).written = (w.client.sockets s).written ++ [payload] :=
      congrArg Client.World.Stream.written he
    rcases hsends with ⟨id, rfl, hacc⟩ | ⟨id, timestamp, hping⟩
    · obtain ⟨hid, henc, hfresh⟩ := hsend id payload rfl
      refine ⟨_, hm.snoc henc hw hr fun _ => ⟨⟨⟨w.client.nextCall, id, s⟩, ?_, rfl, rfl⟩, ?_⟩⟩
      · rw [hacc]
        simp
      · intro a ha heq
        refine hfresh a ha ?_
        rw [← h.named a ha, ← hid]
        simpa using heq
    · rw [RpcCodec.encode, h.streams.config] at hping
      refine ⟨_, hm.snoc hping hw hr fun hreq => ?_⟩
      simp [Server.IsRequest, pingMessage] at hreq
  · exact ⟨messages, hm.same (congrArg Client.World.Stream.written he) hr⟩

theorem Paired.answered_step (h : w.Paired c s k)
    (hs : (Client.machine o).Step w.client e client)
    (hdata : ∀ s' chunk now, e = .socketData s' chunk now → s' = s) :
    ∀ x ∈ client.settled, ∀ m, x.cause = .response m →
      m ∈ (client.sockets s).handled ∧ Client.World.SettledBy x m := by
  have hold : ∀ x ∈ w.client.settled, ∀ m, x.cause = .response m →
      m ∈ (client.sockets s).handled ∧ Client.World.SettledBy x m := by
    intro x hx m hm
    obtain ⟨hin, hby⟩ := h.answered x hx m hm
    refine ⟨?_, hby⟩
    change m ∈ (client.stream s).handled
    rcases Client.World.step_stream hs s with ⟨-, he | ⟨hle, -⟩ | ⟨payload, -, he⟩⟩ | ⟨chunk, now,
      items, -, he⟩
    · rw [he]
      exact hin
    · have hnone : (w.client.sockets s).handled = [] := (h.streams.fresh s hle).2
      simp [hnone] at hin
    · rw [he]
      exact hin
    · rw [he]
      exact List.mem_append_left _ hin
  rcases Client.World.step_calls hs with hk | ⟨id, payload, s', -, -, -, he⟩ | ⟨s', chunk, now, rfl, -, -,
    hx⟩
  · intro x hx m hm
    rcases hk.settled x hx with hx | hno
    · exact hold x hx m hm
    · exact absurd hm (hno m)
  · rw [he]
    exact hold
  · intro x hx' m hm
    obtain rfl := hdata s' chunk now rfl
    rcases hx x hx' with hx' | ⟨m', hm', hby⟩
    · exact hold x hx' m hm
    · obtain rfl := Client.Cause.response.inj (hm.symm.trans hby.1)
      exact ⟨hm', hby⟩

theorem Paired.queueOwn (h : w.Paired c s k)
    (hdata : ∀ s' chunk now, e = .socketData s' chunk now → s' = s) :
    Client.QueueOwn w.client e := by
  cases e with
  | socketData s' chunk now =>
    obtain rfl := hdata s' chunk now rfl
    exact h.own.symm
  | _ => trivial

theorem Paired.client_step (h : w.Paired c s k) (hs : (Client.machine o).Step w.client e client)
    (hfresh : Client.FreshId w.client e)
    (hdata : ∀ s' chunk now, e = .socketData s' chunk now → s' = s)
    (hreads : (Client.World.endpoint s).Delivers (Server.World.endpoint k) w.client w.server e)
    (hsend : w.SendsRequest requests c e)
    (hr : ∀ a ∈ w.client.accepted, requests a.call = w.requests a.call) :
    Paired c s k ⟨client, w.server, requests⟩ := by
  have hcalls := Client.World.step_calls hs
  have hrequests : w.KeepsRequests ⟨client, w.server, requests⟩ := by
    refine fun a ha => ⟨?_, hr a ha⟩
    rcases hcalls with hk | ⟨id, payload, s', -, he, -⟩ | ⟨s', chunk, now, -, he, -⟩
    · rw [hk.accepted]
      exact ha
    · rw [he]
      exact List.mem_append_left _ ha
    · rw [he]
      exact ha
  refine ⟨h.calls.step (Machine.guard_step.mpr ⟨hfresh, hs⟩),
    h.streams.step (Machine.guard_step.mpr ⟨h.queueOwn hdata, hs⟩), ?_, ?_, ?_,
    h.sent_step hs hsend hrequests, h.answered_step hs hdata, h.server,
    h.linked.step_left (Client.World.endpoint_sound o s) hs hreads⟩
  · rcases Client.World.step_streams hs with ⟨-, hk | ⟨s', payload, hk, -⟩⟩ | ⟨s', chunk, now, items,
      rfl, -, -, -, hl, -⟩
    · rw [hk.lastData, hk.codec]
      exact h.own
    · rw [hk.lastData, hk.codec]
      exact h.own
    · obtain rfl := hdata s' chunk now rfl
      exact Or.inl hl
  · rcases hcalls with hk | ⟨id, payload, s', rfl, he, -⟩ | ⟨s', chunk, now, -, he, -⟩
    · rw [hk.accepted]
      exact h.ids
    · obtain ⟨-, -, hno⟩ := hsend id payload rfl
      rw [he, List.map_append, List.nodup_append]
      refine ⟨h.ids, List.nodup_singleton _, ?_⟩
      rintro id' hid' id'' hid'' rfl
      obtain ⟨a, ha, rfl⟩ := List.mem_map.mp hid'
      exact hno a ha (by simpa using hid'')
    · rw [he]
      exact h.ids
  · have hold : ∀ a ∈ w.client.accepted, (requests a.call).id = a.id := fun a ha => by
      rw [hr a ha, h.named a ha]
    rcases hcalls with hk | ⟨id, payload, s', rfl, he, -⟩ | ⟨s', chunk, now, -, he, -⟩
    · rw [hk.accepted]
      exact hold
    · intro a ha
      rw [he] at ha
      rcases List.mem_append.mp ha with ha | ha
      · exact hold a ha
      · obtain rfl := List.mem_singleton.mp ha
        exact (hsend id payload rfl).1
    · rw [he]
      exact hold

end ClientStep

theorem Paired.freshId {w : System} (h : w.Paired c s k) {id : String}
    (hid : ∀ a ∈ w.client.accepted, a.id ≠ id) : w.client.pending.get id = none := by
  refine Option.eq_none_iff_forall_ne_some.mpr fun p hp => ?_
  obtain ⟨⟨s', hs'⟩, -⟩ := h.calls.outstanding id p hp
  exact hid _ hs' rfl

theorem Paired.step {w w' : System} {e : Event} (h : w.Paired c s k)
    (hs : ((machine o s k).guard FreshCall).Step w e w') : w'.Paired c s k := by
  obtain ⟨hfresh, he, ha⟩ := Machine.guard_step.mp hs
  cases e with
  | call request =>
    obtain rfl := Except.ok.inj ha
    unfold System.call
    split
    · exact h
    · rename_i payload henc
      rw [RpcCodec.encode, h.streams.config] at henc
      refine h.client_step (e := .send request.id payload) (o := o) ⟨trivial, rfl⟩
        (h.freshId hfresh) (by simp) (Or.inl rfl) ?_ fun a ha => ?_
      · intro id payload' heq
        obtain ⟨rfl, rfl⟩ := Client.Event.send.inj heq
        rw [Function.update_self]
        exact ⟨rfl, henc, hfresh⟩
      · exact Function.update_of_ne (Nat.ne_of_lt (h.calls.lt a ha)) _ _
  | client e =>
    obtain ⟨henabled, hreads⟩ := he
    change (Client.apply o w.client e).map _ = _ at ha
    cases hc : Client.apply o w.client e with
    | error x => simp [hc, Except.map] at ha
    | ok client =>
      rw [hc] at ha
      obtain rfl := Except.ok.inj ha
      refine h.client_step (e := e) (o := o) ⟨henabled, hc⟩ ?_ ?_ ?_ ?_ fun _ _ => rfl
      · cases e with
        | send id payload => exact hreads.elim
        | _ => trivial
      · rintro s' chunk now rfl
        exact hreads.1
      · cases e with
        | socketData s' chunk now =>
          obtain ⟨rfl, hup, hp⟩ := hreads
          have htaken : (Client.World.endpoint s').taken (.socketData s' chunk now) = chunk :=
            if_pos rfl
          exact Or.inr ⟨hup, htaken.symm ▸ hp⟩
        | _ => exact Or.inl rfl
      · rintro id payload rfl
        exact hreads.elim
  | server e =>
    obtain ⟨henabled, hreads⟩ := he
    change (Server.apply w.server e).map _ = _ at ha
    cases hc : Server.apply w.server e with
    | error x => simp [hc, Except.map] at ha
    | ok server =>
      rw [hc] at ha
      obtain rfl := Except.ok.inj ha
      have hstep : Server.machine.Step w.server e server := ⟨henabled, hc⟩
      obtain ⟨serializer, hr⟩ := h.server
      refine { h with
        sent := ?_
        server := ⟨serializer, hr.snoc hstep⟩
        linked := h.linked.step_right (Server.World.endpoint_sound k) hstep ?_ }
      · obtain ⟨messages, hm⟩ := h.sent
        exact ⟨messages, hm.encoded, hm.request, hm.distinct⟩
      · cases e with
        | data k' chunk now =>
          by_cases hk : k' = k
          · obtain ⟨hup, hp⟩ := hreads hk
            refine Or.inr ⟨hup, ?_⟩
            simpa [Server.World.endpoint, Client.World.endpoint, Server.Event.chunks, hk] using hp
          · exact Or.inl (by simp [Server.World.endpoint, Server.Event.chunks, hk])
        | _ => exact Or.inl rfl

end System
end WeisleyRpc
