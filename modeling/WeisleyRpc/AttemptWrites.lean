import WeisleyRpc.AttemptOutcomes
import WeisleyRpc.ServerOps

/-!
# What a client writes

On each socket of each connection stand whole packets: pings, and the requests of the sends that
the connection has accepted on this socket, in their order. A socket that was ended takes no more
of them.
-/

namespace WeisleyRpc.Client
namespace World
variable {o : RpcConnectionOptions} {w w' : World}

/-- A socket takes nothing but pings, unless it is new and empty. -/
structure PingsOnly (w v : World) : Prop where
  config : v.codec.config = w.codec.config
  written : ∀ s, (v.sockets s).written = (w.sockets s).written ∨ (v.sockets s).written = [] ∨
    ∃ m payload, Server.IsPing m ∧ w.codec.encode m = .ok payload ∧
      (v.sockets s).written = (w.sockets s).written ++ [payload]

theorem PingsOnly.refl (w : World) : PingsOnly w w := ⟨rfl, fun _ => Or.inl rfl⟩

theorem KeepsStreams.pingsOnly {v : World} (h : KeepsStreams w v) : PingsOnly w v := by
  refine ⟨congrArg RpcCodec.config h.codec, fun s => ?_⟩
  rcases h.stream s with he | ⟨-, he⟩
  · exact Or.inl (congrArg Stream.written he)
  · exact Or.inr (Or.inl (congrArg Stream.written he))

theorem pingsOnly_of_step {e : Event} (hs : (machine o).Step w e w')
    (hsend : ∀ id payload, e ≠ .send id payload) : PingsOnly w w' := by
  rcases step_streams hs with ⟨-, hk | ⟨s, payload, hk, hsends⟩⟩ | ⟨s, chunk, now, messages, -, -, -,
    hcodec, -, -, hstream⟩
  · exact hk.pingsOnly
  · refine ⟨congrArg RpcCodec.config hk.codec, fun s' => ?_⟩
    have hw := congrArg Stream.written (hk.stream s')
    change (w'.sockets s').written = _ at hw
    split_ifs at hw with hss
    · rcases hsends with ⟨id, hid, -⟩ | ⟨id, timestamp, hping⟩
      · exact absurd hid (hsend id payload)
      · exact Or.inr (Or.inr ⟨pingMessage id timestamp, payload, rfl, hping, hss ▸ hw⟩)
    · exact Or.inl hw
  · refine ⟨by rw [hcodec, RpcCodec.push_config], fun s' => Or.inl ?_⟩
    have hw := congrArg Stream.written (hstream s')
    change (w'.sockets s').written = _ at hw
    split_ifs at hw with hss
    · rw [hw, hss]
    · exact hw

theorem config_send (w : World) (id : String) (payload : Buffer) :
    (w.send id payload).codec.config = w.codec.config := by
  rcases send_streams w id payload with hk | ⟨s, hk, -⟩
  · rw [hk.codec]
  · rw [hk.codec]

theorem written_sent (w : World) (s : SocketId) (id : String) (payload : Buffer) (s' : SocketId) :
    ((w.sent s id payload).sockets s').written = (w.sockets s').written ∨
      s' = s ∧ ((w.sent s id payload).sockets s').written = (w.sockets s).written ++ [payload] := by
  unfold sent write
  split_ifs
  · exact Or.inl rfl
  · by_cases hs : s' = s
    · subst hs
      exact Or.inr ⟨rfl, by simp [updateSocket, setTimer]⟩
    · exact Or.inl (by simp [updateSocket, setTimer, hs])

end World

namespace ClientNetwork
variable {o : CommonRpcClientOptions} {codec : RpcCodec} {u v w w' : ClientNetwork}

/-- The requests of the sends that were accepted on the socket. -/
def requestsOn (w : ClientNetwork) (c : ConnectionId) (s : SocketId) : List JsValue :=
  (w.transmissions.filter fun x => x.connection = c ∧ x.socket = s).map fun x => x.request.toValue

/-- The packets on the socket are those of the messages. -/
structure WrittenAs (codec : RpcCodec) (w : ClientNetwork) (c : ConnectionId) (s : SocketId)
    (messages : List JsValue) : Prop where
  encoded : List.Forall₂ (fun m p => codec.encode m = .ok p) messages
    ((w.connections c).sockets s).written
  requests : List.Sublist (messages.filter fun m => Server.IsRequest m) (w.requestsOn c s)
  kinds : ∀ m ∈ messages, Server.IsRequest m ∨ Server.IsPing m

structure Packeted (codec : RpcCodec) (w : ClientNetwork) : Prop where
  config : ∀ c, (w.connections c).codec.config = codec.config
  written : ∀ c s, ∃ messages, w.WrittenAs codec c s messages

theorem packeted_init (codec : RpcCodec) : Packeted codec (init codec) where
  config _ := rfl
  written _ _ := ⟨[], .nil, List.nil_sublist _, fun _ hm => by cases hm⟩

namespace WrittenAs
variable {c : ConnectionId} {s : SocketId} {messages : List JsValue}

theorem keep (h : w.WrittenAs codec c s messages)
    (hw : ((u.connections c).sockets s).written = ((w.connections c).sockets s).written)
    (hr : List.Sublist (w.requestsOn c s) (u.requestsOn c s)) : u.WrittenAs codec c s messages :=
  ⟨hw ▸ h.encoded, h.requests.trans hr, h.kinds⟩

theorem ping (h : w.WrittenAs codec c s messages) {m : JsValue} {payload : Buffer}
    (hm : Server.IsPing m) (henc : codec.encode m = .ok payload)
    (hw : ((u.connections c).sockets s).written =
      ((w.connections c).sockets s).written ++ [payload])
    (hr : List.Sublist (w.requestsOn c s) (u.requestsOn c s)) :
    u.WrittenAs codec c s (messages ++ [m]) := by
  have hno : ¬ Server.IsRequest m := by
    intro hreq
    have hne := hreq.symm.trans hm
    simp at hne
  refine ⟨?_, ?_, fun m' hm' => ?_⟩
  · rw [hw]
    exact List.rel_append h.encoded (.cons henc .nil)
  · rw [List.filter_append, List.filter_singleton, decide_eq_false hno, cond_false,
      List.append_nil]
    exact h.requests.trans hr
  · rcases List.mem_append.mp hm' with hm' | hm'
    · exact h.kinds m' hm'
    · obtain rfl := List.mem_singleton.mp hm'
      exact Or.inr hm

theorem request (h : w.WrittenAs codec c s messages) {request : RpcRequest} {payload : Buffer}
    (henc : codec.encode request.toValue = .ok payload)
    (hw : ((u.connections c).sockets s).written =
      ((w.connections c).sockets s).written ++ [payload])
    (hr : u.requestsOn c s = w.requestsOn c s ++ [request.toValue]) :
    u.WrittenAs codec c s (messages ++ [request.toValue]) := by
  refine ⟨?_, ?_, fun m' hm' => ?_⟩
  · rw [hw]
    exact List.rel_append h.encoded (.cons henc .nil)
  · have hreq : Server.IsRequest request.toValue := request.prop_type
    rw [List.filter_append, List.filter_singleton, decide_eq_true hreq, cond_true, hr]
    exact h.requests.append (List.Sublist.refl _)
  · rcases List.mem_append.mp hm' with hm' | hm'
    · exact h.kinds m' hm'
    · obtain rfl := List.mem_singleton.mp hm'
      exact Or.inl request.prop_type

end WrittenAs

theorem requestsOn_eq (h : u.transmissions = w.transmissions) (c : ConnectionId) (s : SocketId) :
    u.requestsOn c s = w.requestsOn c s := by
  rw [requestsOn, requestsOn, h]

namespace Packeted

/-- The connections go on while nothing is sent. -/
theorem move (h : Packeted codec w) (htransmissions : u.transmissions = w.transmissions)
    (hpings : ∀ c, World.PingsOnly (w.connections c) (u.connections c)) : Packeted codec u := by
  refine ⟨fun c => (hpings c).config.trans (h.config c), fun c s => ?_⟩
  obtain ⟨messages, hm⟩ := h.written c s
  have hr : List.Sublist (w.requestsOn c s) (u.requestsOn c s) := by
    rw [requestsOn_eq htransmissions]
  rcases (hpings c).written s with hw | hw | ⟨m, payload, hping, henc, hw⟩
  · exact ⟨messages, hm.keep hw hr⟩
  · refine ⟨[], ?_, List.nil_sublist _, fun _ hm => by cases hm⟩
    rw [hw]
    exact .nil
  · rw [RpcCodec.encode, h.config c] at henc
    exact ⟨messages ++ [m], hm.ping hping henc hw hr⟩

theorem keep (h : Packeted codec w) (hconnections : u.connections = w.connections)
    (htransmissions : u.transmissions = w.transmissions) : Packeted codec u :=
  ⟨fun c => by rw [hconnections]; exact h.config c, fun c s => by
    obtain ⟨messages, hm⟩ := h.written c s
    exact ⟨messages, hm.keep (by rw [hconnections]) (by rw [requestsOn_eq htransmissions])⟩⟩

theorem updateConnection (h : Packeted codec w) {c : ConnectionId} {f : World → World}
    (hf : World.PingsOnly (w.connections c) (f (w.connections c))) :
    Packeted codec (w.updateConnection c f) := by
  refine h.move rfl fun c' => ?_
  rw [connections_updateConnection]
  split_ifs with hc
  · rw [hc]
    exact hf
  · exact .refl _

theorem startConnect (h : Packeted codec w) (c : ConnectionId) :
    Packeted codec (w.startConnect c) := by
  have hpings := (World.keepsStreams_connect (w.connections c) (.user w.nextConnect)).pingsOnly
  exact (h.updateConnection (f := fun v => v.connect (.user w.nextConnect)) hpings).keep rfl rfl

theorem config_send (h : Packeted codec w) {c : ConnectionId} {id : String} {payload : Buffer}
    (c' : ConnectionId) : ((w.updateConnection c fun v => v.send id payload).connections
      c').codec.config = codec.config := by
  rw [connections_updateConnection]
  split_ifs
  · rw [World.config_send]
    exact h.config c
  · exact h.config c'

theorem sendTurn (h : Packeted codec w) {attempt : CallAttempt} {c : ConnectionId}
    (turn : SendTurn codec w attempt c u) : Packeted codec u := by
  cases turn with
  | unencoded threw => exact h.keep rfl rfl
  | @refused payload e encoded refusal =>
    refine Packeted.keep (w := w.updateConnection c fun v => v.send attempt.request.id payload) ?_
      rfl rfl
    have hsend := World.send_of_refusal refusal attempt.request.id payload
    refine ⟨h.config_send, fun c' s => ?_⟩
    obtain ⟨messages, hm⟩ := h.written c' s
    refine ⟨messages, hm.keep ?_ (List.Sublist.refl _)⟩
    rw [connections_updateConnection]
    split_ifs with hc
    · rw [hsend, hc]
    · rfl
  | @accepted payload s encoded accepts =>
    obtain ⟨-, -, hsent⟩ := World.send_of_socket accepts attempt.request.id payload
    refine Packeted.keep (w := { w.updateConnection c fun v => v.send attempt.request.id payload with
      transmissions := w.transmissions ++ [⟨attempt.request, c, s, (w.connections c).nextCall⟩] })
      ?_ rfl rfl
    refine ⟨h.config_send, fun c' s' => ?_⟩
    obtain ⟨messages, hm⟩ := h.written c' s'
    have hr : List.Sublist (w.requestsOn c' s') (requestsOn { w with transmissions :=
        w.transmissions ++ [⟨attempt.request, c, s, (w.connections c).nextCall⟩] } c' s') := by
      simp only [requestsOn, List.filter_append, List.map_append]
      exact List.sublist_append_left _ _
    by_cases hc : c' = c
    · subst hc
      have hw : ((w.updateConnection c' fun v => v.send attempt.request.id payload).connections
          c').sockets = ((w.connections c').sent s attempt.request.id payload).sockets := by
        rw [connections_updateConnection, if_pos rfl, hsent]
      rcases World.written_sent (w.connections c') s attempt.request.id payload s' with
        he | ⟨rfl, he⟩
      · exact ⟨messages, hm.keep (by rw [← he, ← hw]) hr⟩
      · refine ⟨messages ++ [attempt.request.toValue], hm.request encoded (by rw [← he, ← hw]) ?_⟩
        simp [requestsOn]
    · refine ⟨messages, hm.keep ?_ hr⟩
      change (((w.updateConnection c fun v => v.send attempt.request.id payload).connections
        c').sockets s').written = _
      rw [connections_updateConnection, if_neg hc]

theorem step {e : NetworkEvent} (h : Packeted codec w) (hs : (machine o codec).Step w e w') :
    Packeted codec w' := by
  cases networkStep_of_step hs with
  | unconnected _ pooled _ => exact (h.keep pooled.connections pooled.transmissions).keep rfl rfl
  | connecting _ pooled _ _ =>
    exact ((h.keep pooled.connections pooled.transmissions).startConnect _).keep rfl rfl
  | @sending request host port v u c _ pooled _ _ turn =>
    have hv := h.keep pooled.connections pooled.transmissions
    exact (hv.keep (u := v.begunWith ⟨request, host, port, .connecting c v.nextConnect⟩) rfl
      rfl).sendTurn turn
  | unreached _ _ _ => exact h.keep rfl rfl
  | connected _ _ _ turn => exact h.sendTurn turn
  | answered _ _ _ => exact h.keep rfl rfl
  | connection _ external step =>
    refine h.updateConnection (World.pingsOnly_of_step step ?_)
    rintro id payload rfl
    cases external
  | unpooled pooled => exact h.keep pooled.connections pooled.transmissions
  | connect pooled _ =>
    exact (h.keep pooled.connections pooled.transmissions).startConnect _
  | close =>
    refine h.move rfl fun c => ?_
    simp only [ClientNetwork.close]
    split_ifs
    · exact (World.keepsStreams_close _).pingsOnly
    · exact .refl _

theorem of_reachable (h : (machine o codec).Reachable (init codec) w) : Packeted codec w :=
  h.invariant (fun _ _ _ hi hs => hi.step hs) (packeted_init codec)

end Packeted

/-- The sends that the connections have accepted belong, one each at most, to attempts that were
begun for their addresses, and what stands on a socket is the packets of pings and of requests
that were accepted there, in order. -/
structure SendsAccounted (codec : RpcCodec) (w : ClientNetwork) : Prop where
  accepted : ∀ c, (w.transmissions.filter fun x => x.connection = c).map Transmission.accepted =
    (w.connections c).accepted
  begun : ∀ x ∈ w.transmissions, ∃ host port, w.Began x.request host port ∧
    x.connection.endpoint = getEndpointKey host port
  counted : ∀ id, w.transmissions.countP (fun x => x.request.id = id) + w.awaiting id ≤
    w.begun.countP fun a => a.request.id = id
  written : ∀ c s, ∃ messages, w.WrittenAs codec c s messages

theorem sends_accounted (h : (machine o codec).Reachable (init codec) w) :
    SendsAccounted codec w := by
  have hrecords := Records.of_reachable h
  exact ⟨hrecords.accepted, hrecords.sent, hrecords.counted, (Packeted.of_reachable h).written⟩

theorem sends_accounted_sampleSent :
    SendsAccounted sampleCodec (sampleSent.get sampleSent_isSome) :=
  sends_accounted ⟨_, Machine.run_exec_get sampleSent_isSome⟩

end ClientNetwork
end WeisleyRpc.Client
