import WeisleyRpc.Deployment

/-!
# The sockets of a deployment

A step of the client is at most one step of each of its connections, so each socket has read a
prefix of what its other end has written, on both sides. While no connection mixes the bytes of
two sockets, what is handled on a socket is what was decoded from its own stream.
-/

namespace WeisleyRpc.Client.ClientNetwork
variable {o : CommonRpcClientOptions} {codec : RpcCodec} {u w w' : ClientNetwork}

theorem SendTurn.connection {attempt : CallAttempt} {c : ConnectionId}
    (turn : SendTurn codec w attempt c u) (c' : ConnectionId) :
    u.connections c' = w.connections c' ∨
      ∃ id payload, u.connections c' = (w.connections c').send id payload := by
  have hsent : ∀ payload,
      (w.updateConnection c fun v => v.send attempt.request.id payload).connections c' =
        w.connections c' ∨ ∃ id payload',
      (w.updateConnection c fun v => v.send attempt.request.id payload).connections c' =
        (w.connections c').send id payload' := by
    intro payload
    rw [connections_updateConnection]
    split_ifs with hc
    · exact Or.inr ⟨attempt.request.id, payload, by rw [hc]⟩
    · exact Or.inl rfl
  cases turn with
  | unencoded threw => exact Or.inl rfl
  | @refused payload e encoded refusal => exact hsent payload
  | @accepted payload s encoded accepts => exact hsent payload

/-- A step of the client is at most one step of each connection. -/
theorem connection_step {e : NetworkEvent} (hs : (machine o codec).Step w e w')
    (c : ConnectionId) : w'.connections c = w.connections c ∨ ∃ e',
      (Client.machine o.connectionOptions).Step (w.connections c) e' (w'.connections c) ∧
        (e'.external = false ∨ e = .connection c e') := by
  have hturn : ∀ {v : ClientNetwork} {attempt : CallAttempt} {c' : ConnectionId},
      v.connections = w.connections → SendTurn codec v attempt c' w' →
        w'.connections c = w.connections c ∨ ∃ e',
          (Client.machine o.connectionOptions).Step (w.connections c) e' (w'.connections c) ∧
            (e'.external = false ∨ e = .connection c e') := by
    intro v attempt c' hv turn
    rcases turn.connection c with hsame | ⟨id, payload, hsent⟩
    · exact Or.inl (by rw [hsame, hv])
    · refine Or.inr ⟨.send id payload, ⟨trivial, ?_⟩, Or.inl rfl⟩
      rw [hsent, hv]
      rfl
  have hconnect : ∀ {v : ClientNetwork} {c' : ConnectionId}, v.connections = w.connections →
      w'.connections = (v.startConnect c').connections →
        w'.connections c = w.connections c ∨ ∃ e',
          (Client.machine o.connectionOptions).Step (w.connections c) e' (w'.connections c) ∧
            (e'.external = false ∨ e = .connection c e') := by
    intro v c' hv he
    rw [he]
    change (v.updateConnection c' fun v' => v'.connect (.user v.nextConnect)).connections c = _ ∨ _
    by_cases hc : c = c'
    · refine Or.inr ⟨.connect v.nextConnect, ⟨trivial, ?_⟩, Or.inl rfl⟩
      change _ = Except.ok ((v.updateConnection c' fun v' =>
        v'.connect (.user v.nextConnect)).connections c)
      rw [connections_updateConnection, if_pos hc, ← hc, hv]
      rfl
    · rw [connections_updateConnection, if_neg hc, hv]
      exact Or.inl rfl
  cases networkStep_of_step hs with
  | unconnected _ pooled _ => exact Or.inl (congrFun pooled.connections c)
  | connecting _ pooled _ _ => exact hconnect pooled.connections rfl
  | @sending request host port v u c' _ pooled _ _ turn =>
    have hv : (v.begunWith ⟨request, host, port, .connecting c' v.nextConnect⟩).connections =
      w.connections := pooled.connections
    exact hturn hv turn
  | unreached _ _ _ => exact Or.inl rfl
  | connected _ _ _ turn => exact hturn rfl turn
  | answered _ _ _ => exact Or.inl rfl
  | @connection c' e' k _ _ step =>
    rw [connections_updateConnection]
    split_ifs with hc
    · subst hc
      exact Or.inr ⟨e', step, Or.inr rfl⟩
    · exact Or.inl rfl
  | unpooled pooled => exact Or.inl (congrFun pooled.connections c)
  | connect pooled _ => exact hconnect pooled.connections rfl
  | close =>
    by_cases hin : w.InUse c
    · refine Or.inr ⟨.close, ⟨trivial, ?_⟩, Or.inl rfl⟩
      simp only [close, if_pos hin]
      rfl
    · exact Or.inl (by simp only [close, if_neg hin])

end WeisleyRpc.Client.ClientNetwork

namespace WeisleyRpc
open Client (ClientNetwork NetworkEvent CommonRpcClientOptions ConnectionId)

/-- The steps of a mode, from states of the given kind, are steps of its network; they bring the
data that they say. -/
structure ClientMode.Moves {σ ε : Type} (M : ClientMode σ ε) (o : CommonRpcClientOptions)
    (codec : RpcCodec) (I : σ → Prop) : Prop where
  keeps : ∀ s e t, I s → M.machine.Step s e t → I t
  reachable : ∀ s, I s → (ClientNetwork.machine o codec).Reachable (.init codec) (M.network s)
  network : ∀ s e t, I s → M.machine.Step s e t → M.network t = M.network s ∨ ∃ e',
    (ClientNetwork.machine o codec).Step (M.network s) e' (M.network t) ∧
      ∀ c k chunk now, e' = .connection c (.socketData k chunk now) →
        M.delivery e = some ⟨c, k, chunk⟩

namespace Deployment
variable {σ ε : Type} {W : Wiring} {M : ClientMode σ ε} {o : CommonRpcClientOptions}
  {codec : RpcCodec} {I : σ → Prop} {d d' : Deployment σ}

/-- What every state of an orderly run has. -/
structure Wf (W : Wiring) (M : ClientMode σ ε) (codec : RpcCodec) (I : σ → Prop)
    (d : Deployment σ) : Prop where
  client : I d.client
  streams : ∀ c, ((M.network d.client).connections c).StreamsWf codec.config
  servers : ∀ endpoint, Server.Reachable (d.servers endpoint)
  linked : ∀ c s, (Client.World.endpoint s).Linked (Server.World.endpoint (W.peer c s))
    ((M.network d.client).connections c) (d.servers c.endpoint)

theorem wf_start (W : Wiring) {client : σ} (hclient : I client)
    (hnetwork : M.network client = .init codec) (serializer : Serializer) :
    Wf W M codec I (start client serializer) := by
  refine ⟨hclient, fun c => ?_, fun _ => ⟨serializer, .refl _ _⟩, fun c s => ?_⟩
  · change ((M.network client).connections c).StreamsWf codec.config
    rw [hnetwork]
    exact Client.World.streamsWf_init codec
  · change (Client.World.endpoint s).Linked (Server.World.endpoint (W.peer c s))
      ((M.network client).connections c) (.init serializer)
    rw [hnetwork]
    exact ⟨List.prefix_rfl, List.prefix_rfl, fun _ => rfl, fun _ => rfl⟩

/-- A step of the client on one of its connections; data is what the step brings. -/
theorem connection_moves (hM : M.Moves o codec I) {s t : σ} {e : ε} (hs : I s)
    (hstep : M.machine.Step s e t) (c : ConnectionId) :
    (M.network t).connections c = (M.network s).connections c ∨ ∃ e',
      (Client.machine o.connectionOptions).Step ((M.network s).connections c) e'
        ((M.network t).connections c) ∧
      ∀ k chunk now, e' = .socketData k chunk now → M.delivery e = some ⟨c, k, chunk⟩ := by
  rcases hM.network s e t hs hstep with hsame | ⟨e', hnetwork, hdelivers⟩
  · exact Or.inl (by rw [hsame])
  · refine (ClientNetwork.connection_step hnetwork c).imp_right ?_
    rintro ⟨e'', hconnection, hkind⟩
    refine ⟨e'', hconnection, ?_⟩
    rintro k chunk now rfl
    rcases hkind with hinternal | hkind
    · cases hinternal
    · exact hdelivers c k chunk now hkind

theorem delivers_client {c : ConnectionId} {e : Client.Event} {k : Client.SocketId}
    (hreads : ∀ s chunk now, e = .socketData s chunk now → d.ClientReads W M ⟨c, s, chunk⟩) :
    (Client.World.endpoint k).Delivers (Server.World.endpoint (W.peer c k))
      ((M.network d.client).connections c) (d.servers c.endpoint) e := by
  cases e with
  | socketData s chunk now =>
    by_cases hs : s = k
    · subst hs
      obtain ⟨hup, hp⟩ := hreads s chunk now rfl
      have htaken : (Client.World.endpoint s).taken (.socketData s chunk now) = chunk :=
        if_pos rfl
      exact Or.inr ⟨hup, htaken.symm ▸ hp⟩
    · exact Or.inl (if_neg hs)
  | _ => exact Or.inl rfl

theorem delivers_server {c : ConnectionId} {e : Server.Event}
    (h : d.ServerReads W M c.endpoint e) (s : Client.SocketId) :
    (Server.World.endpoint (W.peer c s)).Delivers (Client.World.endpoint s)
      (d.servers c.endpoint) ((M.network d.client).connections c) e := by
  cases e with
  | data k chunk now =>
    by_cases hk : k = W.peer c s
    · subst hk
      obtain ⟨hup, hp⟩ := h (c.connection, s) (W.owner_peer c s)
      refine Or.inr ⟨hup, ?_⟩
      simpa [Server.World.endpoint, Client.World.endpoint, Server.Event.chunks] using hp
    · exact Or.inl (by simp [Server.World.endpoint, Server.Event.chunks, hk])
  | _ => exact Or.inl rfl

theorem apply_client {e : ε} (h : apply M d (.client e) = .ok d') : ∃ client,
    M.machine.apply d.client e = .ok client ∧ d' = { d with client } := by
  change (M.machine.apply d.client e).map _ = _ at h
  cases happly : M.machine.apply d.client e with
  | error x =>
    rw [happly] at h
    cases h
  | ok client =>
    rw [happly] at h
    exact ⟨client, rfl, (Except.ok.inj h).symm⟩

theorem apply_server {endpoint : String} {e : Server.Event}
    (h : apply M d (.server endpoint e) = .ok d') : ∃ w,
      Server.apply (d.servers endpoint) e = .ok w ∧
        d' = { d with servers := Function.update d.servers endpoint w } := by
  change (Server.apply (d.servers endpoint) e).map _ = _ at h
  cases happly : Server.apply (d.servers endpoint) e with
  | error x =>
    rw [happly] at h
    cases h
  | ok w =>
    rw [happly] at h
    exact ⟨w, rfl, (Except.ok.inj h).symm⟩

theorem Wf.client_step (h : Wf W M codec I d) (hM : M.Moves o codec I) {e : ε} {client : σ}
    (hs : M.machine.Step d.client e client) (hown : d.QueuesOwn M (.client e))
    (hreads : ∀ x ∈ M.delivery e, d.ClientReads W M x) :
    Wf W M codec I { d with client } := by
  refine ⟨hM.keeps _ _ _ h.client hs, fun c => ?_, h.servers, fun c s => ?_⟩
  · rcases connection_moves hM h.client hs c with hsame | ⟨e', hstep, hdelivery⟩
    · change ((M.network client).connections c).StreamsWf codec.config
      rw [hsame]
      exact h.streams c
    · refine (h.streams c).step (Machine.guard_step.mpr ⟨?_, hstep⟩)
      cases e' with
      | socketData k chunk now => exact hown _ (hdelivery k chunk now rfl)
      | _ => trivial
  · rcases connection_moves hM h.client hs c with hsame | ⟨e', hstep, hdelivery⟩
    · change (Client.World.endpoint s).Linked (Server.World.endpoint (W.peer c s))
        ((M.network client).connections c) (d.servers c.endpoint)
      rw [hsame]
      exact h.linked c s
    · refine (h.linked c s).step_left (Client.World.endpoint_sound o.connectionOptions s) hstep ?_
      exact delivers_client fun k chunk now he => hreads _ (hdelivery k chunk now he)

theorem Wf.server_step (h : Wf W M codec I d) {endpoint : String} {e : Server.Event}
    {w : Server.World} (hs : Server.machine.Step (d.servers endpoint) e w)
    (hreads : d.ServerReads W M endpoint e) :
    Wf W M codec I { d with servers := Function.update d.servers endpoint w } := by
  refine ⟨h.client, h.streams, fun endpoint' => ?_, fun c s => ?_⟩
  · by_cases he : endpoint' = endpoint
    · subst he
      obtain ⟨serializer, hr⟩ := h.servers endpoint'
      change Server.Reachable (Function.update d.servers endpoint' w endpoint')
      rw [Function.update_self]
      exact ⟨serializer, hr.snoc hs⟩
    · change Server.Reachable (Function.update d.servers endpoint w endpoint')
      rw [Function.update_of_ne he]
      exact h.servers endpoint'
  · by_cases he : c.endpoint = endpoint
    · subst he
      change (Client.World.endpoint s).Linked (Server.World.endpoint (W.peer c s))
        ((M.network d.client).connections c) (Function.update d.servers c.endpoint w c.endpoint)
      rw [Function.update_self]
      exact (h.linked c s).step_right (Server.World.endpoint_sound _) hs (delivers_server hreads s)
    · change (Client.World.endpoint s).Linked (Server.World.endpoint (W.peer c s))
        ((M.network d.client).connections c) (Function.update d.servers endpoint w c.endpoint)
      rw [Function.update_of_ne he]
      exact h.linked c s

theorem Wf.step (h : Wf W M codec I d) (hM : M.Moves o codec I) {e : DeploymentEvent ε}
    (hs : ((machine W M).guard (QueuesOwn M)).Step d e d') : Wf W M codec I d' := by
  obtain ⟨hown, henabled, happly⟩ := Machine.guard_step.mp hs
  cases e with
  | client e =>
    obtain ⟨henabled, hreads⟩ := henabled
    obtain ⟨client, hclient, rfl⟩ := apply_client happly
    exact h.client_step hM ⟨henabled, hclient⟩ hown hreads
  | server endpoint e =>
    obtain ⟨henabled, hreads⟩ := henabled
    obtain ⟨w, hw, rfl⟩ := apply_server (M := M) happly
    exact h.server_step ⟨henabled, hw⟩ hreads

theorem wf_of_run (hM : M.Moves o codec I) {client : σ} (hclient : I client)
    (hnetwork : M.network client = .init codec) {serializer : Serializer}
    {es : List (DeploymentEvent ε)}
    (hrun : ((machine W M).guard (QueuesOwn M)).Run (start client serializer) es d) :
    Wf W M codec I d :=
  hrun.invariant (fun _ _ _ hi hs => hi.step hM hs) (wf_start W hclient hnetwork serializer)

end Deployment

end WeisleyRpc
