import WeisleyRpc.CallAttempts
import WeisleyRpc.ConnectWaits

/-!
# What a step does to the attempts and the connections

Each turn of an attempt is a step of its connection, so every connection of a client goes through
the steps of a connection alone. A call sends only while it has no pending entry anywhere.
-/

namespace WeisleyRpc.Client

theorem RpcConnectionPool.getConnection_mem {p p' : RpcConnectionPool} {connection : ConnectionRef}
    (h : p.getConnection = .ok (connection, p')) :
    connection ∈ p'.connections ∧ p.connections <+: p'.connections := by
  unfold getConnection at h
  split_ifs at h
  · obtain ⟨c, -, hc⟩ := Except.bind_eq_ok_iff.mp h
    obtain ⟨rfl, rfl⟩ := Prod.mk.inj (Except.ok.inj hc)
    exact ⟨List.mem_append_right _ List.mem_cons_self, List.prefix_append _ _⟩
  · split at h
    · cases h
    · rename_i c hget
      obtain ⟨rfl, rfl⟩ := Prod.mk.inj (Except.ok.inj h)
      exact ⟨List.mem_of_getElem? hget, List.prefix_rfl⟩

theorem World.send_of_refusal {w : World} {e : JsError} (h : w.sendSocket = .error e) (id : String)
    (payload : Buffer) : w.send id payload = { w with refused := w.refused ++ [(id, e)] } := by
  unfold World.sendSocket at h
  unfold World.send
  cases hs : w.liveSocket with
  | none =>
    rw [hs] at h
    obtain rfl := Except.error.inj h
    rfl
  | some s =>
    simp only [hs] at h
    split_ifs at h with hstate
    obtain rfl := Except.error.inj h
    simp only [if_pos hstate]

theorem World.send_of_socket {w : World} {s : SocketId} (h : w.sendSocket = .ok s) (id : String)
    (payload : Buffer) : w.liveSocket = some s ∧ w.state = .connected ∧
      w.send id payload = w.sent s id payload := by
  unfold World.sendSocket at h
  cases hs : w.liveSocket with
  | none => simp [hs] at h
  | some s' =>
    simp only [hs] at h
    split_ifs at h with hstate
    obtain rfl := Except.ok.inj h
    refine ⟨rfl, not_not.mp hstate, ?_⟩
    unfold World.send
    simp only [hs, if_neg hstate]
    rfl

namespace ClientNetwork
variable {o : CommonRpcClientOptions} {codec : RpcCodec} {u v w w' : ClientNetwork}

/-- Only the pools have changed, and they have kept their connections. -/
structure Pooled (w v : ClientNetwork) : Prop where
  connections : v.connections = w.connections
  nextConnect : v.nextConnect = w.nextConnect
  attempts : v.attempts = w.attempts
  begun : v.begun = w.begun
  transmissions : v.transmissions = w.transmissions
  inUse : ∀ c, w.InUse c → v.InUse c

theorem Pooled.refl (w : ClientNetwork) : Pooled w w := ⟨rfl, rfl, rfl, rfl, rfl, fun _ => id⟩

theorem Pooled.trans (h : Pooled u v) (h' : Pooled v w) : Pooled u w :=
  ⟨h'.connections.trans h.connections, h'.nextConnect.trans h.nextConnect,
    h'.attempts.trans h.attempts, h'.begun.trans h.begun,
    h'.transmissions.trans h.transmissions, fun c hc => h'.inUse c (h.inUse c hc)⟩

theorem inUse_setPool {key : String} {pool : EndpointPool}
    (hkept : ∀ before, w.pools.get key = some before →
      before.pool.connections <+: pool.pool.connections) {c : ConnectionId} (h : w.InUse c) :
    InUse { w with pools := w.pools.set key pool } c := by
  obtain ⟨before, hget, hmem⟩ := h
  by_cases hkey : c.endpoint = key
  · refine ⟨pool, ?_, (hkept before (hkey ▸ hget)).subset hmem⟩
    simp only [OrderedMap.get_set, if_pos hkey]
  · refine ⟨before, ?_, hmem⟩
    simp only [OrderedMap.get_set, if_neg hkey, hget]

theorem takeConnection_spec {key : String} {pool : EndpointPool}
    (hpool : w.pools.get key = some pool) :
    Pooled w (w.takeConnection key pool).2 ∧ ∀ c, (w.takeConnection key pool).1 = .ok c →
      c.endpoint = key ∧ (w.takeConnection key pool).2.InUse c := by
  unfold takeConnection
  cases hget : pool.pool.getConnection with
  | error e =>
    refine ⟨.refl w, fun c hc => ?_⟩
    cases hc
  | ok taken =>
    obtain ⟨connection, p'⟩ := taken
    obtain ⟨hmem, hprefix⟩ := RpcConnectionPool.getConnection_mem hget
    refine ⟨⟨rfl, rfl, rfl, rfl, rfl, fun c hc => inUse_setPool (fun before hb => ?_) hc⟩,
      fun c hc => ?_⟩
    · obtain rfl := Option.some.inj (hpool.symm.trans hb)
      exact hprefix
    · obtain rfl := Except.ok.inj hc
      exact ⟨rfl, { pool with pool := p' }, by simp only [OrderedMap.get_set, if_true], hmem⟩

theorem getConnection_spec (o : CommonRpcClientOptions) (w : ClientNetwork) (host : String)
    (port : ℕ) : Pooled w (w.getConnection o host port).2 ∧
      ∀ c, (w.getConnection o host port).1 = .ok c →
        c.endpoint = getEndpointKey host port ∧ (w.getConnection o host port).2.InUse c := by
  unfold getConnection
  cases hpool : w.pools.get (getEndpointKey host port) with
  | some pool =>
    simp only [hpool]
    exact takeConnection_spec hpool
  | none =>
    cases hnew : RpcConnectionPool.new o.poolOptions with
    | error e =>
      simp only [hpool]
      refine ⟨.refl w, fun c hc => ?_⟩
      cases hc
    | ok pool =>
      have hadded : Pooled w { w with
          pools := w.pools.set (getEndpointKey host port) ⟨host, port, pool⟩ } := by
        refine ⟨rfl, rfl, rfl, rfl, rfl, fun c hc => inUse_setPool (fun before hb => ?_) hc⟩
        rw [hpool] at hb
        cases hb
      have hget : (w.pools.set (getEndpointKey host port) ⟨host, port, pool⟩).get
          (getEndpointKey host port) = some ⟨host, port, pool⟩ := by
        simp only [OrderedMap.get_set, if_true]
      obtain ⟨htaken, hspec⟩ := takeConnection_spec (w := { w with
        pools := w.pools.set (getEndpointKey host port) ⟨host, port, pool⟩ }) hget
      simp only [hpool]
      exact ⟨hadded.trans htaken, hspec⟩

/-- What a turn that ends with `send` leaves behind. -/
inductive SendTurn (codec : RpcCodec) (w : ClientNetwork) (attempt : CallAttempt)
    (c : ConnectionId) : ClientNetwork → Prop
  | unencoded {e : JsError} (threw : codec.encode attempt.request.toValue = .error e) :
      SendTurn codec w attempt c
        (w.put attempt.request.id { attempt with phase := .ended (.error e) })
  | refused {payload : Buffer} {e : JsError}
      (encoded : codec.encode attempt.request.toValue = .ok payload)
      (refusal : (w.connections c).sendSocket = .error e) :
      SendTurn codec w attempt c
        ((w.updateConnection c fun v => v.send attempt.request.id payload).put attempt.request.id
          { attempt with phase := .ended (.error e) })
  | accepted {payload : Buffer} {s : SocketId}
      (encoded : codec.encode attempt.request.toValue = .ok payload)
      (accepts : (w.connections c).sendSocket = .ok s) :
      SendTurn codec w attempt c
        ({ w.updateConnection c fun v => v.send attempt.request.id payload with
          transmissions := w.transmissions ++
            [⟨attempt.request, c, s, (w.connections c).nextCall⟩] : ClientNetwork}.put
          attempt.request.id { attempt with phase := .sending c (w.connections c).nextCall })

theorem sendTurn_send (codec : RpcCodec) (w : ClientNetwork) (attempt : CallAttempt)
    (c : ConnectionId) : SendTurn codec w attempt c (w.send codec attempt c) := by
  unfold send
  cases henc : codec.encode attempt.request.toValue with
  | error e => exact .unencoded henc
  | ok payload =>
    cases hsocket : (w.connections c).sendSocket with
    | error e => exact .refused henc hsocket
    | ok s => exact .accepted henc hsocket

def begunWith (w : ClientNetwork) (attempt : CallAttempt) : ClientNetwork :=
  { w with begun := w.begun ++ [attempt] }

/-- The answered steps, by the turn that is made. -/
inductive NetworkStep (o : CommonRpcClientOptions) (codec : RpcCodec) (w : ClientNetwork) :
    NetworkEvent → ClientNetwork → Prop
  | unconnected {request : RpcRequest} {host : String} {port : ℕ} {v : ClientNetwork} {e : JsError}
      (idle : w.Idle request.id) (pooled : Pooled w v)
      (threw : (w.getConnection o host port).1 = .error e) :
      NetworkStep o codec w (.begin request host port)
        ((v.begunWith ⟨request, host, port, .unconnected e⟩).put request.id
          ⟨request, host, port, .unconnected e⟩)
  | connecting {request : RpcRequest} {host : String} {port : ℕ} {v : ClientNetwork}
      {c : ConnectionId} (idle : w.Idle request.id) (pooled : Pooled w v)
      (endpoint : c.endpoint = getEndpointKey host port) (inUse : v.InUse c) :
      NetworkStep o codec w (.begin request host port)
        (((v.begunWith ⟨request, host, port, .connecting c v.nextConnect⟩).startConnect c).put
          request.id ⟨request, host, port, .connecting c v.nextConnect⟩)
  | sending {request : RpcRequest} {host : String} {port : ℕ} {v u : ClientNetwork}
      {c : ConnectionId} (idle : w.Idle request.id) (pooled : Pooled w v)
      (endpoint : c.endpoint = getEndpointKey host port) (inUse : v.InUse c)
      (turn : SendTurn codec (v.begunWith ⟨request, host, port, .connecting c v.nextConnect⟩)
        ⟨request, host, port, .connecting c v.nextConnect⟩ c u) :
      NetworkStep o codec w (.begin request host port) u
  | unreached {id : String} {attempt : CallAttempt} {c : ConnectionId} {n : ℕ} {e : JsError}
      (current : w.attempts.get id = some attempt) (phase : attempt.phase = .connecting c n)
      (told : w.told c n = some (.error e)) :
      NetworkStep o codec w (.resume id) (w.put id { attempt with phase := .ended (.error e) })
  | connected {id : String} {attempt : CallAttempt} {c : ConnectionId} {n : ℕ} {u : ClientNetwork}
      (current : w.attempts.get id = some attempt) (phase : attempt.phase = .connecting c n)
      (told : w.told c n = some (.ok ())) (turn : SendTurn codec w attempt c u) :
      NetworkStep o codec w (.resume id) u
  | answered {id : String} {attempt : CallAttempt} {c : ConnectionId} {call : CallId}
      {x : Settlement} (current : w.attempts.get id = some attempt)
      (phase : attempt.phase = .sending c call) (settled : w.settlement c call = some x) :
      NetworkStep o codec w (.resume id) (w.put id { attempt with phase := .ended x.outcome })
  | connection {c : ConnectionId} {e : Event} {k : World} (inUse : w.InUse c)
      (external : e.external = true)
      (step : (Client.machine o.connectionOptions).Step (w.connections c) e k) :
      NetworkStep o codec w (.connection c e) (w.updateConnection c fun _ => k)
  | unpooled {host : String} {port : ℕ} {v : ClientNetwork} (pooled : Pooled w v) :
      NetworkStep o codec w (.connect host port) v
  | connect {host : String} {port : ℕ} {v : ClientNetwork} {c : ConnectionId}
      (pooled : Pooled w v) (inUse : v.InUse c) :
      NetworkStep o codec w (.connect host port) (v.startConnect c)
  | close : NetworkStep o codec w .close w.close

theorem networkStep_begin {request : RpcRequest} {host : String} {port : ℕ}
    (hidle : w.Idle request.id) :
    NetworkStep o codec w (.begin request host port) (w.begin o codec request host port) := by
  obtain ⟨hpooled, hspec⟩ := getConnection_spec o w host port
  unfold begin
  cases hget : w.getConnection o host port with
  | mk result v =>
    rw [hget] at hpooled hspec
    cases result with
    | error e => exact .unconnected hidle hpooled (by rw [hget])
    | ok c =>
      obtain ⟨hendpoint, hinUse⟩ := hspec c rfl
      by_cases hstate : (v.connections c).state = .connected
      · simp only [if_pos hstate]
        exact .sending hidle hpooled hendpoint hinUse (sendTurn_send _ _ _ _)
      · simp only [if_neg hstate]
        exact .connecting hidle hpooled hendpoint hinUse

theorem networkStep_resume {id : String} (hready : w.Ready id) :
    NetworkStep o codec w (.resume id) (w.resume codec id) := by
  obtain ⟨attempt, hget, hphase⟩ := hready
  unfold awaited at hphase
  unfold resume
  simp only [hget]
  cases hp : attempt.phase with
  | connecting c n =>
    simp only [hp] at hphase ⊢
    cases htold : w.told c n with
    | none => simp [htold] at hphase
    | some result =>
      cases result with
      | error e => exact .unreached hget hp htold
      | ok u => exact .connected hget hp htold (sendTurn_send _ _ _ _)
  | sending c call =>
    simp only [hp] at hphase ⊢
    cases hsettled : w.settlement c call with
    | none => simp [hsettled] at hphase
    | some x => exact .answered hget hp hsettled
  | unconnected e => simp [hp] at hphase
  | ended outcome => simp [hp] at hphase

theorem networkStep_of_step {e : NetworkEvent} (h : (machine o codec).Step w e w') :
    NetworkStep o codec w e w' := by
  obtain ⟨henabled, happly⟩ := h
  cases e with
  | begin request host port =>
    obtain rfl := Except.ok.inj happly
    exact networkStep_begin henabled
  | resume id =>
    obtain rfl := Except.ok.inj happly
    exact networkStep_resume henabled
  | connection c e =>
    obtain ⟨hinUse, hexternal, henabled⟩ := henabled
    change (Client.apply o.connectionOptions (w.connections c) e).map _ = _ at happly
    cases hc : Client.apply o.connectionOptions (w.connections c) e with
    | error x => simp [hc, Except.map] at happly
    | ok k =>
      rw [hc] at happly
      obtain rfl := Except.ok.inj happly
      exact .connection hinUse hexternal ⟨henabled, hc⟩
  | connect host port =>
    obtain rfl := Except.ok.inj happly
    obtain ⟨hpooled, hspec⟩ := getConnection_spec o w host port
    simp only [ClientNetwork.connect]
    cases hget : w.getConnection o host port with
    | mk result v =>
      rw [hget] at hpooled hspec
      cases result with
      | error e => exact .unpooled hpooled
      | ok c => exact .connect hpooled (hspec c rfl).2
  | close =>
    obtain rfl := Except.ok.inj happly
    exact .close

end ClientNetwork

end WeisleyRpc.Client
