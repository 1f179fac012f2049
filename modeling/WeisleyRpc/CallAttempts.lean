import WeisleyRpc.ConnectionPending
import WeisleyRpc.ConnectionPool

/-!
# Attempts over the connections of a client

What `callDirect` and the loop of `callWithDiscoveryFailover` have in common: an attempt takes a
connection from the pool of its endpoint, awaits `connect` unless the connection is connected,
and awaits `send`. Between two turns of an attempt anything may happen to any connection. Beside
the pools stand the attempts that were begun and the sends that were accepted.
-/

namespace WeisleyRpc.Client

deriving instance DecidableEq for RpcRequest

/-- The options that reach the pools; `serializer` is the given one or a new `JsonSerializer`. -/
structure CommonRpcClientOptions where
  timeoutMs : Option JsNumber
  heartbeatIntervalMs : Option ℚ
  heartbeatTimeoutMs : Option ℚ
  reconnect : Option Bool
  reconnectInitialDelayMs : Option ℚ
  reconnectMaxDelayMs : Option ℚ
  maxConnectionsPerEndpoint : Option JsNumber
  serializer : Serializer
  compression : Option RpcCodecCompressionOptions
  maxBodyLength : Option JsNumber
  maxDecompressedBodyLength : Option JsNumber

namespace CommonRpcClientOptions

def connectionOptions (o : CommonRpcClientOptions) : RpcConnectionOptions where
  timeoutMs := o.timeoutMs.getD (.ofNat 5000)
  serializer := o.serializer
  compression := o.compression
  maxBodyLength := o.maxBodyLength
  maxDecompressedBodyLength := o.maxDecompressedBodyLength
  heartbeatIntervalMs := o.heartbeatIntervalMs
  heartbeatTimeoutMs := o.heartbeatTimeoutMs
  reconnect := o.reconnect
  reconnectInitialDelayMs := o.reconnectInitialDelayMs
  reconnectMaxDelayMs := o.reconnectMaxDelayMs

def poolOptions (o : CommonRpcClientOptions) : RpcConnectionPoolOptions where
  maxConnections := o.maxConnectionsPerEndpoint.getD (.ofNat 1)
  connectionOptions := o.connectionOptions

end CommonRpcClientOptions

/-- A pool with the address that its connections are created for. -/
structure EndpointPool where
  host : String
  port : ℕ
  pool : RpcConnectionPool

/-- A connection of the client: the key of its pool and its place there. -/
structure ConnectionId where
  endpoint : String
  connection : ConnectionRef
  deriving DecidableEq, Repr

/-- Where an attempt stands: at the `await` of `connect` or of `send`, without a connection, or
behind its last `await`. -/
inductive AttemptPhase
  | connecting (c : ConnectionId) (n : ℕ)
  | sending (c : ConnectionId) (call : CallId)
  | unconnected (error : JsError)
  | ended (outcome : Except JsError JsValue)
  deriving DecidableEq

structure CallAttempt where
  request : RpcRequest
  host : String
  port : ℕ
  phase : AttemptPhase
  deriving DecidableEq

/-- The attempt has come to its end. -/
def CallAttempt.over (attempt : CallAttempt) : Bool :=
  match attempt.phase with
  | .connecting _ _ | .sending _ _ => false
  | .unconnected _ | .ended _ => true

/-- A send that a connection has accepted on one of its sockets. -/
structure Transmission where
  request : RpcRequest
  connection : ConnectionId
  socket : SocketId
  call : CallId
  deriving DecidableEq

/-- What the connection has recorded of it. -/
def Transmission.accepted (x : Transmission) : AcceptedCall := ⟨x.call, x.request.id, x.socket⟩

structure ClientNetwork where
  pools : OrderedMap String EndpointPool
  connections : ConnectionId → World
  nextConnect : ℕ
  attempts : OrderedMap String CallAttempt
  begun : List CallAttempt
  transmissions : List Transmission

def getEndpointKey (host : String) (port : ℕ) : String := s!"{host}:{port}"

/-- The socket that `send` writes to, or why it rejects at once. -/
def World.sendSocket (w : World) : Except JsError SocketId :=
  match w.liveSocket with
  | none => .error (rpcError "Connection is not open" "CONNECTION_NOT_OPEN")
  | some s =>
    if w.state ≠ .connected then
      .error (rpcError "Connection is not connected" "CONNECTION_NOT_CONNECTED")
    else .ok s

namespace ClientNetwork

def init (codec : RpcCodec) : ClientNetwork where
  pools := .empty
  connections := fun _ => .init codec
  nextConnect := 0
  attempts := .empty
  begun := []
  transmissions := []

def updateConnection (w : ClientNetwork) (c : ConnectionId) (f : World → World) :
    ClientNetwork :=
  { w with connections := Function.update w.connections c (f (w.connections c)) }

def put (w : ClientNetwork) (id : String) (attempt : CallAttempt) : ClientNetwork :=
  { w with attempts := w.attempts.set id attempt }

/-- A connection is in use once its pool has handed it out. -/
def InUse (w : ClientNetwork) (c : ConnectionId) : Prop :=
  ∃ pool, w.pools.get c.endpoint = some pool ∧ c.connection ∈ pool.pool.connections

def takeConnection (w : ClientNetwork) (key : String) (pool : EndpointPool) :
    Except JsError ConnectionId × ClientNetwork :=
  match pool.pool.getConnection with
  | .error e => (.error e, w)
  | .ok (connection, taken) =>
    (.ok ⟨key, connection⟩, { w with pools := w.pools.set key { pool with pool := taken } })

/-- A new pool is kept even when it cannot create a connection. -/
def getConnection (o : CommonRpcClientOptions) (w : ClientNetwork) (host : String) (port : ℕ) :
    Except JsError ConnectionId × ClientNetwork :=
  let key := getEndpointKey host port
  match w.pools.get key with
  | some pool => w.takeConnection key pool
  | none =>
    match RpcConnectionPool.new o.poolOptions with
    | .error e => (.error e, w)
    | .ok pool =>
      { w with pools := w.pools.set key ⟨host, port, pool⟩ }.takeConnection key ⟨host, port, pool⟩

/-- `connection.send(request.id, this.codec.encode(request))`, up to the `await`. -/
def send (codec : RpcCodec) (w : ClientNetwork) (attempt : CallAttempt) (c : ConnectionId) :
    ClientNetwork :=
  match codec.encode attempt.request.toValue with
  | .error e => w.put attempt.request.id { attempt with phase := .ended (.error e) }
  | .ok payload =>
    let id := attempt.request.id
    let sent := w.updateConnection c fun v => v.send id payload
    match (w.connections c).sendSocket with
    | .error e => sent.put id { attempt with phase := .ended (.error e) }
    | .ok s =>
      let call := (w.connections c).nextCall
      let transmission : Transmission := ⟨attempt.request, c, s, call⟩
      { sent with transmissions := w.transmissions ++ [transmission] }.put id
        { attempt with phase := .sending c call }

/-- `await connection.connect()` for the next call of `connect`. -/
def startConnect (w : ClientNetwork) (c : ConnectionId) : ClientNetwork :=
  { w.updateConnection c fun v => v.connect (.user w.nextConnect) with
    nextConnect := w.nextConnect + 1 }

/-- An attempt up to its first `await`. -/
def begin (o : CommonRpcClientOptions) (codec : RpcCodec) (w : ClientNetwork)
    (request : RpcRequest) (host : String) (port : ℕ) : ClientNetwork :=
  let attempt (phase : AttemptPhase) : CallAttempt := ⟨request, host, port, phase⟩
  match w.getConnection o host port with
  | (.error e, w) =>
    { w with begun := w.begun ++ [attempt (.unconnected e)] }.put request.id
      (attempt (.unconnected e))
  | (.ok c, w) =>
    let w := { w with begun := w.begun ++ [attempt (.connecting c w.nextConnect)] }
    if (w.connections c).state = .connected then
      w.send codec (attempt (.connecting c w.nextConnect)) c
    else (w.startConnect c).put request.id (attempt (.connecting c w.nextConnect))

def told (w : ClientNetwork) (c : ConnectionId) (n : ℕ) : Option Result :=
  (w.connections c).connects.lookup n

def settlement (w : ClientNetwork) (c : ConnectionId) (call : CallId) : Option Settlement :=
  (w.connections c).settled.find? fun x => x.call = call

/-- The attempt goes on with what it awaited. -/
def resume (codec : RpcCodec) (w : ClientNetwork) (id : String) : ClientNetwork :=
  match w.attempts.get id with
  | none => w
  | some attempt =>
    match attempt.phase with
    | .connecting c n =>
      match w.told c n with
      | none => w
      | some (.error e) => w.put id { attempt with phase := .ended (.error e) }
      | some (.ok ()) => w.send codec attempt c
    | .sending c call =>
      match w.settlement c call with
      | none => w
      | some x => w.put id { attempt with phase := .ended x.outcome }
    | .unconnected _ | .ended _ => w

/-- `RpcClient.connect` in direct mode. -/
def connect (o : CommonRpcClientOptions) (w : ClientNetwork) (host : String) (port : ℕ) :
    ClientNetwork :=
  match w.getConnection o host port with
  | (.error _, w) => w
  | (.ok c, w) => w.startConnect c

theorem not_inUse_of_none {w : ClientNetwork} {c : ConnectionId}
    (h : w.pools.get c.endpoint = none) : ¬ w.InUse c := by
  rintro ⟨pool, hp, -⟩
  rw [h] at hp
  cases hp

theorem inUse_iff {w : ClientNetwork} {c : ConnectionId} {pool : EndpointPool}
    (h : w.pools.get c.endpoint = some pool) :
    c.connection ∈ pool.pool.connections ↔ w.InUse c := by
  constructor
  · exact fun hc => ⟨pool, h, hc⟩
  · rintro ⟨pool', hp, hc⟩
    obtain rfl := Option.some.inj (h.symm.trans hp)
    exact hc

instance (w : ClientNetwork) (c : ConnectionId) : Decidable (w.InUse c) :=
  match h : w.pools.get c.endpoint with
  | none => isFalse (not_inUse_of_none h)
  | some _ => decidable_of_iff _ (inUse_iff h)

/-- `RpcClient.close`: every connection of every pool is closed. -/
def close (w : ClientNetwork) : ClientNetwork :=
  { w with
    connections := fun c => if w.InUse c then (w.connections c).close else w.connections c }

end ClientNetwork

inductive NetworkEvent
  | begin (request : RpcRequest) (host : String) (port : ℕ)
  | resume (id : String)
  | connection (c : ConnectionId) (e : Event)
  | connect (host : String) (port : ℕ)
  | close

/-- The event comes from outside the client. -/
def Event.external : Event → Bool
  | .connect _ | .close | .send _ _ => false
  | .timer _ _ _ | .socketConnect _ | .socketError _ _ | .socketDestroyed _ | .socketClose _
  | .socketData _ _ _ | .microtask _ => true

namespace ClientNetwork

/-- The call has no attempt under way. -/
def Idle (w : ClientNetwork) (id : String) : Prop :=
  ∀ attempt, w.attempts.get id = some attempt → attempt.over = true

/-- What the attempt awaits is there. -/
def awaited (w : ClientNetwork) (attempt : CallAttempt) : Bool :=
  match attempt.phase with
  | .connecting c n => (w.told c n).isSome
  | .sending c call => (w.settlement c call).isSome
  | .unconnected _ | .ended _ => false

def Ready (w : ClientNetwork) (id : String) : Prop :=
  ∃ attempt, w.attempts.get id = some attempt ∧ w.awaited attempt = true

def Enabled (w : ClientNetwork) : NetworkEvent → Prop
  | .begin request _ _ => w.Idle request.id
  | .resume id => w.Ready id
  | .connection c e => w.InUse c ∧ e.external = true ∧ Client.Enabled (w.connections c) e
  | .connect _ _ | .close => True

def apply (o : CommonRpcClientOptions) (codec : RpcCodec) (w : ClientNetwork) :
    NetworkEvent → Except JsError ClientNetwork
  | .begin request host port => .ok (w.begin o codec request host port)
  | .resume id => .ok (w.resume codec id)
  | .connection c e =>
    (Client.apply o.connectionOptions (w.connections c) e).map fun v =>
      w.updateConnection c fun _ => v
  | .connect host port => .ok (w.connect o host port)
  | .close => .ok w.close

def machine (o : CommonRpcClientOptions) (codec : RpcCodec) :
    Machine ClientNetwork NetworkEvent JsError where
  Enabled := Enabled
  apply := apply o codec

theorem idle_of_none {w : ClientNetwork} {id : String} (h : w.attempts.get id = none) :
    w.Idle id := by
  intro attempt hget
  rw [h] at hget
  cases hget

theorem idle_iff {w : ClientNetwork} {id : String} {attempt : CallAttempt}
    (h : w.attempts.get id = some attempt) : attempt.over = true ↔ w.Idle id := by
  constructor
  · intro hover attempt' hget
    obtain rfl := Option.some.inj (h.symm.trans hget)
    exact hover
  · exact fun hidle => hidle attempt h

theorem not_ready_of_none {w : ClientNetwork} {id : String} (h : w.attempts.get id = none) :
    ¬ w.Ready id := by
  rintro ⟨attempt, hget, -⟩
  rw [h] at hget
  cases hget

theorem ready_iff {w : ClientNetwork} {id : String} {attempt : CallAttempt}
    (h : w.attempts.get id = some attempt) : w.awaited attempt = true ↔ w.Ready id := by
  constructor
  · exact fun hready => ⟨attempt, h, hready⟩
  · rintro ⟨attempt', hget, hready⟩
    obtain rfl := Option.some.inj (h.symm.trans hget)
    exact hready

instance (w : ClientNetwork) (id : String) : Decidable (w.Idle id) :=
  match h : w.attempts.get id with
  | none => isTrue (idle_of_none h)
  | some _ => decidable_of_iff _ (idle_iff h)

instance (w : ClientNetwork) (id : String) : Decidable (w.Ready id) :=
  match h : w.attempts.get id with
  | none => isFalse (not_ready_of_none h)
  | some _ => decidable_of_iff _ (ready_iff h)

instance (o : CommonRpcClientOptions) (codec : RpcCodec) (w : ClientNetwork) (e : NetworkEvent) :
    Decidable ((machine o codec).Enabled w e) :=
  match e with
  | .begin request _ _ => inferInstanceAs (Decidable (w.Idle request.id))
  | .resume id => inferInstanceAs (Decidable (w.Ready id))
  | .connection _ _ => inferInstanceAs (Decidable (_ ∧ _ ∧ _))
  | .connect _ _ | .close => isTrue trivial

end ClientNetwork

end WeisleyRpc.Client
