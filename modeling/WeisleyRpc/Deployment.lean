import WeisleyRpc.AttemptWrites
import WeisleyRpc.Correlation
import Mathlib.Data.Nat.Pairing

/-!
# A client and the servers of its endpoints

Each socket of a connection is one end of a TCP connection whose other end is a socket of the
server at the endpoint of the pool. Either end receives, in chunks of any size, what the other has
written. The other sockets of a server belong to other clients, which may send anything; all
other events of all processes come in any order.
-/

namespace WeisleyRpc
open Client (ClientNetwork ConnectionId ConnectionRef)

/-- Which socket of the server each socket of the client is connected to, and back. -/
structure Wiring where
  peer : ConnectionId → Client.SocketId → Server.SocketId
  owner : String → Server.SocketId → Option (ConnectionRef × Client.SocketId)
  owner_peer : ∀ c s, owner c.endpoint (peer c s) = some (c.connection, s)
  peer_owner : ∀ endpoint k r s, owner endpoint k = some (r, s) → peer ⟨endpoint, r⟩ s = k

/-- Every connection of the client has server sockets of its own at its endpoint. -/
def Wiring.pairing : Wiring where
  peer c s := Nat.pair c.connection s
  owner _ k := some (Nat.unpair k)
  owner_peer c s := congrArg some (Nat.unpair_pair c.connection s)
  peer_owner endpoint k r s h := by
    have hk := Option.some.inj h
    change Nat.pair r s = k
    rw [← Nat.pair_unpair k, hk]

/-- Data that arrives at a client. -/
structure Delivery where
  connection : ConnectionId
  socket : Client.SocketId
  chunk : Buffer

/-- A client in one of the modes: its steps, the connections it has, and the data they get. -/
structure ClientMode (σ ε : Type) where
  machine : Machine σ ε JsError
  network : σ → ClientNetwork
  delivery : ε → Option Delivery

/-- The servers are known by the keys of their addresses. -/
structure Deployment (σ : Type) where
  client : σ
  servers : String → Server.World

inductive DeploymentEvent (ε : Type)
  | client (e : ε)
  | server (endpoint : String) (e : Server.Event)

namespace Deployment
variable {σ ε : Type}

/-- The server's end of the socket. -/
def remote (W : Wiring) (d : Deployment σ) (c : ConnectionId) (s : Client.SocketId) :
    Server.ServerSocket :=
  (d.servers c.endpoint).conns (W.peer c s)

/-- The server has accepted its end of the socket. -/
def Accepted (W : Wiring) (d : Deployment σ) (c : ConnectionId) (s : Client.SocketId) : Prop :=
  W.peer c s < (d.servers c.endpoint).nextSocket

section Mode
variable (W : Wiring) (M : ClientMode σ ε) (d : Deployment σ)

def ClientReads (x : Delivery) : Prop :=
  d.Accepted W x.connection x.socket ∧
    (((M.network d.client).connections x.connection).sockets x.socket).received.flatten ++ x.chunk
      <+: ((d.remote W x.connection x.socket).written.map Server.Write.payload).flatten

def ServerReads (endpoint : String) : Server.Event → Prop
  | .data k chunk _ => ∀ p ∈ W.owner endpoint k,
    p.2 < ((M.network d.client).connections ⟨endpoint, p.1⟩).nextSocket ∧
      ((d.servers endpoint).conns k).received.flatten ++ chunk <+:
        (((M.network d.client).connections ⟨endpoint, p.1⟩).sockets p.2).written.flatten
  | _ => True

def Enabled : DeploymentEvent ε → Prop
  | .client e => M.machine.Enabled d.client e ∧ ∀ x ∈ M.delivery e, d.ClientReads W M x
  | .server endpoint e => Server.Enabled (d.servers endpoint) e ∧ d.ServerReads W M endpoint e

def apply : DeploymentEvent ε → Except JsError (Deployment σ)
  | .client e => (M.machine.apply d.client e).map fun client => { d with client }
  | .server endpoint e => (Server.apply (d.servers endpoint) e).map fun w =>
      { d with servers := Function.update d.servers endpoint w }

/-- Data of a socket arrives while its connection holds no bytes of another one. -/
def QueuesOwn : DeploymentEvent ε → Prop
  | .client e => ∀ x ∈ M.delivery e,
    ((M.network d.client).connections x.connection).codec.queue.length = 0 ∨
      ((M.network d.client).connections x.connection).lastData = some x.socket
  | .server _ _ => True

end Mode

def machine (W : Wiring) (M : ClientMode σ ε) :
    Machine (Deployment σ) (DeploymentEvent ε) JsError where
  Enabled := Enabled W M
  apply := apply M

/-- `serializer` is the `new JsonSerializer()` of each server. -/
def start (client : σ) (serializer : Serializer) : Deployment σ where
  client
  servers := fun _ => .init serializer

section Decidable
variable (W : Wiring) (M : ClientMode σ ε) (d : Deployment σ)

instance (c : ConnectionId) (s : Client.SocketId) : Decidable (d.Accepted W c s) :=
  inferInstanceAs (Decidable (_ < _))

instance (x : Delivery) : Decidable (d.ClientReads W M x) := inferInstanceAs (Decidable (_ ∧ _))

instance (endpoint : String) (e : Server.Event) : Decidable (d.ServerReads W M endpoint e) :=
  match e with
  | .data k _ _ => inferInstanceAs (Decidable (∀ p ∈ W.owner endpoint k, _ ∧ _))
  | .registerService _ _ | .listen _ | .listening _ | .listenError _ | .connection _
  | .settle _ _ _ _ | .wrote _ _ _ _ | .peerEnd _ | .finished _ | .socketError _ _
  | .socketClose _ | .close _ | .drainTimeout _ | .resumeDrain _ | .closeCallback _
  | .resumeClose _ => isTrue trivial

instance [∀ s e, Decidable (M.machine.Enabled s e)] (e : DeploymentEvent ε) :
    Decidable ((machine W M).Enabled d e) :=
  match e with
  | .client _ => inferInstanceAs (Decidable (_ ∧ _))
  | .server _ _ => inferInstanceAs (Decidable (_ ∧ _))

instance (e : DeploymentEvent ε) : Decidable (d.QueuesOwn M e) :=
  match e with
  | .client e => inferInstanceAs (Decidable (∀ x ∈ M.delivery e, _ ∨ _))
  | .server _ _ => isTrue trivial

end Decidable

end Deployment

end WeisleyRpc
