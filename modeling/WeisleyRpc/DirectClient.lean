import WeisleyRpc.CallAttempts
import WeisleyRpc.CallSettlements

/-!
# A client in direct mode over its connections

`call` of `rpc-client.ts` with `callDirect` down to the sockets: an admitted call makes one attempt
at the address of the options, and what the attempt comes to settles the call. `connect` and
`getConnectionState` go to the pool of the same address.
-/

namespace WeisleyRpc.Client

/-- What the `await` of an attempt's outcome gets; a pool that throws rejects it at once. -/
def CallAttempt.outcome (attempt : CallAttempt) : Option (Except Thrown JsValue) :=
  match attempt.phase with
  | .connecting _ _ | .sending _ _ => none
  | .unconnected e => some (.error (.error e))
  | .ended outcome => some (outcome.mapError .error)

structure DirectRpcClientOptions where
  common : CommonRpcClientOptions
  host : String
  port : ℕ

structure DirectClient where
  client : RpcClient
  network : ClientNetwork

inductive DirectEvent
  | call (request : RpcRequest) (times : CallTimes) (warn : Option Thrown)
  | settled (id : String) (times : SettleTimes) (info error : Option Thrown)
  | connect
  | resetMetrics
  | network (e : NetworkEvent)

namespace DirectClient

def start (options : RpcClientOptions) (now : ℤ) (codec : RpcCodec) : DirectClient where
  client := .new options now
  network := .init codec

/-- What `callDirect` has come to for the call. -/
def outcome (w : DirectClient) (id : String) : Option (Except Thrown JsValue) :=
  (w.network.attempts.get id).bind CallAttempt.outcome

/-- The ids of requests are new. Attempts are begun and connections are opened by the client. -/
def Enabled (w : DirectClient) : DirectEvent → Prop
  | .call request _ _ => w.client.calls.get request.id = none
  | .settled id .. => w.client.remoteCall id ≠ none ∧ w.outcome id ≠ none
  | .connect | .resetMetrics => True
  | .network (.begin ..) | .network (.connect ..) => False
  | .network e => w.network.Enabled e

/-- An admitted call goes on to `callDirect`. -/
def call (o : DirectRpcClientOptions) (codec : RpcCodec) (w : DirectClient) (request : RpcRequest)
    (times : CallTimes) (warn : Option Thrown) : DirectClient :=
  let client := w.client.call request.id request.service request.method times warn
  if client.remoteCall request.id = none then { w with client }
  else { client, network := w.network.begin o.common codec request o.host o.port }

def apply (o : DirectRpcClientOptions) (codec : RpcCodec) (w : DirectClient) :
    DirectEvent → Except JsError DirectClient
  | .call request times warn => .ok (w.call o codec request times warn)
  | .settled id times info error =>
    match w.outcome id with
    | some outcome => .ok { w with
        client := w.client.apply (.settled id outcome times info error) }
    | none => .ok w
  | .connect => .ok { w with network := w.network.connect o.common o.host o.port }
  | .resetMetrics => .ok { w with client := w.client.apply .resetMetrics }
  | .network e => (w.network.apply o.common codec e).map fun network => { w with network }

def machine (o : DirectRpcClientOptions) (codec : RpcCodec) :
    Machine DirectClient DirectEvent JsError where
  Enabled := Enabled
  apply := apply o codec

/-- The state of the first connection of the pool, which may not be there yet. -/
def getConnectionState (o : DirectRpcClientOptions) (w : DirectClient) : ConnectionState :=
  let key := getEndpointKey o.host o.port
  match w.network.pools.get key with
  | none => .idle
  | some pool =>
    match pool.pool.connections[0]? with
    | none => .idle
    | some connection => (w.network.connections ⟨key, connection⟩).state

instance (o : DirectRpcClientOptions) (codec : RpcCodec) (w : DirectClient) (e : DirectEvent) :
    Decidable ((machine o codec).Enabled w e) :=
  match e with
  | .call request _ _ => inferInstanceAs (Decidable (w.client.calls.get request.id = none))
  | .settled _ _ _ _ => inferInstanceAs (Decidable (_ ∧ _))
  | .connect | .resetMetrics => isTrue trivial
  | .network (.begin ..) | .network (.connect ..) => isFalse id
  | .network (.resume id) => inferInstanceAs
      (Decidable ((ClientNetwork.machine o.common codec).Enabled w.network (.resume id)))
  | .network (.connection c e) => inferInstanceAs
      (Decidable ((ClientNetwork.machine o.common codec).Enabled w.network (.connection c e)))
  | .network .close => isTrue trivial

end DirectClient

end WeisleyRpc.Client
