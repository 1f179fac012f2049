import WeisleyRpc.BreakerFailover
import WeisleyRpc.EndpointPools

/-!
# A client in discovery mode over its connections

`call` of `rpc-client.ts` down to the sockets: an admitted call enters the failover loop, each
round of the loop makes an attempt at the endpoint that was selected, and the attempt goes
through the pool of this endpoint. What an attempt comes to is what its connection made of it.
-/

namespace WeisleyRpc.Discovery
open Client (ClientNetwork NetworkEvent CommonRpcClientOptions)

/-- The requests of the calls are kept under their ids. -/
structure NetworkedClient where
  failover : FailoverClient
  network : ClientNetwork
  requests : OrderedMap String RpcRequest

/-- `finished` carries what the retry policy answers, if it is asked. -/
inductive NetworkedEvent
  | call (request : RpcRequest) (times : CallTimes) (warn : Option Thrown)
    (endpoints : List Endpoint) (random : Draw)
  | woken (id : String) (random : Draw)
  | finished (id : String) (retry : Bool)
  | settled (id : String) (times : SettleTimes) (info error : Option Thrown)
  | setActiveCount (endpoint : Endpoint) (count : JsNumber)
  | resetMetrics
  | network (e : NetworkEvent)

/-- An exception outside the `try` block of the loop. -/
def DiscoveryClient.uncaught (client : DiscoveryClient) (id : String) (error : JsError) :
    DiscoveryClient :=
  match client.attemptingAt id with
  | some (call, _) => client.put id { call with phase := .thrown (.error error) }
  | none => client

namespace NetworkedClient

def start (options : RpcClientOptions) (now : ℤ) (loadBalancer : LoadBalancer) (codec : RpcCodec) :
    NetworkedClient where
  failover := .start options now loadBalancer
  network := .init codec
  requests := .empty

/-- The attempt of a round, up to its first `await`. -/
def startAttempt (o : CommonRpcClientOptions) (codec : RpcCodec) (w : NetworkedClient)
    (id : String) : NetworkedClient :=
  match w.failover.discovery.attemptingAt id, w.requests.get id with
  | some (_, endpoint), some request =>
    { w with network := w.network.begin o codec request endpoint.host endpoint.port }
  | _, _ => w

/-- What the loop is told of the attempt that has come to its end. -/
def attemptEvent (w : NetworkedClient) (id : String) (retry : Bool) : Option ClientEvent :=
  match (w.network.attempts.get id).map Client.CallAttempt.phase with
  | some (.ended (.ok value)) => some (.succeeded id value)
  | some (.ended (.error e)) => some (.failed id (.error e) retry)
  | _ => none

def finished (options : RetryOptions) (w : NetworkedClient) (id : String) (retry : Bool) :
    NetworkedClient :=
  match w.attemptEvent id retry with
  | some e => { w with failover := w.failover.apply options (.attempt e) }
  | none =>
    match (w.network.attempts.get id).map Client.CallAttempt.phase with
    | some (.unconnected e) =>
      { w with failover := { w.failover with discovery := w.failover.discovery.uncaught id e } }
    | _ => w

/-- `connect` returns at once in discovery mode, and attempts are begun by the loop alone. -/
def Enabled (w : NetworkedClient) : NetworkedEvent → Prop
  | .call request times warn endpoints random =>
    w.failover.Enabled
      (.call request.id request.service request.method times warn endpoints random)
  | .woken id random => w.failover.Enabled (.attempt (.woken id random))
  | .finished id _ => w.failover.discovery.attemptingAt id ≠ none ∧ w.network.Idle id
  | .settled id times info error => w.failover.Enabled (.settled id times info error)
  | .setActiveCount _ _ | .resetMetrics => True
  | .network (.begin ..) | .network (.connect ..) => False
  | .network e => w.network.Enabled e

def apply (o : CommonRpcClientOptions) (codec : RpcCodec) (options : RetryOptions)
    (w : NetworkedClient) : NetworkedEvent → Except JsError NetworkedClient
  | .call request times warn endpoints random =>
    .ok ({ w with
      failover := w.failover.apply options
        (.call request.id request.service request.method times warn endpoints random)
      requests := w.requests.set request.id request }.startAttempt o codec request.id)
  | .woken id random =>
    .ok ({ w with
      failover := w.failover.apply options (.attempt (.woken id random)) }.startAttempt o codec id)
  | .finished id retry => .ok (w.finished options id retry)
  | .settled id times info error =>
    .ok { w with failover := w.failover.apply options (.settled id times info error) }
  | .setActiveCount endpoint count =>
    .ok { w with failover := w.failover.apply options (.attempt (.setActiveCount endpoint count)) }
  | .resetMetrics => .ok { w with failover := w.failover.apply options .resetMetrics }
  | .network e => (w.network.apply o codec e).map fun network => { w with network }

def machine (o : CommonRpcClientOptions) (codec : RpcCodec) (options : RetryOptions) :
    Machine NetworkedClient NetworkedEvent JsError where
  Enabled := Enabled
  apply := apply o codec options

instance (o : CommonRpcClientOptions) (codec : RpcCodec) (options : RetryOptions)
    (w : NetworkedClient) (e : NetworkedEvent) :
    Decidable ((machine o codec options).Enabled w e) :=
  match e with
  | .call request times warn endpoints random => inferInstanceAs (Decidable (w.failover.Enabled
      (.call request.id request.service request.method times warn endpoints random)))
  | .woken id random =>
    inferInstanceAs (Decidable (w.failover.Enabled (.attempt (.woken id random))))
  | .finished _ _ => inferInstanceAs (Decidable (_ ∧ _))
  | .settled id times info error =>
    inferInstanceAs (Decidable (w.failover.Enabled (.settled id times info error)))
  | .setActiveCount _ _ | .resetMetrics => isTrue trivial
  | .network (.begin ..) | .network (.connect ..) => isFalse id
  | .network (.resume id) =>
    inferInstanceAs (Decidable ((ClientNetwork.machine o codec).Enabled w.network (.resume id)))
  | .network (.connection c e) =>
    inferInstanceAs (Decidable ((ClientNetwork.machine o codec).Enabled w.network (.connection c e)))
  | .network .close => isTrue trivial

end NetworkedClient

end WeisleyRpc.Discovery
