import Mathlib.Algebra.Field.Rat
import Mathlib.Algebra.Order.Ring.Rat
import Mathlib.Logic.Function.Basic
import WeisleyRpc.Codec
import WeisleyRpc.Machine
import WeisleyRpc.Message

/-!
# The client connection

`RpcConnection` of `connection.ts` with the sockets, timers and suspended async
functions around it. A step is a call of one of its methods, a socket event, a timer
callback or the continuation of an `await`. Microtasks run in the order in which
they were queued, and nothing but user code and an `error` event, which Node emits
from its tick queue, comes between them.
-/

namespace WeisleyRpc.Client

abbrev SocketId := ℕ
abbrev TimerId := ℕ
abbrev CallId := ℕ

structure RpcConnectionOptions where
  timeoutMs : JsNumber
  serializer : Serializer
  compression : Option RpcCodecCompressionOptions
  maxBodyLength : Option JsNumber
  maxDecompressedBodyLength : Option JsNumber
  heartbeatIntervalMs : Option ℚ
  heartbeatTimeoutMs : Option ℚ
  reconnect : Option Bool
  reconnectInitialDelayMs : Option ℚ
  reconnectMaxDelayMs : Option ℚ

def RpcConnectionOptions.codecOptions (o : RpcConnectionOptions) : RpcCodecOptions :=
  ⟨o.serializer, [], o.compression, o.maxBodyLength, o.maxDecompressedBodyLength⟩

inductive ConnectionState
  | idle
  | connecting
  | connected
  | reconnecting
  | closed
  deriving DecidableEq, Repr

/-- The `resolve` and `reject` of a call's promise are known by the call's number. -/
structure PendingRequest where
  call : CallId
  timer : TimerId
  deriving DecidableEq, Repr

/-- The promise of a `doConnect` is known by the socket that this `doConnect` created. -/
structure RpcConnection where
  connectionPromise : Option SocketId
  codec : RpcCodec
  pending : OrderedMap String PendingRequest
  socket : Option SocketId
  heartbeatTimer : Option TimerId
  lastPongAt : ℚ
  state : ConnectionState
  manuallyClosed : Bool
  reconnectTimer : Option TimerId
  reconnectAttempts : ℕ

/-- Who awaits `connect()`. -/
inductive Caller
  | user (n : ℕ)
  | reconnectTimer
  deriving DecidableEq, Repr

abbrev Result := Except JsError Unit

/-- How far the `doConnect` of a socket has come: suspended at its `await`, its
continuation queued, or returned. -/
inductive Attempt
  | awaiting
  | resuming
  | settled (result : Result)

structure Socket where
  connected : Bool
  ended : Bool
  destroyed : Bool
  closed : Bool
  attempt : Attempt
  starter : Caller
  joined : List Caller
  received : List Buffer
  handled : List JsValue
  written : List Buffer

def Socket.new (starter : Caller) : Socket where
  connected := false
  ended := false
  destroyed := false
  closed := false
  attempt := .awaiting
  starter := starter
  joined := []
  received := []
  handled := []
  written := []

inductive TimerTask
  | callTimeout (id : String) (call : CallId)
  | reconnect (delay : ℚ)
  | heartbeat (socket : Option SocketId)
  deriving DecidableEq, Repr

inductive Microtask
  | resumeDoConnect (s : SocketId) (result : Result)
  | resumeConnect (caller : Caller) (result : Result)
  | resumeJoined (caller : Caller) (result : Result)
  | resumeCaller (caller : Caller) (result : Result)

structure AcceptedCall where
  call : CallId
  id : String
  socket : SocketId
  deriving DecidableEq, Repr

inductive Cause
  | response (message : JsValue)
  | timeout
  | disconnect
  deriving DecidableEq, Repr

structure Settlement where
  call : CallId
  outcome : Except JsError JsValue
  cause : Cause

structure World extends RpcConnection where
  sockets : SocketId → Socket
  nextSocket : SocketId
  timers : OrderedMap TimerId TimerTask
  nextTimer : TimerId
  nextCall : CallId
  microtasks : List Microtask
  accepted : List AcceptedCall
  refused : List (String × JsError)
  settled : List Settlement
  connects : List (ℕ × Result)
  lastData : Option SocketId

def World.init (codec : RpcCodec) : World where
  connectionPromise := none
  codec := codec
  pending := .empty
  socket := none
  heartbeatTimer := none
  lastPongAt := 0
  state := .idle
  manuallyClosed := false
  reconnectTimer := none
  reconnectAttempts := 0
  sockets := fun _ => Socket.new .reconnectTimer
  nextSocket := 0
  timers := .empty
  nextTimer := 0
  nextCall := 0
  microtasks := []
  accepted := []
  refused := []
  settled := []
  connects := []
  lastData := none

namespace World

def updateSocket (w : World) (s : SocketId) (f : Socket → Socket) : World :=
  { w with sockets := Function.update w.sockets s (f (w.sockets s)) }

def enqueue (w : World) (tasks : List Microtask) : World :=
  { w with microtasks := w.microtasks ++ tasks }

/-- `setTimeout` and `setInterval`; the new timer is `w.nextTimer`. -/
def setTimer (w : World) (task : TimerTask) : World :=
  { w with timers := w.timers.set w.nextTimer task, nextTimer := w.nextTimer + 1 }

def clearTimer (w : World) (t : TimerId) : World := { w with timers := w.timers.delete t }

def settle (w : World) (call : CallId) (outcome : Except JsError JsValue) (cause : Cause) : World :=
  { w with settled := w.settled ++ [⟨call, outcome, cause⟩] }

/-- A socket that was ended takes no more bytes. -/
def write (w : World) (s : SocketId) (payload : Buffer) : World :=
  if (w.sockets s).ended then w
  else w.updateSocket s fun k => { k with written := k.written ++ [payload] }

/-- `this.socket`, unless it is `null` or destroyed. -/
def liveSocket (w : World) : Option SocketId :=
  w.socket.filter fun s => ¬ (w.sockets s).destroyed

def stopHeartbeat (w : World) : World :=
  match w.heartbeatTimer with
  | none => w
  | some t => { w.clearTimer t with heartbeatTimer := none }

def reconnectDelay (o : RpcConnectionOptions) (attempts : ℕ) : ℚ :=
  min (o.reconnectInitialDelayMs.getD 100 * 2 ^ attempts) (o.reconnectMaxDelayMs.getD 2000)

def scheduleReconnect (o : RpcConnectionOptions) (w : World) : World :=
  if w.reconnectTimer.isSome then w
  else if o.reconnect = some false then w
  else
    { w.setTimer (.reconnect (reconnectDelay o w.reconnectAttempts)) with
      reconnectAttempts := w.reconnectAttempts + 1
      reconnectTimer := some w.nextTimer }

/-- One round of the loop of `rejectAll`. -/
def rejectOne (error : JsError) (w : World) (entry : String × PendingRequest) : World :=
  { (w.clearTimer entry.2.timer).settle entry.2.call (.error error) .disconnect with
    pending := w.pending.delete entry.1 }

def rejectAll (w : World) (error : JsError) : World :=
  w.pending.entries.foldl (rejectOne error) w

def handleUnexpectedDisconnect (o : RpcConnectionOptions) (w : World) (error : JsError) : World :=
  let w := w.stopHeartbeat.rejectAll error
  if w.manuallyClosed then w
  else scheduleReconnect o { w with state := .reconnecting }

def connectionClosed : JsError := rpcError "Connection closed" "CONNECTION_CLOSED"

def startHeartbeat (o : RpcConnectionOptions) (w : World) (now : ℚ) : World :=
  match o.heartbeatIntervalMs with
  | none => w
  | some intervalMs =>
    if intervalMs = 0 then w
    else
      { w.setTimer (.heartbeat w.socket) with
        lastPongAt := now
        heartbeatTimer := some w.nextTimer }

/-- `doConnect` up to its `await`. -/
def doConnect (w : World) (caller : Caller) : World :=
  { w with
    manuallyClosed := false
    state := .connecting
    socket := some w.nextSocket
    sockets := Function.update w.sockets w.nextSocket (Socket.new caller)
    nextSocket := w.nextSocket + 1 }

/-- `return this.connectionPromise` for the promise of socket `s`. -/
def join (w : World) (s : SocketId) (caller : Caller) : World :=
  match (w.sockets s).attempt with
  | .settled result => w.enqueue [.resumeJoined caller result]
  | _ => w.updateSocket s fun k => { k with joined := k.joined ++ [caller] }

/-- `connect` up to its `await`. -/
def connect (w : World) (caller : Caller) : World :=
  if w.state = .connected ∧ w.liveSocket.isSome then w.enqueue [.resumeCaller caller (.ok ())]
  else
    match w.connectionPromise with
    | some s => w.join s caller
    | none => { w.doConnect caller with connectionPromise := some w.nextSocket }

def send (w : World) (id : String) (payload : Buffer) : World :=
  match w.liveSocket with
  | none =>
    { w with
      refused := w.refused ++ [(id, rpcError "Connection is not open" "CONNECTION_NOT_OPEN")] }
  | some s =>
    if w.state ≠ .connected then
      { w with
        refused :=
          w.refused ++ [(id, rpcError "Connection is not connected" "CONNECTION_NOT_CONNECTED")] }
    else
      { (w.setTimer (.callTimeout id w.nextCall)).write s payload with
        pending := w.pending.set id ⟨w.nextCall, w.nextTimer⟩
        nextCall := w.nextCall + 1
        accepted := w.accepted ++ [⟨w.nextCall, id, s⟩] }

def cancelReconnect (w : World) : World :=
  match w.reconnectTimer with
  | none => w
  | some t => { w.clearTimer t with reconnectTimer := none }

/-- `this.socket?.end()`. -/
def endSocket (w : World) : World :=
  match w.socket with
  | none => w
  | some s => w.updateSocket s fun k => { k with ended := true }

def close (w : World) : World :=
  (({ w with manuallyClosed := true, state := .closed }
    |>.cancelReconnect).stopHeartbeat.rejectAll connectionClosed).endSocket

def heartbeatExpired (o : RpcConnectionOptions) (w : World) (now : ℚ) : Prop :=
  now - w.lastPongAt > o.heartbeatTimeoutMs.getD (o.heartbeatIntervalMs.getD 0 * 2)

instance (o : RpcConnectionOptions) (w : World) (now : ℚ) : Decidable (heartbeatExpired o w now) :=
  inferInstanceAs (Decidable (_ > _))

def heartbeatTick (o : RpcConnectionOptions) (w : World) (now : ℚ) (uuid : String) :
    Except JsError World :=
  match w.liveSocket with
  | none => .ok w.stopHeartbeat
  | some s =>
    if heartbeatExpired o w now then
      let w := handleUnexpectedDisconnect o w (rpcError "Heartbeat timeout" "HEARTBEAT_TIMEOUT")
      .ok (w.updateSocket s fun k => { k with destroyed := true })
    else do
      let packet ← w.codec.encode (pingMessage (.string uuid) now)
      return w.write s packet

/-- The error of a failed call: `new RpcError(message.error?.message ?? ..., message.error?.code)`. -/
def responseError (message : JsValue) : Except JsError JsError :=
  newRpcError (((message.prop "error").prop "message").orElse (.string "RPC call failed"))
    ((message.prop "error").prop "code")

def pendingOf (w : World) (message : JsValue) : Option (String × PendingRequest) :=
  match message.prop "id" with
  | .string id => (w.pending.get id).map fun pending => (id, pending)
  | _ => none

def responseOutcome (message : JsValue) : Except JsError (Except JsError JsValue) :=
  if (message.prop "ok").truthy then .ok (.ok (message.prop "result"))
  else (responseError message).map .error

def handleResponse (w : World) (message : JsValue) : Except JsError World :=
  match w.pendingOf message with
  | none => .ok w
  | some (id, pending) => do
    let outcome ← responseOutcome message
    return { (w.clearTimer pending.timer).settle pending.call outcome (.response message) with
      pending := w.pending.delete id }

/-- The record of the messages that the data handler has gone through for socket `s`. -/
def note (w : World) (s : SocketId) (messages : List JsValue) : World :=
  w.updateSocket s fun k => { k with handled := k.handled ++ messages }

/-- The body of the loop in `handleData`; the socket is named for the record alone. -/
def handleMessage (s : SocketId) (now : ℚ) (w : World) (message : JsValue) :
    Except JsError World :=
  if message.prop "type" = .string "response" then (w.note s [message]).handleResponse message
  else if message.prop "type" = .string "pong" then
    .ok { w.note s [message] with lastPongAt := now }
  else .ok (w.note s [message])

def handleData (w : World) (s : SocketId) (chunk : Buffer) (now : ℚ) : Except JsError World :=
  match (w.codec.push chunk).1 with
  | .error e => .error e
  | .ok messages =>
    messages.foldlM (handleMessage s now) { w with codec := (w.codec.push chunk).2 }

/-- The promise of `doConnect` settles: the starter's `await` resumes, then those who
returned the same promise. -/
def settleAttempt (w : World) (s : SocketId) (result : Result) : World :=
  (w.updateSocket s fun k => { k with attempt := .settled result }).enqueue
    (.resumeConnect (w.sockets s).starter result ::
      (w.sockets s).joined.map fun caller => .resumeJoined caller result)

/-- The connect promise inside `doConnect` settles, if it has not settled before. -/
def resumeAttempt (w : World) (s : SocketId) (result : Result) : World :=
  match (w.sockets s).attempt with
  | .awaiting =>
    (w.updateSocket s fun k => { k with attempt := .resuming }).enqueue [.resumeDoConnect s result]
  | _ => w

def runMicrotask (o : RpcConnectionOptions) (w : World) (now : ℚ) : Microtask → World
  | .resumeDoConnect s (.ok ()) =>
    (startHeartbeat o { w with state := .connected, reconnectAttempts := 0 }
      now).settleAttempt s (.ok ())
  | .resumeDoConnect s (.error e) => w.settleAttempt s (.error e)
  | .resumeConnect caller result =>
    { w with connectionPromise := none }.enqueue [.resumeCaller caller result]
  | .resumeJoined caller result => w.enqueue [.resumeCaller caller result]
  | .resumeCaller (.user n) result => { w with connects := w.connects ++ [(n, result)] }
  | .resumeCaller .reconnectTimer (.ok ()) => { w with reconnectAttempts := 0 }
  | .resumeCaller .reconnectTimer (.error _) =>
    scheduleReconnect o { w with state := .reconnecting }

def runTimer (o : RpcConnectionOptions) (w : World) (t : TimerId) (now : ℚ) (uuid : String) :
    TimerTask → Except JsError World
  | .callTimeout id call =>
    .ok ({ w.clearTimer t with pending := w.pending.delete id }.settle call
      (.error (rpcTimeoutError o.timeoutMs)) .timeout)
  | .reconnect _ =>
    let w := { w.clearTimer t with reconnectTimer := none }
    .ok (if w.manuallyClosed then w else w.connect .reconnectTimer)
  | .heartbeat _ => heartbeatTick o w now uuid

end World

inductive Event
  | connect (n : ℕ)
  | close
  | send (id : String) (payload : Buffer)
  | timer (t : TimerId) (now : ℚ) (uuid : String)
  | socketConnect (s : SocketId)
  | socketError (s : SocketId) (error : JsError)
  | socketDestroyed (s : SocketId)
  | socketClose (s : SocketId)
  | socketData (s : SocketId) (chunk : Buffer) (now : ℚ)
  | microtask (now : ℚ)

open World

/-- What may happen next. Timer callbacks and the other socket events come when no
microtask is left. A peer's FIN, or the end of a socket's own shutdown, destroys it. -/
def Enabled (w : World) : Event → Prop
  | .connect _ | .close | .send _ _ => True
  | .timer t _ _ => (w.timers.get t).isSome ∧ w.microtasks.length = 0
  | .socketConnect s =>
    s < w.nextSocket ∧ (w.sockets s).connected = false ∧ (w.sockets s).destroyed = false ∧
      w.microtasks.length = 0
  | .socketError s _ => s < w.nextSocket ∧ (w.sockets s).closed = false
  | .socketDestroyed s =>
    s < w.nextSocket ∧ (w.sockets s).connected = true ∧ (w.sockets s).destroyed = false
  | .socketClose s =>
    s < w.nextSocket ∧ (w.sockets s).destroyed = true ∧ (w.sockets s).closed = false ∧
      w.microtasks.length = 0
  | .socketData s _ _ =>
    s < w.nextSocket ∧ (w.sockets s).connected = true ∧ (w.sockets s).destroyed = false ∧
      w.microtasks.length = 0
  | .microtask _ => 0 < w.microtasks.length

instance (w : World) (e : Event) : Decidable (Enabled w e) :=
  match e with
  | .connect _ | .close | .send _ _ => inferInstanceAs (Decidable True)
  | .timer _ _ _ | .socketConnect _ | .socketError _ _ | .socketDestroyed _ | .socketClose _
  | .socketData _ _ _ => inferInstanceAs (Decidable (_ ∧ _))
  | .microtask _ => inferInstanceAs (Decidable (_ < _))

/-- The record of the chunks that the sockets have brought. -/
def World.receive (w : World) (s : SocketId) (chunk : Buffer) : World :=
  { w.updateSocket s fun k => { k with received := k.received ++ [chunk] } with
    lastData := some s }

def apply (o : RpcConnectionOptions) (w : World) : Event → Except JsError World
  | .connect n => .ok (w.connect (.user n))
  | .close => .ok w.close
  | .send id payload => .ok (w.send id payload)
  | .timer t now uuid =>
    match w.timers.get t with
    | none => .ok w
    | some task => runTimer o w t now uuid task
  | .socketConnect s =>
    .ok ((w.updateSocket s fun k => { k with connected := true }).resumeAttempt s (.ok ()))
  | .socketError s error =>
    .ok ((handleUnexpectedDisconnect o
      (w.updateSocket s fun k => { k with destroyed := true }) error).resumeAttempt s (.error error))
  | .socketDestroyed s => .ok (w.updateSocket s fun k => { k with destroyed := true })
  | .socketClose s =>
    .ok (handleUnexpectedDisconnect o (w.updateSocket s fun k => { k with closed := true })
      connectionClosed)
  | .socketData s chunk now => (w.receive s chunk).handleData s chunk now
  | .microtask now =>
    match w.microtasks with
    | [] => .ok w
    | task :: tasks => .ok (runMicrotask o { w with microtasks := tasks } now task)

def machine (o : RpcConnectionOptions) : Machine World Event JsError where
  Enabled := Enabled
  apply := apply o

instance (o : RpcConnectionOptions) (w : World) (e : Event) :
    Decidable ((machine o).Enabled w e) := inferInstanceAs (Decidable (Enabled w e))

/-- The states of a connection that was constructed with `o`. -/
def Reachable (o : RpcConnectionOptions) (w : World) : Prop :=
  ∃ codec, RpcCodec.new o.codecOptions = .ok codec ∧ (machine o).Reachable (World.init codec) w

/-- The states reached by steps that satisfy `P`. -/
def ReachableWhen (o : RpcConnectionOptions) (P : World → Event → Prop) (w : World) : Prop :=
  ∃ codec, RpcCodec.new o.codecOptions = .ok codec ∧
    ((machine o).guard P).Reachable (World.init codec) w

theorem ReachableWhen.reachable {o : RpcConnectionOptions} {P : World → Event → Prop} {w : World}
    (h : ReachableWhen o P w) : Reachable o w := by
  obtain ⟨codec, hn, hr⟩ := h
  exact ⟨codec, hn, hr.unguard⟩

theorem ReachableWhen.mono {o : RpcConnectionOptions} {P Q : World → Event → Prop} {w : World}
    (h : ReachableWhen o P w) (hPQ : ∀ v e, P v e → Q v e) : ReachableWhen o Q w := by
  obtain ⟨codec, hn, hr⟩ := h
  exact ⟨codec, hn, hr.guard_mono hPQ⟩

theorem reachableWhen_of_exec {o : RpcConnectionOptions} {P : World → Event → Prop}
    [∀ w e, Decidable (P w e)] {codec : RpcCodec} (hn : RpcCodec.new o.codecOptions = .ok codec)
    {es : List Event} (h : (((machine o).guard P).exec (World.init codec) es).isSome) :
    ReachableWhen o P ((((machine o).guard P).exec (World.init codec) es).get h) :=
  ⟨codec, hn, es, Machine.run_exec_get h⟩

/-- Options that leave everything but the serializer and the call timeout unset. -/
def RpcConnectionOptions.ofSerializer (serializer : Serializer) : RpcConnectionOptions :=
  ⟨.ofNat 1000, serializer, none, none, none, none, none, none, none, none⟩

def sampleOptions : RpcConnectionOptions := .ofSerializer (.ofTable sampleTable)

end WeisleyRpc.Client
