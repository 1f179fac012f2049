import Mathlib.Logic.Function.Basic
import WeisleyRpc.Codec
import WeisleyRpc.Machine
import WeisleyRpc.MethodInvoker

/-!
# The server

`RpcServer` of `rpc-server.ts` with its sockets, the async data handlers that are under
way on them, and the `close` calls that wait. A handler runs from one `await` to the
next; what it waits for, the end of a method or of a write, comes from outside. An
exception that no handler catches, or an `error` event, ends the process.
-/

namespace WeisleyRpc.Server

abbrev SocketId := ℕ
abbrev ServerId := ℕ
abbrev CloseId := ℕ

inductive LogLevel
  | info
  | warn
  | error
  deriving DecidableEq, Repr

structure LogEntry where
  level : LogLevel
  message : String
  fields : List (String × JsValue)
  deriving DecidableEq, Repr

structure RpcServerOptions where
  logger : Option (LogEntry → Except JsError Unit)
  serializer : Serializer
  compression : Option RpcCodecCompressionOptions
  maxBodyLength : Option JsNumber
  maxDecompressedBodyLength : Option JsNumber

def RpcServerOptions.codecOptions (o : RpcServerOptions) : RpcCodecOptions :=
  ⟨o.serializer, [], o.compression, o.maxBodyLength, o.maxDecompressedBodyLength⟩

structure RpcServerCloseOptions where
  graceful : Bool
  timeoutMs : Option ℚ

inductive RpcServerState
  | idle
  | listening
  | draining
  | closed
  deriving DecidableEq, Repr

/-- A function in `drainResolvers`: the `resolver` that a waiting `close` has pushed.
`removeDrainResolver` looks for the `resolve` inside it. -/
inductive DrainResolver
  | resolver (c : CloseId)
  | resolve (c : CloseId)
  deriving DecidableEq, Repr

structure RpcServer where
  registry : ServiceRegistry
  server : Option ServerId
  sockets : List SocketId
  options : RpcServerOptions
  activeRequests : ℤ
  drainResolvers : List DrainResolver
  state : RpcServerState

/-- Where a data handler stands: in a turn, at one of its `await`s, or behind its `try`.
A write that the socket did not take is doomed to fail. -/
inductive Phase
  | running
  | invoking (startedAt : ℚ) (called : Except JsError Call)
  | responding (doomed : Bool)
  | refusing (doomed : Bool)
  | done
  | failed

/-- The data handler of one chunk, with the messages decoded from it and the number of
those whose turn is over. -/
structure Handler where
  messages : List JsValue
  next : ℕ
  phase : Phase

/-- The handler is between the increment of `activeRequests` and its `finally`. -/
def Handler.active (h : Handler) : Bool :=
  match h.phase with
  | .invoking _ _ | .responding _ => true
  | .running | .refusing _ | .done | .failed => false

/-- The handler is in a turn or awaits a write. -/
def Handler.busy (h : Handler) : Bool :=
  match h.phase with
  | .running | .responding _ | .refusing _ => true
  | .invoking _ _ | .done | .failed => false

/-- The handler awaits a write. -/
def Handler.writing (h : Handler) : Bool :=
  match h.phase with
  | .responding _ | .refusing _ => true
  | .running | .invoking _ _ | .done | .failed => false

inductive Cause
  | pong
  | refusal
  | response (outcome : Except Thrown JsValue)

structure Write where
  handler : ℕ
  index : ℕ
  message : JsValue
  payload : Buffer
  cause : Cause

structure Invocation where
  handler : ℕ
  index : ℕ
  request : JsValue
  called : Except JsError Call

structure ServerSocket where
  server : ServerId
  codec : RpcCodec
  ended : Bool
  destroyed : Bool
  closed : Bool
  received : List Buffer
  handlers : List Handler
  written : List Write
  invocations : List Invocation

def ServerSocket.new (server : ServerId) (codec : RpcCodec) : ServerSocket where
  server := server
  codec := codec
  ended := false
  destroyed := false
  closed := false
  received := []
  handlers := []
  written := []
  invocations := []

namespace ServerSocket

def setPhase (s : ServerSocket) (n : ℕ) (phase : Phase) : ServerSocket :=
  { s with handlers := s.handlers.modify n fun h => { h with phase := phase } }

/-- The turn of the next message. -/
def advance (s : ServerSocket) (n : ℕ) : ServerSocket :=
  { s with handlers := s.handlers.modify n fun h => { h with next := h.next + 1, phase := .running } }

/-- The socket takes no bytes any more. -/
def doomed (s : ServerSocket) : Bool := s.destroyed || s.ended

/-- `socket.write`. Writing to a socket whose peer has ended it destroys it. -/
def write (s : ServerSocket) (wr : Write) : ServerSocket :=
  if s.destroyed then s
  else if s.ended then { s with destroyed := true }
  else { s with written := s.written ++ [wr] }

def destroy (s : ServerSocket) : ServerSocket := { s with destroyed := true }

def invoke (s : ServerSocket) (invocation : Invocation) : ServerSocket :=
  { s with invocations := s.invocations ++ [invocation] }

/-- `push`, and the handler that will see what it returned. -/
def receive (s : ServerSocket) (chunk : Buffer) : ServerSocket :=
  { s with
    codec := (s.codec.push chunk).2
    received := s.received ++ [chunk]
    handlers := s.handlers ++ [⟨(s.codec.push chunk).1.toOption.getD [], 0, .running⟩] }

end ServerSocket

/-- The `net.Server` of a `listen` call. -/
inductive ServerPhase
  | starting
  | failed
  | listening
  | closing
  | closed
  deriving DecidableEq, Repr

/-- Where a `close` call stands: awaiting `waitForActiveRequests`, awaiting
`closePromise`, or settled. -/
inductive CloserPhase
  | draining
  | closing
  | finished (result : Except JsError Unit)

/-- A `close` call. `running` is whether its `net.Server` was listening; `timer` is the
delay of its armed drain timer. -/
structure Closer where
  server : Option ServerId
  running : Bool
  graceful : Bool
  timer : Option ℚ
  timedOut : Bool
  drained : Bool
  closed : Option (Except JsError Unit)
  phase : CloserPhase

def Closer.awaitsDrain (x : Closer) : Bool :=
  match x.phase with
  | .draining => true
  | _ => false

def Closer.awaitsClose (x : Closer) : Bool :=
  match x.phase with
  | .closing => true
  | _ => false

structure World extends RpcServer where
  conns : SocketId → ServerSocket
  nextSocket : SocketId
  servers : ServerId → ServerPhase
  nextServer : ServerId
  closers : CloseId → Closer
  nextCloser : CloseId

/-- A new server; `serializer` is its `new JsonSerializer()`. -/
def World.init (serializer : Serializer) : World where
  registry := ⟨.empty⟩
  server := none
  sockets := []
  options := ⟨none, serializer, none, none, none⟩
  activeRequests := 0
  drainResolvers := []
  state := .idle
  conns := fun _ => .new 0 (.ofSerializer serializer)
  nextSocket := 0
  servers := fun _ => .starting
  nextServer := 0
  closers := fun _ => ⟨none, false, false, none, false, false, none, .draining⟩
  nextCloser := 0

namespace World

def updateSocket (w : World) (k : SocketId) (f : ServerSocket → ServerSocket) : World :=
  { w with conns := Function.update w.conns k (f (w.conns k)) }

def updateCloser (w : World) (c : CloseId) (f : Closer → Closer) : World :=
  { w with closers := Function.update w.closers c (f (w.closers c)) }

/-- `this.logger?.info(...)` and its siblings. -/
def log (w : World) (level : LogLevel) (message : String) (fields : List (String × JsValue)) :
    Except JsError Unit :=
  match w.options.logger with
  | none => .ok ()
  | some logger => logger ⟨level, message, fields⟩

/-- The `catch` of the data handler. An exception of the logger leaves it. -/
def fail (w : World) (k : SocketId) (n : ℕ) (error : JsError) : Except JsError World := do
  w.log .warn "rpc server closing invalid socket" [("errorMessage", .string error.message)]
  return w.updateSocket k fun s => (s.setPhase n .failed).destroy

def runResolver (w : World) : DrainResolver → World
  | .resolver c => w.updateCloser c fun x => { x with timer := none, drained := true }
  | .resolve c => w.updateCloser c fun x => { x with drained := true }

def resolveDrainIfIdle (w : World) : World :=
  if w.activeRequests ≠ 0 then w
  else w.drainResolvers.foldl runResolver { w with drainResolvers := [] }

def removeDrainResolver (w : World) (r : DrainResolver) : World :=
  { w with drainResolvers := w.drainResolvers.filter (· ≠ r) }

/-- The `finally` of a request; `f` takes its handler out of the `try`. -/
def finishRequest (w : World) (k : SocketId) (f : ServerSocket → ServerSocket) : World :=
  resolveDrainIfIdle { w.updateSocket k f with activeRequests := w.activeRequests - 1 }

/-- A request's turn while the server drains, up to the `await` of the write. -/
def refuse (w : World) (k : SocketId) (n i : ℕ) (message : JsValue) : Except JsError World :=
  match (w.conns k).codec.encode (drainingResponse message) with
  | .error e => w.fail k n e
  | .ok payload =>
    .ok (w.updateSocket k fun s =>
      (s.write ⟨n, i, drainingResponse message, payload, .refusal⟩).setPhase n (.refusing s.doomed))

/-- A request's turn up to the `await` of its invocation. -/
def start (w : World) (now : ℚ) (k : SocketId) (n i : ℕ) (message : JsValue) : World :=
  let called := MethodInvoker.call w.registry message
  { w.updateSocket k fun s =>
      (s.invoke ⟨n, i, message, called⟩).setPhase n (.invoking now called) with
    activeRequests := w.activeRequests + 1 }

/-- The loop of the data handler from message `i` on, up to its next `await` or its end. -/
def handleMessages (now : ℚ) (k : SocketId) (n : ℕ) :
    List JsValue → ℕ → World → Except JsError World
  | [], _, w => .ok (w.updateSocket k fun s => s.setPhase n .done)
  | message :: messages, i, w =>
    if message.prop "type" = .string "request" then
      if w.state = .draining then w.refuse k n i message
      else .ok (w.start now k n i message)
    else if message.prop "type" = .string "ping" then
      match (w.conns k).codec.encode (pongMessage (message.prop "id") now) with
      | .error e => w.fail k n e
      | .ok payload =>
        handleMessages now k n messages (i + 1) (w.updateSocket k fun s =>
          (s.write ⟨n, i, pongMessage (message.prop "id") now, payload, .pong⟩).advance n)
    else handleMessages now k n messages (i + 1) (w.updateSocket k fun s => s.advance n)

/-- A data event: `push`, then the messages it returned. -/
def handleData (w : World) (k : SocketId) (chunk : Buffer) (now : ℚ) : Except JsError World :=
  match ((w.conns k).codec.push chunk).1 with
  | .error e => (w.updateSocket k fun s => s.receive chunk).fail k (w.conns k).handlers.length e
  | .ok messages =>
    handleMessages now k (w.conns k).handlers.length messages 0
      (w.updateSocket k fun s => s.receive chunk)

/-- What is logged about a response. -/
def logResponse (w : World) (message response : JsValue) (durationMs : ℚ) : Except JsError Unit :=
  let fields := [("service", message.prop "service"), ("method", message.prop "method"),
    ("traceId", (message.prop "metadata").prop "traceId"), ("requestId", message.prop "id"),
    ("durationMs", .number (.finite durationMs))]
  if (response.prop "ok").truthy then w.log .info "rpc server request succeeded" fields
  else
    w.log .error "rpc server request failed"
      (fields ++ [("errorCode", (response.prop "error").prop "code")])

/-- From the end of the method to the encoded response. -/
def encodeResponse (w : World) (k : SocketId) (message : JsValue)
    (outcome : Except Thrown JsValue) (durationMs : ℚ) : Except JsError (JsValue × Buffer) := do
  let response ← MethodInvoker.response message outcome
  w.logResponse message response durationMs
  let payload ← (w.conns k).codec.encode response
  return (response, payload)

/-- The handler goes on after the `await` of its invocation. -/
def respond (w : World) (k : SocketId) (n i : ℕ) (message : JsValue)
    (outcome : Except Thrown JsValue) (durationMs : ℚ) : Except JsError World :=
  match w.encodeResponse k message outcome durationMs with
  | .error e => (w.finishRequest k fun s => s.setPhase n .failed).fail k n e
  | .ok (response, payload) =>
    .ok (w.updateSocket k fun s =>
      (s.write ⟨n, i, response, payload, .response outcome⟩).setPhase n (.responding s.doomed))

def settle (w : World) (k : SocketId) (n : ℕ) (returned : Except Thrown JsValue) (now : ℚ) :
    Except JsError World :=
  match (w.conns k).handlers[n]? with
  | none => .ok w
  | some h =>
    match h.phase, h.messages[h.next]? with
    | .invoking startedAt called, some message =>
      w.respond k n h.next message (MethodInvoker.outcome called returned) (now - startedAt)
    | _, _ => .ok w

/-- The handler goes on after the `await` of a write. -/
def wrote (w : World) (k : SocketId) (n : ℕ) (result : Except JsError Unit) (now : ℚ) :
    Except JsError World :=
  match (w.conns k).handlers[n]? with
  | none => .ok w
  | some h =>
    match h.phase, result with
    | .responding _, .ok () =>
      handleMessages now k n (h.messages.drop (h.next + 1)) (h.next + 1)
        (w.finishRequest k fun s => s.advance n)
    | .responding _, .error e => (w.finishRequest k fun s => s.setPhase n .failed).fail k n e
    | .refusing _, .ok () =>
      handleMessages now k n (h.messages.drop (h.next + 1)) (h.next + 1)
        (w.updateSocket k fun s => s.advance n)
    | .refusing _, .error e => w.fail k n e
    | _, _ => .ok w

def listen (w : World) (options : RpcServerOptions) : World :=
  { w with
    options := options
    server := some w.nextServer
    servers := Function.update w.servers w.nextServer .starting
    nextServer := w.nextServer + 1 }

def handleConnection (w : World) (server : ServerId) : Except JsError World := do
  let codec ← RpcCodec.new w.options.codecOptions
  return { w with
    sockets := w.sockets ++ [w.nextSocket]
    conns := Function.update w.conns w.nextSocket (.new server codec)
    nextSocket := w.nextSocket + 1 }

def closeConnections (w : World) : World :=
  { w with
    conns := fun k => if k ∈ w.sockets then (w.conns k).destroy else w.conns k
    sockets := [] }

def addCloser (w : World) (closer : Closer) : World :=
  { w with closers := Function.update w.closers w.nextCloser closer, nextCloser := w.nextCloser + 1 }

/-- `closeServer` stops a `net.Server` that is listening. -/
def closeServer (w : World) (n : ServerId) : World :=
  if w.servers n = .listening then
    { w with servers := Function.update w.servers n .closing }
  else w

/-- A graceful `close` of `net.Server` `n`, with its drain timer and whether it finds no
active request. -/
def beginDrain (w : World) (n : ServerId) (timer : Option ℚ) (drained : Bool) : World :=
  (closeServer { w with server := none, state := .draining } n).addCloser
    ⟨some n, decide (w.servers n = .listening), true, timer, false, drained, none, .draining⟩

def beginClose (w : World) (n : ServerId) : World :=
  ((closeConnections { w with server := none, state := .closed }).closeServer n).addCloser
    ⟨some n, decide (w.servers n = .listening), false, none, false, false, none, .closing⟩

/-- `close` up to its first `await`. -/
def close (w : World) (options : RpcServerCloseOptions) : World :=
  match w.server with
  | none => w.addCloser ⟨none, false, options.graceful, none, false, false, none, .finished (.ok ())⟩
  | some n =>
    if options.graceful then
      if w.activeRequests = 0 then w.beginDrain n none true
      else
        { w.beginDrain n (some (options.timeoutMs.getD 3000)) false with
          drainResolvers := w.drainResolvers ++ [.resolver w.nextCloser] }
    else w.beginClose n

def drainTimeout (w : World) (c : CloseId) : World :=
  (w.removeDrainResolver (.resolve c)).updateCloser c fun x =>
    { x with timer := none, timedOut := true, drained := true }

/-- `close` goes on after `waitForActiveRequests`. -/
def resumeDrain (w : World) (c : CloseId) : World :=
  w.closeConnections.updateCloser c fun x => { x with phase := .closing }

def serverNotRunning : JsError :=
  .native "Error" "Server is not running." (some "Error: Server is not running.")
    (some "ERR_SERVER_NOT_RUNNING")

def closeResult (x : Closer) : Except JsError Unit :=
  if x.running then .ok () else .error serverNotRunning

/-- The callback of `server.close`. A rejected `closePromise` that nobody awaits yet ends
the process. -/
def closeCallback (w : World) (c : CloseId) : Except JsError World :=
  let settled := w.updateCloser c fun x => { x with closed := some (closeResult x) }
  match (w.closers c).server, closeResult (w.closers c) with
  | some n, .ok () => .ok { settled with servers := Function.update w.servers n .closed }
  | none, .ok () => .ok settled
  | _, .error e =>
    if (w.closers c).awaitsDrain ∧ ¬ (w.closers c).drained then .error e else .ok settled

/-- `close` goes on after `closePromise`. -/
def resumeClose (w : World) (c : CloseId) : World :=
  match (w.closers c).closed with
  | none => w
  | some result =>
    { w.updateCloser c fun x => { x with phase := .finished result } with
      state := if (w.closers c).graceful ∧ result.toOption.isSome then .closed else w.state }

end World

inductive Event
  | registerService (name : String) (implementation : ServiceImplementation)
  | listen (options : RpcServerOptions)
  | listening (n : ServerId)
  | listenError (n : ServerId)
  | connection (n : ServerId)
  | data (k : SocketId) (chunk : Buffer) (now : ℚ)
  | settle (k : SocketId) (n : ℕ) (returned : Except Thrown JsValue) (now : ℚ)
  | wrote (k : SocketId) (n : ℕ) (result : Except JsError Unit) (now : ℚ)
  | peerEnd (k : SocketId)
  | finished (k : SocketId)
  | socketError (k : SocketId) (error : JsError)
  | socketClose (k : SocketId)
  | close (options : RpcServerCloseOptions)
  | drainTimeout (c : CloseId)
  | resumeDrain (c : CloseId)
  | closeCallback (c : CloseId)
  | resumeClose (c : CloseId)

open World

/-- The handler awaits the end of a method. -/
def Handler.invoking (h : Handler) : Bool :=
  match h.phase with
  | .invoking _ _ => true
  | _ => false

/-- How a write can end for the handler that awaits it. -/
def Handler.mayEnd (h : Handler) (result : Except JsError Unit) : Bool :=
  match h.phase, result with
  | .responding doomed, .ok () | .refusing doomed, .ok () => !doomed
  | .responding _, .error _ | .refusing _, .error _ => true
  | _, _ => false

/-- The connections of a `net.Server` are gone. -/
def World.Unconnected (w : World) (n : ServerId) : Prop :=
  ∀ k < w.nextSocket, (w.conns k).server = n → (w.conns k).closed = true

instance (w : World) (n : ServerId) : Decidable (w.Unconnected n) :=
  inferInstanceAs (Decidable (∀ k < w.nextSocket, _ → _))

/-- What may happen next. The callbacks of its writes come before a socket's `close`
event, and those of its connections before that of a `net.Server`. -/
def Enabled (w : World) : Event → Prop
  | .registerService _ _ | .listen _ | .close _ => True
  | .listening n | .listenError n => n < w.nextServer ∧ w.servers n = .starting
  | .connection n => n < w.nextServer ∧ w.servers n = .listening
  | .data k _ _ | .peerEnd k =>
    k < w.nextSocket ∧ (w.conns k).destroyed = false ∧ (w.conns k).ended = false
  | .settle k n _ _ => k < w.nextSocket ∧ ((w.conns k).handlers[n]?.any Handler.invoking) = true
  | .wrote k n result _ =>
    k < w.nextSocket ∧ ((w.conns k).handlers[n]?.any fun h => h.mayEnd result) = true
  | .finished k => k < w.nextSocket ∧ (w.conns k).destroyed = false ∧ (w.conns k).ended = true
  | .socketError k _ => k < w.nextSocket ∧ (w.conns k).closed = false
  | .socketClose k =>
    k < w.nextSocket ∧ (w.conns k).destroyed = true ∧ (w.conns k).closed = false ∧
      ((w.conns k).handlers.all fun h => !h.busy) = true
  | .drainTimeout c => c < w.nextCloser ∧ (w.closers c).timer.isSome
  | .resumeDrain c =>
    c < w.nextCloser ∧ (w.closers c).awaitsDrain = true ∧ (w.closers c).drained = true
  | .closeCallback c =>
    c < w.nextCloser ∧ (w.closers c).closed.isNone ∧
      ∃ n ∈ (w.closers c).server, (w.closers c).running = true → w.Unconnected n
  | .resumeClose c =>
    c < w.nextCloser ∧ (w.closers c).awaitsClose = true ∧ (w.closers c).closed.isSome

instance (w : World) (e : Event) : Decidable (Enabled w e) :=
  match e with
  | .registerService _ _ | .listen _ | .close _ => inferInstanceAs (Decidable True)
  | .listening _ | .listenError _ | .connection _ | .data _ _ _ | .peerEnd _ | .settle _ _ _ _
  | .wrote _ _ _ _ | .finished _ | .socketError _ _ | .socketClose _ | .drainTimeout _
  | .resumeDrain _ | .closeCallback _ | .resumeClose _ => inferInstanceAs (Decidable (_ ∧ _))

def apply (w : World) : Event → Except JsError World
  | .registerService name implementation =>
    .ok { w with registry := w.registry.register name implementation }
  | .listen options => .ok (w.listen options)
  | .listening n =>
    .ok { w with servers := Function.update w.servers n .listening, state := .listening }
  | .listenError n => .ok { w with servers := Function.update w.servers n .failed }
  | .connection n => w.handleConnection n
  | .data k chunk now => w.handleData k chunk now
  | .settle k n returned now => w.settle k n returned now
  | .wrote k n result now => w.wrote k n result now
  | .peerEnd k => .ok (w.updateSocket k fun s => { s with ended := true })
  | .finished k => .ok (w.updateSocket k fun s => s.destroy)
  | .socketError _ error => .error error
  | .socketClose k =>
    .ok { w.updateSocket k fun s => { s with closed := true } with
      sockets := w.sockets.filter (· ≠ k) }
  | .close options => .ok (w.close options)
  | .drainTimeout c => .ok (w.drainTimeout c)
  | .resumeDrain c => .ok (w.resumeDrain c)
  | .closeCallback c => w.closeCallback c
  | .resumeClose c => .ok (w.resumeClose c)

def machine : Machine World Event JsError where
  Enabled := Enabled
  apply := apply

instance (w : World) (e : Event) : Decidable (machine.Enabled w e) :=
  inferInstanceAs (Decidable (Enabled w e))

def sampleServerOptions : RpcServerOptions := ⟨none, .ofTable sampleTable, none, none, none⟩

/-- The states of a server. -/
def Reachable (w : World) : Prop :=
  ∃ serializer, machine.Reachable (World.init serializer) w

end WeisleyRpc.Server
