import Mathlib.Logic.Relation
import WeisleyRpc.Server

/-!
# What the events of a server do to its state

What a data handler does between two `await`s is a chain of micro steps, and an answered
event is such a chain on one socket or a single change of the server itself.
-/

namespace WeisleyRpc.Server

def IsRequest (m : JsValue) : Prop := m.prop "type" = .string "request"
def IsPing (m : JsValue) : Prop := m.prop "type" = .string "ping"

instance (m : JsValue) : Decidable (IsRequest m) := inferInstanceAs (Decidable (_ = _))
instance (m : JsValue) : Decidable (IsPing m) := inferInstanceAs (Decidable (_ = _))

/-- What a turn of message `m` writes at once: the refusal of a request or a pong. -/
def TurnAnswer (w : World) (now : ℚ) (m answer : JsValue) : Prop :=
  (IsRequest m ∧ w.state = .draining ∧ answer = drainingResponse m) ∨
    (IsPing m ∧ answer = pongMessage (m.prop "id") now)

/-- It is the turn of message `m` in handler `n`. -/
structure AtTurn (s : ServerSocket) (n : ℕ) (h : Handler) (m : JsValue) : Prop where
  handler : s.handlers[n]? = some h
  running : h.phase = .running
  message : h.messages[h.next]? = some m

namespace ServerSocket
variable (s : ServerSocket) (n : ℕ) (phase : Phase) (wr : Write)

@[simp] theorem codec_write : (s.write wr).codec = s.codec := by
  unfold write
  split_ifs <;> rfl

@[simp] theorem handlers_write : (s.write wr).handlers = s.handlers := by
  unfold write
  split_ifs <;> rfl

@[simp] theorem invocations_write : (s.write wr).invocations = s.invocations := by
  unfold write
  split_ifs <;> rfl

@[simp] theorem server_write : (s.write wr).server = s.server := by
  unfold write
  split_ifs <;> rfl

@[simp] theorem closed_write : (s.write wr).closed = s.closed := by
  unfold write
  split_ifs <;> rfl

@[simp] theorem received_write : (s.write wr).received = s.received := by
  unfold write
  split_ifs <;> rfl

theorem written_write : (s.write wr).written = s.written ++ if s.doomed then [] else [wr] := by
  unfold write doomed
  cases s.destroyed <;> cases s.ended <;> simp

theorem handlers_setPhase_self {n : ℕ} {h : Handler} (hn : s.handlers[n]? = some h) :
    (s.setPhase n phase).handlers[n]? = some { h with phase := phase } := by
  simp [setPhase, hn]

theorem handlers_advance_self {n : ℕ} {h : Handler} (hn : s.handlers[n]? = some h) :
    (s.advance n).handlers[n]? = some { h with next := h.next + 1, phase := .running } := by
  simp [advance, hn]

theorem handlers_receive_last (chunk : Buffer) :
    (s.receive chunk).handlers[s.handlers.length]? =
      some ⟨(s.codec.push chunk).1.toOption.getD [], 0, .running⟩ := by
  simp [receive]

end ServerSocket

namespace World

theorem conns_updateSocket (w : World) (k : SocketId) (f : ServerSocket → ServerSocket)
    (k' : SocketId) :
    (w.updateSocket k f).conns k' = if k' = k then f (w.conns k) else w.conns k' := by
  simp only [updateSocket, Function.update_apply]

@[simp] theorem conns_updateSocket_self (w : World) (k : SocketId)
    (f : ServerSocket → ServerSocket) : (w.updateSocket k f).conns k = f (w.conns k) := by
  simp [conns_updateSocket]

theorem updateSocket_updateSocket (w : World) (k : SocketId) (f g : ServerSocket → ServerSocket) :
    (w.updateSocket k f).updateSocket k g = w.updateSocket k fun s => g (f s) := by
  simp only [updateSocket, Function.update_self, Function.update_idem]

/-- The waiting closers that the functions in `rs` wake. -/
def wake (rs : List DrainResolver) (closers : CloseId → Closer) (c : CloseId) : Closer :=
  if .resolver c ∈ rs then { closers c with timer := none, drained := true }
  else if .resolve c ∈ rs then { closers c with drained := true }
  else closers c

theorem wake_cons (r : DrainResolver) (rs : List DrainResolver) (w : World) :
    wake (r :: rs) w.closers = wake rs (w.runResolver r).closers := by
  funext c
  cases r with
  | resolver c' =>
    by_cases h : c = c'
    · subst h
      simp [wake, runResolver, updateCloser]
    · simp [wake, runResolver, updateCloser, h]
  | resolve c' =>
    by_cases h : c = c'
    · subst h
      simp [wake, runResolver, updateCloser]
    · simp [wake, runResolver, updateCloser, h]

theorem foldl_runResolver (rs : List DrainResolver) (w : World) :
    rs.foldl runResolver w = { w with closers := wake rs w.closers } := by
  induction rs generalizing w with
  | nil =>
    have hc : wake [] w.closers = w.closers := by
      funext c
      simp [wake]
    rw [hc]
    rfl
  | cons r rs ih =>
    rw [List.foldl_cons, ih, wake_cons]
    cases r <;> rfl

theorem resolveDrainIfIdle_cases (w : World) :
    (w.activeRequests ≠ 0 ∧ w.resolveDrainIfIdle = w) ∨
      (w.activeRequests = 0 ∧ w.resolveDrainIfIdle =
        { w with drainResolvers := [], closers := wake w.drainResolvers w.closers }) := by
  unfold resolveDrainIfIdle
  by_cases h : w.activeRequests = 0
  · exact Or.inr ⟨h, by rw [if_neg (not_not.mpr h), foldl_runResolver]⟩
  · exact Or.inl ⟨h, if_pos h⟩

theorem finishRequest_cases (w : World) (k : SocketId) (f : ServerSocket → ServerSocket) :
    (w.activeRequests - 1 ≠ 0 ∧ w.finishRequest k f =
      { w.updateSocket k f with activeRequests := w.activeRequests - 1 }) ∨
    (w.activeRequests - 1 = 0 ∧ w.finishRequest k f = { w.updateSocket k f with
      activeRequests := w.activeRequests - 1
      drainResolvers := []
      closers := wake w.drainResolvers w.closers }) :=
  resolveDrainIfIdle_cases { w.updateSocket k f with activeRequests := w.activeRequests - 1 }

theorem conns_finishRequest (w : World) (k : SocketId) (f : ServerSocket → ServerSocket) :
    (w.finishRequest k f).conns = (w.updateSocket k f).conns := by
  rcases finishRequest_cases w k f with ⟨-, he⟩ | ⟨-, he⟩ <;> rw [he]

end World

/-- One step of a data handler of socket `k`. -/
inductive Micro (k : SocketId) (w : World) : World → Prop
  | receive {chunk : Buffer} {messages : List JsValue} (alive : (w.conns k).destroyed = false)
      (pushed : ((w.conns k).codec.push chunk).1 = .ok messages) :
      Micro k w (w.updateSocket k fun s => s.receive chunk)
  | reject {chunk : Buffer} {e : JsError} (alive : (w.conns k).destroyed = false)
      (pushed : ((w.conns k).codec.push chunk).1 = .error e) :
      Micro k w (w.updateSocket k fun s =>
        ((s.receive chunk).setPhase s.handlers.length .failed).destroy)
  | skip {n : ℕ} {h : Handler} {m : JsValue} (turn : AtTurn (w.conns k) n h m)
      (notRequest : ¬ IsRequest m) (notPing : ¬ IsPing m) :
      Micro k w (w.updateSocket k fun s => s.advance n)
  | pong {n : ℕ} {h : Handler} {m : JsValue} {now : ℚ} {payload : Buffer}
      (turn : AtTurn (w.conns k) n h m) (notRequest : ¬ IsRequest m) (ping : IsPing m)
      (encoded : (w.conns k).codec.encode (pongMessage (m.prop "id") now) = .ok payload) :
      Micro k w (w.updateSocket k fun s =>
        (s.write ⟨n, h.next, pongMessage (m.prop "id") now, payload, .pong⟩).advance n)
  | refuse {n : ℕ} {h : Handler} {m : JsValue} {payload : Buffer}
      (turn : AtTurn (w.conns k) n h m) (request : IsRequest m) (draining : w.state = .draining)
      (encoded : (w.conns k).codec.encode (drainingResponse m) = .ok payload) :
      Micro k w (w.updateSocket k fun s =>
        (s.write ⟨n, h.next, drainingResponse m, payload, .refusal⟩).setPhase n (.refusing s.doomed))
  | start {n : ℕ} {h : Handler} {m : JsValue} (now : ℚ) (turn : AtTurn (w.conns k) n h m)
      (request : IsRequest m) (notDraining : w.state ≠ .draining) :
      Micro k w (w.start now k n h.next m)
  | done {n : ℕ} {h : Handler} (handler : (w.conns k).handlers[n]? = some h)
      (running : h.phase = .running) (past : h.messages.length ≤ h.next) :
      Micro k w (w.updateSocket k fun s => s.setPhase n .done)
  | fail {n : ℕ} {h : Handler} (handler : (w.conns k).handlers[n]? = some h)
      (inactive : h.active = false) :
      Micro k w (w.updateSocket k fun s => (s.setPhase n .failed).destroy)
  | respond {n : ℕ} {h : Handler} {m : JsValue} {startedAt : ℚ} {called : Except JsError Call}
      {response : JsValue} {payload : Buffer} (returned : Except Thrown JsValue)
      (handler : (w.conns k).handlers[n]? = some h) (invoking : h.phase = .invoking startedAt called)
      (message : h.messages[h.next]? = some m)
      (converted : MethodInvoker.response m (MethodInvoker.outcome called returned) = .ok response)
      (encoded : (w.conns k).codec.encode response = .ok payload) :
      Micro k w (w.updateSocket k fun s =>
        (s.write ⟨n, h.next, response, payload,
          .response (MethodInvoker.outcome called returned)⟩).setPhase n (.responding s.doomed))
  | abort {n : ℕ} {h : Handler} (handler : (w.conns k).handlers[n]? = some h)
      (active : h.active = true) : Micro k w (w.finishRequest k fun s => s.setPhase n .failed)
  | finish {n : ℕ} {h : Handler} (handler : (w.conns k).handlers[n]? = some h)
      (responding : h.phase = .responding false) :
      Micro k w (w.finishRequest k fun s => s.advance n)
  | resume {n : ℕ} {h : Handler} (handler : (w.conns k).handlers[n]? = some h)
      (refusing : h.phase = .refusing false) :
      Micro k w (w.updateSocket k fun s => s.advance n)

/-- Two states that differ only in sockets and in what a request's `finally` touches. -/
structure SameServer (w v : World) : Prop where
  registry : v.registry = w.registry
  server : v.server = w.server
  sockets : v.sockets = w.sockets
  options : v.options = w.options
  state : v.state = w.state
  nextSocket : v.nextSocket = w.nextSocket
  servers : v.servers = w.servers
  nextServer : v.nextServer = w.nextServer
  nextCloser : v.nextCloser = w.nextCloser

theorem SameServer.refl (w : World) : SameServer w w := ⟨rfl, rfl, rfl, rfl, rfl, rfl, rfl, rfl, rfl⟩

theorem SameServer.trans {u v w : World} (h : SameServer u v) (h' : SameServer v w) :
    SameServer u w :=
  ⟨h'.registry.trans h.registry, h'.server.trans h.server, h'.sockets.trans h.sockets,
    h'.options.trans h.options, h'.state.trans h.state, h'.nextSocket.trans h.nextSocket,
    h'.servers.trans h.servers, h'.nextServer.trans h.nextServer,
    h'.nextCloser.trans h.nextCloser⟩

theorem sameServer_updateSocket (w : World) (k : SocketId) (f : ServerSocket → ServerSocket) :
    SameServer w (w.updateSocket k f) := ⟨rfl, rfl, rfl, rfl, rfl, rfl, rfl, rfl, rfl⟩

theorem sameServer_finishRequest (w : World) (k : SocketId) (f : ServerSocket → ServerSocket) :
    SameServer w (w.finishRequest k f) := by
  rcases World.finishRequest_cases w k f with ⟨-, he⟩ | ⟨-, he⟩ <;> rw [he] <;>
    exact ⟨rfl, rfl, rfl, rfl, rfl, rfl, rfl, rfl, rfl⟩

theorem Micro.same {k : SocketId} {w w' : World} (h : Micro k w w') : SameServer w w' := by
  cases h with
  | start => exact ⟨rfl, rfl, rfl, rfl, rfl, rfl, rfl, rfl, rfl⟩
  | abort => exact sameServer_finishRequest w k _
  | finish => exact sameServer_finishRequest w k _
  | _ => exact sameServer_updateSocket w k _

theorem Micro.conns_ne {k k' : SocketId} {w w' : World} (h : Micro k w w') (hk : k' ≠ k) :
    w'.conns k' = w.conns k' := by
  cases h with
  | start =>
    unfold World.start
    simp only [World.conns_updateSocket, if_neg hk]
  | abort => rw [World.conns_finishRequest, World.conns_updateSocket, if_neg hk]
  | finish => rw [World.conns_finishRequest, World.conns_updateSocket, if_neg hk]
  | _ => rw [World.conns_updateSocket, if_neg hk]

/-- Only the start of a request calls a method. -/
theorem Micro.invocations {k : SocketId} {w w' : World} (hm : Micro k w w') :
    (w'.conns k).invocations = (w.conns k).invocations ∨
      ∃ n h m now, AtTurn (w.conns k) n h m ∧ w.state ≠ .draining ∧
        w' = w.start now k n h.next m := by
  cases hm with
  | @start n h m now turn _ hstate => exact Or.inr ⟨n, h, m, now, turn, hstate, rfl⟩
  | abort =>
    rw [World.conns_finishRequest, World.conns_updateSocket_self]
    exact Or.inl rfl
  | finish =>
    rw [World.conns_finishRequest, World.conns_updateSocket_self]
    exact Or.inl rfl
  | pong =>
    rw [World.conns_updateSocket_self]
    exact Or.inl (ServerSocket.invocations_write _ _)
  | refuse =>
    rw [World.conns_updateSocket_self]
    exact Or.inl (ServerSocket.invocations_write _ _)
  | respond =>
    rw [World.conns_updateSocket_self]
    exact Or.inl (ServerSocket.invocations_write _ _)
  | _ =>
    rw [World.conns_updateSocket_self]
    exact Or.inl rfl

/-- What a data handler does up to its next `await`. -/
abbrev Micros (k : SocketId) : World → World → Prop := Relation.ReflTransGen (Micro k)

theorem Micros.invariant {k : SocketId} {w w' : World} {I : World → Prop}
    (step : ∀ v v', Micro k v v' → I v → I v') (h : Micros k w w') (hw : I w) : I w' := by
  induction h with
  | refl => exact hw
  | tail _ hs ih => exact step _ _ hs ih

theorem Micros.same {k : SocketId} {w w' : World} (h : Micros k w w') : SameServer w w' :=
  h.invariant (I := SameServer w) (fun _ _ hs hi => hi.trans hs.same) (.refl w)

theorem Micros.conns_ne {k k' : SocketId} {w w' : World} (h : Micros k w w') (hk : k' ≠ k) :
    w'.conns k' = w.conns k' :=
  h.invariant (I := fun v => v.conns k' = w.conns k')
    (fun _ _ hs hi => (hs.conns_ne hk).trans hi) rfl

namespace World

theorem fail_eq_ok {w w' : World} {k : SocketId} {n : ℕ} {e : JsError} (h : w.fail k n e = .ok w') :
    w' = w.updateSocket k fun s => (s.setPhase n .failed).destroy := by
  obtain ⟨u, -, hw⟩ := Except.bind_eq_ok_iff.mp h
  exact (Except.ok.inj hw).symm

theorem micros_of_fail {w w' : World} {k : SocketId} {n : ℕ} {e : JsError} {h : Handler}
    (hn : (w.conns k).handlers[n]? = some h) (ha : h.active = false)
    (hf : w.fail k n e = .ok w') : Micros k w w' := by
  rw [fail_eq_ok hf]
  exact .single (.fail hn ha)

/-- The handler fails inside the `try` of a request: the `finally` first, then the `catch`. -/
theorem micros_of_abort {w w' : World} {k : SocketId} {n : ℕ} {e : JsError} {h : Handler}
    (hn : (w.conns k).handlers[n]? = some h) (ha : h.active = true)
    (hf : (w.finishRequest k fun s => s.setPhase n .failed).fail k n e = .ok w') :
    Micros k w w' := by
  have hn' : ((w.finishRequest k fun s => s.setPhase n .failed).conns k).handlers[n]? =
      some { h with phase := .failed } := by
    rw [conns_finishRequest, conns_updateSocket_self]
    exact (w.conns k).handlers_setPhase_self _ hn
  exact .head (.abort hn ha) (micros_of_fail hn' rfl hf)

/-- The turn of a message in the loop of handler `n`: the handler stops with it, or goes on with
the messages behind it. -/
inductive Turn (now : ℚ) (k : SocketId) (n : ℕ) (message : JsValue) (messages : List JsValue)
    (i : ℕ) (w w' : World) : Prop
  | fails {answer : JsValue} {e : JsError} (answers : TurnAnswer w now message answer)
      (thrown : (w.conns k).codec.encode answer = .error e) (failed : w.fail k n e = .ok w')
  | refuses {payload : Buffer} (request : IsRequest message) (draining : w.state = .draining)
      (encoded : (w.conns k).codec.encode (drainingResponse message) = .ok payload)
      (left : w' = w.updateSocket k fun s => (s.write ⟨n, i, drainingResponse message, payload,
        .refusal⟩).setPhase n (.refusing s.doomed))
  | invokes (request : IsRequest message) (notDraining : w.state ≠ .draining)
      (left : w' = w.start now k n i message)
  | pongs {payload : Buffer} (notRequest : ¬ IsRequest message) (ping : IsPing message)
      (encoded : (w.conns k).codec.encode (pongMessage (message.prop "id") now) = .ok payload)
      (rest : handleMessages now k n messages (i + 1) (w.updateSocket k fun s =>
        (s.write ⟨n, i, pongMessage (message.prop "id") now, payload, .pong⟩).advance n) = .ok w')
  | skips (notRequest : ¬ IsRequest message) (notPing : ¬ IsPing message)
      (rest : handleMessages now k n messages (i + 1) (w.updateSocket k fun s => s.advance n) =
        .ok w')

theorem turn_of_handleMessages {now : ℚ} {k : SocketId} {n : ℕ} {message : JsValue}
    {messages : List JsValue} {i : ℕ} {w w' : World}
    (h : handleMessages now k n (message :: messages) i w = .ok w') :
    Turn now k n message messages i w w' := by
  simp only [handleMessages] at h
  split_ifs at h with hreq hdrain hping
  · unfold refuse at h
    cases he : (w.conns k).codec.encode (drainingResponse message) with
    | error e =>
      simp only [he] at h
      exact .fails (Or.inl ⟨hreq, hdrain, rfl⟩) he h
    | ok payload =>
      simp only [he, Except.ok.injEq] at h
      exact .refuses hreq hdrain he h.symm
  · exact .invokes hreq hdrain (Except.ok.inj h).symm
  · cases he : (w.conns k).codec.encode (pongMessage (message.prop "id") now) with
    | error e =>
      simp only [he] at h
      exact .fails (Or.inr ⟨hping, rfl⟩) he h
    | ok payload =>
      simp only [he] at h
      exact .pongs hreq hping he h
  · exact .skips hreq hping h

theorem micros_of_handleMessages {now : ℚ} {k : SocketId} {n : ℕ} {messages : List JsValue} {i : ℕ}
    {w w' : World} {h : Handler} (hr : handleMessages now k n messages i w = .ok w')
    (hn : (w.conns k).handlers[n]? = some h) (hrun : h.phase = .running) (hi : h.next = i)
    (hd : h.messages.drop i = messages) : Micros k w w' := by
  induction messages generalizing i w h with
  | nil =>
    obtain rfl := Except.ok.inj hr
    exact .single (.done hn hrun (hi ▸ List.drop_eq_nil_iff.mp hd))
  | cons message messages ih =>
    have hm : h.messages[h.next]? = some message := by
      rw [hi, ← List.head?_drop, hd, List.head?_cons]
    have hrest : h.messages.drop (i + 1) = messages := by
      rw [← List.tail_drop, hd, List.tail_cons]
    have hturn : AtTurn (w.conns k) n h message := ⟨hn, hrun, hm⟩
    -- the turns that do not suspend the handler go on with the next message
    have hnext : ∀ f : ServerSocket → ServerSocket, (f (w.conns k)).handlers = (w.conns k).handlers →
        handleMessages now k n messages (i + 1)
          (w.updateSocket k fun s => (f s).advance n) = .ok w' →
        Micros k (w.updateSocket k fun s => (f s).advance n) w' := by
      intro f hf hok
      refine ih (h := { h with next := h.next + 1, phase := .running }) hok ?_ rfl (by rw [hi]) hrest
      rw [conns_updateSocket_self]
      exact (f (w.conns k)).handlers_advance_self (hf ▸ hn)
    cases turn_of_handleMessages hr with
    | fails _ _ failed => exact micros_of_fail hn (by simp [Handler.active, hrun]) failed
    | refuses request draining encoded left =>
      subst hi left
      exact .single (.refuse hturn request draining encoded)
    | invokes request notDraining left =>
      subst hi left
      exact .single (.start now hturn request notDraining)
    | pongs notRequest ping encoded rest =>
      refine .head (.pong hturn notRequest ping encoded) ?_
      rw [hi]
      exact hnext (fun s => s.write _) (by simp) rest
    | skips notRequest notPing rest =>
      exact .head (.skip hturn notRequest notPing) (hnext id rfl rest)

theorem micros_of_handleData {w w' : World} {k : SocketId} {chunk : Buffer} {now : ℚ}
    (halive : (w.conns k).destroyed = false) (hd : w.handleData k chunk now = .ok w') :
    Micros k w w' := by
  have hn := (w.conns k).handlers_receive_last chunk
  rw [← conns_updateSocket_self w k fun s => s.receive chunk] at hn
  unfold handleData at hd
  cases hp : ((w.conns k).codec.push chunk).1 with
  | error e =>
    simp only [hp] at hd
    rw [fail_eq_ok hd, updateSocket_updateSocket]
    exact .single (.reject halive hp)
  | ok messages =>
    simp only [hp] at hd
    rw [hp] at hn
    exact .head (.receive halive hp) (micros_of_handleMessages hd hn rfl rfl rfl)

theorem micros_of_settle {w w' : World} {k : SocketId} {n : ℕ} {returned : Except Thrown JsValue}
    {now : ℚ} (hs : w.settle k n returned now = .ok w') : Micros k w w' := by
  unfold settle at hs
  cases hn : (w.conns k).handlers[n]? with
  | none =>
    simp only [hn, Except.ok.injEq] at hs
    exact hs ▸ .refl
  | some h =>
    simp only [hn] at hs
    split at hs
    · rename_i startedAt called message hph hm
      unfold respond at hs
      cases he : w.encodeResponse k message (MethodInvoker.outcome called returned)
          (now - startedAt) with
      | error e =>
        simp only [he] at hs
        exact micros_of_abort hn (by simp [Handler.active, hph]) hs
      | ok encoded =>
        obtain ⟨response, payload⟩ := encoded
        simp only [he, Except.ok.injEq] at hs
        obtain ⟨r, hr, u, -, b, hb, hp⟩ := by
          simpa only [encodeResponse, Except.bind_eq_ok_iff] using he
        obtain ⟨rfl, rfl⟩ := Prod.mk.inj (Except.ok.inj hp)
        exact hs ▸ .single (.respond returned hn hph hm hr hb)
    · exact Except.ok.inj hs ▸ .refl

theorem micros_of_wrote {w w' : World} {k : SocketId} {n : ℕ} {result : Except JsError Unit}
    {now : ℚ} (he : ((w.conns k).handlers[n]?.any fun h => h.mayEnd result) = true)
    (hw : w.wrote k n result now = .ok w') : Micros k w w' := by
  unfold wrote at hw
  cases hn : (w.conns k).handlers[n]? with
  | none => simp [hn] at he
  | some h =>
    simp only [hn, Option.any_some] at he hw
    split at hw
    · rename_i doomed hph
      obtain rfl : doomed = false := by simpa [Handler.mayEnd, hph] using he
      refine .head (.finish hn hph) (micros_of_handleMessages hw
        (h := { h with next := h.next + 1, phase := .running }) ?_ rfl rfl rfl)
      rw [conns_finishRequest, conns_updateSocket_self]
      exact (w.conns k).handlers_advance_self hn
    · rename_i doomed e hph
      exact micros_of_abort hn (by simp [Handler.active, hph]) hw
    · rename_i doomed hph
      obtain rfl : doomed = false := by simpa [Handler.mayEnd, hph] using he
      refine .head (.resume hn hph) (micros_of_handleMessages hw
        (h := { h with next := h.next + 1, phase := .running }) ?_ rfl rfl rfl)
      rw [conns_updateSocket_self]
      exact (w.conns k).handlers_advance_self hn
    · rename_i doomed e hph
      exact micros_of_fail hn (by simp [Handler.active, hph]) hw
    · exact Except.ok.inj hw ▸ .refl

theorem conns_closeConnections (w : World) (k : SocketId) :
    w.closeConnections.conns k = if k ∈ w.sockets then (w.conns k).destroy else w.conns k := rfl

theorem closeServer_eq (w : World) (n : ServerId) :
    w.closeServer n = { w with
      servers :=
        if w.servers n = .listening then Function.update w.servers n .closing else w.servers } := by
  unfold closeServer
  split_ifs <;> rfl

theorem close_cases (w : World) (o : RpcServerCloseOptions) :
    (w.server = none ∧ w.close o =
      w.addCloser ⟨none, false, o.graceful, none, false, false, none, .finished (.ok ())⟩) ∨
    ∃ n, w.server = some n ∧
      ((o.graceful = true ∧ w.activeRequests = 0 ∧ w.close o = w.beginDrain n none true) ∨
        (o.graceful = true ∧ w.activeRequests ≠ 0 ∧ w.close o =
          { w.beginDrain n (some (o.timeoutMs.getD 3000)) false with
            drainResolvers := w.drainResolvers ++ [.resolver w.nextCloser] }) ∨
        (o.graceful = false ∧ w.close o = w.beginClose n)) := by
  unfold close
  cases hs : w.server with
  | none => exact Or.inl ⟨rfl, rfl⟩
  | some n =>
    refine Or.inr ⟨n, rfl, ?_⟩
    cases hg : o.graceful with
    | false => exact Or.inr (Or.inr ⟨rfl, by simp⟩)
    | true =>
      by_cases ha : w.activeRequests = 0
      · exact Or.inl ⟨rfl, ha, by simp [ha]⟩
      · exact Or.inr (Or.inl ⟨rfl, ha, by simp [ha]⟩)

/-- What the callback of `server.close` leaves behind. -/
def closedServer (w : World) (c : CloseId) (n : ServerId) : World :=
  { w.updateCloser c fun x => { x with closed := some (closeResult (w.closers c)) } with
    servers :=
      if (w.closers c).running then Function.update w.servers n .closed else w.servers }

theorem closeCallback_eq_ok {w w' : World} {c : CloseId} {n : ServerId}
    (hn : (w.closers c).server = some n) (h : w.closeCallback c = .ok w') :
    w' = w.closedServer c n := by
  unfold closeCallback at h
  unfold closedServer
  cases hrun : (w.closers c).running with
  | true =>
    simp only [closeResult, hrun, hn, if_true] at h
    exact (Except.ok.inj h).symm
  | false =>
    simp only [closeResult, hrun, hn, Bool.false_eq_true, if_false] at h
    split_ifs at h
    exact (Except.ok.inj h).symm

end World
open World

/-- The socket whose data handlers run. -/
def Event.turn : Event → Option SocketId
  | .data k _ _ | .settle k _ _ _ | .wrote k _ _ _ => some k
  | _ => none

/-- The socket that an event concerns. -/
def Event.socket : Event → Option SocketId
  | .data k _ _ | .settle k _ _ _ | .wrote k _ _ _ | .peerEnd k | .finished k | .socketError k _
  | .socketClose k => some k
  | .registerService _ _ | .listen _ | .listening _ | .listenError _ | .connection _ | .close _
  | .drainTimeout _ | .resumeDrain _ | .closeCallback _ | .resumeClose _ => none

theorem Event.socket_of_turn {e : Event} {k : SocketId} (h : e.turn = some k) :
    e.socket = some k := by
  cases e <;> first | exact h | cases h

/-- The answered steps. -/
inductive Answer (w : World) : Event → World → Prop
  | turn {e : Event} {k : SocketId} {w' : World} (socket : e.turn = some k)
      (lt : k < w.nextSocket) (run : Micros k w w') : Answer w e w'
  | registerService (name : String) (implementation : ServiceImplementation) :
      Answer w (.registerService name implementation)
        { w with registry := w.registry.register name implementation }
  | listen (options : RpcServerOptions) : Answer w (.listen options) (w.listen options)
  | listening {n : ServerId} (lt : n < w.nextServer) (starting : w.servers n = .starting) :
      Answer w (.listening n)
        { w with servers := Function.update w.servers n .listening, state := .listening }
  | listenError {n : ServerId} (lt : n < w.nextServer) (starting : w.servers n = .starting) :
      Answer w (.listenError n) { w with servers := Function.update w.servers n .failed }
  | connection {n : ServerId} {codec : RpcCodec} (lt : n < w.nextServer)
      (listening : w.servers n = .listening)
      (new : RpcCodec.new w.options.codecOptions = .ok codec) :
      Answer w (.connection n) { w with
        sockets := w.sockets ++ [w.nextSocket]
        conns := Function.update w.conns w.nextSocket (.new n codec)
        nextSocket := w.nextSocket + 1 }
  | peerEnd {k : SocketId} (lt : k < w.nextSocket) (alive : (w.conns k).destroyed = false) :
      Answer w (.peerEnd k) (w.updateSocket k fun s => { s with ended := true })
  | finished {k : SocketId} (lt : k < w.nextSocket) :
      Answer w (.finished k) (w.updateSocket k fun s => s.destroy)
  | socketClose {k : SocketId} (lt : k < w.nextSocket)
      (destroyed : (w.conns k).destroyed = true)
      (idle : ∀ h ∈ (w.conns k).handlers, h.busy = false) :
      Answer w (.socketClose k) { w.updateSocket k fun s => { s with closed := true } with
        sockets := w.sockets.filter (· ≠ k) }
  | close (options : RpcServerCloseOptions) : Answer w (.close options) (w.close options)
  | drainTimeout {c : CloseId} (lt : c < w.nextCloser) (armed : (w.closers c).timer.isSome) :
      Answer w (.drainTimeout c) (w.drainTimeout c)
  | resumeDrain {c : CloseId} (lt : c < w.nextCloser) (waiting : (w.closers c).phase = .draining)
      (drained : (w.closers c).drained = true) : Answer w (.resumeDrain c) (w.resumeDrain c)
  | closeCallback {c : CloseId} {n : ServerId} (lt : c < w.nextCloser)
      (server : (w.closers c).server = some n) (unclosed : (w.closers c).closed = none)
      (gone : (w.closers c).running = true → w.Unconnected n) :
      Answer w (.closeCallback c) (w.closedServer c n)
  | resumeClose {c : CloseId} (lt : c < w.nextCloser) (waiting : (w.closers c).phase = .closing)
      (closed : (w.closers c).closed.isSome) : Answer w (.resumeClose c) (w.resumeClose c)

theorem answer_of_step {w w' : World} {e : Event} (h : machine.Step w e w') : Answer w e w' := by
  obtain ⟨he, ha⟩ := h
  cases e with
  | registerService name implementation =>
    obtain rfl := Except.ok.inj ha
    exact .registerService name implementation
  | listen options =>
    obtain rfl := Except.ok.inj ha
    exact .listen options
  | listening n =>
    obtain rfl := Except.ok.inj ha
    exact .listening he.1 he.2
  | listenError n =>
    obtain rfl := Except.ok.inj ha
    exact .listenError he.1 he.2
  | connection n =>
    obtain ⟨codec, hc, hw⟩ := Except.bind_eq_ok_iff.mp ha
    obtain rfl := Except.ok.inj hw
    exact .connection he.1 he.2 hc
  | data k chunk now => exact .turn rfl he.1 (micros_of_handleData he.2.1 ha)
  | settle k n returned now => exact .turn rfl he.1 (micros_of_settle ha)
  | wrote k n result now => exact .turn rfl he.1 (micros_of_wrote he.2 ha)
  | peerEnd k =>
    obtain rfl := Except.ok.inj ha
    exact .peerEnd he.1 he.2.1
  | finished k =>
    obtain rfl := Except.ok.inj ha
    exact .finished he.1
  | socketError k error => cases ha
  | socketClose k =>
    obtain rfl := Except.ok.inj ha
    refine .socketClose he.1 he.2.1 fun h hh => ?_
    simpa using List.all_eq_true.mp he.2.2.2 h hh
  | close options =>
    obtain rfl := Except.ok.inj ha
    exact .close options
  | drainTimeout c =>
    obtain rfl := Except.ok.inj ha
    exact .drainTimeout he.1 he.2
  | resumeDrain c =>
    obtain rfl := Except.ok.inj ha
    obtain ⟨hlt, hp, hd⟩ := he
    refine .resumeDrain hlt ?_ hd
    unfold Closer.awaitsDrain at hp
    split at hp
    · assumption
    · cases hp
  | closeCallback c =>
    obtain ⟨hlt, hc, n, hn, hg⟩ := he
    obtain rfl := closeCallback_eq_ok hn ha
    exact .closeCallback hlt hn (Option.isNone_iff_eq_none.mp hc) hg
  | resumeClose c =>
    obtain rfl := Except.ok.inj ha
    obtain ⟨hlt, hp, hc⟩ := he
    refine .resumeClose hlt ?_ hc
    unfold Closer.awaitsClose at hp
    split at hp
    · assumption
    · cases hp

theorem World.conns_close (w : World) (o : RpcServerCloseOptions) (k : SocketId) :
    (w.close o).conns k = w.conns k ∨ (w.close o).conns k = (w.conns k).destroy := by
  rcases close_cases w o with ⟨-, he⟩ | ⟨n, -, ⟨-, -, he⟩ | ⟨-, -, he⟩ | ⟨-, he⟩⟩ <;> rw [he]
  · exact Or.inl rfl
  · exact Or.inl (by rw [beginDrain, closeServer_eq]; rfl)
  · exact Or.inl (by rw [beginDrain, closeServer_eq]; rfl)
  · rw [beginClose, closeServer_eq]
    change (closeConnections _).conns k = _ ∨ (closeConnections _).conns k = _
    rw [conns_closeConnections]
    split_ifs
    · exact Or.inr rfl
    · exact Or.inl rfl

/-- What a `close` does and leaves alone in each of its branches. -/
structure World.ClosesTo (w v : World) : Prop where
  server : v.server = none
  options : v.options = w.options
  nextServer : v.nextServer = w.nextServer
  nextSocket : v.nextSocket = w.nextSocket
  activeRequests : v.activeRequests = w.activeRequests

theorem World.close_closesTo (w : World) (o : RpcServerCloseOptions) : w.ClosesTo (w.close o) := by
  rcases close_cases w o with ⟨hs, he⟩ | ⟨n, -, ⟨-, -, he⟩ | ⟨-, -, he⟩ | ⟨-, he⟩⟩ <;> rw [he]
  · exact ⟨hs, rfl, rfl, rfl, rfl⟩
  · rw [beginDrain, closeServer_eq]
    exact ⟨rfl, rfl, rfl, rfl, rfl⟩
  · rw [beginDrain, closeServer_eq]
    exact ⟨rfl, rfl, rfl, rfl, rfl⟩
  · rw [beginClose, closeServer_eq]
    exact ⟨rfl, rfl, rfl, rfl, rfl⟩

theorem World.nextSocket_close (w : World) (o : RpcServerCloseOptions) :
    (w.close o).nextSocket = w.nextSocket := (w.close_closesTo o).nextSocket

/-- Only flags of the socket have changed, and a destroyed socket stays destroyed. -/
def ServerSocket.Flagged (s s' : ServerSocket) : Prop :=
  ∃ ended destroyed closed, (s.destroyed = true → destroyed = true) ∧
    s' = { s with ended := ended, destroyed := destroyed, closed := closed }

theorem ServerSocket.Flagged.refl (s : ServerSocket) : s.Flagged s := ⟨_, _, _, id, rfl⟩

theorem ServerSocket.Flagged.destroy (s : ServerSocket) : s.Flagged s.destroy :=
  ⟨_, _, _, fun _ => rfl, rfl⟩

theorem Answer.conn {w w' : World} {e : Event} (h : Answer w e w') (k : SocketId) :
    (e.turn = some k ∧ Micros k w w') ∨ (w.conns k).Flagged (w'.conns k) ∨
      (k = w.nextSocket ∧ ∃ n codec, n < w.nextServer ∧
        RpcCodec.new w.options.codecOptions = .ok codec ∧ w'.conns k = .new n codec) := by
  have hupdate : ∀ k₀ (f : ServerSocket → ServerSocket), (∀ s : ServerSocket, s.Flagged (f s)) →
      (w.conns k).Flagged ((w.updateSocket k₀ f).conns k) := by
    intro k₀ f hf
    rw [conns_updateSocket]
    split_ifs with hk
    · exact hk ▸ hf _
    · exact .refl _
  have hclose : (w.conns k).Flagged (w.closeConnections.conns k) := by
    rw [conns_closeConnections]
    split_ifs
    · exact .destroy _
    · exact .refl _
  cases h with
  | @turn _ k₀ _ ht _ hrun =>
    by_cases hk : k = k₀
    · exact Or.inl ⟨hk ▸ ht, hk ▸ hrun⟩
    · rw [hrun.conns_ne hk]
      exact Or.inr (Or.inl (.refl _))
  | @connection n codec hlt _ hc =>
    refine Or.inr ?_
    simp only [Function.update_apply]
    split_ifs with hk
    · exact Or.inr ⟨hk, n, codec, hlt, hc, rfl⟩
    · exact Or.inl (.refl _)
  | peerEnd => exact Or.inr (Or.inl (hupdate _ _ fun _ => ⟨_, _, _, id, rfl⟩))
  | finished => exact Or.inr (Or.inl (hupdate _ _ .destroy))
  | @socketClose k₀ =>
    exact Or.inr (Or.inl (hupdate k₀ (fun s => { s with closed := true })
      fun _ => ⟨_, _, _, id, rfl⟩))
  | close o =>
    rcases World.conns_close w o k with he | he <;> rw [he]
    · exact Or.inr (Or.inl (.refl _))
    · exact Or.inr (Or.inl (.destroy _))
  | resumeDrain => exact Or.inr (Or.inl hclose)
  | @resumeClose c =>
    have hc : (w.resumeClose c).conns = w.conns := by
      unfold World.resumeClose
      split <;> rfl
    rw [hc]
    exact Or.inr (Or.inl (.refl _))
  | _ => exact Or.inr (Or.inl (.refl _))

theorem Answer.nextSocket {w w' : World} {e : Event} (h : Answer w e w') :
    w'.nextSocket = w.nextSocket ∨ (w'.nextSocket = w.nextSocket + 1 ∧
      ∃ n codec, n < w.nextServer ∧ RpcCodec.new w.options.codecOptions = .ok codec ∧
        w'.conns w.nextSocket = .new n codec) := by
  cases h with
  | turn _ _ hrun => exact Or.inl hrun.same.nextSocket
  | @connection n codec hlt _ hc =>
    exact Or.inr ⟨rfl, n, codec, hlt, hc, Function.update_self _ _ _⟩
  | close o => exact Or.inl (World.nextSocket_close w o)
  | @resumeClose c =>
    unfold World.resumeClose
    split <;> exact Or.inl rfl
  | _ => exact Or.inl rfl

theorem Answer.options {w w' : World} {e : Event} (h : Answer w e w') :
    (w'.options = w.options ∧ w'.nextServer = w.nextServer) ∨
      ∃ options, e = .listen options ∧ w'.options = options := by
  cases h with
  | turn _ _ hrun => exact Or.inl ⟨hrun.same.options, hrun.same.nextServer⟩
  | listen options => exact Or.inr ⟨options, rfl, rfl⟩
  | close o =>
    have hclose := w.close_closesTo o
    exact Or.inl ⟨hclose.options, hclose.nextServer⟩
  | @resumeClose c =>
    left
    unfold World.resumeClose
    split <;> exact ⟨rfl, rfl⟩
  | _ => exact Or.inl ⟨rfl, rfl⟩

/-- What every new socket has, and every step of a handler and every change of a
socket's flags keep, all sockets have. -/
theorem Answer.conns {Q : ServerSocket → Prop}
    (new : ∀ n codec, codec.queue = .empty → Q (.new n codec))
    (micro : ∀ k w w', Q (w.conns k) → Micro k w w' → Q (w'.conns k))
    (flags : ∀ s ended destroyed closed, (s.destroyed = true → destroyed = true) → Q s →
      Q { s with ended := ended, destroyed := destroyed, closed := closed })
    {w w' : World} {e : Event} (h : Answer w e w') (hw : ∀ k < w.nextSocket, Q (w.conns k)) :
    ∀ k < w'.nextSocket, Q (w'.conns k) := by
  intro k hk
  by_cases hlt : k < w.nextSocket
  · rcases h.conn k with ⟨-, hrun⟩ | ⟨ended, destroyed, closed, hd, he⟩ | ⟨rfl, -⟩
    · exact hrun.invariant (I := fun v => Q (v.conns k)) (fun _ _ hm hq => micro k _ _ hq hm)
        (hw k hlt)
    · rw [he]
      exact flags _ ended destroyed closed hd (hw k hlt)
    · exact absurd hlt (Nat.lt_irrefl _)
  · rcases h.nextSocket with hn | ⟨hn, n, codec, -, hc, he⟩
    · exact absurd (hn ▸ hk) hlt
    · rw [hn] at hk
      obtain rfl : k = w.nextSocket :=
        Nat.le_antisymm (Nat.le_of_lt_succ hk) (Nat.not_lt.mp hlt)
      rw [he]
      exact new n codec (RpcCodec.queue_new hc)

/-- An invariant of the single sockets holds in every reachable state. -/
theorem Reachable.conns {Q : ServerSocket → Prop}
    (new : ∀ n codec, codec.queue = .empty → Q (.new n codec))
    (micro : ∀ k w w', Q (w.conns k) → Micro k w w' → Q (w'.conns k))
    (flags : ∀ s ended destroyed closed, (s.destroyed = true → destroyed = true) → Q s →
      Q { s with ended := ended, destroyed := destroyed, closed := closed })
    {w : World} (h : Reachable w) : ∀ k < w.nextSocket, Q (w.conns k) := by
  obtain ⟨serializer, hr⟩ := h
  refine hr.invariant (I := fun v => ∀ k < v.nextSocket, Q (v.conns k))
    (fun _ _ _ hi hs => (answer_of_step hs).conns new micro flags hi) ?_
  intro k hk
  exact absurd hk (Nat.not_lt_zero k)

end WeisleyRpc.Server
