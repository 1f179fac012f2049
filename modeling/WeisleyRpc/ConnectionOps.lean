import WeisleyRpc.Connection

/-!
# What the operations of a connection do to its state

Closed forms of the operations that clean up, and one inversion lemma for each
operation that branches.
-/

namespace WeisleyRpc.Client
/-- A response to the request with this id. -/
def Responds (m : JsValue) (id : String) : Prop :=
  m.prop "type" = .string "response" ∧ m.prop "id" = .string id

namespace World

theorem stopHeartbeat_eq (w : World) :
    w.stopHeartbeat = { w with
      heartbeatTimer := none
      timers := w.timers.deleteAll w.heartbeatTimer.toList } := by
  unfold stopHeartbeat
  cases h : w.heartbeatTimer with
  | none =>
    change w = _
    rw [Option.toList_none, OrderedMap.deleteAll_nil, ← h]
  | some t => rfl

theorem cancelReconnect_eq (w : World) :
    w.cancelReconnect = { w with
      reconnectTimer := none
      timers := w.timers.deleteAll w.reconnectTimer.toList } := by
  unfold cancelReconnect
  cases h : w.reconnectTimer with
  | none =>
    change w = _
    rw [Option.toList_none, OrderedMap.deleteAll_nil, ← h]
  | some t => rfl

section Fields
variable (w : World) (tasks : List Microtask) (s : SocketId) (f : Socket → Socket)

@[simp] theorem sockets_enqueue : (w.enqueue tasks).sockets = w.sockets := rfl
@[simp] theorem nextSocket_enqueue : (w.enqueue tasks).nextSocket = w.nextSocket := rfl
@[simp] theorem socket_enqueue : (w.enqueue tasks).socket = w.socket := rfl
@[simp] theorem connectionPromise_enqueue :
    (w.enqueue tasks).connectionPromise = w.connectionPromise := rfl
@[simp] theorem microtasks_enqueue :
    (w.enqueue tasks).microtasks = w.microtasks ++ tasks := rfl

@[simp] theorem nextSocket_updateSocket : (w.updateSocket s f).nextSocket = w.nextSocket := rfl
@[simp] theorem socket_updateSocket : (w.updateSocket s f).socket = w.socket := rfl
@[simp] theorem connectionPromise_updateSocket :
    (w.updateSocket s f).connectionPromise = w.connectionPromise := rfl
@[simp] theorem microtasks_updateSocket : (w.updateSocket s f).microtasks = w.microtasks := rfl

theorem sockets_updateSocket (s' : SocketId) :
    (w.updateSocket s f).sockets s' = if s' = s then f (w.sockets s) else w.sockets s' := by
  simp only [updateSocket, Function.update_apply]

theorem updateSocket_field {α : Type} {f : Socket → Socket} (s' : SocketId) (g : Socket → α)
    (hf : ∀ k, g (f k) = g k) : g ((w.updateSocket s f).sockets s') = g (w.sockets s') := by
  rw [sockets_updateSocket]
  split_ifs with h
  · rw [hf, h]
  · rfl

end Fields

/-- The settlements that `rejectAll` makes. -/
def rejections (entries : List (String × PendingRequest)) (error : JsError) : List Settlement :=
  entries.map fun e => ⟨e.2.call, .error error, .disconnect⟩

theorem foldl_rejectOne (error : JsError) (entries : List (String × PendingRequest)) (w : World) :
    entries.foldl (rejectOne error) w = { w with
      pending := w.pending.deleteAll (entries.map Prod.fst)
      timers := w.timers.deleteAll (entries.map fun e => e.2.timer)
      settled := w.settled ++ rejections entries error } := by
  induction entries generalizing w with
  | nil => simp [rejections]
  | cons e entries ih =>
    rw [List.foldl_cons, ih]
    simp [rejectOne, clearTimer, settle, rejections, OrderedMap.deleteAll_cons]

theorem rejectAll_eq (w : World) (error : JsError) :
    w.rejectAll error = { w with
      pending := .empty
      timers := w.timers.deleteAll (w.pending.entries.map fun e => e.2.timer)
      settled := w.settled ++ rejections w.pending.entries error } := by
  rw [rejectAll, foldl_rejectOne, OrderedMap.deleteAll_keys]

/-- The timers that a disconnect clears. -/
def droppedTimers (w : World) : List TimerId :=
  w.heartbeatTimer.toList ++ w.pending.entries.map fun e => e.2.timer

/-- Heartbeat stopped and every pending call rejected. -/
def dropped (w : World) (error : JsError) : World :=
  { w with
    heartbeatTimer := none
    pending := .empty
    timers := w.timers.deleteAll w.droppedTimers
    settled := w.settled ++ rejections w.pending.entries error }

theorem rejectAll_stopHeartbeat (w : World) (error : JsError) :
    w.stopHeartbeat.rejectAll error = w.dropped error := by
  rw [rejectAll_eq, stopHeartbeat_eq]
  simp [dropped, droppedTimers, OrderedMap.deleteAll_append]

theorem handleUnexpectedDisconnect_eq (o : RpcConnectionOptions) (w : World) (error : JsError) :
    handleUnexpectedDisconnect o w error =
      if w.manuallyClosed then w.dropped error
      else scheduleReconnect o { w.dropped error with state := .reconnecting } := by
  simp only [handleUnexpectedDisconnect, rejectAll_stopHeartbeat]
  rfl

theorem scheduleReconnect_cases (o : RpcConnectionOptions) (w : World) :
    (scheduleReconnect o w = w ∧ (w.reconnectTimer.isSome ∨ o.reconnect = some false)) ∨
    (w.reconnectTimer = none ∧ o.reconnect ≠ some false ∧
      scheduleReconnect o w =
        { w.setTimer (.reconnect (reconnectDelay o w.reconnectAttempts)) with
          reconnectAttempts := w.reconnectAttempts + 1
          reconnectTimer := some w.nextTimer }) := by
  unfold scheduleReconnect
  by_cases h : w.reconnectTimer.isSome
  · exact Or.inl ⟨if_pos h, Or.inl h⟩
  · by_cases ho : o.reconnect = some false
    · exact Or.inl ⟨by rw [if_neg h, if_pos ho], Or.inr ho⟩
    · exact Or.inr ⟨by simpa using h, ho, by rw [if_neg h, if_neg ho]⟩

/-- A disconnect empties the pending table and rejects what was in it. -/
theorem handleUnexpectedDisconnect_tables (o : RpcConnectionOptions) (w : World) (error : JsError) :
    (handleUnexpectedDisconnect o w error).pending = .empty ∧
      (handleUnexpectedDisconnect o w error).settled =
        w.settled ++ rejections w.pending.entries error := by
  rw [handleUnexpectedDisconnect_eq]
  split_ifs
  · exact ⟨rfl, rfl⟩
  · rcases scheduleReconnect_cases o { w.dropped error with state := .reconnecting } with
      ⟨he, -⟩ | ⟨-, -, he⟩ <;> rw [he] <;> exact ⟨rfl, rfl⟩

theorem startHeartbeat_cases (o : RpcConnectionOptions) (w : World) (now : ℚ) :
    startHeartbeat o w now = w ∨
      startHeartbeat o w now = { w.setTimer (.heartbeat w.socket) with
        lastPongAt := now
        heartbeatTimer := some w.nextTimer } := by
  unfold startHeartbeat
  cases o.heartbeatIntervalMs with
  | none => exact Or.inl rfl
  | some intervalMs =>
    by_cases h : intervalMs = 0
    · exact Or.inl (if_pos h)
    · exact Or.inr (if_neg h)

theorem liveSocket_eq_some_iff {w : World} {s : SocketId} :
    w.liveSocket = some s ↔ w.socket = some s ∧ (w.sockets s).destroyed = false := by
  simp [liveSocket, Option.filter_eq_some_iff]

/-- A send that is accepted. -/
def sent (w : World) (s : SocketId) (id : String) (payload : Buffer) : World :=
  { (w.setTimer (.callTimeout id w.nextCall)).write s payload with
    pending := w.pending.set id ⟨w.nextCall, w.nextTimer⟩
    nextCall := w.nextCall + 1
    accepted := w.accepted ++ [⟨w.nextCall, id, s⟩] }

theorem send_cases (w : World) (id : String) (payload : Buffer) :
    (∃ e, w.send id payload = { w with refused := w.refused ++ [(id, e)] }) ∨
      ∃ s, w.liveSocket = some s ∧ w.state = .connected ∧ w.send id payload = w.sent s id payload := by
  unfold send
  cases hs : w.liveSocket with
  | none => exact Or.inl ⟨_, rfl⟩
  | some s =>
    by_cases h : w.state = .connected
    · exact Or.inr ⟨s, rfl, h, by simp only [h, ne_eq, not_true_eq_false, if_false]; rfl⟩
    · exact Or.inl ⟨_, if_pos h⟩

theorem pendingOf_eq_some_iff {w : World} {message : JsValue} {id : String} {p : PendingRequest} :
    w.pendingOf message = some (id, p) ↔
      message.prop "id" = .string id ∧ w.pending.get id = some p := by
  unfold pendingOf
  cases h : message.prop "id" with
  | string id' =>
    simp only [Option.map_eq_some_iff, Prod.mk.injEq, JsValue.string.injEq]
    constructor
    · rintro ⟨p', hp, rfl, rfl⟩
      exact ⟨rfl, hp⟩
    · rintro ⟨rfl, hp⟩
      exact ⟨p, hp, rfl, rfl⟩
  | _ => simp

/-- A call that got its response. -/
def answered (w : World) (id : String) (p : PendingRequest) (outcome : Except JsError JsValue)
    (message : JsValue) : World :=
  { (w.clearTimer p.timer).settle p.call outcome (.response message) with
    pending := w.pending.delete id }

theorem handleResponse_cases {w w' : World} {message : JsValue}
    (h : w.handleResponse message = .ok w') :
    (w.pendingOf message = none ∧ w' = w) ∨
      ∃ id p outcome, w.pendingOf message = some (id, p) ∧
        responseOutcome message = .ok outcome ∧ w' = w.answered id p outcome message := by
  unfold handleResponse at h
  cases hp : w.pendingOf message with
  | none => exact Or.inl ⟨rfl, by simpa [hp, eq_comm] using h⟩
  | some entry =>
    obtain ⟨id, p⟩ := entry
    simp only [hp, Except.bind_eq_ok_iff] at h
    obtain ⟨outcome, ho, hw⟩ := h
    exact Or.inr ⟨id, p, outcome, rfl, ho, (Except.ok.inj hw).symm⟩

@[simp] theorem pending_note (w : World) (s : SocketId) (messages : List JsValue) :
    (w.note s messages).pending = w.pending := rfl

@[simp] theorem pendingOf_note (w : World) (s : SocketId) (messages : List JsValue)
    (message : JsValue) : (w.note s messages).pendingOf message = w.pendingOf message := rfl

theorem handleMessage_cases {w w' : World} {s : SocketId} {message : JsValue} {now : ℚ}
    (h : handleMessage s now w message = .ok w') :
    ((message.prop "type" = .string "response" → w.pendingOf message = none) ∧
      ∃ lastPongAt, w' = { w.note s [message] with lastPongAt := lastPongAt }) ∨
      ∃ id p outcome, message.prop "type" = .string "response" ∧
        w.pendingOf message = some (id, p) ∧ responseOutcome message = .ok outcome ∧
        w' = (w.note s [message]).answered id p outcome message := by
  unfold handleMessage at h
  split_ifs at h with hr hp
  · rcases handleResponse_cases h with ⟨hn, rfl⟩ | ⟨id, p, outcome, hpo, ho, hw⟩
    · exact Or.inl ⟨fun _ => hn, w.lastPongAt, rfl⟩
    · exact Or.inr ⟨id, p, outcome, hr, hpo, ho, hw⟩
  · exact Or.inl ⟨fun hr' => absurd hr' hr, now, (Except.ok.inj h).symm⟩
  · exact Or.inl ⟨fun hr' => absurd hr' hr, w.lastPongAt, (Except.ok.inj h).symm⟩

theorem handleData_eq_ok {w w' : World} {s : SocketId} {chunk : Buffer} {now : ℚ}
    (h : w.handleData s chunk now = .ok w') :
    ∃ messages, (w.codec.push chunk).1 = .ok messages ∧
      messages.foldlM (handleMessage s now) { w with codec := (w.codec.push chunk).2 } = .ok w' := by
  unfold handleData at h
  cases hp : (w.codec.push chunk).1 with
  | error e => simp [hp] at h
  | ok messages => exact ⟨messages, rfl, by simpa [hp] using h⟩

theorem heartbeatTick_cases {o : RpcConnectionOptions} {w w' : World} {now : ℚ} {uuid : String}
    (h : heartbeatTick o w now uuid = .ok w') :
    (w.liveSocket = none ∧ w' = w.stopHeartbeat) ∨
      ∃ s, w.liveSocket = some s ∧
        ((heartbeatExpired o w now ∧ ∃ error, w' =
            (handleUnexpectedDisconnect o w error).updateSocket s
              fun k => { k with destroyed := true }) ∨
          (¬ heartbeatExpired o w now ∧ ∃ packet,
            w.codec.encode (pingMessage (.string uuid) now) = .ok packet ∧ w' = w.write s packet)) := by
  unfold heartbeatTick at h
  cases hs : w.liveSocket with
  | none =>
    simp only [hs] at h
    exact Or.inl ⟨rfl, (Except.ok.inj h).symm⟩
  | some s =>
    simp only [hs] at h
    refine Or.inr ⟨s, rfl, ?_⟩
    split_ifs at h with ht
    · exact Or.inl ⟨ht, _, (Except.ok.inj h).symm⟩
    · obtain ⟨packet, hp, hw⟩ := Except.bind_eq_ok_iff.mp h
      exact Or.inr ⟨ht, packet, hp, (Except.ok.inj hw).symm⟩

theorem connect_cases (w : World) (caller : Caller) :
    (w.state = .connected ∧ w.liveSocket.isSome ∧
      w.connect caller = w.enqueue [.resumeCaller caller (.ok ())]) ∨
    (¬ (w.state = .connected ∧ w.liveSocket.isSome) ∧
      ((∃ s, w.connectionPromise = some s ∧ w.connect caller = w.join s caller) ∨
        (w.connectionPromise = none ∧
          w.connect caller = { w.doConnect caller with
            connectionPromise := some w.nextSocket }))) := by
  unfold connect
  by_cases h : w.state = .connected ∧ w.liveSocket.isSome
  · exact Or.inl ⟨h.1, h.2, if_pos h⟩
  · refine Or.inr ⟨h, ?_⟩
    rw [if_neg h]
    cases hp : w.connectionPromise with
    | none => exact Or.inr ⟨rfl, rfl⟩
    | some s => exact Or.inl ⟨s, rfl, rfl⟩

theorem join_cases (w : World) (s : SocketId) (caller : Caller) :
    (∃ result, (w.sockets s).attempt = .settled result ∧
      w.join s caller = w.enqueue [.resumeJoined caller result]) ∨
    ((∀ result, (w.sockets s).attempt ≠ .settled result) ∧
      w.join s caller = w.updateSocket s fun k => { k with joined := k.joined ++ [caller] }) := by
  unfold join
  cases h : (w.sockets s).attempt with
  | settled result => exact Or.inl ⟨result, rfl, rfl⟩
  | _ => exact Or.inr ⟨by simp, rfl⟩

theorem resumeAttempt_cases (w : World) (s : SocketId) (result : Result) :
    ((w.sockets s).attempt = .awaiting ∧
      w.resumeAttempt s result =
        (w.updateSocket s fun k => { k with attempt := .resuming }).enqueue
          [.resumeDoConnect s result]) ∨
    ((w.sockets s).attempt ≠ .awaiting ∧ w.resumeAttempt s result = w) := by
  unfold resumeAttempt
  cases h : (w.sockets s).attempt with
  | awaiting => exact Or.inl ⟨rfl, rfl⟩
  | _ => exact Or.inr ⟨by simp, rfl⟩

/-- Two states that agree on timers and calls. -/
structure SameTables (w v : World) : Prop where
  timers : v.timers = w.timers
  nextTimer : v.nextTimer = w.nextTimer
  heartbeatTimer : v.heartbeatTimer = w.heartbeatTimer
  reconnectTimer : v.reconnectTimer = w.reconnectTimer
  pending : v.pending = w.pending
  nextCall : v.nextCall = w.nextCall
  accepted : v.accepted = w.accepted
  settled : v.settled = w.settled

theorem SameTables.refl (w : World) : SameTables w w := ⟨rfl, rfl, rfl, rfl, rfl, rfl, rfl, rfl⟩

theorem sameTables_write (w : World) (s : SocketId) (payload : Buffer) :
    SameTables w (w.write s payload) := by
  unfold write
  split_ifs
  · exact .refl w
  · exact ⟨rfl, rfl, rfl, rfl, rfl, rfl, rfl, rfl⟩

theorem sameTables_connect (w : World) (caller : Caller) : SameTables w (w.connect caller) := by
  rcases connect_cases w caller with ⟨-, -, he⟩ | ⟨-, ⟨s, -, he⟩ | ⟨-, he⟩⟩
  · rw [he]
    exact ⟨rfl, rfl, rfl, rfl, rfl, rfl, rfl, rfl⟩
  · rw [he]
    rcases join_cases w s caller with ⟨result, -, hj⟩ | ⟨-, hj⟩ <;> rw [hj] <;>
      exact ⟨rfl, rfl, rfl, rfl, rfl, rfl, rfl, rfl⟩
  · rw [he]
    exact ⟨rfl, rfl, rfl, rfl, rfl, rfl, rfl, rfl⟩

theorem sameTables_resumeAttempt (w : World) (s : SocketId) (result : Result) :
    SameTables w (w.resumeAttempt s result) := by
  rcases resumeAttempt_cases w s result with ⟨-, he⟩ | ⟨-, he⟩ <;> rw [he]
  · exact ⟨rfl, rfl, rfl, rfl, rfl, rfl, rfl, rfl⟩
  · exact .refl w

/-- A microtask leaves the tables alone, or starts a heartbeat, or schedules a reconnect. -/
theorem runMicrotask_tables (o : RpcConnectionOptions) (w : World) (now : ℚ) (task : Microtask) :
    SameTables w (runMicrotask o w now task) ∨
      (∃ v, SameTables w v ∧
        SameTables (startHeartbeat o v now) (runMicrotask o w now task)) ∨
      ∃ v, SameTables w v ∧ runMicrotask o w now task = scheduleReconnect o v := by
  cases task with
  | resumeDoConnect s result =>
    cases result with
    | ok u =>
      exact Or.inr (Or.inl ⟨{ w with state := .connected, reconnectAttempts := 0 },
        ⟨rfl, rfl, rfl, rfl, rfl, rfl, rfl, rfl⟩, ⟨rfl, rfl, rfl, rfl, rfl, rfl, rfl, rfl⟩⟩)
    | error e => exact Or.inl ⟨rfl, rfl, rfl, rfl, rfl, rfl, rfl, rfl⟩
  | resumeConnect caller result => exact Or.inl ⟨rfl, rfl, rfl, rfl, rfl, rfl, rfl, rfl⟩
  | resumeJoined caller result => exact Or.inl ⟨rfl, rfl, rfl, rfl, rfl, rfl, rfl, rfl⟩
  | resumeCaller caller result =>
    cases caller with
    | user n => exact Or.inl ⟨rfl, rfl, rfl, rfl, rfl, rfl, rfl, rfl⟩
    | reconnectTimer =>
      cases result with
      | ok u => exact Or.inl ⟨rfl, rfl, rfl, rfl, rfl, rfl, rfl, rfl⟩
      | error e =>
        exact Or.inr (Or.inr ⟨{ w with state := .reconnecting },
          ⟨rfl, rfl, rfl, rfl, rfl, rfl, rfl, rfl⟩, rfl⟩)

theorem runTimer_cases {o : RpcConnectionOptions} {w w' : World} {t : TimerId} {now : ℚ}
    {uuid : String} {task : TimerTask} (h : runTimer o w t now uuid task = .ok w') :
    (∃ id call, task = .callTimeout id call ∧
      w' = { w.clearTimer t with pending := w.pending.delete id }.settle call
        (.error (rpcTimeoutError o.timeoutMs)) .timeout) ∨
    (∃ delay, task = .reconnect delay ∧
      ((w.manuallyClosed = true ∧ w' = { w.clearTimer t with reconnectTimer := none }) ∨
        (w.manuallyClosed = false ∧
          w' = { w.clearTimer t with reconnectTimer := none }.connect .reconnectTimer))) ∨
    ∃ s, task = .heartbeat s ∧ heartbeatTick o w now uuid = .ok w' := by
  cases task with
  | callTimeout id call => exact Or.inl ⟨id, call, rfl, (Except.ok.inj h).symm⟩
  | reconnect delay =>
    refine Or.inr (Or.inl ⟨delay, rfl, ?_⟩)
    have hw := (Except.ok.inj h).symm
    cases hm : w.manuallyClosed with
    | true =>
      have : (w.clearTimer t).manuallyClosed = true := hm
      exact Or.inl ⟨rfl, by simpa [this] using hw⟩
    | false =>
      have : (w.clearTimer t).manuallyClosed = false := hm
      exact Or.inr ⟨rfl, by simpa [this] using hw⟩
  | heartbeat s => exact Or.inr (Or.inr ⟨s, rfl, h⟩)

theorem close_eq (w : World) :
    w.close = ({ w with manuallyClosed := true, state := .closed }.cancelReconnect.dropped
      connectionClosed).endSocket := by
  rw [close, rejectAll_stopHeartbeat]

theorem sameTables_endSocket (w : World) : SameTables w w.endSocket := by
  unfold endSocket
  split
  · exact .refl w
  · exact ⟨rfl, rfl, rfl, rfl, rfl, rfl, rfl, rfl⟩

/-- Two states that agree on sockets, codec and suspended functions. -/
structure SameSockets (w v : World) : Prop where
  sockets : v.sockets = w.sockets
  nextSocket : v.nextSocket = w.nextSocket
  socket : v.socket = w.socket
  connectionPromise : v.connectionPromise = w.connectionPromise
  manuallyClosed : v.manuallyClosed = w.manuallyClosed
  microtasks : v.microtasks = w.microtasks
  codec : v.codec = w.codec
  lastData : v.lastData = w.lastData

theorem SameSockets.refl (w : World) : SameSockets w w := ⟨rfl, rfl, rfl, rfl, rfl, rfl, rfl, rfl⟩

theorem SameSockets.trans {u v w : World} (h : SameSockets u v) (h' : SameSockets v w) :
    SameSockets u w :=
  ⟨h'.sockets.trans h.sockets, h'.nextSocket.trans h.nextSocket, h'.socket.trans h.socket,
    h'.connectionPromise.trans h.connectionPromise, h'.manuallyClosed.trans h.manuallyClosed,
    h'.microtasks.trans h.microtasks, h'.codec.trans h.codec, h'.lastData.trans h.lastData⟩

theorem SameSockets.symm {w v : World} (h : SameSockets w v) : SameSockets v w :=
  ⟨h.sockets.symm, h.nextSocket.symm, h.socket.symm, h.connectionPromise.symm,
    h.manuallyClosed.symm, h.microtasks.symm, h.codec.symm, h.lastData.symm⟩

theorem sameSockets_scheduleReconnect (o : RpcConnectionOptions) (w : World) :
    SameSockets w (scheduleReconnect o w) := by
  rcases scheduleReconnect_cases o w with ⟨he, -⟩ | ⟨-, -, he⟩ <;> rw [he]
  · exact .refl w
  · exact ⟨rfl, rfl, rfl, rfl, rfl, rfl, rfl, rfl⟩

theorem sameSockets_stopHeartbeat (w : World) : SameSockets w w.stopHeartbeat := by
  rw [stopHeartbeat_eq]
  exact ⟨rfl, rfl, rfl, rfl, rfl, rfl, rfl, rfl⟩

theorem sameSockets_handleUnexpectedDisconnect (o : RpcConnectionOptions) (w : World)
    (error : JsError) : SameSockets w (handleUnexpectedDisconnect o w error) := by
  rw [handleUnexpectedDisconnect_eq]
  split_ifs
  · exact ⟨rfl, rfl, rfl, rfl, rfl, rfl, rfl, rfl⟩
  · have h : SameSockets w { w.dropped error with state := .reconnecting } :=
      ⟨rfl, rfl, rfl, rfl, rfl, rfl, rfl, rfl⟩
    exact h.trans (sameSockets_scheduleReconnect o _)

theorem sameSockets_startHeartbeat (o : RpcConnectionOptions) (w : World) (now : ℚ) :
    SameSockets w (startHeartbeat o w now) := by
  rcases startHeartbeat_cases o w now with he | he <;> rw [he]
  · exact .refl w
  · exact ⟨rfl, rfl, rfl, rfl, rfl, rfl, rfl, rfl⟩

theorem sameSockets_handleMessage {w w' : World} {s : SocketId} {message : JsValue} {now : ℚ}
    (h : handleMessage s now w message = .ok w') : SameSockets (w.note s [message]) w' := by
  rcases handleMessage_cases h with ⟨-, at', rfl⟩ | ⟨id, p, outcome, -, -, -, rfl⟩ <;>
    exact ⟨rfl, rfl, rfl, rfl, rfl, rfl, rfl, rfl⟩

theorem SameSockets.note {w v : World} (h : SameSockets w v) (s : SocketId)
    (messages : List JsValue) : SameSockets (w.note s messages) (v.note s messages) := by
  obtain ⟨hs, hn, hsocket, hp, hm, htasks, hc, hl⟩ := h
  refine ⟨?_, hn, hsocket, hp, hm, htasks, hc, hl⟩
  simp only [World.note, updateSocket, hs]

theorem sameSockets_note_nil (w : World) (s : SocketId) : SameSockets w (w.note s []) := by
  refine ⟨?_, rfl, rfl, rfl, rfl, rfl, rfl, rfl⟩
  simp only [World.note, updateSocket, List.append_nil, Function.update_eq_self]

theorem note_note (w : World) (s : SocketId) (messages messages' : List JsValue) :
    (w.note s messages).note s messages' = w.note s (messages ++ messages') := by
  simp only [note, updateSocket, Function.update_self, Function.update_idem, List.append_assoc]

/-- The loop of a data handler leaves the sockets alone but for its record. -/
theorem sameSockets_handleMessages {w w' : World} {s : SocketId} {messages : List JsValue}
    {now : ℚ} (h : messages.foldlM (handleMessage s now) w = .ok w') :
    SameSockets (w.note s messages) w' := by
  induction messages generalizing w with
  | nil =>
    obtain rfl := Except.ok.inj h
    exact (sameSockets_note_nil w s).symm
  | cons message messages ih =>
    simp only [List.foldlM_cons, Except.bind_eq_ok_iff] at h
    obtain ⟨v, hv, hf⟩ := h
    have hnoted := (sameSockets_handleMessage hv).note s messages
    rw [note_note] at hnoted
    exact hnoted.trans (ih hf)

theorem handled_handleMessages {w w' : World} {s : SocketId} {chunk : Buffer} {now : ℚ}
    {codec : RpcCodec} {messages : List JsValue} (h : messages.foldlM (handleMessage s now)
      { w.receive s chunk with codec := codec } = .ok w') :
    (w'.sockets s).handled = (w.sockets s).handled ++ messages := by
  rw [(sameSockets_handleMessages h).sockets]
  simp [note, receive, updateSocket]

/-- A data event leaves its chunk and its messages on its socket, and what is left of the stream
in the codec. -/
theorem sameSockets_handleData {w w' : World} {s : SocketId} {chunk : Buffer} {now : ℚ}
    (h : (w.receive s chunk).handleData s chunk now = .ok w') :
    ∃ messages, (w.codec.push chunk).1 = .ok messages ∧
      SameSockets { w.updateSocket s fun k => { k with
          received := k.received ++ [chunk], handled := k.handled ++ messages } with
        codec := (w.codec.push chunk).2, lastData := some s } w' := by
  obtain ⟨messages, hp, hf⟩ := handleData_eq_ok h
  obtain ⟨hs, hn, hsocket, hpromise, hm, htasks, hc, hl⟩ := sameSockets_handleMessages hf
  refine ⟨messages, hp, ⟨?_, hn, hsocket, hpromise, hm, htasks, hc, hl⟩⟩
  rw [hs]
  simp only [note, receive, updateSocket, Function.update_self, Function.update_idem]

end World
open World

/-- The answered steps, one constructor for each kind of event. -/
inductive Answer (o : RpcConnectionOptions) (w : World) : Event → World → Prop
  | connect (n : ℕ) : Answer o w (.connect n) (w.connect (.user n))
  | close : Answer o w .close w.close
  | send (id : String) (payload : Buffer) : Answer o w (.send id payload) (w.send id payload)
  | timer {t : TimerId} {now : ℚ} {uuid : String} {task : TimerTask} {w' : World}
      (armed : w.timers.get t = some task) (idle : w.microtasks = [])
      (run : runTimer o w t now uuid task = .ok w') : Answer o w (.timer t now uuid) w'
  | socketConnect {s : SocketId} (lt : s < w.nextSocket) (fresh : (w.sockets s).connected = false)
      (alive : (w.sockets s).destroyed = false) (idle : w.microtasks = []) :
      Answer o w (.socketConnect s)
        ((w.updateSocket s fun k => { k with connected := true }).resumeAttempt s (.ok ()))
  | socketError {s : SocketId} (error : JsError) (lt : s < w.nextSocket)
      (unclosed : (w.sockets s).closed = false) :
      Answer o w (.socketError s error)
        ((handleUnexpectedDisconnect o (w.updateSocket s fun k => { k with destroyed := true })
          error).resumeAttempt s (.error error))
  | socketDestroyed {s : SocketId} (lt : s < w.nextSocket)
      (connected : (w.sockets s).connected = true) :
      Answer o w (.socketDestroyed s) (w.updateSocket s fun k => { k with destroyed := true })
  | socketClose {s : SocketId} (lt : s < w.nextSocket)
      (destroyed : (w.sockets s).destroyed = true) (idle : w.microtasks = []) :
      Answer o w (.socketClose s)
        (handleUnexpectedDisconnect o (w.updateSocket s fun k => { k with closed := true })
          connectionClosed)
  | socketData {s : SocketId} {chunk : Buffer} {now : ℚ} {w' : World} (lt : s < w.nextSocket)
      (connected : (w.sockets s).connected = true) (alive : (w.sockets s).destroyed = false)
      (handled : (w.receive s chunk).handleData s chunk now = .ok w') :
      Answer o w (.socketData s chunk now) w'
  | microtask {now : ℚ} {task : Microtask} {tasks : List Microtask}
      (queued : w.microtasks = task :: tasks) :
      Answer o w (.microtask now) (runMicrotask o { w with microtasks := tasks } now task)

theorem answer_of_step {o : RpcConnectionOptions} {w w' : World} {e : Event}
    (h : (machine o).Step w e w') : Answer o w e w' := by
  obtain ⟨he, ha⟩ := h
  cases e with
  | connect n =>
    obtain rfl := Except.ok.inj ha
    exact .connect n
  | close =>
    obtain rfl := Except.ok.inj ha
    exact .close
  | send id payload =>
    obtain rfl := Except.ok.inj ha
    exact .send id payload
  | timer t now uuid =>
    obtain ⟨hs, hm⟩ := he
    obtain ⟨task, ht⟩ := Option.isSome_iff_exists.mp hs
    simp only [machine, apply, ht] at ha
    exact .timer ht (List.eq_nil_of_length_eq_zero hm) ha
  | socketConnect s =>
    obtain ⟨hl, hc, hd, hm⟩ := he
    obtain rfl := Except.ok.inj ha
    exact .socketConnect hl hc hd (List.eq_nil_of_length_eq_zero hm)
  | socketError s error =>
    obtain rfl := Except.ok.inj ha
    exact .socketError error he.1 he.2
  | socketDestroyed s =>
    obtain rfl := Except.ok.inj ha
    exact .socketDestroyed he.1 he.2.1
  | socketClose s =>
    obtain ⟨hl, hd, -, hm⟩ := he
    obtain rfl := Except.ok.inj ha
    exact .socketClose hl hd (List.eq_nil_of_length_eq_zero hm)
  | socketData s chunk now => exact .socketData he.1 he.2.1 he.2.2.1 ha
  | microtask now =>
    cases hm : w.microtasks with
    | nil =>
      have : 0 < w.microtasks.length := he
      simp [hm] at this
    | cons task tasks =>
      simp only [machine, apply, hm] at ha
      obtain rfl := Except.ok.inj ha
      exact .microtask hm

end WeisleyRpc.Client
