import WeisleyRpc.ConnectionInvariant
import WeisleyRpc.ConnectionSockets

/-!
# One step of the reconnect loop

What every step does to the state that `scheduleReconnect`, `handleUnexpectedDisconnect` and the
timer's callback share, and to the attempts and those who await them.
-/

namespace WeisleyRpc.Client

def TimerTask.isHeartbeat : TimerTask → Bool
  | .heartbeat _ => true
  | _ => false

namespace World

/-- Two states that agree on what decides about a reconnect. -/
structure SameLoop (w v : World) : Prop where
  state : v.state = w.state
  manuallyClosed : v.manuallyClosed = w.manuallyClosed
  reconnectTimer : v.reconnectTimer = w.reconnectTimer
  reconnectAttempts : v.reconnectAttempts = w.reconnectAttempts

/-- Two states that agree on the attempts and on those who await them. -/
structure SameCalls (w v : World) : Prop where
  nextSocket : v.nextSocket = w.nextSocket
  connectionPromise : v.connectionPromise = w.connectionPromise
  microtasks : v.microtasks = w.microtasks
  attempt : ∀ s, (v.sockets s).attempt = (w.sockets s).attempt
  starter : ∀ s, (v.sockets s).starter = (w.sockets s).starter
  joined : ∀ s, (v.sockets s).joined = (w.sockets s).joined

variable {o : RpcConnectionOptions} {u v w w' : World}

theorem SameLoop.refl (w : World) : SameLoop w w := ⟨rfl, rfl, rfl, rfl⟩

theorem SameLoop.trans (h : SameLoop u v) (h' : SameLoop v w) : SameLoop u w :=
  ⟨h'.state.trans h.state, h'.manuallyClosed.trans h.manuallyClosed,
    h'.reconnectTimer.trans h.reconnectTimer, h'.reconnectAttempts.trans h.reconnectAttempts⟩

theorem SameCalls.refl (w : World) : SameCalls w w :=
  ⟨rfl, rfl, rfl, fun _ => rfl, fun _ => rfl, fun _ => rfl⟩

theorem SameCalls.trans (h : SameCalls u v) (h' : SameCalls v w) : SameCalls u w :=
  ⟨h'.nextSocket.trans h.nextSocket, h'.connectionPromise.trans h.connectionPromise,
    h'.microtasks.trans h.microtasks, fun s => (h'.attempt s).trans (h.attempt s),
    fun s => (h'.starter s).trans (h.starter s), fun s => (h'.joined s).trans (h.joined s)⟩

theorem SameSockets.calls (h : SameSockets w v) : SameCalls w v :=
  ⟨h.nextSocket, h.connectionPromise, h.microtasks, fun s => by rw [h.sockets],
    fun s => by rw [h.sockets], fun s => by rw [h.sockets]⟩

theorem sameCalls_updateSocket (w : World) (s : SocketId) {f : Socket → Socket}
    (ha : ∀ k, (f k).attempt = k.attempt) (hs : ∀ k, (f k).starter = k.starter)
    (hj : ∀ k, (f k).joined = k.joined) : SameCalls w (w.updateSocket s f) :=
  ⟨rfl, rfl, rfl, fun s' => w.updateSocket_field s s' Socket.attempt ha,
    fun s' => w.updateSocket_field s s' Socket.starter hs,
    fun s' => w.updateSocket_field s s' Socket.joined hj⟩

theorem sameCalls_write (w : World) (s : SocketId) (payload : Buffer) :
    SameCalls w (w.write s payload) := by
  unfold write
  split_ifs
  · exact .refl w
  · exact sameCalls_updateSocket w s (fun _ => rfl) (fun _ => rfl) fun _ => rfl

theorem sameLoop_write (w : World) (s : SocketId) (payload : Buffer) :
    SameLoop w (w.write s payload) := by
  unfold write
  split_ifs
  · exact .refl w
  · exact ⟨rfl, rfl, rfl, rfl⟩

theorem send_same (w : World) (id : String) (payload : Buffer) :
    SameLoop w (w.send id payload) ∧ SameCalls w (w.send id payload) := by
  rcases send_cases w id payload with ⟨e, he⟩ | ⟨s, -, -, he⟩ <;> rw [he]
  · exact ⟨⟨rfl, rfl, rfl, rfl⟩, ⟨rfl, rfl, rfl, fun _ => rfl, fun _ => rfl, fun _ => rfl⟩⟩
  · have hset : SameLoop w (w.setTimer (.callTimeout id w.nextCall)) := ⟨rfl, rfl, rfl, rfl⟩
    have hset' : SameCalls w (w.setTimer (.callTimeout id w.nextCall)) :=
      ⟨rfl, rfl, rfl, fun _ => rfl, fun _ => rfl, fun _ => rfl⟩
    have hloop := hset.trans (sameLoop_write _ s payload)
    have hcalls := hset'.trans (sameCalls_write _ s payload)
    exact ⟨⟨hloop.state, hloop.manuallyClosed, hloop.reconnectTimer, hloop.reconnectAttempts⟩,
      ⟨hcalls.nextSocket, hcalls.connectionPromise, hcalls.microtasks, hcalls.attempt,
        hcalls.starter, hcalls.joined⟩⟩

theorem sameLoop_handleMessage {s : SocketId} {message : JsValue} {now : ℚ}
    (h : handleMessage s now w message = .ok w') : SameLoop w w' := by
  rcases handleMessage_cases h with ⟨-, at', rfl⟩ | ⟨id, p, outcome, -, -, -, rfl⟩ <;>
    exact ⟨rfl, rfl, rfl, rfl⟩

theorem data_same {s : SocketId} {chunk : Buffer} {now : ℚ}
    (h : (w.receive s chunk).handleData s chunk now = .ok w') : SameLoop w w' ∧ SameCalls w w' := by
  obtain ⟨_, -, hfold⟩ := handleData_eq_ok h
  obtain ⟨messages, -, hsame⟩ := sameSockets_handleData h
  have hsocket := sameCalls_updateSocket w s (f := fun k => { k with
    received := k.received ++ [chunk], handled := k.handled ++ messages })
    (fun _ => rfl) (fun _ => rfl) fun _ => rfl
  have hloop : SameLoop { w.receive s chunk with codec := ((w.receive s chunk).codec.push chunk).2 }
      w' :=
    List.foldlM_invariant (I := SameLoop _)
      (fun _ _ _ hi hm => hi.trans (sameLoop_handleMessage hm)) hfold (.refl _)
  have hcalls := hsame.calls
  exact ⟨⟨hloop.state, hloop.manuallyClosed, hloop.reconnectTimer, hloop.reconnectAttempts⟩,
    hsocket.trans ⟨hcalls.nextSocket, hcalls.connectionPromise, hcalls.microtasks, hcalls.attempt,
      hcalls.starter, hcalls.joined⟩⟩

/-- A call of `scheduleReconnect` arms a timer or leaves the loop as it is. -/
inductive Schedules (o : RpcConnectionOptions) (w w' : World) : Prop
  | kept (enough : w.reconnectTimer.isSome ∨ o.reconnect = some false)
      (reconnectTimer : w'.reconnectTimer = w.reconnectTimer)
      (reconnectAttempts : w'.reconnectAttempts = w.reconnectAttempts) : Schedules o w w'
  | armed {t : TimerId} (unarmed : w.reconnectTimer = none) (enabled : o.reconnect ≠ some false)
      (reconnectTimer : w'.reconnectTimer = some t)
      (delay : w'.timers.get t = some (.reconnect (reconnectDelay o w.reconnectAttempts)))
      (reconnectAttempts : w'.reconnectAttempts = w.reconnectAttempts + 1) : Schedules o w w'

theorem schedules_scheduleReconnect (o : RpcConnectionOptions) (w : World) :
    Schedules o w (scheduleReconnect o w) := by
  rcases scheduleReconnect_cases o w with ⟨he, henough⟩ | ⟨hnone, henabled, he⟩ <;> rw [he]
  · exact .kept henough rfl rfl
  · refine .armed hnone henabled rfl ?_ rfl
    simp only [setTimer, OrderedMap.get_set, if_true]

theorem Schedules.congr {v' : World} (h : Schedules o v v')
    (htimer : v.reconnectTimer = w.reconnectTimer)
    (hattempts : v.reconnectAttempts = w.reconnectAttempts) (htimers : w'.timers = v'.timers)
    (htimer' : w'.reconnectTimer = v'.reconnectTimer)
    (hattempts' : w'.reconnectAttempts = v'.reconnectAttempts) : Schedules o w w' := by
  cases h with
  | kept enough reconnectTimer reconnectAttempts =>
    exact .kept (htimer ▸ enough) (htimer'.trans (reconnectTimer.trans htimer))
      (hattempts'.trans (reconnectAttempts.trans hattempts))
  | armed unarmed enabled reconnectTimer delay reconnectAttempts =>
    refine .armed (htimer.symm.trans unarmed) enabled (htimer'.trans reconnectTimer) ?_ ?_
    · rw [htimers, delay, hattempts]
    · rw [hattempts', reconnectAttempts, hattempts]

/-- What `handleUnexpectedDisconnect` does to the loop. -/
inductive Disconnected (o : RpcConnectionOptions) (w w' : World) : Prop
  | ignored (closed : w.manuallyClosed = true) (loop : SameLoop w w') : Disconnected o w w'
  | lost (unclosed : w.manuallyClosed = false) (state : w'.state = .reconnecting)
      (manuallyClosed : w'.manuallyClosed = w.manuallyClosed) (schedules : Schedules o w w') :
      Disconnected o w w'

theorem disconnected_handleUnexpectedDisconnect (o : RpcConnectionOptions) (error : JsError)
    (h : SameLoop w v) : Disconnected o w (handleUnexpectedDisconnect o v error) := by
  rw [handleUnexpectedDisconnect_eq]
  by_cases hclosed : v.manuallyClosed
  · rw [if_pos hclosed]
    exact .ignored (h.manuallyClosed.symm.trans hclosed)
      ⟨h.state, h.manuallyClosed, h.reconnectTimer, h.reconnectAttempts⟩
  · rw [if_neg hclosed]
    refine .lost (h.manuallyClosed.symm.trans (by simpa using hclosed))
      (scheduleReconnect_state o _) ?_ ?_
    · exact (sameSockets_scheduleReconnect o _).manuallyClosed.trans h.manuallyClosed
    · have hschedules := schedules_scheduleReconnect o
        { v.dropped error with state := .reconnecting }
      exact hschedules.congr h.reconnectTimer h.reconnectAttempts rfl rfl rfl

theorem sameCalls_handleUnexpectedDisconnect (o : RpcConnectionOptions) (error : JsError)
    (h : SameCalls w v) : SameCalls w (handleUnexpectedDisconnect o v error) :=
  h.trans (sameSockets_handleUnexpectedDisconnect o v error).calls

theorem sameLoop_resumeAttempt (w : World) (s : SocketId) (result : Result) :
    SameLoop w (w.resumeAttempt s result) := by
  rcases resumeAttempt_cases w s result with ⟨-, he⟩ | ⟨-, he⟩ <;> rw [he]
  · exact ⟨rfl, rfl, rfl, rfl⟩
  · exact .refl w

/-- A manual close. -/
structure Closes (w w' : World) : Prop where
  state : w'.state = .closed
  manuallyClosed : w'.manuallyClosed = true
  reconnectTimer : w'.reconnectTimer = none
  reconnectAttempts : w'.reconnectAttempts = w.reconnectAttempts
  calls : SameCalls w w'

theorem closes_close (w : World) : Closes w w.close := by
  have hclosed : Closes w
      ({ w with manuallyClosed := true, state := .closed }.cancelReconnect.dropped
        connectionClosed) := by
    rw [cancelReconnect_eq]
    exact ⟨rfl, rfl, rfl, rfl, rfl, rfl, rfl, fun _ => rfl, fun _ => rfl, fun _ => rfl⟩
  rw [close_eq]
  unfold endSocket
  split
  · exact hclosed
  · next s hs =>
    exact ⟨hclosed.state, hclosed.manuallyClosed, hclosed.reconnectTimer,
      hclosed.reconnectAttempts,
      hclosed.calls.trans (sameCalls_updateSocket _ s (fun _ => rfl) (fun _ => rfl) fun _ => rfl)⟩

/-- A reconnect timer has fired. -/
structure Fired (w v : World) : Prop where
  state : v.state = w.state
  manuallyClosed : v.manuallyClosed = w.manuallyClosed
  reconnectTimer : v.reconnectTimer = none
  reconnectAttempts : v.reconnectAttempts = w.reconnectAttempts
  socket : v.socket = w.socket
  sockets : v.sockets = w.sockets
  calls : SameCalls w v

/-- The event makes the connection call `handleUnexpectedDisconnect`. -/
def Disconnects (o : RpcConnectionOptions) (w : World) : Event → Prop
  | .socketError _ _ | .socketClose _ => True
  | .timer t now _ => (w.timers.get t).any TimerTask.isHeartbeat ∧ w.liveSocket.isSome ∧
    heartbeatExpired o w now
  | _ => False

instance (o : RpcConnectionOptions) (w : World) (e : Event) : Decidable (w.Disconnects o e) :=
  match e with
  | .socketError _ _ | .socketClose _ => isTrue trivial
  | .timer _ _ _ => inferInstanceAs (Decidable (_ ∧ _))
  | .connect _ | .close | .send _ _ | .socketConnect _ | .socketDestroyed _ | .socketData _ _ _
  | .microtask _ => isFalse id

/-- The event connects nothing and resumes nothing. -/
def Plain (w : World) : Event → Prop
  | .send _ _ | .socketDestroyed _ | .socketData _ _ _ | .socketClose _ => True
  | .timer t _ _ => w.reconnectTimer ≠ some t
  | _ => False

end World

open World

/-- The answered steps, by what they do to the reconnect loop. -/
inductive LoopStep (o : RpcConnectionOptions) (w : World) : Event → World → Prop
  | quiet {e : Event} {w' : World} (plain : w.Plain e) (calm : ¬ w.Disconnects o e)
      (loop : SameLoop w w') (calls : SameCalls w w') : LoopStep o w e w'
  | disconnect {e : Event} {w' : World} (plain : w.Plain e) (disconnects : w.Disconnects o e)
      (effect : Disconnected o w w') (calls : SameCalls w w') : LoopStep o w e w'
  | connect (n : ℕ) : LoopStep o w (.connect n) (w.connect (.user n))
  | close {w' : World} (closes : Closes w w') : LoopStep o w .close w'
  | lapse {t : TimerId} {now : ℚ} {uuid : String} {v : World} (armed : w.reconnectTimer = some t)
      (idle : w.microtasks = []) (closed : w.manuallyClosed = true) (fired : Fired w v) :
      LoopStep o w (.timer t now uuid) v
  | fire {t : TimerId} {now : ℚ} {uuid : String} {v : World} (armed : w.reconnectTimer = some t)
      (idle : w.microtasks = []) (unclosed : w.manuallyClosed = false) (fired : Fired w v) :
      LoopStep o w (.timer t now uuid) (v.connect .reconnectTimer)
  | connected {s : SocketId} {v : World} (lt : s < w.nextSocket) (idle : w.microtasks = [])
      (loop : SameLoop w v) (calls : SameCalls w v) :
      LoopStep o w (.socketConnect s) (v.resumeAttempt s (.ok ()))
  | failed {s : SocketId} {error : JsError} {v : World} (lt : s < w.nextSocket)
      (effect : Disconnected o w v) (calls : SameCalls w v) :
      LoopStep o w (.socketError s error) (v.resumeAttempt s (.error error))
  | microtask {now : ℚ} {task : Microtask} {tasks : List Microtask}
      (queued : w.microtasks = task :: tasks) :
      LoopStep o w (.microtask now) (runMicrotask o { w with microtasks := tasks } now task)

theorem loopStep_timer {o : RpcConnectionOptions} {w w' : World} {t : TimerId} {now : ℚ}
    {uuid : String} {task : TimerTask} (hwf : w.TimersWf) (harmed : w.timers.get t = some task)
    (hidle : w.microtasks = []) (hrun : runTimer o w t now uuid task = .ok w') :
    LoopStep o w (.timer t now uuid) w' := by
  have hfired : Fired w { w.clearTimer t with reconnectTimer := none } :=
    ⟨rfl, rfl, rfl, rfl, rfl, rfl, rfl, rfl, rfl, fun _ => rfl, fun _ => rfl, fun _ => rfl⟩
  rcases runTimer_cases hrun with ⟨id, call, rfl, rfl⟩ | ⟨delay, rfl, hw⟩ | ⟨s, rfl, hb⟩
  · refine .quiet (hwf.call_ne harmed).2 ?_ ⟨rfl, rfl, rfl, rfl⟩
      ⟨rfl, rfl, rfl, fun _ => rfl, fun _ => rfl, fun _ => rfl⟩
    simp [Disconnects, harmed, TimerTask.isHeartbeat]
  · have hcurrent := hwf.reconnect_armed t delay harmed
    rcases hw with ⟨hclosed, rfl⟩ | ⟨hunclosed, rfl⟩
    · exact .lapse hcurrent hidle hclosed hfired
    · exact .fire hcurrent hidle hunclosed hfired
  · have hplain : w.Plain (.timer t now uuid) := by
      intro hcurrent
      obtain ⟨delay, hdelay⟩ := hwf.reconnect t hcurrent
      rw [harmed] at hdelay
      cases hdelay
    rcases heartbeatTick_cases hb with ⟨hnone, rfl⟩ | ⟨k, hlive, hcase⟩
    · refine .quiet hplain ?_ ?_ (sameSockets_stopHeartbeat w).calls
      · simp [Disconnects, harmed, hnone]
      · rw [stopHeartbeat_eq]
        exact ⟨rfl, rfl, rfl, rfl⟩
    · rcases hcase with ⟨hexpired, error, rfl⟩ | ⟨hfresh, packet, -, rfl⟩
      · have hflag := sameCalls_updateSocket (handleUnexpectedDisconnect o w error) k
          (f := fun k => { k with destroyed := true }) (fun _ => rfl) (fun _ => rfl) fun _ => rfl
        refine .disconnect hplain ?_ ?_
          ((sameCalls_handleUnexpectedDisconnect o error (.refl w)).trans hflag)
        · simp [Disconnects, harmed, TimerTask.isHeartbeat, hlive, hexpired]
        · cases disconnected_handleUnexpectedDisconnect o error (SameLoop.refl w) with
          | ignored hclosed hloop =>
            exact .ignored hclosed
              ⟨hloop.state, hloop.manuallyClosed, hloop.reconnectTimer, hloop.reconnectAttempts⟩
          | lost hunclosed hstate hclosed hschedules =>
            exact .lost hunclosed hstate hclosed (hschedules.congr rfl rfl rfl rfl rfl)
      · refine .quiet hplain ?_ (sameLoop_write w k packet) (sameCalls_write w k packet)
        simp [Disconnects, harmed, hfresh]

theorem loopStep_of_step {o : RpcConnectionOptions} {w w' : World} {e : Event} (hwf : w.TimersWf)
    (h : (machine o).Step w e w') : LoopStep o w e w' := by
  cases answer_of_step h with
  | connect n => exact .connect n
  | close => exact .close (closes_close w)
  | send id payload =>
    obtain ⟨hloop, hcalls⟩ := send_same w id payload
    exact .quiet trivial (fun hd => hd) hloop hcalls
  | timer armed idle run => exact loopStep_timer hwf armed idle run
  | @socketConnect s hlt _ _ hidle =>
    exact .connected hlt hidle ⟨rfl, rfl, rfl, rfl⟩
      (sameCalls_updateSocket w s (fun _ => rfl) (fun _ => rfl) fun _ => rfl)
  | @socketError s error hlt _ =>
    exact .failed hlt (disconnected_handleUnexpectedDisconnect o error ⟨rfl, rfl, rfl, rfl⟩)
      (sameCalls_handleUnexpectedDisconnect o error
        (sameCalls_updateSocket w s (fun _ => rfl) (fun _ => rfl) fun _ => rfl))
  | @socketDestroyed s _ _ =>
    exact .quiet trivial (fun hd => hd) ⟨rfl, rfl, rfl, rfl⟩
      (sameCalls_updateSocket w s (fun _ => rfl) (fun _ => rfl) fun _ => rfl)
  | @socketClose s _ _ _ =>
    exact .disconnect trivial trivial
      (disconnected_handleUnexpectedDisconnect o _ ⟨rfl, rfl, rfl, rfl⟩)
      (sameCalls_handleUnexpectedDisconnect o _
        (sameCalls_updateSocket w s (fun _ => rfl) (fun _ => rfl) fun _ => rfl))
  | socketData _ _ _ handled =>
    obtain ⟨hloop, hcalls⟩ := data_same handled
    exact .quiet trivial (fun hd => hd) hloop hcalls
  | microtask queued => exact .microtask queued

end WeisleyRpc.Client
