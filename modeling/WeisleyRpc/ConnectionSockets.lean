import WeisleyRpc.ConnectionAttempts

/-!
# Late events of superseded sockets

The handlers of a socket's `error` and `close` act on the connection whichever socket
is current. What they do to a newer socket depends on the state they find; when they
find nothing of it, the connection keeps to one open socket.
-/

namespace WeisleyRpc.Client

/-- An `error` or `close` event of a socket that `doConnect` has replaced. -/
def Late (w : World) : Event → Prop
  | .socketError s _ | .socketClose s => s < w.nextSocket ∧ w.socket ≠ some s
  | _ => False

instance (w : World) (e : Event) : Decidable (Late w e) :=
  match e with
  | .socketError _ _ | .socketClose _ => inferInstanceAs (Decidable (_ ∧ _))
  | .connect _ | .close | .send _ _ | .timer _ _ _ | .socketConnect _ | .socketDestroyed _
  | .socketData _ _ _ | .microtask _ => isFalse id

namespace World

/-- A pending call that was sent on the current socket. -/
def SentOnCurrent (w : World) (id : String) (p : PendingRequest) : Prop :=
  w.pending.get id = some p ∧ ∃ a ∈ w.accepted, a.call = p.call ∧ w.socket = some a.socket

/-- The heartbeat of the current socket. -/
def HeartbeatOfCurrent (w : World) (t : TimerId) : Prop :=
  w.heartbeatTimer = some t ∧ w.timers.get t = some (.heartbeat w.socket)

/-- What a step must leave alone to do the current socket no harm. -/
structure HarmlessTo (w w' : World) : Prop where
  state : w'.state = w.state
  pending : ∀ id p, w.SentOnCurrent id p → w'.pending.get id = some p
  heartbeat : ∀ t, w.HeartbeatOfCurrent t →
    w'.heartbeatTimer = some t ∧ w'.timers.get t = w.timers.get t
  reconnect : w'.reconnectTimer = w.reconnectTimer

/-- The current socket has no pending call and no heartbeat, and a disconnect finds the
connection closed by hand or already reconnecting. -/
structure Quiet (o : RpcConnectionOptions) (w : World) : Prop where
  pending : ∀ id p, ¬ w.SentOnCurrent id p
  heartbeat : ∀ t, ¬ w.HeartbeatOfCurrent t
  state : w.manuallyClosed = true ∨
    (w.state = .reconnecting ∧ (w.reconnectTimer.isSome ∨ o.reconnect = some false))

theorem scheduleReconnect_state (o : RpcConnectionOptions) (w : World) :
    (scheduleReconnect o w).state = w.state := by
  rcases scheduleReconnect_cases o w with ⟨he, -⟩ | ⟨-, -, he⟩ <;> rw [he]
  rfl

theorem scheduleReconnect_reconnectTimer_iff (o : RpcConnectionOptions) (w : World) :
    (scheduleReconnect o w).reconnectTimer = w.reconnectTimer ↔
      w.reconnectTimer.isSome ∨ o.reconnect = some false := by
  rcases scheduleReconnect_cases o w with ⟨he, h⟩ | ⟨hn, ho, he⟩ <;> rw [he]
  · simp [h]
  · simp [hn, ho]

theorem handleUnexpectedDisconnect_heartbeatTimer (o : RpcConnectionOptions) (w : World)
    (error : JsError) : (handleUnexpectedDisconnect o w error).heartbeatTimer = none := by
  rw [handleUnexpectedDisconnect_eq]
  split_ifs
  · rfl
  · rcases scheduleReconnect_cases o { w.dropped error with state := .reconnecting } with
      ⟨he, -⟩ | ⟨-, -, he⟩ <;> rw [he] <;> rfl

theorem handleUnexpectedDisconnect_keeps_iff (o : RpcConnectionOptions) (w : World)
    (error : JsError) :
    ((handleUnexpectedDisconnect o w error).state = w.state ∧
        (handleUnexpectedDisconnect o w error).reconnectTimer = w.reconnectTimer) ↔
      w.manuallyClosed = true ∨
        (w.state = .reconnecting ∧ (w.reconnectTimer.isSome ∨ o.reconnect = some false)) := by
  rw [handleUnexpectedDisconnect_eq]
  split_ifs with hm
  · simp [hm, dropped]
  · have hr := scheduleReconnect_reconnectTimer_iff o { w.dropped error with state := .reconnecting }
    rw [scheduleReconnect_state]
    simp only [hm, Bool.false_eq_true, false_or]
    exact and_congr eq_comm hr

theorem disconnect_harmless_iff {o : RpcConnectionOptions} {w v : World} (error : JsError)
    (hv : v.state = w.state ∧ v.pending = w.pending ∧ v.accepted = w.accepted ∧
      v.socket = w.socket ∧ v.heartbeatTimer = w.heartbeatTimer ∧ v.timers = w.timers ∧
      v.reconnectTimer = w.reconnectTimer ∧ v.manuallyClosed = w.manuallyClosed) :
    w.HarmlessTo (handleUnexpectedDisconnect o v error) ↔ w.Quiet o := by
  obtain ⟨hstate, hpending, haccepted, hsocket, hhb, htimers, hrc, hmc⟩ := hv
  have hkeeps := handleUnexpectedDisconnect_keeps_iff o v error
  rw [hstate, hrc, hmc] at hkeeps
  have hempty := (handleUnexpectedDisconnect_tables o v error).1
  have hnone := handleUnexpectedDisconnect_heartbeatTimer o v error
  constructor
  · intro h
    refine ⟨fun id p hp => ?_, fun t ht => ?_, hkeeps.mp ⟨h.state, h.reconnect⟩⟩
    · have := h.pending id p hp
      simp [hempty] at this
    · have := (h.heartbeat t ht).1
      simp [hnone] at this
  · intro h
    obtain ⟨hs, hr⟩ := hkeeps.mpr h.state
    exact ⟨hs, fun id p hp => absurd hp (h.pending id p), fun t ht => absurd ht (h.heartbeat t), hr⟩

theorem AttemptWf.resumeAttempt_late {w : World} (h : w.AttemptWf) {s : SocketId}
    (hlt : s < w.nextSocket) (hne : w.socket ≠ some s) (result : Result) :
    w.resumeAttempt s result = w := by
  rcases resumeAttempt_cases w s result with ⟨ha, -⟩ | ⟨-, he⟩
  · exact absurd (h.promise s (h.promise_of_not_settled hlt (by simp [ha]))) hne
  · exact he

/-- A late event is harmless exactly in a quiet state. -/
theorem late_harmless_iff {o : RpcConnectionOptions} {w w' : World} {e : Event}
    (h : w.ConnectWf) (hs : (machine o).Step w e w') (hl : Late w e) :
    w.HarmlessTo w' ↔ w.Quiet o := by
  cases answer_of_step hs with
  | @socketError s error hlt _ =>
    have hd : (w.updateSocket s fun k => { k with destroyed := true }).ConnectWf :=
      h.flag s (fun _ => rfl) (fun _ => rfl) (fun _ => rfl) fun _ _ => rfl
    have hsame := sameSockets_handleUnexpectedDisconnect o
      (w.updateSocket s fun k => { k with destroyed := true }) error
    have hu := (hd.same hsame.attempts).1
    rw [hu.resumeAttempt_late (hsame.nextSocket ▸ hlt) (hsame.socket ▸ hl.2)]
    exact disconnect_harmless_iff error ⟨rfl, rfl, rfl, rfl, rfl, rfl, rfl, rfl⟩
  | @socketClose s =>
    exact disconnect_harmless_iff _ ⟨rfl, rfl, rfl, rfl, rfl, rfl, rfl, rfl⟩
  | _ => exact absurd hl id

/-- A current socket that is connected and neither ended nor destroyed. -/
def Open (w : World) (s : SocketId) : Prop :=
  w.socket = some s ∧ (w.sockets s).connected = true ∧ (w.sockets s).ended = false ∧
    (w.sockets s).destroyed = false

/-- While the current socket is open the connection says so, or its `doConnect` has still
to say so. -/
def OpenWf (w : World) : Prop :=
  ∀ s, w.Open s → w.state = .connected ∨
    (w.connectionPromise = some s ∧ ∀ r, (w.sockets s).attempt ≠ .settled r)

end World

/-- Late events find a quiet state. -/
def LateQuiet (o : RpcConnectionOptions) (w : World) (e : Event) : Prop := Late w e → w.Quiet o

namespace World

theorem openWf_init (codec : RpcCodec) : (World.init codec).OpenWf := by
  intro s hs
  simp [Open, World.init] at hs

theorem OpenWf.keep {w v : World} (h : w.OpenWf) (hs : v.state = w.state)
    (hp : v.connectionPromise = w.connectionPromise) (ho : ∀ s, v.Open s → w.Open s)
    (ha : ∀ s, (v.sockets s).attempt = (w.sockets s).attempt) : v.OpenWf := by
  intro s hv
  rw [hs, hp, ha]
  exact h s (ho s hv)

theorem OpenWf.same {w v : World} (h : w.OpenWf) (hs : v.state = w.state)
    (hv : SameSockets w v) : v.OpenWf := by
  refine h.keep hs hv.connectionPromise (fun s ho => ?_) fun s => by rw [hv.sockets]
  unfold Open at *
  rwa [hv.socket, hv.sockets] at ho

theorem OpenWf.flag {w : World} (h : w.OpenWf) (s : SocketId) {f : Socket → Socket}
    (ha : ∀ k, (f k).attempt = k.attempt) (hc : ∀ k, (f k).connected = k.connected)
    (he : ∀ k, (f k).ended = false → k.ended = false)
    (hd : ∀ k, (f k).destroyed = false → k.destroyed = false) : (w.updateSocket s f).OpenWf := by
  refine h.keep rfl rfl (fun s' ho => ?_) fun s' => w.updateSocket_field s s' Socket.attempt ha
  obtain ⟨h₁, h₂, h₃, h₄⟩ := ho
  rw [w.updateSocket_field s s' Socket.connected hc] at h₂
  rw [sockets_updateSocket] at h₃ h₄
  refine ⟨h₁, h₂, ?_, ?_⟩
  · split_ifs at h₃ with hss
    · exact hss ▸ he _ h₃
    · exact h₃
  · split_ifs at h₄ with hss
    · exact hss ▸ hd _ h₄
    · exact h₄

theorem OpenWf.write {w : World} (h : w.OpenWf) (s : SocketId) (payload : Buffer) :
    (w.write s payload).OpenWf := by
  unfold World.write
  split_ifs
  · exact h
  · exact h.flag s (fun _ => rfl) (fun _ => rfl) (fun _ he => he) fun _ hd => hd

theorem OpenWf.connect {w : World} (h : w.OpenWf) (caller : Caller) :
    (w.connect caller).OpenWf := by
  rcases connect_cases w caller with ⟨-, -, he⟩ | ⟨-, ⟨s, hp, he⟩ | ⟨hp, he⟩⟩ <;> rw [he]
  · exact h.keep rfl rfl (fun _ ho => ho) fun _ => rfl
  · rcases join_cases w s caller with ⟨result, -, hj⟩ | ⟨-, hj⟩ <;> rw [hj]
    · exact h.keep rfl rfl (fun _ ho => ho) fun _ => rfl
    · exact h.flag s (fun _ => rfl) (fun _ => rfl) (fun _ he => he) fun _ hd => hd
  · intro s ho
    obtain ⟨hs, hc, -⟩ := ho
    obtain rfl := Option.some.inj hs
    simp [doConnect, Socket.new] at hc

theorem openWf_of_not_open {w : World} (h : ∀ s, ¬ w.Open s) : w.OpenWf :=
  fun s ho => absurd ho (h s)

theorem openWf_close (w : World) : w.close.OpenWf := by
  refine openWf_of_not_open fun s ho => ?_
  rw [close_eq, cancelReconnect_eq] at ho
  obtain ⟨hs, -, he, -⟩ := ho
  unfold endSocket at hs he
  split at hs
  · rename_i hn
    rw [hn] at hs
    cases hs
  · rename_i s' hs'
    have hss : s = s' := Option.some.inj (hs.symm.trans hs')
    simp only [hs'] at he
    rw [hss, sockets_updateSocket, if_pos rfl] at he
    cases he

theorem handleMessage_state {w w' : World} {s : SocketId} {message : JsValue} {now : ℚ}
    (h : handleMessage s now w message = .ok w') : w'.state = w.state := by
  rcases handleMessage_cases h with ⟨-, at', rfl⟩ | ⟨id, p, outcome, -, -, -, rfl⟩ <;> rfl

theorem OpenWf.disconnect {o : RpcConnectionOptions} {w : World} (h : w.OpenWf) (error : JsError)
    (hq : (∃ s, w.Open s) → (handleUnexpectedDisconnect o w error).state = w.state) :
    (handleUnexpectedDisconnect o w error).OpenWf := by
  have hv := sameSockets_handleUnexpectedDisconnect o w error
  intro s ho
  have ho' : w.Open s := by
    unfold Open at *
    rwa [hv.socket, hv.sockets] at ho
  rw [hq ⟨s, ho'⟩, hv.connectionPromise, hv.sockets]
  exact h s ho'

theorem OpenWf.runTimer {o : RpcConnectionOptions} {w w' : World} (h : w.OpenWf)
    {t : TimerId} {now : ℚ} {uuid : String} {task : TimerTask}
    (hr : runTimer o w t now uuid task = .ok w') : w'.OpenWf := by
  rcases runTimer_cases hr with ⟨id, call, rfl, rfl⟩ | ⟨delay, rfl, hw⟩ | ⟨s, rfl, hb⟩
  · exact h.keep rfl rfl (fun _ ho => ho) fun _ => rfl
  · have hc : { w.clearTimer t with reconnectTimer := none : World }.OpenWf :=
      h.keep rfl rfl (fun _ ho => ho) fun _ => rfl
    rcases hw with ⟨-, rfl⟩ | ⟨-, rfl⟩
    · exact hc
    · exact hc.connect _
  · rcases heartbeatTick_cases hb with ⟨-, rfl⟩ | ⟨s, hl, ⟨-, error, rfl⟩ | ⟨-, packet, -, rfl⟩⟩
    · exact h.same (by rw [stopHeartbeat_eq]) (sameSockets_stopHeartbeat w)
    · obtain ⟨hcur, -⟩ := liveSocket_eq_some_iff.mp hl
      have hv := sameSockets_handleUnexpectedDisconnect o w error
      refine openWf_of_not_open fun s' ho => ?_
      obtain ⟨hs', -, -, hd⟩ := ho
      have hss : s' = s := Option.some.inj (hs'.symm.trans (hv.socket.trans hcur))
      rw [sockets_updateSocket, if_pos hss] at hd
      cases hd
    · exact h.write s packet

theorem OpenWf.runMicrotask {o : RpcConnectionOptions} {w : World} (h : w.OpenWf)
    (hw : w.ConnectWf) {task : Microtask} {tasks : List Microtask}
    (hm : w.microtasks = task :: tasks) (now : ℚ) :
    (runMicrotask o { w with microtasks := tasks } now task).OpenWf := by
  cases task with
  | resumeDoConnect s result =>
    obtain ⟨hp, -, -⟩ := hw.1.of_resumeDoConnect hm
    have hcur := hw.1.promise s hp
    cases result with
    | ok u =>
      refine fun s' _ => Or.inl ?_
      rcases startHeartbeat_cases o { w with
        microtasks := tasks, state := .connected, reconnectAttempts := 0 } now with he | he <;>
        simp only [World.runMicrotask, he] <;> rfl
    | error e =>
      refine openWf_of_not_open fun s' ho => ?_
      obtain ⟨hs', -, -, hd⟩ := ho
      have hss : s' = s := Option.some.inj (hs'.symm.trans hcur)
      have hdes := hw.2.destroyed s e (by simp [hm])
      simp only [World.runMicrotask, World.settleAttempt, sockets_enqueue, sockets_updateSocket,
        hss, if_true] at hd
      rw [hdes] at hd
      cases hd
  | resumeConnect caller result =>
    obtain ⟨s, hp, ha, -, -⟩ := hw.1.of_resumeConnect hm
    have hcur := hw.1.promise s hp
    intro s' ho
    have ho' : w.Open s' := ho
    have hss : s' = s := Option.some.inj (ho'.1.symm.trans hcur)
    rcases h s' ho' with hst | ⟨-, hn⟩
    · exact Or.inl hst
    · exact absurd ha (hss ▸ hn result)
  | resumeJoined caller result => exact h.keep rfl rfl (fun _ ho => ho) fun _ => rfl
  | resumeCaller caller result =>
    cases caller with
    | user n => exact h.keep rfl rfl (fun _ ho => ho) fun _ => rfl
    | reconnectTimer =>
      cases result with
      | ok u => exact h.keep rfl rfl (fun _ ho => ho) fun _ => rfl
      | error e =>
        have hv := sameSockets_scheduleReconnect o { w with
          microtasks := tasks, state := .reconnecting }
        refine openWf_of_not_open fun s ho => ?_
        obtain ⟨hs, hc, -, hd⟩ := ho
        simp only [World.runMicrotask, hv.socket, hv.sockets] at hs hc hd
        rcases hw.2.failed (.resumeCaller .reconnectTimer (.error e)) (by simp [hm]) ⟨e, rfl⟩ s hs
          with hf | hf
        · rw [hf] at hc
          cases hc
        · rw [hf] at hd
          cases hd

theorem ConnectWf.awaiting {w : World} (h : w.ConnectWf) {s : SocketId} (hlt : s < w.nextSocket)
    (hc : (w.sockets s).connected = false) (hd : (w.sockets s).destroyed = false)
    (hidle : w.microtasks = []) :
    w.connectionPromise = some s ∧ (w.sockets s).attempt = .awaiting := by
  have hns : ∀ r, (w.sockets s).attempt ≠ .settled r := by
    intro r hr
    cases r with
    | ok u =>
      rw [h.2.settled_ok s hlt hr] at hc
      cases hc
    | error e =>
      rw [h.2.settled_error s e hlt hr] at hd
      cases hd
  have hp := h.1.promise_of_not_settled hlt hns
  refine ⟨hp, ?_⟩
  cases ha : (w.sockets s).attempt with
  | awaiting => rfl
  | resuming =>
    have he := h.1.expected
    simp [Expected, hp, ha, progress, hidle] at he
  | settled r => exact absurd ha (hns r)

theorem OpenWf.step {o : RpcConnectionOptions} {w w' : World} {e : Event} (h : w.OpenWf)
    (hw : w.ConnectWf) (hs : ((machine o).guard (LateQuiet o)).Step w e w') : w'.OpenWf := by
  obtain ⟨hq, hs⟩ := Machine.guard_step.mp hs
  cases answer_of_step hs with
  | connect n => exact h.connect _
  | close => exact openWf_close w
  | send id payload =>
    rcases send_cases w id payload with ⟨e, he⟩ | ⟨s, -, -, he⟩ <;> rw [he]
    · exact h.keep rfl rfl (fun _ ho => ho) fun _ => rfl
    · have ht : (w.setTimer (.callTimeout id w.nextCall)).OpenWf :=
        h.keep rfl rfl (fun _ ho => ho) fun _ => rfl
      exact (ht.write s payload).keep rfl rfl (fun _ ho => ho) fun _ => rfl
  | timer _ _ hr => exact h.runTimer hr
  | @socketConnect s hlt hc hd hidle =>
    obtain ⟨hp, ha⟩ := hw.awaiting hlt hc hd hidle
    rcases resumeAttempt_cases (w.updateSocket s fun k => { k with connected := true }) s (.ok ())
      with ⟨-, he⟩ | ⟨hn, -⟩
    · rw [he]
      intro s' ho
      by_cases hss : s' = s
      · refine Or.inr ⟨by rw [hss]; exact hp, fun r => ?_⟩
        simp [sockets_updateSocket, hss]
      · have ho' : w.Open s' := by
          simpa [Open, sockets_updateSocket, hss] using ho
        rcases h s' ho' with hst | ⟨hp', hn⟩
        · exact Or.inl hst
        · exact absurd (Option.some.inj (hp'.symm.trans hp)) hss
    · exact absurd (by rw [sockets_updateSocket, if_pos rfl, ha]) hn
  | @socketError s error hlt huc =>
    have hd : (w.updateSocket s fun k => { k with destroyed := true }).OpenWf :=
      h.flag s (fun _ => rfl) (fun _ => rfl) (fun _ he => he) (by simp)
    have hconn : (w.updateSocket s fun k => { k with destroyed := true }).ConnectWf :=
      hw.flag s (fun _ => rfl) (fun _ => rfl) (fun _ => rfl) fun _ _ => rfl
    have hsame := sameSockets_handleUnexpectedDisconnect o
      (w.updateSocket s fun k => { k with destroyed := true }) error
    have hopen := hd.disconnect (o := o) error fun hopen => by
      obtain ⟨s', ho⟩ := hopen
      by_cases hcur : w.socket = some s
      · obtain ⟨hs', -, -, hdes⟩ := ho
        have hss : s' = s := Option.some.inj (hs'.symm.trans hcur)
        rw [sockets_updateSocket, if_pos hss] at hdes
        cases hdes
      · exact ((handleUnexpectedDisconnect_keeps_iff o
          (w.updateSocket s fun k => { k with destroyed := true }) error).mpr
            (hq ⟨hlt, hcur⟩).state).1
    rcases resumeAttempt_cases (handleUnexpectedDisconnect o
      (w.updateSocket s fun k => { k with destroyed := true }) error) s (.error error) with
      ⟨ha, he⟩ | ⟨-, he⟩ <;> rw [he]
    · refine openWf_of_not_open fun s' ho => ?_
      obtain ⟨hs', -, -, hdes⟩ := ho
      have hu := (hconn.same hsame.attempts).1
      have hcur := hu.promise s (hu.promise_of_not_settled (hsame.nextSocket ▸ hlt) (by simp [ha]))
      have hss : s' = s := Option.some.inj (hs'.symm.trans hcur)
      simp [hss, sockets_updateSocket, hsame.sockets] at hdes
    · exact hopen
  | @socketDestroyed s =>
    exact h.flag s (fun _ => rfl) (fun _ => rfl) (fun _ he => he) (by simp)
  | @socketClose s hlt hdes _ =>
    have hc : (w.updateSocket s fun k => { k with closed := true }).OpenWf :=
      h.flag s (fun _ => rfl) (fun _ => rfl) (fun _ he => he) fun _ hd => hd
    refine hc.disconnect _ fun hopen => ?_
    obtain ⟨s', ho⟩ := hopen
    by_cases hcur : w.socket = some s
    · obtain ⟨hs', -, -, hd⟩ := ho
      have hss : s' = s := Option.some.inj (hs'.symm.trans hcur)
      rw [sockets_updateSocket, if_pos hss] at hd
      exact absurd (hdes.symm.trans hd) (by simp)
    · exact ((handleUnexpectedDisconnect_keeps_iff o
        (w.updateSocket s fun k => { k with closed := true }) connectionClosed).mpr
          (hq ⟨hlt, hcur⟩).state).1
  | @socketData s chunk now _ _ _ _ hd =>
    obtain ⟨_, -, hf⟩ := handleData_eq_ok hd
    obtain ⟨messages, -, hsame⟩ := sameSockets_handleData hd
    have hr := h.flag s (f := fun k => { k with
      received := k.received ++ [chunk], handled := k.handled ++ messages }) (fun _ => rfl)
      (fun _ => rfl) (fun _ he => he) fun _ hd => hd
    refine hr.keep ?_ hsame.connectionPromise (fun s' ho => ?_) fun s' => by rw [hsame.sockets]
    · exact List.foldlM_invariant (I := fun v : World => v.state = w.state)
        (fun _ _ _ hi hm => (handleMessage_state hm).trans hi) hf rfl
    · unfold Open at *
      rwa [hsame.socket, hsame.sockets] at ho
  | microtask hm => exact h.runMicrotask hw hm _

theorem OpenWf.connect_nextSocket {w : World} (h : w.OpenWf) {s : SocketId} (ho : w.Open s)
    (caller : Caller) : (w.connect caller).nextSocket = w.nextSocket := by
  rcases connect_cases w caller with ⟨-, -, he⟩ | ⟨hn, ⟨s', -, he⟩ | ⟨hp, -⟩⟩
  · rw [he]
    rfl
  · rw [he]
    rcases join_cases w s' caller with ⟨result, -, hj⟩ | ⟨-, hj⟩ <;> rw [hj] <;> rfl
  · rcases h s ho with hst | ⟨hp', -⟩
    · have hl := liveSocket_eq_some_iff.mpr ⟨ho.1, ho.2.2.2⟩
      exact absurd ⟨hst, by simp [hl]⟩ hn
    · rw [hp] at hp'
      cases hp'

theorem runTimer_nextSocket {o : RpcConnectionOptions} {w w' : World} (h : w.OpenWf) {s : SocketId}
    (ho : w.Open s) {t : TimerId} {now : ℚ} {uuid : String} {task : TimerTask}
    (hr : runTimer o w t now uuid task = .ok w') : w'.nextSocket = w.nextSocket := by
  rcases runTimer_cases hr with ⟨id, call, rfl, rfl⟩ | ⟨delay, rfl, hw⟩ | ⟨s', rfl, hb⟩
  · rfl
  · have hc : { w.clearTimer t with reconnectTimer := none : World }.OpenWf :=
      h.keep rfl rfl (fun _ ho => ho) fun _ => rfl
    rcases hw with ⟨-, rfl⟩ | ⟨-, rfl⟩
    · rfl
    · exact hc.connect_nextSocket (s := s) ho _
  · rcases heartbeatTick_cases hb with ⟨-, rfl⟩ | ⟨s', -, ⟨-, error, rfl⟩ | ⟨-, packet, -, rfl⟩⟩
    · exact (sameSockets_stopHeartbeat w).nextSocket
    · exact (sameSockets_handleUnexpectedDisconnect o w error).nextSocket
    · unfold World.write
      split_ifs <;> rfl

theorem OpenWf.step_nextSocket {o : RpcConnectionOptions} {w w' : World} {e : Event} (h : w.OpenWf)
    {s : SocketId} (ho : w.Open s) (hs : (machine o).Step w e w') :
    w'.nextSocket = w.nextSocket := by
  cases answer_of_step hs with
  | connect n => exact h.connect_nextSocket ho _
  | close =>
    rw [close_eq, cancelReconnect_eq]
    unfold endSocket
    split <;> rfl
  | send id payload =>
    rcases send_cases w id payload with ⟨e, he⟩ | ⟨s, -, -, he⟩ <;> rw [he]
    unfold sent World.write
    split_ifs <;> rfl
  | timer _ _ hr => exact runTimer_nextSocket h ho hr
  | @socketConnect s' =>
    rcases resumeAttempt_cases (w.updateSocket s' fun k => { k with connected := true }) s' (.ok ())
      with ⟨-, he⟩ | ⟨-, he⟩ <;> rw [he] <;> rfl
  | @socketError s' error =>
    have hsame := sameSockets_handleUnexpectedDisconnect o
      (w.updateSocket s' fun k => { k with destroyed := true }) error
    rcases resumeAttempt_cases (handleUnexpectedDisconnect o
      (w.updateSocket s' fun k => { k with destroyed := true }) error) s' (.error error)
      with ⟨-, he⟩ | ⟨-, he⟩ <;> rw [he] <;> exact hsame.nextSocket
  | socketDestroyed => rfl
  | @socketClose s' => exact (sameSockets_handleUnexpectedDisconnect o _ _).nextSocket
  | @socketData s' chunk now _ _ _ _ hd =>
    obtain ⟨messages, -, hsame⟩ := sameSockets_handleData hd
    exact hsame.nextSocket
  | @microtask now task tasks =>
    cases task with
    | resumeDoConnect s' result =>
      cases result with
      | ok u => exact (sameSockets_startHeartbeat o { w with
          microtasks := tasks, state := .connected, reconnectAttempts := 0 } now).nextSocket
      | error e => rfl
    | resumeConnect caller result => rfl
    | resumeJoined caller result => rfl
    | resumeCaller caller result =>
      cases caller with
      | user n => rfl
      | reconnectTimer =>
        cases result with
        | ok u => rfl
        | error e => exact (sameSockets_scheduleReconnect o { w with
            microtasks := tasks, state := .reconnecting }).nextSocket

end World

/-- A late event is harmless exactly when it finds a quiet state, and in a run whose late
events do, no further socket is created while the current one is open. -/
theorem late_events (o : RpcConnectionOptions) :
    (∀ w e w', Reachable o w → (machine o).Step w e w' → Late w e →
      (w.HarmlessTo w' ↔ w.Quiet o)) ∧
    ∀ w e w' s, ReachableWhen o (LateQuiet o) w → (machine o).Step w e w' → w.Open s →
      w'.nextSocket = w.nextSocket := by
  refine ⟨fun w e w' hr hs hl => World.late_harmless_iff hr.connectWf hs hl,
    fun w e w' s hr hs ho => ?_⟩
  obtain ⟨codec, hn, hr⟩ := hr
  have hinv : w.ConnectWf ∧ w.OpenWf :=
    hr.invariant (I := fun v => v.ConnectWf ∧ v.OpenWf)
      (fun _ _ _ hi hs => ⟨hi.1.step (Machine.guard_step.mp hs).2, hi.2.step hi.1 hs⟩)
      ⟨⟨World.attemptWf_init codec, World.resultWf_init codec⟩, World.openWf_init codec⟩
  exact hinv.2.step_nextSocket ho hs

/-- A connection that was closed by hand and connected again before its first socket closes. -/
def sampleLate : Option World :=
  ((machine sampleOptions).guard fun _ _ => True).exec (World.init sampleCodec)
    [.connect 0, .socketConnect 0, .microtask 0, .microtask 0, .microtask 0, .close, .connect 1,
      .socketConnect 1, .microtask 0, .microtask 0, .microtask 0, .send "1" [1],
      .socketDestroyed 0]

theorem sampleLate_isSome : sampleLate.isSome := by decide +kernel

def sampleLateClosed : World :=
  ((apply sampleOptions (sampleLate.get sampleLate_isSome) (.socketClose 0)).toOption).getD
    (World.init sampleCodec)

theorem step_sampleLateClosed :
    (machine sampleOptions).Step (sampleLate.get sampleLate_isSome) (.socketClose 0)
      sampleLateClosed := ⟨by decide +kernel, rfl⟩

/-- The close event of the first socket rejects the call sent on the second one. -/
theorem late_close_harms :
    ¬ ∀ o w e w', Reachable o w → (machine o).Step w e w' → Late w e → w.HarmlessTo w' := by
  intro h
  have hs := (h _ _ _ _ (reachableWhen_of_exec rfl sampleLate_isSome).reachable
    step_sampleLateClosed (by decide +kernel)).state
  revert hs
  decide +kernel

/-- A connection whose first socket has closed before the second one is created. -/
def sampleReopened : Option World :=
  ((machine sampleOptions).guard fun w e => ¬ Late w e).exec (World.init sampleCodec)
    [.connect 0, .socketConnect 0, .microtask 0, .microtask 0, .microtask 0, .close,
      .socketDestroyed 0, .socketClose 0, .connect 1, .socketConnect 1, .microtask 0,
      .microtask 0, .microtask 0]

theorem sampleReopened_isSome : sampleReopened.isSome := by decide +kernel

theorem late_events_sample :
    ((sampleLate.get sampleLate_isSome).HarmlessTo sampleLateClosed ↔
      (sampleLate.get sampleLate_isSome).Quiet sampleOptions) ∧
    ((sampleReopened.get sampleReopened_isSome).connect (.user 2)).nextSocket =
      (sampleReopened.get sampleReopened_isSome).nextSocket :=
  ⟨(late_events sampleOptions).1 _ (.socketClose 0) _
      (reachableWhen_of_exec rfl sampleLate_isSome).reachable step_sampleLateClosed
      (by decide +kernel),
    (late_events sampleOptions).2 _ (.connect 2) _ 1
      ((reachableWhen_of_exec rfl sampleReopened_isSome).mono fun _ _ hn hl => absurd hl hn)
      ⟨trivial, rfl⟩ (by unfold World.Open; decide +kernel)⟩

end WeisleyRpc.Client
