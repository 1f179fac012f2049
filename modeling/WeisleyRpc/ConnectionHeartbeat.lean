import WeisleyRpc.ConnectionInvariant

/-!
# What becomes of a heartbeat

Only a pong and the start of a heartbeat move `lastPongAt`. A heartbeat that is stopped does
not come back, since every new timer has a new number.
-/

namespace WeisleyRpc.Client

namespace World

/-- The timer `t` runs only as the current heartbeat. -/
def Beats (w : World) (t : TimerId) : Prop := (w.timers.get t).isSome → w.heartbeatTimer = some t

/-- A state behind `w` that has started no heartbeat since. -/
structure KeepsTimer (t : TimerId) (w v : World) : Prop where
  nextTimer : w.nextTimer ≤ v.nextTimer
  timers : t < w.nextTimer → (v.timers.get t).isSome → (w.timers.get t).isSome
  beats : t < w.nextTimer → w.Beats t → v.Beats t

/-- It has heard no pong either. -/
structure KeepsBeat (t : TimerId) (w v : World) : Prop extends KeepsTimer t w v where
  lastPongAt : v.lastPongAt = w.lastPongAt

variable {t : TimerId} {u v w w' : World} {o : RpcConnectionOptions}

theorem KeepsTimer.trans (h : KeepsTimer t u v) (h' : KeepsTimer t v w) : KeepsTimer t u w := by
  refine ⟨h.nextTimer.trans h'.nextTimer, ?_, ?_⟩
  · intro hlt hsome
    exact h.timers hlt (h'.timers (hlt.trans_le h.nextTimer) hsome)
  · intro hlt hbeats
    exact h'.beats (hlt.trans_le h.nextTimer) (h.beats hlt hbeats)

theorem KeepsBeat.trans (h : KeepsBeat t u v) (h' : KeepsBeat t v w) : KeepsBeat t u w :=
  ⟨h.toKeepsTimer.trans h'.toKeepsTimer, h'.lastPongAt.trans h.lastPongAt⟩

theorem SameTables.keepsBeat (h : SameTables w v) (hl : v.lastPongAt = w.lastPongAt) :
    KeepsBeat t w v := by
  refine ⟨⟨h.nextTimer.ge, ?_, ?_⟩, hl⟩
  · intro _ hsome
    rwa [h.timers] at hsome
  · intro _ hbeats
    rwa [Beats, h.timers, h.heartbeatTimer]

theorem keepsBeat_refl (t : TimerId) (w : World) : KeepsBeat t w w :=
  (SameTables.refl w).keepsBeat rfl

theorem keepsBeat_deleteAll (ts : List TimerId) (ht : v.timers = w.timers.deleteAll ts)
    (hn : v.nextTimer = w.nextTimer) (hl : v.lastPongAt = w.lastPongAt)
    (hh : v.heartbeatTimer = w.heartbeatTimer ∨ w.heartbeatTimer.toList ⊆ ts) :
    KeepsBeat t w v := by
  have hkept : (v.timers.get t).isSome → (w.timers.get t).isSome ∧ t ∉ ts := by
    intro hsome
    rw [ht, OrderedMap.get_deleteAll] at hsome
    split_ifs at hsome with hmem
    · cases hsome
    · exact ⟨hsome, hmem⟩
  refine ⟨⟨hn.ge, fun _ hsome => (hkept hsome).1, ?_⟩, hl⟩
  intro _ hbeats hsome
  obtain ⟨hbefore, hmem⟩ := hkept hsome
  rcases hh with hsame | hsub
  · rw [hsame]
    exact hbeats hbefore
  · rw [hbeats hbefore] at hsub
    exact absurd (hsub List.mem_cons_self) hmem

theorem keepsBeat_setTimer (t : TimerId) (w : World) (task : TimerTask) :
    KeepsBeat t w (w.setTimer task) := by
  have hsame : t < w.nextTimer → (w.setTimer task).timers.get t = w.timers.get t := by
    intro hlt
    rw [setTimer, OrderedMap.get_set, if_neg (Nat.ne_of_lt hlt)]
  refine ⟨⟨Nat.le_succ _, ?_, ?_⟩, rfl⟩
  · intro hlt hsome
    rwa [hsame hlt] at hsome
  · intro hlt hbeats hsome
    rw [hsame hlt] at hsome
    exact hbeats hsome

theorem keepsBeat_dropped (t : TimerId) (w : World) (error : JsError) :
    KeepsBeat t w (w.dropped error) :=
  keepsBeat_deleteAll _ rfl rfl rfl (.inr (List.subset_append_left _ _))

theorem keepsBeat_stopHeartbeat (t : TimerId) (w : World) : KeepsBeat t w w.stopHeartbeat := by
  rw [stopHeartbeat_eq]
  exact keepsBeat_deleteAll _ rfl rfl rfl (.inr (List.Subset.refl _))

theorem keepsBeat_clearTimer (t t' : TimerId) (w : World) : KeepsBeat t w (w.clearTimer t') :=
  keepsBeat_deleteAll [t'] rfl rfl rfl (.inl rfl)

theorem keepsBeat_scheduleReconnect (t : TimerId) (o : RpcConnectionOptions) (w : World) :
    KeepsBeat t w (scheduleReconnect o w) := by
  rcases scheduleReconnect_cases o w with ⟨he, -⟩ | ⟨-, -, he⟩ <;> rw [he]
  · exact keepsBeat_refl t w
  · obtain ⟨⟨hn, ht, hb⟩, hl⟩ :=
      keepsBeat_setTimer t w (.reconnect (reconnectDelay o w.reconnectAttempts))
    exact ⟨⟨hn, ht, hb⟩, hl⟩

theorem keepsBeat_handleUnexpectedDisconnect (t : TimerId) (o : RpcConnectionOptions) (w : World)
    (error : JsError) : KeepsBeat t w (handleUnexpectedDisconnect o w error) := by
  rw [handleUnexpectedDisconnect_eq]
  split_ifs
  · exact keepsBeat_dropped t w error
  · refine (keepsBeat_dropped t w error).trans ?_
    obtain ⟨⟨hn, ht, hb⟩, hl⟩ :=
      keepsBeat_scheduleReconnect t o { w.dropped error with state := .reconnecting }
    exact ⟨⟨hn, ht, hb⟩, hl⟩

theorem lastPongAt_write (w : World) (s : SocketId) (payload : Buffer) :
    (w.write s payload).lastPongAt = w.lastPongAt := by
  unfold write
  split_ifs <;> rfl

theorem keepsBeat_write (t : TimerId) (w : World) (s : SocketId) (payload : Buffer) :
    KeepsBeat t w (w.write s payload) :=
  (sameTables_write w s payload).keepsBeat (lastPongAt_write w s payload)

theorem keepsBeat_connect (t : TimerId) (w : World) (caller : Caller) :
    KeepsBeat t w (w.connect caller) := by
  refine (sameTables_connect w caller).keepsBeat ?_
  rcases connect_cases w caller with ⟨-, -, he⟩ | ⟨-, ⟨s, -, he⟩ | ⟨-, he⟩⟩ <;> rw [he]
  · rfl
  · rcases join_cases w s caller with ⟨result, -, hj⟩ | ⟨-, hj⟩ <;> rw [hj] <;> rfl
  · rfl

theorem keepsBeat_resumeAttempt (t : TimerId) (w : World) (s : SocketId) (result : Result) :
    KeepsBeat t w (w.resumeAttempt s result) := by
  refine (sameTables_resumeAttempt w s result).keepsBeat ?_
  rcases resumeAttempt_cases w s result with ⟨-, he⟩ | ⟨-, he⟩ <;> rw [he]
  rfl

theorem keepsBeat_send (t : TimerId) (w : World) (id : String) (payload : Buffer) :
    KeepsBeat t w (w.send id payload) := by
  rcases send_cases w id payload with ⟨e, he⟩ | ⟨s, -, -, he⟩ <;> rw [he]
  · exact ⟨⟨le_rfl, fun _ h => h, fun _ h => h⟩, rfl⟩
  · obtain ⟨⟨hn, ht, hb⟩, hl⟩ := (keepsBeat_setTimer t w (.callTimeout id w.nextCall)).trans
      (keepsBeat_write t _ s payload)
    exact ⟨⟨hn, ht, hb⟩, hl⟩

theorem keepsBeat_close (t : TimerId) (w : World) : KeepsBeat t w w.close := by
  rw [close_eq, cancelReconnect_eq]
  refine KeepsBeat.trans (v := { w with
    manuallyClosed := true
    state := .closed
    reconnectTimer := none
    timers := w.timers.deleteAll w.reconnectTimer.toList })
    (keepsBeat_deleteAll _ rfl rfl rfl (.inl rfl)) ?_
  refine (keepsBeat_dropped t _ connectionClosed).trans ?_
  refine (sameTables_endSocket _).keepsBeat ?_
  unfold endSocket
  split <;> rfl

/-- A decoded pong. -/
def IsPong (m : JsValue) : Bool := m.prop "type" = .string "pong"

theorem keepsTimer_handleMessage (t : TimerId) {s : SocketId} {message : JsValue} {now : ℚ}
    (h : handleMessage s now w message = .ok w') : KeepsTimer t w w' := by
  rcases handleMessage_cases h with ⟨-, lastPongAt, rfl⟩ | ⟨id, p, outcome, -, -, -, rfl⟩
  · exact ⟨le_rfl, fun _ h => h, fun _ h => h⟩
  · obtain ⟨⟨hn, ht, hb⟩, -⟩ := keepsBeat_clearTimer t p.timer w
    exact ⟨hn, ht, hb⟩

theorem lastPongAt_handleMessage {s : SocketId} {message : JsValue} {now : ℚ}
    (h : handleMessage s now w message = .ok w') :
    w'.lastPongAt = if IsPong message then now else w.lastPongAt := by
  unfold handleMessage at h
  unfold IsPong
  split_ifs at h with hr hp
  · rw [hr, if_neg (by decide)]
    rcases handleResponse_cases h with ⟨-, rfl⟩ | ⟨id, p, outcome, -, -, rfl⟩
    · rfl
    · rfl
  · obtain rfl := Except.ok.inj h
    rw [if_pos (decide_eq_true hp)]
  · obtain rfl := Except.ok.inj h
    rw [if_neg (by simpa using hp)]
    rfl

theorem handleMessages_beat (t : TimerId) {s : SocketId} {messages : List JsValue} {now : ℚ}
    (h : messages.foldlM (handleMessage s now) w = .ok w') :
    KeepsTimer t w w' ∧ w'.lastPongAt = if messages.any IsPong then now else w.lastPongAt := by
  induction messages generalizing w with
  | nil =>
    obtain rfl := Except.ok.inj h
    exact ⟨(keepsBeat_refl t w).toKeepsTimer, rfl⟩
  | cons m messages ih =>
    rw [List.foldlM_cons] at h
    obtain ⟨v, hv, hrest⟩ := Except.bind_eq_ok_iff.mp h
    obtain ⟨hkeeps, hlast⟩ := ih hrest
    refine ⟨(keepsTimer_handleMessage t hv).trans hkeeps, ?_⟩
    rw [hlast, lastPongAt_handleMessage hv, List.any_cons]
    cases IsPong m <;> cases messages.any IsPong <;> rfl

/-- The chunk completes a pong. -/
def pongs (w : World) (chunk : Buffer) : Bool :=
  ((w.codec.push chunk).1.toOption.getD []).any IsPong

/-- The next microtask goes on behind the connect of a socket and starts the heartbeat. -/
def startsHeartbeat (o : RpcConnectionOptions) (w : World) : Bool :=
  match w.microtasks with
  | .resumeDoConnect _ (.ok ()) :: _ => o.heartbeatIntervalMs.any (· ≠ 0)
  | _ => false

/-- What an event means for the heartbeat `t`. -/
inductive BeatStep (o : RpcConnectionOptions) (t : TimerId) (w : World) : Event → World → Prop
  | kept {e : Event} {w' : World} : (∀ s chunk now, e ≠ .socketData s chunk now) →
      (∀ now, e = .microtask now → w.startsHeartbeat o = false) → KeepsBeat t w w' →
      BeatStep o t w e w'
  | data {s : SocketId} {chunk : Buffer} {now : ℚ} {w' : World} : KeepsTimer t w w' →
      w'.lastPongAt = (if w.pongs chunk then now else w.lastPongAt) →
      BeatStep o t w (.socketData s chunk now) w'
  | started {now : ℚ} {w' : World} : w.startsHeartbeat o = true →
      w'.nextTimer = w.nextTimer + 1 → w'.heartbeatTimer = some w.nextTimer →
      w'.lastPongAt = now → BeatStep o t w (.microtask now) w'

theorem startHeartbeat_unset (h : o.heartbeatIntervalMs.any (· ≠ 0) = false) (now : ℚ) :
    startHeartbeat o w now = w := by
  unfold startHeartbeat
  cases hi : o.heartbeatIntervalMs with
  | none => rfl
  | some intervalMs =>
    rw [hi] at h
    exact if_pos (by simpa using h)

theorem startHeartbeat_set (h : o.heartbeatIntervalMs.any (· ≠ 0) = true) (now : ℚ) :
    startHeartbeat o w now = { w.setTimer (.heartbeat w.socket) with
      lastPongAt := now
      heartbeatTimer := some w.nextTimer } := by
  unfold startHeartbeat
  cases hi : o.heartbeatIntervalMs with
  | none =>
    rw [hi] at h
    cases h
  | some intervalMs =>
    rw [hi] at h
    exact if_neg (by simpa using h)

theorem beatStep_runTimer (t : TimerId) {t' : TimerId} {now : ℚ} {uuid : String} {task : TimerTask}
    (h : runTimer o w t' now uuid task = .ok w') : KeepsBeat t w w' := by
  rcases runTimer_cases h with ⟨id, call, -, rfl⟩ | ⟨delay, -, ⟨-, rfl⟩ | ⟨-, rfl⟩⟩ | ⟨s, -, hb⟩
  · obtain ⟨⟨hn, ht, hb⟩, hl⟩ := keepsBeat_clearTimer t t' w
    exact ⟨⟨hn, ht, hb⟩, hl⟩
  · obtain ⟨⟨hn, ht, hb⟩, hl⟩ := keepsBeat_clearTimer t t' w
    exact ⟨⟨hn, ht, hb⟩, hl⟩
  · refine KeepsBeat.trans ?_ (keepsBeat_connect t _ _)
    obtain ⟨⟨hn, ht, hb⟩, hl⟩ := keepsBeat_clearTimer t t' w
    exact ⟨⟨hn, ht, hb⟩, hl⟩
  · rcases heartbeatTick_cases hb with ⟨-, rfl⟩ | ⟨s, -, ⟨-, error, rfl⟩ | ⟨-, packet, -, rfl⟩⟩
    · exact keepsBeat_stopHeartbeat t w
    · obtain ⟨⟨hn, ht, hb⟩, hl⟩ := keepsBeat_handleUnexpectedDisconnect t o w error
      exact ⟨⟨hn, ht, hb⟩, hl⟩
    · exact keepsBeat_write t w s packet

theorem beatStep_runMicrotask (t : TimerId) {task : Microtask} {tasks : List Microtask} (now : ℚ)
    (hm : w.microtasks = task :: tasks) :
    BeatStep o t w (.microtask now) (runMicrotask o { w with microtasks := tasks } now task) := by
  have hkept : ∀ v, w.startsHeartbeat o = false → KeepsBeat t w v →
      BeatStep o t w (.microtask now) v :=
    fun v hs hk => .kept (fun _ _ _ h => by cases h) (fun _ _ => hs) hk
  cases task with
  | resumeDoConnect s result =>
    cases result with
    | ok u =>
      cases hset : o.heartbeatIntervalMs.any (· ≠ 0) with
      | false =>
        refine hkept _ (by rw [startsHeartbeat, hm]; exact hset) ?_
        simp only [World.runMicrotask, startHeartbeat_unset hset]
        exact ⟨⟨le_rfl, fun _ h => h, fun _ h => h⟩, rfl⟩
      | true =>
        simp only [World.runMicrotask, startHeartbeat_set hset]
        exact .started (by rw [startsHeartbeat, hm]; exact hset) rfl rfl rfl
    | error e =>
      exact hkept _ (by rw [startsHeartbeat, hm]) ⟨⟨le_rfl, fun _ h => h, fun _ h => h⟩, rfl⟩
  | resumeConnect caller result =>
    exact hkept _ (by rw [startsHeartbeat, hm]) ⟨⟨le_rfl, fun _ h => h, fun _ h => h⟩, rfl⟩
  | resumeJoined caller result =>
    exact hkept _ (by rw [startsHeartbeat, hm]) ⟨⟨le_rfl, fun _ h => h, fun _ h => h⟩, rfl⟩
  | resumeCaller caller result =>
    refine hkept _ (by rw [startsHeartbeat, hm]) ?_
    cases caller with
    | user n => exact ⟨⟨le_rfl, fun _ h => h, fun _ h => h⟩, rfl⟩
    | reconnectTimer =>
      cases result with
      | ok u => exact ⟨⟨le_rfl, fun _ h => h, fun _ h => h⟩, rfl⟩
      | error e =>
        obtain ⟨⟨hn, ht, hb⟩, hl⟩ := keepsBeat_scheduleReconnect t o
          { w with microtasks := tasks, state := .reconnecting }
        exact ⟨⟨hn, ht, hb⟩, hl⟩

theorem beatStep_of_answer (t : TimerId) {e : Event} (h : Answer o w e w') :
    BeatStep o t w e w' := by
  have hkept : ∀ {e : Event} {v : World}, (∀ s chunk now, e ≠ .socketData s chunk now) →
      (∀ now, e ≠ .microtask now) → KeepsBeat t w v → BeatStep o t w e v :=
    fun hd hm hk => .kept hd (fun now he => absurd he (hm now)) hk
  cases h with
  | connect n =>
    exact hkept (fun _ _ _ h => by cases h) (fun _ h => by cases h) (keepsBeat_connect t w _)
  | close => exact hkept (fun _ _ _ h => by cases h) (fun _ h => by cases h) (keepsBeat_close t w)
  | send id payload =>
    exact hkept (fun _ _ _ h => by cases h) (fun _ h => by cases h) (keepsBeat_send t w id payload)
  | timer _ _ hr =>
    exact hkept (fun _ _ _ h => by cases h) (fun _ h => by cases h) (beatStep_runTimer t hr)
  | @socketConnect s =>
    refine hkept (fun _ _ _ h => by cases h) (fun _ h => by cases h) ?_
    obtain ⟨⟨hn, ht, hb⟩, hl⟩ :=
      keepsBeat_resumeAttempt t (w.updateSocket s fun k => { k with connected := true }) s (.ok ())
    exact ⟨⟨hn, ht, hb⟩, hl⟩
  | @socketError s error =>
    refine hkept (fun _ _ _ h => by cases h) (fun _ h => by cases h) ?_
    refine KeepsBeat.trans ?_ (keepsBeat_resumeAttempt t _ s (.error error))
    obtain ⟨⟨hn, ht, hb⟩, hl⟩ := keepsBeat_handleUnexpectedDisconnect t o
      (w.updateSocket s fun k => { k with destroyed := true }) error
    exact ⟨⟨hn, ht, hb⟩, hl⟩
  | socketDestroyed =>
    exact hkept (fun _ _ _ h => by cases h) (fun _ h => by cases h)
      ⟨⟨le_rfl, fun _ h => h, fun _ h => h⟩, rfl⟩
  | @socketClose s =>
    refine hkept (fun _ _ _ h => by cases h) (fun _ h => by cases h) ?_
    obtain ⟨⟨hn, ht, hb⟩, hl⟩ := keepsBeat_handleUnexpectedDisconnect t o
      (w.updateSocket s fun k => { k with closed := true }) connectionClosed
    exact ⟨⟨hn, ht, hb⟩, hl⟩
  | @socketData s chunk now _ _ _ _ hd =>
    obtain ⟨messages, hp, hf⟩ := handleData_eq_ok hd
    obtain ⟨⟨hn, ht, hb⟩, hl⟩ := handleMessages_beat t hf
    refine .data ⟨hn, ht, hb⟩ ?_
    have hcodec : (w.receive s chunk).codec = w.codec := rfl
    rw [hcodec] at hp
    rw [hl, pongs, hp]
    rfl
  | @microtask now task tasks hm => exact beatStep_runMicrotask t now hm

end World

end WeisleyRpc.Client
