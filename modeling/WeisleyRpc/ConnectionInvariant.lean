import WeisleyRpc.ConnectionOps

/-!
# Invariants of every connection

Which timers are armed and what they belong to, and how far the connect attempt in
flight has come. Both hold in every reachable state, whatever the callers do.
-/

namespace WeisleyRpc.Client

/-- Every timer field names an armed timer of its own kind, every pending call has its
own armed timer, and the only armed reconnect timer is `reconnectTimer`. -/
structure TimersWf (timers : OrderedMap TimerId TimerTask) (nextTimer : TimerId)
    (heartbeatTimer reconnectTimer : Option TimerId)
    (pending : OrderedMap String PendingRequest) : Prop where
  fresh : ∀ t, nextTimer ≤ t → timers.get t = none
  heartbeat : ∀ t, heartbeatTimer = some t → ∃ s, timers.get t = some (.heartbeat s)
  reconnect : ∀ t, reconnectTimer = some t → ∃ delay, timers.get t = some (.reconnect delay)
  reconnect_armed : ∀ t delay, timers.get t = some (.reconnect delay) → reconnectTimer = some t
  call : ∀ id p, pending.get id = some p → timers.get p.timer = some (.callTimeout id p.call)

namespace TimersWf
variable {timers : OrderedMap TimerId TimerTask} {n : TimerId} {hb rc : Option TimerId}
  {pending : OrderedMap String PendingRequest}

theorem lt (h : TimersWf timers n hb rc pending) {t : TimerId} {task : TimerTask}
    (ht : timers.get t = some task) : t < n := by
  rcases Nat.lt_or_ge t n with hlt | hge
  · exact hlt
  · simp [h.fresh t hge] at ht

theorem setTimer_call (h : TimersWf timers n hb rc pending) (id : String) (call : CallId) :
    TimersWf (timers.set n (.callTimeout id call)) (n + 1) hb rc (pending.set id ⟨call, n⟩) := by
  have hne : ∀ {t task}, timers.get t = some task → t ≠ n := fun ht => Nat.ne_of_lt (h.lt ht)
  refine ⟨fun t ht => ?_, fun t ht => ?_, fun t ht => ?_, fun t delay ht => ?_, fun id' p hp => ?_⟩
  · rw [OrderedMap.get_set, if_neg (Nat.ne_of_gt ht)]
    exact h.fresh t (Nat.le_of_succ_le ht)
  · obtain ⟨s, hs⟩ := h.heartbeat t ht
    exact ⟨s, by rw [OrderedMap.get_set, if_neg (hne hs), hs]⟩
  · obtain ⟨delay, hd⟩ := h.reconnect t ht
    exact ⟨delay, by rw [OrderedMap.get_set, if_neg (hne hd), hd]⟩
  · rw [OrderedMap.get_set] at ht
    split_ifs at ht
    · cases ht
    · exact h.reconnect_armed t delay ht
  · rw [OrderedMap.get_set] at hp
    split_ifs at hp with hid
    · obtain rfl := Option.some.inj hp
      rw [OrderedMap.get_set, if_pos rfl, hid]
    · have := h.call id' p hp
      rw [OrderedMap.get_set, if_neg (hne this), this]

theorem setTimer_heartbeat (h : TimersWf timers n hb rc pending) (s : Option SocketId) :
    TimersWf (timers.set n (.heartbeat s)) (n + 1) (some n) rc pending := by
  have hne : ∀ {t task}, timers.get t = some task → t ≠ n := fun ht => Nat.ne_of_lt (h.lt ht)
  refine ⟨fun t ht => ?_, fun t ht => ?_, fun t ht => ?_, fun t delay ht => ?_, fun id p hp => ?_⟩
  · rw [OrderedMap.get_set, if_neg (Nat.ne_of_gt ht)]
    exact h.fresh t (Nat.le_of_succ_le ht)
  · obtain rfl := Option.some.inj ht
    exact ⟨s, by rw [OrderedMap.get_set, if_pos rfl]⟩
  · obtain ⟨delay, hd⟩ := h.reconnect t ht
    exact ⟨delay, by rw [OrderedMap.get_set, if_neg (hne hd), hd]⟩
  · rw [OrderedMap.get_set] at ht
    split_ifs at ht
    · cases ht
    · exact h.reconnect_armed t delay ht
  · have := h.call id p hp
    rw [OrderedMap.get_set, if_neg (hne this), this]

theorem setTimer_reconnect (h : TimersWf timers n hb none pending) (delay : ℚ) :
    TimersWf (timers.set n (.reconnect delay)) (n + 1) hb (some n) pending := by
  have hne : ∀ {t task}, timers.get t = some task → t ≠ n := fun ht => Nat.ne_of_lt (h.lt ht)
  refine ⟨fun t ht => ?_, fun t ht => ?_, fun t ht => ?_, fun t delay' ht => ?_, fun id p hp => ?_⟩
  · rw [OrderedMap.get_set, if_neg (Nat.ne_of_gt ht)]
    exact h.fresh t (Nat.le_of_succ_le ht)
  · obtain ⟨s, hs⟩ := h.heartbeat t ht
    exact ⟨s, by rw [OrderedMap.get_set, if_neg (hne hs), hs]⟩
  · obtain rfl := Option.some.inj ht
    exact ⟨delay, by rw [OrderedMap.get_set, if_pos rfl]⟩
  · rw [OrderedMap.get_set] at ht
    split_ifs at ht with he
    · rw [he]
    · cases h.reconnect_armed t delay' ht
  · have := h.call id p hp
    rw [OrderedMap.get_set, if_neg (hne this), this]

/-- Clearing timers is harmless when no field that stays names one of them. -/
theorem clear (h : TimersWf timers n hb rc pending) (ts : List TimerId)
    {hb' rc' : Option TimerId} {pending' : OrderedMap String PendingRequest}
    (hhb : ∀ t, hb' = some t → hb = some t ∧ t ∉ ts)
    (hrc : ∀ t, rc' = some t ↔ rc = some t ∧ t ∉ ts)
    (hp : ∀ id p, pending'.get id = some p → pending.get id = some p ∧ p.timer ∉ ts) :
    TimersWf (timers.deleteAll ts) n hb' rc' pending' := by
  refine ⟨fun t ht => ?_, fun t ht => ?_, fun t ht => ?_, fun t delay ht => ?_, fun id p hg => ?_⟩
  · rw [OrderedMap.get_deleteAll, h.fresh t ht, ite_self]
  · obtain ⟨hb, hn⟩ := hhb t ht
    rw [OrderedMap.get_deleteAll, if_neg hn]
    exact h.heartbeat t hb
  · obtain ⟨hr, hn⟩ := (hrc t).mp ht
    rw [OrderedMap.get_deleteAll, if_neg hn]
    exact h.reconnect t hr
  · rw [OrderedMap.get_deleteAll] at ht
    split_ifs at ht with hn
    exact (hrc t).mpr ⟨h.reconnect_armed t delay ht, hn⟩
  · obtain ⟨hg, hn⟩ := hp id p hg
    rw [OrderedMap.get_deleteAll, if_neg hn]
    exact h.call id p hg

end TimersWf

namespace World

def TimersWf (w : World) : Prop :=
  Client.TimersWf w.timers w.nextTimer w.heartbeatTimer w.reconnectTimer w.pending

theorem timersWf_init (codec : RpcCodec) : (World.init codec).TimersWf := by
  constructor <;> simp [World.init]

/-- The timer of a pending call is neither the heartbeat's nor the reconnect timer. -/
theorem TimersWf.call_ne {w : World} (h : w.TimersWf) {id : String} {call : CallId} {t : TimerId}
    (ht : w.timers.get t = some (.callTimeout id call)) :
    w.heartbeatTimer ≠ some t ∧ w.reconnectTimer ≠ some t := by
  constructor
  · intro hb
    obtain ⟨s, hs⟩ := h.heartbeat t hb
    simp [hs] at ht
  · intro hr
    obtain ⟨delay, hd⟩ := h.reconnect t hr
    simp [hd] at ht

theorem TimersWf.dropped {w : World} (h : w.TimersWf) (error : JsError) :
    (w.dropped error).TimersWf := by
  refine h.clear _ (by simp [World.dropped]) (fun t => ?_) (by simp [World.dropped])
  refine ⟨fun hr => ⟨hr, fun hmem => ?_⟩, fun hr => hr.1⟩
  obtain ⟨delay, hd⟩ := h.reconnect t hr
  simp only [droppedTimers, List.mem_append, Option.mem_toList, List.mem_map,
    Prod.exists] at hmem
  rcases hmem with hb | ⟨id, p, hp, rfl⟩
  · obtain ⟨s, hs⟩ := h.heartbeat t hb
    simp [hs] at hd
  · have := h.call id p (w.pending.get_eq_some_iff.mpr hp)
    simp [this] at hd

theorem TimersWf.stopHeartbeat {w : World} (h : w.TimersWf) : w.stopHeartbeat.TimersWf := by
  rw [stopHeartbeat_eq]
  refine h.clear _ (by simp) (fun t => ?_) (fun id p hp => ⟨hp, fun hmem => ?_⟩)
  · refine ⟨fun hr => ⟨hr, fun hmem => ?_⟩, fun hr => hr.1⟩
    obtain ⟨delay, hd⟩ := h.reconnect t hr
    obtain ⟨s, hs⟩ := h.heartbeat t (by simpa using hmem)
    simp [hs] at hd
  · exact (h.call_ne (h.call id p hp)).1 (by simpa using hmem)

theorem TimersWf.cancelReconnect {w : World} (h : w.TimersWf) : w.cancelReconnect.TimersWf := by
  rw [cancelReconnect_eq]
  refine h.clear _ (fun t hb => ⟨hb, fun hmem => ?_⟩) (fun t => ?_)
    (fun id p hp => ⟨hp, fun hmem => ?_⟩)
  · obtain ⟨delay, hd⟩ := h.reconnect t (by simpa using hmem)
    obtain ⟨s, hs⟩ := h.heartbeat t hb
    simp [hs] at hd
  · simp
  · exact (h.call_ne (h.call id p hp)).2 (by simpa using hmem)

theorem TimersWf.scheduleReconnect {o : RpcConnectionOptions} {w : World} (h : w.TimersWf) :
    (scheduleReconnect o w).TimersWf := by
  rcases scheduleReconnect_cases o w with ⟨he, -⟩ | ⟨hr, -, he⟩
  · rwa [he]
  · rw [he]
    unfold TimersWf at h
    rw [hr] at h
    exact h.setTimer_reconnect _

theorem TimersWf.handleUnexpectedDisconnect {o : RpcConnectionOptions} {w : World}
    (h : w.TimersWf) (error : JsError) : (handleUnexpectedDisconnect o w error).TimersWf := by
  rw [handleUnexpectedDisconnect_eq]
  split_ifs
  · exact h.dropped error
  · exact TimersWf.scheduleReconnect (w := { w.dropped error with state := .reconnecting })
      (h.dropped error)

theorem TimersWf.startHeartbeat {o : RpcConnectionOptions} {w : World} (h : w.TimersWf) (now : ℚ) :
    (startHeartbeat o w now).TimersWf := by
  rcases startHeartbeat_cases o w now with he | he <;> rw [he]
  · exact h
  · exact h.setTimer_heartbeat _

/-- The timer of a call is cleared together with the entry that carries the same id. -/
theorem TimersWf.clearCall {w : World} (h : w.TimersWf) {id : String} {call : CallId} {t : TimerId}
    (ht : w.timers.get t = some (.callTimeout id call)) :
    Client.TimersWf (w.timers.delete t) w.nextTimer w.heartbeatTimer w.reconnectTimer
      (w.pending.delete id) := by
  obtain ⟨hb, hr⟩ := h.call_ne ht
  refine TimersWf.clear h [t] (fun t' hb' => ⟨hb', ?_⟩) (fun t' => ?_) (fun id' p hp => ?_)
  · rw [List.mem_singleton]
    rintro rfl
    exact hb hb'
  · refine ⟨fun hr' => ⟨hr', ?_⟩, fun hr' => hr'.1⟩
    rw [List.mem_singleton]
    rintro rfl
    exact hr hr'
  · rw [OrderedMap.get_delete] at hp
    split_ifs at hp with hid
    refine ⟨hp, ?_⟩
    rw [List.mem_singleton]
    rintro rfl
    have := ht.symm.trans (h.call id' p hp)
    simp only [Option.some.injEq, TimerTask.callTimeout.injEq] at this
    exact hid this.1.symm

theorem TimersWf.same {w v : World} (h : w.TimersWf) (hs : SameTables w v) : v.TimersWf := by
  unfold TimersWf
  rw [hs.timers, hs.nextTimer, hs.heartbeatTimer, hs.reconnectTimer, hs.pending]
  exact h

theorem TimersWf.answered {w : World} (h : w.TimersWf) {id : String} {p : PendingRequest}
    (hp : w.pending.get id = some p) (outcome : Except JsError JsValue) (message : JsValue) :
    (w.answered id p outcome message).TimersWf := h.clearCall (h.call id p hp)

theorem TimersWf.handleMessage {w w' : World} (h : w.TimersWf) {s : SocketId}
    {message : JsValue} {now : ℚ} (hm : handleMessage s now w message = .ok w') : w'.TimersWf := by
  rcases handleMessage_cases hm with ⟨-, at', rfl⟩ | ⟨id, p, outcome, -, hp, -, rfl⟩
  · exact h
  · exact h.answered (pendingOf_eq_some_iff.mp hp).2 outcome message

theorem TimersWf.handleData {w w' : World} (h : w.TimersWf) {s : SocketId} {chunk : Buffer}
    {now : ℚ} (hd : w.handleData s chunk now = .ok w') : w'.TimersWf := by
  obtain ⟨messages, -, hf⟩ := handleData_eq_ok hd
  exact List.foldlM_invariant (I := TimersWf) (fun _ _ _ hi hm => hi.handleMessage hm) hf h

theorem TimersWf.runTimer {o : RpcConnectionOptions} {w w' : World} (h : w.TimersWf) {t : TimerId}
    {now : ℚ} {uuid : String} {task : TimerTask} (ht : w.timers.get t = some task)
    (hr : runTimer o w t now uuid task = .ok w') : w'.TimersWf := by
  rcases runTimer_cases hr with ⟨id, call, rfl, rfl⟩ | ⟨delay, rfl, hw⟩ | ⟨s, rfl, hb⟩
  · exact h.clearCall ht
  · have hc : { w.clearTimer t with reconnectTimer := none : World }.TimersWf := by
      refine TimersWf.clear h [t] (fun t' hb => ⟨hb, ?_⟩) (fun t' => ?_)
        (fun id p hp => ⟨hp, ?_⟩)
      · rw [List.mem_singleton]
        rintro rfl
        obtain ⟨s, hs⟩ := h.heartbeat _ hb
        simp [hs] at ht
      · simp [h.reconnect_armed t delay ht, eq_comm]
      · rw [List.mem_singleton]
        intro he
        have := h.call id p hp
        simp [he, ht] at this
    rcases hw with ⟨-, rfl⟩ | ⟨-, rfl⟩
    · exact hc
    · exact hc.same (sameTables_connect _ _)
  · rcases heartbeatTick_cases hb with ⟨-, rfl⟩ | ⟨s, -, ⟨-, error, rfl⟩ | ⟨-, packet, -, rfl⟩⟩
    · exact h.stopHeartbeat
    · exact h.handleUnexpectedDisconnect error
    · exact h.same (sameTables_write w s packet)

theorem TimersWf.runMicrotask {o : RpcConnectionOptions} {w : World} (h : w.TimersWf) (now : ℚ)
    (task : Microtask) : (runMicrotask o w now task).TimersWf := by
  rcases runMicrotask_tables o w now task with hs | ⟨v, hv, hs⟩ | ⟨v, hv, he⟩
  · exact h.same hs
  · exact ((h.same hv).startHeartbeat now).same hs
  · rw [he]
    exact (h.same hv).scheduleReconnect

theorem TimersWf.send {w : World} (h : w.TimersWf) (id : String) (payload : Buffer) :
    (w.send id payload).TimersWf := by
  rcases send_cases w id payload with ⟨e, he⟩ | ⟨s, -, -, he⟩ <;> rw [he]
  · exact h
  · have hw := sameTables_write (w.setTimer (.callTimeout id w.nextCall)) s payload
    unfold World.TimersWf World.sent
    rw [hw.timers, hw.nextTimer, hw.heartbeatTimer, hw.reconnectTimer]
    exact h.setTimer_call id w.nextCall

theorem TimersWf.close {w : World} (h : w.TimersWf) : w.close.TimersWf := by
  rw [close_eq]
  have hc : { w with manuallyClosed := true, state := .closed : World }.TimersWf := h
  exact (hc.cancelReconnect.dropped _).same (sameTables_endSocket _)

theorem TimersWf.step {o : RpcConnectionOptions} {w w' : World} {e : Event} (h : w.TimersWf)
    (hs : (machine o).Step w e w') : w'.TimersWf := by
  cases answer_of_step hs with
  | connect n => exact h.same (sameTables_connect w _)
  | close => exact h.close
  | send id payload => exact h.send id payload
  | timer ht _ hr => exact h.runTimer ht hr
  | @socketConnect s =>
    exact TimersWf.same (w := w.updateSocket s fun k => { k with connected := true }) h
      (sameTables_resumeAttempt _ _ _)
  | @socketError s error =>
    have hd : (w.updateSocket s fun k => { k with destroyed := true }).TimersWf := h
    exact (hd.handleUnexpectedDisconnect error).same (sameTables_resumeAttempt _ _ _)
  | socketDestroyed => exact h
  | @socketClose s =>
    exact TimersWf.handleUnexpectedDisconnect
      (w := w.updateSocket s fun k => { k with closed := true }) h _
  | @socketData s chunk now _ _ _ _ hd =>
    exact TimersWf.handleData (w := w.receive s chunk) h hd
  | @microtask now task tasks =>
    exact TimersWf.runMicrotask (w := { w with microtasks := tasks }) h now task

end World

theorem Reachable.timersWf {o : RpcConnectionOptions} {w : World} (h : Reachable o w) :
    w.TimersWf := by
  obtain ⟨codec, -, hr⟩ := h
  exact hr.invariant (fun _ _ _ hi hs => hi.step hs) (World.timersWf_init codec)

end WeisleyRpc.Client
