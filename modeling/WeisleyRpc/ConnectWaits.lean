import WeisleyRpc.ReconnectState

/-!
# Nobody who awaits `connect` is forgotten

A call of `connect` that has not been told how it ended awaits the attempt in flight, or one of
the queued continuations goes back to it. What a caller was told is kept.
-/

namespace WeisleyRpc.Client

/-- The call of `connect` that a continuation goes back to. -/
def Microtask.caller : Microtask → Option Caller
  | .resumeDoConnect _ _ => none
  | .resumeConnect caller _ | .resumeJoined caller _ | .resumeCaller caller _ => some caller

namespace World

/-- The caller started the attempt in flight or joined it. -/
def AwaitsAttempt (w : World) (caller : Caller) : Prop :=
  ∃ s, w.connectionPromise = some s ∧ (w.sockets s).attempt.isSettled = false ∧
    caller ∈ (w.sockets s).starter :: (w.sockets s).joined

def AwaitsContinuation (w : World) (caller : Caller) : Prop :=
  ∃ task ∈ w.microtasks, task.caller = some caller

def Awaits (w : World) (caller : Caller) : Prop :=
  w.AwaitsAttempt caller ∨ w.AwaitsContinuation caller

def Told (w : World) (n : ℕ) : Prop := ∃ result, (n, result) ∈ w.connects

variable {o : RpcConnectionOptions} {u v w w' : World} {caller : Caller} {n : ℕ}

theorem Awaits.keep (h : w.Awaits caller) (hc : SameCalls w v) : v.Awaits caller := by
  rcases h with ⟨s, hp, hat, hmem⟩ | ⟨task, hmem, hcaller⟩
  · refine Or.inl ⟨s, hc.connectionPromise.trans hp, ?_, ?_⟩
    · rw [hc.attempt, hat]
    · rwa [hc.starter, hc.joined]
  · exact Or.inr ⟨task, hc.microtasks ▸ hmem, hcaller⟩

theorem awaits_enqueue {tasks : List Microtask} {task : Microtask} (hmem : task ∈ tasks)
    (hcaller : task.caller = some caller) : (w.enqueue tasks).Awaits caller :=
  Or.inr ⟨task, List.mem_append_right _ hmem, hcaller⟩

theorem AwaitsContinuation.enqueue (h : w.AwaitsContinuation caller) (tasks : List Microtask) :
    (w.enqueue tasks).AwaitsContinuation caller := by
  obtain ⟨task, hmem, hcaller⟩ := h
  exact ⟨task, List.mem_append_left _ hmem, hcaller⟩

theorem Awaits.enqueue (h : w.Awaits caller) (tasks : List Microtask) :
    (w.enqueue tasks).Awaits caller := h.imp id fun h => h.enqueue tasks

theorem attempt_join (w : World) (s s' : SocketId) (other : Caller) :
    ((w.updateSocket s fun k => { k with joined := k.joined ++ [other] }).sockets s').attempt =
      (w.sockets s').attempt :=
  w.updateSocket_field s s' Socket.attempt fun _ => rfl

theorem Awaits.join (h : w.Awaits caller) (s : SocketId) (other : Caller) :
    (w.updateSocket s fun k => { k with joined := k.joined ++ [other] }).Awaits caller := by
  rcases h with ⟨s', hp, hat, hmem⟩ | h
  · refine Or.inl ⟨s', hp, ?_, ?_⟩
    · rw [attempt_join, hat]
    · rw [sockets_updateSocket]
      split_ifs with hss
      · rw [hss] at hmem
        exact List.mem_append_left [other] hmem
      · exact hmem
  · exact Or.inr h

/-- Whoever waited goes on waiting, and so does the new caller. -/
theorem Awaits.connect (h : w.Awaits caller) (other : Caller) : (w.connect other).Awaits caller := by
  rcases connect_cases w other with ⟨-, -, he⟩ | ⟨-, ⟨s, -, he⟩ | ⟨hp, he⟩⟩ <;> rw [he]
  · exact h.enqueue _
  · rcases join_cases w s other with ⟨result, -, hj⟩ | ⟨-, hj⟩ <;> rw [hj]
    · exact h.enqueue _
    · exact h.join s other
  · rcases h with ⟨s, hs, -⟩ | h
    · rw [hp] at hs
      cases hs
    · exact Or.inr h

theorem awaits_connect (w : World) (caller : Caller) : (w.connect caller).Awaits caller := by
  rcases connect_cases w caller with ⟨-, -, he⟩ | ⟨-, ⟨s, hp, he⟩ | ⟨-, he⟩⟩ <;> rw [he]
  · exact awaits_enqueue List.mem_cons_self rfl
  · rcases join_cases w s caller with ⟨result, -, hj⟩ | ⟨hopen, hj⟩ <;> rw [hj]
    · exact awaits_enqueue List.mem_cons_self rfl
    · refine Or.inl ⟨s, hp, ?_, ?_⟩
      · rw [attempt_join]
        cases hat : (w.sockets s).attempt with
        | settled result => exact absurd hat (hopen result)
        | awaiting | resuming => rfl
      · rw [sockets_updateSocket, if_pos rfl]
        simp
  · refine Or.inl ⟨w.nextSocket, rfl, ?_, ?_⟩ <;> simp [doConnect, Socket.new, Attempt.isSettled]

theorem Awaits.resumeAttempt (h : w.Awaits caller) (s : SocketId) (result : Result) :
    (w.resumeAttempt s result).Awaits caller := by
  rcases resumeAttempt_cases w s result with ⟨-, he⟩ | ⟨-, he⟩ <;> rw [he]
  · rcases h with ⟨s', hp, hat, hmem⟩ | h
    · refine Or.inl ⟨s', hp, ?_, ?_⟩
      · rw [sockets_enqueue, sockets_updateSocket]
        split_ifs
        · rfl
        · exact hat
      · rw [sockets_enqueue, sockets_updateSocket]
        split_ifs with hss
        · rw [hss] at hmem
          exact hmem
        · exact hmem
    · exact Or.inr (AwaitsContinuation.enqueue (w := w.updateSocket s _) h _)
  · exact h

/-- The attempt settles: the starter's continuation and those of the others are queued. -/
theorem Awaits.settleAttempt (h : w.Awaits caller) (s : SocketId) (result : Result)
    (hcurrent : ∀ s', w.connectionPromise = some s' → s' = s) :
    (w.settleAttempt s result).Awaits caller := by
  rcases h with ⟨s', hp, hat, hmem⟩ | h
  · obtain rfl := hcurrent s' hp
    rcases List.mem_cons.mp hmem with hstarter | hjoined
    · exact awaits_enqueue List.mem_cons_self (congrArg some hstarter.symm)
    · have hqueued := List.mem_map_of_mem (f := fun joined => Microtask.resumeJoined joined result)
        hjoined
      exact awaits_enqueue (List.mem_cons_of_mem _ hqueued) rfl
  · exact Or.inr (AwaitsContinuation.enqueue (w := w.updateSocket s _) h _)

/-- A continuation that is not the caller's last one leaves him waiting. -/
theorem Awaits.runMicrotask (h : w.Awaits (.user n)) (ha : w.AttemptWf) {task : Microtask}
    {tasks : List Microtask} (hm : w.microtasks = task :: tasks) (now : ℚ) :
    (runMicrotask o { w with microtasks := tasks } now task).Awaits (.user n) ∨
      (runMicrotask o { w with microtasks := tasks } now task).Told n := by
  have hpop : task.caller ≠ some (.user n) →
      { w with microtasks := tasks : World }.Awaits (.user n) := by
    intro hne
    rcases h with h | ⟨task', hmem, hcaller⟩
    · exact Or.inl h
    · rw [hm] at hmem
      rcases List.mem_cons.mp hmem with rfl | hmem
      · exact absurd hcaller hne
      · exact Or.inr ⟨task', hmem, hcaller⟩
  cases task with
  | resumeDoConnect s result =>
    obtain ⟨hp, -, -⟩ := ha.of_resumeDoConnect hm
    have hwaits := hpop (by simp [Microtask.caller])
    have hcurrent : ∀ s', w.connectionPromise = some s' → s' = s := fun s' hs' =>
      Option.some.inj (hs'.symm.trans hp)
    cases result with
    | ok u =>
      have hsame := sameSockets_startHeartbeat o { w with
        microtasks := tasks, state := .connected, reconnectAttempts := 0 } now
      have hkept : SameCalls { w with microtasks := tasks } (startHeartbeat o { w with
          microtasks := tasks, state := .connected, reconnectAttempts := 0 } now) :=
        ⟨hsame.calls.nextSocket, hsame.calls.connectionPromise, hsame.calls.microtasks,
          hsame.calls.attempt, hsame.calls.starter, hsame.calls.joined⟩
      refine Or.inl ((hwaits.keep hkept).settleAttempt s _ fun s' hs' => hcurrent s' ?_)
      exact hkept.connectionPromise.symm.trans hs'
    | error e => exact Or.inl (hwaits.settleAttempt s _ hcurrent)
  | resumeConnect other result =>
    obtain ⟨s, hp, hat, -, -⟩ := ha.of_resumeConnect hm
    by_cases hother : other = .user n
    · exact Or.inl (awaits_enqueue List.mem_cons_self (congrArg some hother))
    · have hwaits := hpop fun hc => hother (Option.some.inj hc)
      refine Or.inl (Awaits.enqueue ?_ _)
      rcases hwaits with ⟨s', hp', hopen, -⟩ | hqueued
      · obtain rfl := Option.some.inj (hp.symm.trans hp')
        rw [hat] at hopen
        cases hopen
      · exact Or.inr hqueued
  | resumeJoined other result =>
    by_cases hother : other = .user n
    · exact Or.inl (awaits_enqueue List.mem_cons_self (congrArg some hother))
    · exact Or.inl ((hpop fun hc => hother (Option.some.inj hc)).enqueue _)
  | resumeCaller other result =>
    cases other with
    | user m =>
      by_cases hother : m = n
      · exact Or.inr ⟨result, by rw [← hother]; exact List.mem_append_right _ List.mem_cons_self⟩
      · refine Or.inl ((hpop fun hc => hother ?_).keep
          ⟨rfl, rfl, rfl, fun _ => rfl, fun _ => rfl, fun _ => rfl⟩)
        exact Caller.user.inj (Option.some.inj hc)
    | reconnectTimer =>
      have hwaits := hpop (by simp [Microtask.caller])
      cases result with
      | ok u => exact Or.inl hwaits
      | error e =>
        have hstate : { w with microtasks := tasks, state := .reconnecting : World }.Awaits
            (.user n) := hwaits
        exact Or.inl (hstate.keep (sameSockets_scheduleReconnect o _).calls)

/-- A caller who waits is told in the next step, or waits on. -/
theorem Awaits.step {e : Event} (h : w.Awaits (.user n)) (ht : w.TimersWf) (ha : w.AttemptWf)
    (hs : (machine o).Step w e w') : w'.Awaits (.user n) ∨ w'.Told n := by
  cases loopStep_of_step ht hs with
  | quiet _ _ _ calls => exact Or.inl (h.keep calls)
  | disconnect _ _ _ calls => exact Or.inl (h.keep calls)
  | connect m => exact Or.inl (h.connect _)
  | close closes => exact Or.inl (h.keep closes.calls)
  | lapse _ _ _ fired => exact Or.inl (h.keep fired.calls)
  | fire _ _ _ fired => exact Or.inl ((h.keep fired.calls).connect _)
  | connected _ _ _ calls => exact Or.inl ((h.keep calls).resumeAttempt _ _)
  | failed _ _ calls => exact Or.inl ((h.keep calls).resumeAttempt _ _)
  | microtask queued => exact h.runMicrotask ha queued _

/-- What was recorded is kept. -/
structure Extends (w v : World) : Prop where
  connects : w.connects <+: v.connects
  accepted : w.accepted <+: v.accepted
  settled : w.settled <+: v.settled
  refused : w.refused <+: v.refused

namespace Extends

theorem refl (w : World) : Extends w w :=
  ⟨List.prefix_rfl, List.prefix_rfl, List.prefix_rfl, List.prefix_rfl⟩

theorem trans (h : Extends u v) (h' : Extends v w) : Extends u w :=
  ⟨h.connects.trans h'.connects, h.accepted.trans h'.accepted, h.settled.trans h'.settled,
    h.refused.trans h'.refused⟩

theorem of_eq (hc : v.connects = w.connects) (ha : v.accepted = w.accepted)
    (hs : v.settled = w.settled) (hr : v.refused = w.refused) : Extends w v :=
  ⟨hc ▸ List.prefix_rfl, ha ▸ List.prefix_rfl, hs ▸ List.prefix_rfl, hr ▸ List.prefix_rfl⟩

theorem connect (w : World) (caller : Caller) : Extends w (w.connect caller) := by
  rcases connect_cases w caller with ⟨-, -, he⟩ | ⟨-, ⟨s, -, he⟩ | ⟨-, he⟩⟩ <;> rw [he]
  · exact of_eq rfl rfl rfl rfl
  · rcases join_cases w s caller with ⟨result, -, hj⟩ | ⟨-, hj⟩ <;> rw [hj] <;>
      exact of_eq rfl rfl rfl rfl
  · exact of_eq rfl rfl rfl rfl

theorem dropped (w : World) (error : JsError) : Extends w (w.dropped error) :=
  ⟨List.prefix_rfl, List.prefix_rfl, List.prefix_append _ _, List.prefix_rfl⟩

theorem scheduleReconnect (o : RpcConnectionOptions) (w : World) :
    Extends w (scheduleReconnect o w) := by
  rcases scheduleReconnect_cases o w with ⟨he, -⟩ | ⟨-, -, he⟩ <;> rw [he]
  · exact refl w
  · exact of_eq rfl rfl rfl rfl

theorem handleUnexpectedDisconnect (o : RpcConnectionOptions) (w : World) (error : JsError) :
    Extends w (handleUnexpectedDisconnect o w error) := by
  rw [handleUnexpectedDisconnect_eq]
  split_ifs
  · exact dropped w error
  · have hdropped : Extends w { w.dropped error with state := .reconnecting } :=
      ⟨List.prefix_rfl, List.prefix_rfl, List.prefix_append _ _, List.prefix_rfl⟩
    exact hdropped.trans (scheduleReconnect o _)

theorem startHeartbeat (o : RpcConnectionOptions) (w : World) (now : ℚ) :
    Extends w (startHeartbeat o w now) := by
  rcases startHeartbeat_cases o w now with he | he <;> rw [he]
  · exact refl w
  · exact of_eq rfl rfl rfl rfl

theorem resumeAttempt (w : World) (s : SocketId) (result : Result) :
    Extends w (w.resumeAttempt s result) := by
  rcases resumeAttempt_cases w s result with ⟨-, he⟩ | ⟨-, he⟩ <;> rw [he]
  · exact of_eq rfl rfl rfl rfl
  · exact refl w

theorem write (w : World) (s : SocketId) (payload : Buffer) : Extends w (w.write s payload) := by
  unfold World.write
  split_ifs
  · exact refl w
  · exact of_eq rfl rfl rfl rfl

theorem close (w : World) : Extends w w.close := by
  rw [close_eq, cancelReconnect_eq]
  refine trans (v := (World.dropped { w with
    manuallyClosed := true
    state := .closed
    reconnectTimer := none
    timers := w.timers.deleteAll w.reconnectTimer.toList } connectionClosed)) ?_ ?_
  · exact ⟨List.prefix_rfl, List.prefix_rfl, List.prefix_append _ _, List.prefix_rfl⟩
  · unfold endSocket
    split
    · exact refl _
    · exact of_eq rfl rfl rfl rfl

theorem send (w : World) (id : String) (payload : Buffer) : Extends w (w.send id payload) := by
  rcases send_cases w id payload with ⟨e, he⟩ | ⟨s, -, -, he⟩ <;> rw [he]
  · exact ⟨List.prefix_rfl, List.prefix_rfl, List.prefix_rfl, List.prefix_append _ _⟩
  · have hwrite := write (w.setTimer (.callTimeout id w.nextCall)) s payload
    exact ⟨hwrite.connects, List.prefix_append _ _, hwrite.settled, hwrite.refused⟩

theorem runTimer {t : TimerId} {now : ℚ} {uuid : String} {task : TimerTask}
    (h : runTimer o w t now uuid task = .ok w') : Extends w w' := by
  rcases runTimer_cases h with ⟨id, call, rfl, rfl⟩ | ⟨delay, rfl, hw⟩ | ⟨s, rfl, hb⟩
  · exact ⟨List.prefix_rfl, List.prefix_rfl, List.prefix_append _ _, List.prefix_rfl⟩
  · have hcleared : Extends w { w.clearTimer t with reconnectTimer := none } := of_eq rfl rfl rfl rfl
    rcases hw with ⟨-, rfl⟩ | ⟨-, rfl⟩
    · exact hcleared
    · exact hcleared.trans (connect _ _)
  · rcases heartbeatTick_cases hb with ⟨-, rfl⟩ | ⟨s, -, ⟨-, error, rfl⟩ | ⟨-, packet, -, rfl⟩⟩
    · rw [stopHeartbeat_eq]
      exact of_eq rfl rfl rfl rfl
    · exact (handleUnexpectedDisconnect o w error).trans (of_eq rfl rfl rfl rfl)
    · exact write w s packet

theorem handleData {s : SocketId} {chunk : Buffer} {now : ℚ}
    (h : w.handleData s chunk now = .ok w') :
    Extends w w' := by
  obtain ⟨messages, -, hf⟩ := handleData_eq_ok h
  refine List.foldlM_invariant (I := fun v : World => Extends w v) ?_ hf (of_eq rfl rfl rfl rfl)
  intro v m v' hv hm
  refine hv.trans ?_
  rcases handleMessage_cases hm with ⟨-, at', rfl⟩ | ⟨id, p, outcome, -, -, -, rfl⟩
  · exact of_eq rfl rfl rfl rfl
  · exact ⟨List.prefix_rfl, List.prefix_rfl, List.prefix_append _ _, List.prefix_rfl⟩

theorem runMicrotask (o : RpcConnectionOptions) (w : World) (now : ℚ) (task : Microtask) :
    Extends w (runMicrotask o w now task) := by
  cases task with
  | resumeDoConnect s result =>
    cases result with
    | ok u =>
      have hstarted := startHeartbeat o { w with state := .connected, reconnectAttempts := 0 } now
      exact ⟨hstarted.connects, hstarted.accepted, hstarted.settled, hstarted.refused⟩
    | error e => exact of_eq rfl rfl rfl rfl
  | resumeConnect caller result => exact of_eq rfl rfl rfl rfl
  | resumeJoined caller result => exact of_eq rfl rfl rfl rfl
  | resumeCaller caller result =>
    cases caller with
    | user n => exact ⟨List.prefix_append _ _, List.prefix_rfl, List.prefix_rfl, List.prefix_rfl⟩
    | reconnectTimer =>
      cases result with
      | ok u => exact of_eq rfl rfl rfl rfl
      | error e =>
        have hscheduled := scheduleReconnect o { w with state := .reconnecting }
        exact ⟨hscheduled.connects, hscheduled.accepted, hscheduled.settled, hscheduled.refused⟩

theorem step {e : Event} (hs : (machine o).Step w e w') : Extends w w' := by
  cases answer_of_step hs with
  | connect n => exact connect w _
  | close => exact close w
  | send id payload => exact send w id payload
  | timer _ _ hr => exact runTimer hr
  | @socketConnect s =>
    have hflag : Extends w (w.updateSocket s fun k => { k with connected := true }) :=
      of_eq rfl rfl rfl rfl
    exact hflag.trans (resumeAttempt _ _ _)
  | @socketError s error =>
    have hflag : Extends w (w.updateSocket s fun k => { k with destroyed := true }) :=
      of_eq rfl rfl rfl rfl
    exact (hflag.trans (handleUnexpectedDisconnect o _ error)).trans (resumeAttempt _ _ _)
  | socketDestroyed => exact of_eq rfl rfl rfl rfl
  | @socketClose s =>
    have hflag : Extends w (w.updateSocket s fun k => { k with closed := true }) :=
      of_eq rfl rfl rfl rfl
    exact hflag.trans (handleUnexpectedDisconnect o _ _)
  | @socketData s chunk now _ _ _ _ hd =>
    have hreceived : Extends w (w.receive s chunk) := of_eq rfl rfl rfl rfl
    exact hreceived.trans (handleData hd)
  | @microtask now task tasks =>
    have hpopped : Extends w { w with microtasks := tasks } := of_eq rfl rfl rfl rfl
    exact hpopped.trans (runMicrotask o _ now task)

end Extends

theorem Told.extends (h : w.Told n) (he : Extends w v) : v.Told n := by
  obtain ⟨result, hmem⟩ := h
  exact ⟨result, he.connects.subset hmem⟩

end World

end WeisleyRpc.Client
