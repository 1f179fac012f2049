import WeisleyRpc.ReconnectSteps

/-!
# What the state `reconnecting` promises

The state is written by the disconnect handler and by the `catch` of the reconnect timer's
callback, whether or not `scheduleReconnect` then arms a timer.
-/

namespace WeisleyRpc.Client

def Attempt.isSettled : Attempt → Bool
  | .settled _ => true
  | _ => false

namespace World

/-- A `doConnect` has not returned yet. -/
def InFlight (w : World) : Prop := ∃ s < w.nextSocket, (w.sockets s).attempt.isSettled = false

instance (w : World) : Decidable w.InFlight := inferInstanceAs (Decidable (∃ s < w.nextSocket, _))

/-- The connection will try to connect without being asked: the callback of an armed timer
returns at once when the connection was closed by hand. -/
def TriesAgain (w : World) : Prop :=
  w.InFlight ∨ (w.reconnectTimer.isSome ∧ w.manuallyClosed = false)

instance (w : World) : Decidable w.TriesAgain := inferInstanceAs (Decidable (_ ∨ _))

structure ReconnectComes (w : World) : Prop where
  coming : w.state = .reconnecting → w.reconnectTimer.isSome ∨ w.InFlight
  silent : ¬ w.TriesAgain → w.state ≠ .reconnecting

/-- The steps that leave no `reconnecting` behind without a reconnect: a disconnect finds
reconnecting enabled, a timer armed or an attempt in flight, a failing `doConnect` leaves a
timer that will connect, and so does the `catch` of the timer's callback. -/
def Stays (o : RpcConnectionOptions) (w : World) : Event → Prop
  | .microtask _ =>
    match w.microtasks with
    | .resumeDoConnect _ (.error _) :: _ =>
      w.state = .reconnecting → w.reconnectTimer.isSome ∧ w.manuallyClosed = false
    | .resumeCaller .reconnectTimer (.error _) :: _ =>
      w.InFlight ∨
        ((w.reconnectTimer.isSome ∨ o.reconnect ≠ some false) ∧ w.manuallyClosed = false)
    | _ => True
  | e =>
    w.Disconnects o e → w.manuallyClosed = false →
      w.InFlight ∨ w.reconnectTimer.isSome ∨ o.reconnect ≠ some false

variable {o : RpcConnectionOptions} {v w w' : World}

theorem reconnectComes_iff : w.ReconnectComes ↔ (w.state = .reconnecting → w.TriesAgain) := by
  constructor
  · intro h hstate
    by_contra htries
    exact h.silent htries hstate
  · intro h
    refine ⟨fun hstate => ?_, fun htries hstate => htries (h hstate)⟩
    rcases h hstate with hflight | ⟨htimer, -⟩
    · exact Or.inr hflight
    · exact Or.inl htimer

theorem SameCalls.inFlight_iff (h : SameCalls w v) : v.InFlight ↔ w.InFlight := by
  simp only [InFlight, h.nextSocket, h.attempt]

theorem SameLoop.triesAgain_iff (h : SameLoop w v) (hflight : v.InFlight ↔ w.InFlight) :
    v.TriesAgain ↔ w.TriesAgain := by
  simp only [TriesAgain, hflight, h.reconnectTimer, h.manuallyClosed]

theorem SameLoop.comes_iff (h : SameLoop w v) (hflight : v.InFlight ↔ w.InFlight) :
    v.ReconnectComes ↔ w.ReconnectComes := by
  rw [reconnectComes_iff, reconnectComes_iff, h.state, h.triesAgain_iff hflight]

theorem AttemptWf.inFlight_iff (h : w.AttemptWf) :
    w.InFlight ↔ ∃ s, w.connectionPromise = some s ∧ (w.sockets s).attempt.isSettled = false := by
  constructor
  · rintro ⟨s, hlt, hs⟩
    refine ⟨s, ?_, hs⟩
    by_contra hne
    obtain ⟨r, hr⟩ := h.idle s hlt hne
    rw [hr] at hs
    cases hs
  · rintro ⟨s, hp, hs⟩
    refine ⟨s, ?_, hs⟩
    rw [← h.latest s (h.promise s hp)]
    exact Nat.lt_succ_self s

/-- Without a queued continuation a pending promise is that of a suspended `doConnect`. -/
theorem AttemptWf.awaiting_of_idle (h : w.AttemptWf) (hidle : w.microtasks = []) {s : SocketId}
    (hp : w.connectionPromise = some s) : (w.sockets s).attempt = .awaiting := by
  have he := h.expected
  simp only [Expected, hp, progress, hidle, List.filter_nil] at he
  cases ha : (w.sockets s).attempt with
  | awaiting => rfl
  | resuming =>
    rw [ha] at he
    obtain ⟨r, hr⟩ := he
    cases hr
  | settled r =>
    rw [ha] at he
    cases he

theorem Schedules.timer_iff (h : Schedules o w w') :
    w'.reconnectTimer.isSome ↔ w.reconnectTimer.isSome ∨ o.reconnect ≠ some false := by
  cases h with
  | kept henough htimer _ =>
    rw [htimer]
    constructor
    · exact Or.inl
    · rintro (hsome | henabled)
      · exact hsome
      · exact henough.resolve_right henabled
  | armed hnone henabled htimer _ _ =>
    rw [htimer]
    simp only [Option.isSome_some, true_iff]
    exact Or.inr henabled

theorem Schedules.comes_iff (h : Schedules o w w') (hstate : w'.state = .reconnecting)
    (hclosed : w'.manuallyClosed = w.manuallyClosed) (hflight : w'.InFlight ↔ w.InFlight) :
    w'.ReconnectComes ↔ w.InFlight ∨
      ((w.reconnectTimer.isSome ∨ o.reconnect ≠ some false) ∧ w.manuallyClosed = false) := by
  rw [reconnectComes_iff]
  simp only [hstate, TriesAgain, hflight, hclosed, h.timer_iff, true_imp_iff]

theorem Disconnected.comes_iff (h : Disconnected o w w') (hg : w.ReconnectComes)
    (hflight : w'.InFlight ↔ w.InFlight) :
    w'.ReconnectComes ↔ (w.manuallyClosed = false →
      w.InFlight ∨ w.reconnectTimer.isSome ∨ o.reconnect ≠ some false) := by
  cases h with
  | ignored hclosed hloop =>
    rw [hloop.comes_iff hflight]
    simp only [hg, hclosed, Bool.true_eq_false, false_imp_iff]
  | lost hunclosed hstate hclosed hschedules =>
    rw [hschedules.comes_iff hstate hclosed hflight]
    simp only [hunclosed, and_true, true_imp_iff]

theorem resumeAttempt_inFlight_iff (w : World) (s : SocketId) (result : Result) :
    (w.resumeAttempt s result).InFlight ↔ w.InFlight := by
  rcases resumeAttempt_cases w s result with ⟨ha, he⟩ | ⟨-, he⟩ <;> rw [he]
  have hsettled : ∀ s', ((w.updateSocket s fun k => { k with attempt := .resuming }).sockets
      s').attempt.isSettled = (w.sockets s').attempt.isSettled := by
    intro s'
    rw [sockets_updateSocket]
    split_ifs with hss
    · rw [hss, ha]
      rfl
    · rfl
  simp only [InFlight, sockets_enqueue, nextSocket_enqueue, nextSocket_updateSocket, hsettled]

theorem resumeAttempt_comes_iff (w : World) (s : SocketId) (result : Result) :
    (w.resumeAttempt s result).ReconnectComes ↔ w.ReconnectComes :=
  (sameLoop_resumeAttempt w s result).comes_iff (resumeAttempt_inFlight_iff w s result)

/-- A call of `connect` leaves the promise of the state to an attempt that is pending. -/
theorem connect_comes (caller : Caller)
    (h : ∀ s, w.connectionPromise = some s → w.ReconnectComes) :
    (w.connect caller).ReconnectComes := by
  rw [reconnectComes_iff]
  intro hstate
  rcases connect_cases w caller with ⟨hconnected, -, he⟩ | ⟨-, ⟨s, hp, he⟩ | ⟨-, he⟩⟩ <;>
    rw [he] at hstate ⊢
  · have hstate' : w.state = .reconnecting := hstate
    rw [hconnected] at hstate'
    cases hstate'
  · have hg := reconnectComes_iff.mp (h s hp)
    rcases join_cases w s caller with ⟨result, -, hj⟩ | ⟨-, hj⟩ <;> rw [hj] at hstate ⊢
    · exact hg hstate
    · have hcalls : (w.updateSocket s fun k => { k with joined := k.joined ++ [caller] }).InFlight ↔
          w.InFlight := by
        have hsame := fun s' => w.updateSocket_field s
          (f := fun k => { k with joined := k.joined ++ [caller] }) s' Socket.attempt fun _ => rfl
        simp only [InFlight, nextSocket_updateSocket, hsame]
      rcases hg hstate with hflight | htimer
      · exact Or.inl (hcalls.mpr hflight)
      · exact Or.inr htimer
  · cases hstate

theorem comes_microtask {task : Microtask} {tasks : List Microtask} {now : ℚ} (ha : w.AttemptWf)
    (hg : w.ReconnectComes) (hm : w.microtasks = task :: tasks)
    (ha' : (runMicrotask o { w with microtasks := tasks } now task).AttemptWf) :
    (runMicrotask o { w with microtasks := tasks } now task).ReconnectComes ↔
      Stays o w (.microtask now) := by
  have hcomes := reconnectComes_iff.mp hg
  cases task with
  | resumeDoConnect s result =>
    obtain ⟨hp, -, -⟩ := ha.of_resumeDoConnect hm
    cases result with
    | ok u =>
      simp only [Stays, hm, iff_true]
      rw [reconnectComes_iff]
      intro hstate
      have hconnected : (startHeartbeat o { w with
          microtasks := tasks, state := .connected, reconnectAttempts := 0 } now).state =
            .connected := by
        rcases startHeartbeat_cases o { w with
          microtasks := tasks, state := .connected, reconnectAttempts := 0 } now with he | he <;>
          rw [he]
        rfl
      have hcontra := hconnected.symm.trans hstate
      cases hcontra
    | error e =>
      have hlanded : ¬ (runMicrotask o { w with microtasks := tasks } now
          (.resumeDoConnect s (.error e))).InFlight := by
        rw [ha'.inFlight_iff]
        rintro ⟨s', hp', hs'⟩
        obtain rfl := Option.some.inj (hp.symm.trans hp')
        simp [runMicrotask, settleAttempt, sockets_updateSocket, Attempt.isSettled] at hs'
      simp only [Stays, hm]
      rw [reconnectComes_iff, TriesAgain, or_iff_right hlanded]
      exact Iff.rfl
  | resumeConnect caller result =>
    simp only [Stays, hm, iff_true]
    exact reconnectComes_iff.mpr hcomes
  | resumeJoined caller result =>
    simp only [Stays, hm, iff_true]
    exact reconnectComes_iff.mpr hcomes
  | resumeCaller caller result =>
    cases caller with
    | user n =>
      simp only [Stays, hm, iff_true]
      exact reconnectComes_iff.mpr hcomes
    | reconnectTimer =>
      cases result with
      | ok u =>
        simp only [Stays, hm, iff_true]
        exact reconnectComes_iff.mpr hcomes
      | error e =>
        have hschedules := schedules_scheduleReconnect o
          { w with microtasks := tasks, state := .reconnecting }
        have hsame := sameSockets_scheduleReconnect o
          { w with microtasks := tasks, state := .reconnecting }
        simp only [Stays, hm]
        exact hschedules.comes_iff (scheduleReconnect_state o _) hsame.manuallyClosed
          hsame.calls.inFlight_iff

/-- From a state that promises no more than comes, a step leads to such a state exactly when
it meets the condition. -/
theorem comes_step {e : Event} (ht : w.TimersWf) (ha : w.AttemptWf) (ha' : w'.AttemptWf)
    (hg : w.ReconnectComes) (hs : (machine o).Step w e w') :
    w'.ReconnectComes ↔ Stays o w e := by
  cases loopStep_of_step ht hs with
  | quiet plain calm loop calls =>
    have hstays : Stays o w e := by
      cases e with
      | microtask => cases plain
      | _ => exact fun hd => absurd hd calm
    simp only [(loop.comes_iff calls.inFlight_iff).mpr hg, hstays]
  | disconnect plain disconnects effect calls =>
    rw [effect.comes_iff hg calls.inFlight_iff]
    cases e with
    | microtask => cases plain
    | _ => exact ⟨fun h _ => h, fun h => h disconnects⟩
  | connect n =>
    have hstays : Stays o w (.connect n) := fun hd => absurd hd id
    simp only [connect_comes (.user n) fun _ _ => hg, hstays]
  | close closes =>
    have hstays : Stays o w .close := fun hd => absurd hd id
    have hcomes : w'.ReconnectComes := by
      rw [reconnectComes_iff]
      intro hstate
      rw [closes.state] at hstate
      cases hstate
    simp only [hcomes, hstays]
  | @lapse t now uuid _ armed idle closed fired =>
    have hstays : Stays o w (.timer t now uuid) := by
      intro _ hunclosed
      rw [closed] at hunclosed
      cases hunclosed
    have hcomes : w'.ReconnectComes := by
      rw [reconnectComes_iff]
      intro hstate
      rcases reconnectComes_iff.mp hg (fired.state.symm.trans hstate) with hflight | ⟨-, hunclosed⟩
      · exact Or.inl (fired.calls.inFlight_iff.mpr hflight)
      · rw [closed] at hunclosed
        cases hunclosed
    simp only [hcomes, hstays]
  | @fire t now uuid v armed idle unclosed fired =>
    have hstays : Stays o w (.timer t now uuid) := by
      intro _ _
      exact Or.inr (Or.inl (by rw [armed]; rfl))
    have hcomes : (v.connect .reconnectTimer).ReconnectComes := by
      refine connect_comes .reconnectTimer fun s hp => reconnectComes_iff.mpr fun _ => Or.inl ?_
      have hp' := fired.calls.connectionPromise.symm.trans hp
      rw [fired.calls.inFlight_iff, ha.inFlight_iff]
      exact ⟨s, hp', by rw [ha.awaiting_of_idle idle hp']; rfl⟩
    simp only [hcomes, hstays]
  | @connected s v lt idle loop calls =>
    have hstays : Stays o w (.socketConnect s) := fun hd => absurd hd id
    rw [resumeAttempt_comes_iff]
    simp only [(loop.comes_iff calls.inFlight_iff).mpr hg, hstays]
  | @failed s error v lt effect calls =>
    rw [resumeAttempt_comes_iff, effect.comes_iff hg calls.inFlight_iff]
    exact ⟨fun h _ => h, fun h => h trivial⟩
  | microtask queued => exact comes_microtask ha hg queued ha'

theorem reconnectComes_init (codec : RpcCodec) : (World.init codec).ReconnectComes := by
  rw [reconnectComes_iff]
  intro hstate
  cases hstate

end World

open World

instance (o : RpcConnectionOptions) (w : World) (e : Event) : Decidable (Stays o w e) := by
  unfold Stays
  split
  · split <;> infer_instance
  · infer_instance

/-- In every run, the states promise no more than comes exactly when every step meets the
condition. -/
theorem reconnecting_comes_iff (o : RpcConnectionOptions) (codec : RpcCodec) (es : List Event)
    (w : World) (hrun : (machine o).Run (World.init codec) es w) :
    (machine o).Always ReconnectComes (World.init codec) es ↔
      ((machine o).guard (Stays o)).Run (World.init codec) es w := by
  refine Machine.Run.always_iff (I := fun v => v.TimersWf ∧ v.ConnectWf)
    (fun _ _ _ hi hs => ⟨hi.1.step hs, hi.2.step hs⟩) (fun _ _ _ hi hg hs => ?_) hrun
    ⟨timersWf_init codec, attemptWf_init codec, resultWf_init codec⟩ (reconnectComes_init codec)
  exact comes_step hi.1 hi.2.1 (hi.2.step hs).1 hg hs

/-- A connection whose attempt fails and whose reconnect timer then connects it. -/
def sampleRetry : List Event :=
  [.connect 0, .socketError 0 connectionClosed, .microtask 0, .microtask 0, .microtask 0,
    .timer 0 100 "", .socketConnect 1, .microtask 100, .microtask 100, .microtask 100]

theorem sampleRetry_isSome :
    (((machine sampleOptions).guard (Stays sampleOptions)).exec (World.init sampleCodec)
      sampleRetry).isSome := by decide +kernel

theorem sampleRetry_comes :
    (machine sampleOptions).Always ReconnectComes (World.init sampleCodec) sampleRetry :=
  (reconnecting_comes_iff sampleOptions sampleCodec sampleRetry _
    (Machine.run_exec_get sampleRetry_isSome).unguard).2 (Machine.run_exec_get sampleRetry_isSome)

/-- A connection that must not reconnect loses its socket. -/
def sampleLost : Option World :=
  ((machine { sampleOptions with reconnect := some false }).guard fun _ _ => True).exec
    (World.init sampleCodec)
    [.connect 0, .socketConnect 0, .microtask 0, .microtask 0, .microtask 0, .socketDestroyed 0,
      .socketClose 0]

theorem sampleLost_isSome : sampleLost.isSome := by decide +kernel

theorem reconnecting_never_comes : ¬ ∀ o w, Reachable o w → w.ReconnectComes := by
  intro h
  have hcomes := h _ _ (reachableWhen_of_exec rfl sampleLost_isSome).reachable
  refine absurd (reconnectComes_iff.mp hcomes ?_) ?_ <;> decide +kernel

end WeisleyRpc.Client
