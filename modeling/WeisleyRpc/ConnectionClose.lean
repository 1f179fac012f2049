import WeisleyRpc.ConnectionInvariant

/-!
# Manual close

`close` cannot cancel a suspended `doConnect` or a continuation that is already queued,
and it clears only the heartbeat that `heartbeatTimer` names. Where it finds none of
these, the connection stays closed until somebody connects it again.
-/

namespace WeisleyRpc.Client

/-- The callback of a reconnect timer awaits the `doConnect` of this socket. -/
def Socket.Retries (k : Socket) : Prop := .reconnectTimer ∈ k.starter :: k.joined

instance (k : Socket) : Decidable k.Retries := inferInstanceAs (Decidable (_ ∈ _))

/-- What an event may do to a socket while nobody connects. -/
structure Socket.Ages (k k' : Socket) : Prop where
  attempt : k'.attempt = .awaiting → k.attempt = .awaiting
  destroyed : k.destroyed = true → k'.destroyed = true
  closed : k.closed = true → k'.closed = true
  retries : k'.Retries ↔ k.Retries

theorem Socket.Ages.refl (k : Socket) : Socket.Ages k k := ⟨id, id, id, Iff.rfl⟩

namespace World

/-- A connection that was closed by hand and does nothing any more. -/
structure Final (w : World) : Prop where
  state : w.state = .closed
  reconnectTimer : w.reconnectTimer = none
  reconnect : ∀ t delay, w.timers.get t ≠ some (.reconnect delay)
  heartbeat : ∀ t s, w.timers.get t ≠ some (.heartbeat s)
  pending : w.pending = .empty

/-- A continuation that does not write the state. -/
def Spares (w : World) : Microtask → Prop
  | .resumeDoConnect _ (.ok _) => False
  | .resumeDoConnect s (.error _) => ¬ (w.sockets s).Retries
  | .resumeConnect caller (.error _) | .resumeJoined caller (.error _)
  | .resumeCaller caller (.error _) => caller ≠ .reconnectTimer
  | .resumeConnect _ (.ok _) | .resumeJoined _ (.ok _) | .resumeCaller _ (.ok _) => True

/-- No `doConnect` can still succeed, and none that can still fail has a reconnect
timer's callback waiting for it. -/
structure NoneInFlight (w : World) : Prop where
  awaiting : ∀ s < w.nextSocket, (w.sockets s).attempt = .awaiting →
    (w.sockets s).destroyed = true ∧ ((w.sockets s).closed = true ∨ ¬ (w.sockets s).Retries)
  microtasks : ∀ task ∈ w.microtasks, w.Spares task

/-- The states in which `close` reaches everything there is to stop. -/
structure CloseSafe (w : World) : Prop where
  inFlight : w.NoneInFlight
  heartbeat : ∀ t s, w.timers.get t = some (.heartbeat s) → w.heartbeatTimer = some t

theorem ages_updateSocket (w : World) (s : SocketId) {f : Socket → Socket}
    (hf : ∀ k, Socket.Ages k (f k)) (s' : SocketId) :
    Socket.Ages (w.sockets s') ((w.updateSocket s f).sockets s') := by
  rw [sockets_updateSocket]
  split_ifs with h
  · rw [h]
    exact hf _
  · exact .refl _

theorem Spares.keep {w v : World} {task : Microtask} (h : w.Spares task)
    (hs : ∀ s, Socket.Ages (w.sockets s) (v.sockets s)) : v.Spares task := by
  cases task with
  | resumeDoConnect s result =>
    cases result with
    | ok u => exact h
    | error e => exact fun hr => h ((hs s).retries.mp hr)
  | resumeConnect caller result => cases result <;> exact h
  | resumeJoined caller result => cases result <;> exact h
  | resumeCaller caller result => cases result <;> exact h

theorem NoneInFlight.keep {w v : World} (h : w.NoneInFlight) (hn : v.nextSocket = w.nextSocket)
    (hs : ∀ s, Socket.Ages (w.sockets s) (v.sockets s))
    (hm : ∀ task ∈ v.microtasks, task ∈ w.microtasks ∨ v.Spares task) : v.NoneInFlight := by
  refine ⟨fun s hlt ha => ?_, fun task ht => ?_⟩
  · obtain ⟨hd, hc⟩ := h.awaiting s (hn ▸ hlt) ((hs s).attempt ha)
    exact ⟨(hs s).destroyed hd,
      hc.imp (hs s).closed fun hr => fun hr' => hr ((hs s).retries.mp hr')⟩
  · exact (hm task ht).elim (fun hw => (h.microtasks task hw).keep hs) id

theorem NoneInFlight.update {w : World} (h : w.NoneInFlight) (s : SocketId) {f : Socket → Socket}
    (hf : ∀ k, Socket.Ages k (f k)) : (w.updateSocket s f).NoneInFlight :=
  h.keep rfl (w.ages_updateSocket s hf) fun _ ht => Or.inl ht

theorem NoneInFlight.enqueue {w : World} (h : w.NoneInFlight) {tasks : List Microtask}
    (ht : ∀ task ∈ tasks, w.Spares task) : (w.enqueue tasks).NoneInFlight := by
  refine h.keep rfl (fun _ => .refl _) fun task hm => ?_
  exact (List.mem_append.mp hm).imp id fun hn => (ht task hn).keep fun _ => .refl _

/-- The connection is closed by hand, and nothing in flight will open it again. -/
structure Closed (w : World) : Prop where
  final : w.Final
  manuallyClosed : w.manuallyClosed = true
  inFlight : w.NoneInFlight

theorem Final.keep {w v : World} (h : w.Final) (hs : v.state = w.state)
    (hr : v.reconnectTimer = w.reconnectTimer)
    (ht : ∀ t task, v.timers.get t = some task → w.timers.get t = some task)
    (hp : v.pending = .empty) : v.Final :=
  ⟨hs.trans h.state, hr.trans h.reconnectTimer, fun t delay hd => h.reconnect t delay (ht t _ hd),
    fun t s hb => h.heartbeat t s (ht t _ hb), hp⟩

theorem Closed.keep {w v : World} (h : w.Closed) (hs : v.state = w.state)
    (hr : v.reconnectTimer = w.reconnectTimer) (ht : v.timers = w.timers)
    (hp : v.pending = w.pending) (hm : v.manuallyClosed = w.manuallyClosed)
    (hi : v.NoneInFlight) : v.Closed :=
  ⟨h.final.keep hs hr (fun _ _ hg => ht ▸ hg) (hp.trans h.final.pending),
    hm.trans h.manuallyClosed, hi⟩

theorem NoneInFlight.same {w v : World} (h : w.NoneInFlight) (hn : v.nextSocket = w.nextSocket)
    (hs : v.sockets = w.sockets) (hm : ∀ task ∈ v.microtasks, task ∈ w.microtasks) :
    v.NoneInFlight :=
  h.keep hn (fun _ => hs ▸ .refl _) fun task ht => Or.inl (hm task ht)

theorem Final.dropped {w : World} (h : w.Final) (error : JsError) : (w.dropped error).Final := by
  refine h.keep rfl rfl (fun t task ht => ?_) rfl
  simp only [World.dropped, OrderedMap.get_deleteAll] at ht
  split_ifs at ht
  exact ht

theorem Closed.update {w : World} (h : w.Closed) (s : SocketId) {f : Socket → Socket}
    (hf : ∀ k, Socket.Ages k (f k)) : (w.updateSocket s f).Closed :=
  h.keep rfl rfl rfl rfl rfl (h.inFlight.update s hf)

theorem Closed.enqueue {w : World} (h : w.Closed) {tasks : List Microtask}
    (ht : ∀ task ∈ tasks, w.Spares task) : (w.enqueue tasks).Closed :=
  h.keep rfl rfl rfl rfl rfl (h.inFlight.enqueue ht)

theorem CloseSafe.close {w : World} (h : w.CloseSafe) (hw : w.TimersWf) : w.close.Closed := by
  have hend : ∀ v : World, v.Final → v.manuallyClosed = true → v.NoneInFlight →
      v.endSocket.Closed := by
    intro v hf hm hn
    unfold endSocket
    split
    · exact ⟨hf, hm, hn⟩
    · exact Closed.update ⟨hf, hm, hn⟩ _ fun k => ⟨id, id, id, Iff.rfl⟩
  rw [close_eq, cancelReconnect_eq]
  refine hend _ ⟨rfl, rfl, fun t delay ht => ?_, fun t s ht => ?_, rfl⟩ rfl
    (h.inFlight.same rfl rfl fun _ ht => ht)
  · simp only [World.dropped, OrderedMap.get_deleteAll] at ht
    split_ifs at ht with h₁ h₂
    exact h₂ (by simp [hw.reconnect_armed t delay ht])
  · simp only [World.dropped, OrderedMap.get_deleteAll] at ht
    split_ifs at ht with h₁ h₂
    exact h₁ (by simp [droppedTimers, h.heartbeat t s ht])

theorem Closed.disconnect {o : RpcConnectionOptions} {w : World} (h : w.Closed) (error : JsError) :
    (handleUnexpectedDisconnect o w error).Closed := by
  rw [handleUnexpectedDisconnect_eq, if_pos h.manuallyClosed]
  exact ⟨h.final.dropped error, h.manuallyClosed, h.inFlight.same rfl rfl fun _ ht => ht⟩

theorem Closed.handleMessage {w w' : World} (h : w.Closed) {s : SocketId} {message : JsValue}
    {now : ℚ} (hm : handleMessage s now w message = .ok w') : w'.Closed := by
  rcases handleMessage_cases hm with ⟨-, at', rfl⟩ | ⟨id, p, outcome, -, hp, -, -⟩
  · have hu : (w.note s [message]).Closed := h.update s fun k => ⟨id, id, id, Iff.rfl⟩
    exact hu.keep rfl rfl rfl rfl rfl (hu.inFlight.same rfl rfl fun _ ht => ht)
  · have := (pendingOf_eq_some_iff.mp hp).2
    simp [h.final.pending] at this

theorem Closed.runTimer {o : RpcConnectionOptions} {w w' : World} (h : w.Closed) {t : TimerId}
    {now : ℚ} {uuid : String} {task : TimerTask} (ht : w.timers.get t = some task)
    (hr : runTimer o w t now uuid task = .ok w') : w'.Closed := by
  rcases runTimer_cases hr with ⟨id, call, rfl, rfl⟩ | ⟨delay, rfl, -⟩ | ⟨s, rfl, -⟩
  · refine ⟨h.final.keep rfl rfl (fun t' task ht' => ?_) ?_, h.manuallyClosed,
      h.inFlight.same rfl rfl fun _ ht => ht⟩
    · simp only [settle, clearTimer, OrderedMap.get_delete] at ht'
      split_ifs at ht'
      exact ht'
    · refine (OrderedMap.eq_empty_iff _).mpr fun id' => ?_
      simp [settle, h.final.pending]
  · exact absurd ht (h.final.reconnect t delay)
  · exact absurd ht (h.final.heartbeat t s)

theorem Closed.runMicrotask {o : RpcConnectionOptions} {w : World} (h : w.Closed)
    {task : Microtask} {tasks : List Microtask} (hm : w.microtasks = task :: tasks) (now : ℚ) :
    (runMicrotask o { w with microtasks := tasks } now task).Closed := by
  have hspares := h.inFlight.microtasks task (by simp [hm])
  have hv : { w with microtasks := tasks : World }.Closed :=
    h.keep rfl rfl rfl rfl rfl (h.inFlight.same rfl rfl fun _ ht => by simp [hm, ht])
  cases task with
  | resumeDoConnect s result =>
    cases result with
    | ok u => exact absurd hspares id
    | error e =>
      have hn : ¬ (w.sockets s).Retries := hspares
      simp only [Socket.Retries, List.mem_cons, not_or] at hn
      have hu := hv.update s (f := fun k => { k with attempt := .settled (.error e) })
        fun k => ⟨(by simp), id, id, Iff.rfl⟩
      refine hu.enqueue fun task ht => ?_
      rcases List.mem_cons.mp ht with rfl | ht
      · exact fun he => hn.1 he.symm
      · obtain ⟨caller, hc, rfl⟩ := List.mem_map.mp ht
        exact fun he => hn.2 (he ▸ hc)
  | resumeConnect caller result =>
    have hc : { w with microtasks := tasks, connectionPromise := none : World }.Closed :=
      hv.keep rfl rfl rfl rfl rfl (hv.inFlight.same rfl rfl fun _ ht => ht)
    refine hc.enqueue fun task ht => ?_
    obtain rfl := List.mem_singleton.mp ht
    cases result <;> exact hspares
  | resumeJoined caller result =>
    refine hv.enqueue fun task ht => ?_
    obtain rfl := List.mem_singleton.mp ht
    cases result <;> exact hspares
  | resumeCaller caller result =>
    cases caller with
    | user n => exact hv.keep rfl rfl rfl rfl rfl (hv.inFlight.same rfl rfl fun _ ht => ht)
    | reconnectTimer =>
      cases result with
      | ok u => exact hv.keep rfl rfl rfl rfl rfl (hv.inFlight.same rfl rfl fun _ ht => ht)
      | error e => exact absurd rfl hspares

theorem Closed.step {o : RpcConnectionOptions} {w w' : World} {e : Event} (h : w.Closed)
    (hw : w.TimersWf) (hs : (machine o).Step w e w') (he : ∀ n, e ≠ .connect n) : w'.Closed := by
  cases answer_of_step hs with
  | connect n => exact absurd rfl (he n)
  | close =>
    exact CloseSafe.close ⟨h.inFlight, fun t s ht => absurd ht (h.final.heartbeat t s)⟩ hw
  | send id payload =>
    rcases send_cases w id payload with ⟨e, he⟩ | ⟨s, -, hc, -⟩
    · rw [he]
      exact h.keep rfl rfl rfl rfl rfl (h.inFlight.same rfl rfl fun _ ht => ht)
    · simp [h.final.state] at hc
  | timer ht _ hr => exact h.runTimer ht hr
  | @socketConnect s hlt _ halive =>
    have hu : (w.updateSocket s fun k => { k with connected := true }).Closed :=
      h.update s fun k => ⟨id, id, id, Iff.rfl⟩
    rcases resumeAttempt_cases (w.updateSocket s fun k => { k with connected := true }) s (.ok ())
      with ⟨ha, -⟩ | ⟨-, he⟩
    · -- a suspended `doConnect` waits for a destroyed socket, which cannot connect
      have hd := (hu.inFlight.awaiting s hlt ha).1
      rw [sockets_updateSocket, if_pos rfl] at hd
      exact absurd (halive.symm.trans hd) (by simp)
    · rwa [he]
  | @socketError s error hlt hunclosed =>
    have hu : (w.updateSocket s fun k => { k with destroyed := true }).Closed :=
      h.update s fun k => ⟨id, fun _ => rfl, id, Iff.rfl⟩
    have hd := hu.disconnect (o := o) error
    have hsame := sameSockets_handleUnexpectedDisconnect o
      (w.updateSocket s fun k => { k with destroyed := true }) error
    rcases resumeAttempt_cases (handleUnexpectedDisconnect o
      (w.updateSocket s fun k => { k with destroyed := true }) error) s (.error error)
      with ⟨ha, he⟩ | ⟨-, he⟩ <;> rw [he]
    · have hret := (hd.inFlight.awaiting s (hsame.nextSocket ▸ hlt) ha).2
      have hopen : ((handleUnexpectedDisconnect o
          (w.updateSocket s fun k => { k with destroyed := true }) error).sockets s).closed
          = false := by
        rw [hsame.sockets, sockets_updateSocket, if_pos rfl]
        exact hunclosed
      have hn := hret.resolve_left (by simp [hopen])
      have hr := hd.update s (f := fun k => { k with attempt := .resuming })
        fun k => ⟨(by simp), id, id, Iff.rfl⟩
      refine hr.enqueue fun task ht => ?_
      obtain rfl := List.mem_singleton.mp ht
      intro hc
      rw [sockets_updateSocket, if_pos rfl] at hc
      exact hn hc
    · exact hd
  | socketDestroyed => exact h.update _ fun k => ⟨id, fun _ => rfl, id, Iff.rfl⟩
  | @socketClose s =>
    have hu : (w.updateSocket s fun k => { k with closed := true }).Closed :=
      h.update s fun k => ⟨id, id, fun _ => rfl, Iff.rfl⟩
    exact hu.disconnect _
  | @socketData s chunk now _ _ _ _ hd =>
    obtain ⟨messages, -, hf⟩ := handleData_eq_ok hd
    have hr : (w.receive s chunk).Closed := by
      have hu := h.update s (f := fun k => { k with received := k.received ++ [chunk] })
        fun k => ⟨id, id, id, Iff.rfl⟩
      exact hu.keep rfl rfl rfl rfl rfl (hu.inFlight.same rfl rfl fun _ ht => ht)
    refine List.foldlM_invariant (I := Closed) (fun _ _ _ hi hm => hi.handleMessage hm) hf ?_
    exact hr.keep rfl rfl rfl rfl rfl (hr.inFlight.same rfl rfl fun _ ht => ht)
  | microtask hm => exact h.runMicrotask hm _

end World

/-- Nobody connects again. -/
def NoConnect (_ : World) (e : Event) : Prop := ∀ n, e ≠ .connect n

instance (w : World) (e : Event) : Decidable (NoConnect w e) :=
  match e with
  | .connect n => isFalse fun h => h n rfl
  | .close | .send _ _ | .timer _ _ _ | .socketConnect _ | .socketError _ _ | .socketDestroyed _
  | .socketClose _ | .socketData _ _ _ | .microtask _ => isTrue fun _ h => by cases h

/-- A connection that `close` finds with nothing in flight stays closed in every later
run in which nobody connects it. -/
theorem close_final (o : RpcConnectionOptions) (w w' : World) (es : List Event)
    (hr : Reachable o w) (hsafe : w.CloseSafe)
    (hrun : ((machine o).guard NoConnect).Run w.close es w') : w'.Final := by
  have hinv : w'.TimersWf ∧ w'.Closed :=
    hrun.invariant (I := fun v => v.TimersWf ∧ v.Closed)
      (fun _ _ _ hi hs => by
        obtain ⟨hn, hs⟩ := Machine.guard_step.mp hs
        exact ⟨hi.1.step hs, hi.2.step hi.1 hs hn⟩)
      ⟨hr.timersWf.close, hsafe.close hr.timersWf⟩
  exact hinv.2.final

/-- A connection that is closed while its first `connect` is in flight. -/
def sampleInFlight : Option World :=
  ((machine sampleOptions).guard fun _ _ => True).exec (World.init sampleCodec) [.connect 0]

theorem sampleInFlight_isSome : sampleInFlight.isSome := by decide +kernel

/-- The socket connects after all, and the continuation of `doConnect` reports a connection. -/
def sampleReopening : Option World :=
  ((machine sampleOptions).guard NoConnect).exec (sampleInFlight.get sampleInFlight_isSome).close
    [.socketConnect 0, .microtask 0]

theorem sampleReopening_isSome : sampleReopening.isSome := by decide +kernel

theorem close_not_final :
    ¬ ∀ o w es w', Reachable o w → ((machine o).guard NoConnect).Run w.close es w' → w'.Final := by
  intro h
  have hf := h _ _ _ _ (reachableWhen_of_exec rfl sampleInFlight_isSome).reachable
    (Machine.run_exec_get sampleReopening_isSome)
  have hs := hf.state
  revert hs
  decide +kernel

/-- A connection that is closed while it is connected. -/
def sampleSettled : Option World :=
  ((machine sampleOptions).guard fun _ _ => True).exec (World.init sampleCodec)
    [.connect 0, .socketConnect 0, .microtask 0, .microtask 0, .microtask 0, .send "1" [1]]

theorem sampleSettled_isSome : sampleSettled.isSome := by decide +kernel

theorem closeSafe_sampleSettled : (sampleSettled.get sampleSettled_isSome).CloseSafe := by
  have hm : (sampleSettled.get sampleSettled_isSome).microtasks = [] :=
    List.eq_nil_of_length_eq_zero (by decide +kernel)
  have ht : (sampleSettled.get sampleSettled_isSome).timers.entries =
      [(0, .callTimeout "1" 0)] := by decide +kernel
  refine ⟨⟨fun s hlt ha => ?_, by simp [hm]⟩, fun t s hs => ?_⟩
  · obtain rfl : s = 0 := Nat.lt_one_iff.mp hlt
    cases ha
  · simp [OrderedMap.get, OrderedMap.find, ht] at hs

def sampleEnded : Option World :=
  ((machine sampleOptions).guard NoConnect).exec (sampleSettled.get sampleSettled_isSome).close
    [.socketData 0 (samplePacket samplePong) 5, .socketDestroyed 0, .socketClose 0]

theorem sampleEnded_isSome : sampleEnded.isSome := by decide +kernel

theorem close_final_sample : (sampleEnded.get sampleEnded_isSome).Final :=
  close_final sampleOptions _ _ _ (reachableWhen_of_exec rfl sampleSettled_isSome).reachable
    closeSafe_sampleSettled (Machine.run_exec_get sampleEnded_isSome)

end WeisleyRpc.Client
