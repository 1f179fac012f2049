import WeisleyRpc.ConnectCalls
import WeisleyRpc.ConnectionClose

/-!
# The delays of the reconnect loop

The error event, the close event and the `catch` of the timer's callback all ask for a
reconnect. While a callback awaits its attempt, the number of timers that were armed is the
number at its start, and one more as soon as a timer is armed again.
-/

namespace WeisleyRpc.Client

/-- A failure on its way to the `catch` of a reconnect timer's callback. -/
def Microtask.failsRetry : Microtask → Bool
  | .resumeConnect .reconnectTimer (.error _) | .resumeJoined .reconnectTimer (.error _)
  | .resumeCaller .reconnectTimer (.error _) => true
  | _ => false

/-- The reset behind the `await` in a reconnect timer's callback. -/
def Microtask.resetsRetry : Microtask → Bool
  | .resumeCaller .reconnectTimer (.ok _) => true
  | _ => false

namespace World

/-- The callback of a reconnect timer awaits `connect`, which may fail or has failed. -/
def LoopAwaits (w : World) : Prop :=
  (∃ s < w.nextSocket, (w.sockets s).attempt.isSettled = false ∧ (w.sockets s).Retries) ∨
    ∃ task ∈ w.microtasks, task.failsRetry

instance (w : World) : Decidable w.LoopAwaits := inferInstanceAs (Decidable (_ ∨ _))

/-- While a callback awaits `connect`, no reconnect timer fires and no armed one is cancelled,
and the reset after the `await` finds the counter as `doConnect` left it. -/
def Paced (w : World) : Event → Prop
  | .timer t _ _ => w.reconnectTimer = some t → ¬ w.LoopAwaits
  | .close => w.reconnectTimer.isSome → ¬ w.LoopAwaits
  | .microtask _ => ∀ task ∈ w.microtasks.head?, task.resetsRetry → w.reconnectAttempts = 0
  | _ => True

instance (w : World) : ∀ e, Decidable (w.Paced e)
  | .timer t _ _ => inferInstanceAs (Decidable (w.reconnectTimer = some t → ¬ w.LoopAwaits))
  | .close => inferInstanceAs (Decidable (w.reconnectTimer.isSome → ¬ w.LoopAwaits))
  | .microtask _ => inferInstanceAs
      (Decidable (∀ task ∈ w.microtasks.head?, task.resetsRetry → w.reconnectAttempts = 0))
  | .connect _ | .send _ _ | .socketConnect _ | .socketError _ _ | .socketDestroyed _
  | .socketClose _ | .socketData _ _ _ => instDecidableTrue

/-- No failure is queued together with a success of `doConnect`. -/
def Hopeful (w : World) : Prop :=
  ∀ s, Microtask.resumeDoConnect s (.ok ()) ∈ w.microtasks → ∀ task ∈ w.microtasks, ¬ task.Failed

end World

/-- Every failed attempt of the reconnect loop has armed one timer. -/
def Ledger.Advances (l : Ledger) : Prop :=
  ∀ reply ∈ l.replies, reply.ask.caller = .reconnectTimer → reply.result.isOk = false →
    reply.armedAfter = reply.ask.armedAt + 1

/-- One attempt, one timer, one outcome for those who share an attempt, and delays that double
with every timer since the last success, of which a failed attempt of the loop arms one. -/
structure OneReconnect (o : RpcConnectionOptions) (w : World) (l : Ledger) : Prop where
  attempt : ∀ s < w.nextSocket, ∀ s' < w.nextSocket, (w.sockets s).attempt.isSettled = false →
    (w.sockets s').attempt.isSettled = false → s = s'
  timer : ∀ t t' delay delay', w.timers.get t = some (.reconnect delay) →
    w.timers.get t' = some (.reconnect delay') → t = t'
  shared : ∀ reply ∈ l.replies, reply.ask.Shares w reply.result
  accounted : l.asked.Perm (l.replies.map (·.ask) ++ (l.queued.reduceOption ++ l.waiting))
  delays : l.delays = (List.range l.delays.length).map fun n =>
    min (o.reconnectInitialDelayMs.getD 100 * 2 ^ n) (o.reconnectMaxDelayMs.getD 2000)
  advance : l.Advances

namespace Ledger

/-- The call awaits an attempt, or its failure is queued. -/
def MayFail (l : Ledger) (w : World) (a : Ask) : Prop :=
  a ∈ l.waiting ∨ ∃ task, (task, some a) ∈ w.microtasks.zip l.queued ∧ task.Failed

/-- The counter and the timers that were armed since the last success. -/
structure Backoff (o : RpcConnectionOptions) (w : World) (l : Ledger) : Prop where
  attempts : w.reconnectAttempts = l.delays.length
  delays : l.delays = (List.range l.delays.length).map (World.reconnectDelay o)
  enabled : w.reconnectTimer.isSome → o.reconnect ≠ some false
  awaiting : ∀ a, l.MayFail w a → a.caller = .reconnectTimer → o.reconnect ≠ some false ∧
    l.delays.length = a.armedAt + if w.reconnectTimer.isSome then 1 else 0
  advance : l.Advances
  hopeful : w.Hopeful

variable {o : RpcConnectionOptions} {v w w' : World} {l l' : Ledger}

theorem backoff_init (codec : RpcCodec) : empty.Backoff o (World.init codec) := by
  refine ⟨rfl, rfl, by simp [World.init], fun a hmay => ?_, by simp [Advances, empty],
    by simp [World.Hopeful, World.init]⟩
  simp [MayFail, empty, World.init] at hmay

theorem Tracks.loopAwaits (h : l.Tracks w) (ha : w.AttemptWf) {a : Ask} (hmay : l.MayFail w a)
    (hcaller : a.caller = .reconnectTimer) : w.LoopAwaits := by
  rcases hmay with hmem | ⟨task, hmem, hfailed⟩
  · left
    obtain ⟨s, hp, -⟩ := h.waiting a hmem
    have hin : a.caller ∈ l.waiting.map (·.caller) := List.mem_map_of_mem hmem
    rw [h.callers s hp, hcaller] at hin
    refine ⟨s, by rw [← ha.latest s (ha.promise s hp)]; exact Nat.lt_succ_self s, ?_⟩
    split_ifs at hin with hsettled
    · cases hin
    · exact ⟨by simpa using hsettled, hin⟩
  · right
    have hcarried := (List.forall₂_iff_zip.mp h.queued).2 hmem
    refine ⟨task, (List.of_mem_zip hmem).1, ?_⟩
    obtain ⟨e, he⟩ := hfailed
    cases task with
    | resumeDoConnect s r => cases hcarried
    | resumeConnect caller r | resumeJoined caller r | resumeCaller caller r =>
      obtain ⟨b, hb, hbc, -⟩ := hcarried
      obtain rfl := Option.some.inj hb
      obtain rfl := hbc.symm.trans hcaller
      obtain rfl : r = .error e := he
      rfl

theorem armed_same (h : w'.reconnectTimer = w.reconnectTimer) : armed w w' = [] := by
  rw [armed, if_pos h]

theorem armed_none (h : w'.reconnectTimer = none) : armed w w' = [] := by
  rw [armed, h]
  split_ifs <;> rfl

theorem Backoff.keep (h : l.Backoff o w) (htimer : v.reconnectTimer = w.reconnectTimer)
    (hattempts : v.reconnectAttempts = w.reconnectAttempts) (hdelays : l'.delays = l.delays)
    (hmay : ∀ a, l'.MayFail v a → a.caller = .reconnectTimer → l.MayFail w a)
    (hadvance : l'.Advances) (hhopeful : v.Hopeful) : l'.Backoff o v := by
  refine ⟨?_, ?_, ?_, fun a ha hc => ?_, hadvance, hhopeful⟩
  · rw [hattempts, hdelays, h.attempts]
  · rw [hdelays]
    exact h.delays
  · rw [htimer]
    exact h.enabled
  · rw [hdelays, htimer]
    exact h.awaiting a (hmay a ha hc) hc

theorem Backoff.scheduled (h : l.Backoff o w) (hs : World.Schedules o w w')
    (hdelays : l'.delays = l.delays ++ armed w w')
    (hmay : ∀ a, l'.MayFail w' a → a.caller = .reconnectTimer → l.MayFail w a)
    (hadvance : l'.Advances) (hhopeful : w'.Hopeful) : l'.Backoff o w' := by
  cases hs with
  | kept enough timer attempts =>
    rw [armed_same timer, List.append_nil] at hdelays
    exact h.keep timer attempts hdelays hmay hadvance hhopeful
  | armed unarmed enabled timer delay attempts =>
    have hone : Ledger.armed w w' = [World.reconnectDelay o l.delays.length] := by
      rw [Ledger.armed, timer, unarmed, if_neg (by simp), Option.bind_some, delay, h.attempts]
    rw [hone] at hdelays
    have hlength : l'.delays.length = l.delays.length + 1 := by
      rw [hdelays, List.length_append]
      rfl
    refine ⟨?_, ?_, fun _ => enabled, fun a ha hc => ⟨enabled, ?_⟩, hadvance, hhopeful⟩
    · rw [attempts, hlength, h.attempts]
    · rw [hlength, List.range_succ, List.map_append, ← h.delays, hdelays]
      rfl
    · obtain ⟨-, hlen⟩ := h.awaiting a (hmay a ha hc) hc
      rw [unarmed] at hlen
      rw [hlength, hlen, timer]
      rfl

theorem Backoff.disconnected (h : l.Backoff o w) (hd : World.Disconnected o w w')
    (hdelays : l'.delays = l.delays ++ armed w w')
    (hmay : ∀ a, l'.MayFail w' a → a.caller = .reconnectTimer → l.MayFail w a)
    (hadvance : l'.Advances) (hhopeful : w'.Hopeful) : l'.Backoff o w' := by
  cases hd with
  | ignored closed loop =>
    rw [armed_same loop.reconnectTimer, List.append_nil] at hdelays
    exact h.keep loop.reconnectTimer loop.reconnectAttempts hdelays hmay hadvance hhopeful
  | lost unclosed state closed schedules =>
    exact h.scheduled schedules hdelays hmay hadvance hhopeful

theorem Backoff.clear (h : l.Backoff o w) (hno : ∀ a, l.MayFail w a → a.caller ≠ .reconnectTimer)
    (htimer : v.reconnectTimer = none) (hattempts : v.reconnectAttempts = w.reconnectAttempts)
    (hmicrotasks : v.microtasks = w.microtasks) : l.Backoff o v := by
  refine ⟨hattempts.trans h.attempts, h.delays, by simp [htimer], fun a ha hc => ?_, h.advance, ?_⟩
  · unfold MayFail at ha
    rw [hmicrotasks] at ha
    exact absurd hc (hno a ha)
  · unfold World.Hopeful
    rw [hmicrotasks]
    exact h.hopeful

theorem mayFail_of_calls (hc : World.SameCalls w v) {a : Ask} {delays : List ℚ} :
    { l with delays := delays }.MayFail v a ↔ l.MayFail w a := by
  simp only [MayFail, hc.microtasks]

theorem hopeful_of_calls (hc : World.SameCalls w v) (h : w.Hopeful) : v.Hopeful := by
  unfold World.Hopeful
  rw [hc.microtasks]
  exact h

theorem mem_zip_enqueue (h : l.Tracks w) {task task' : Microtask} {ask : Option Ask} {a : Ask}
    (hmem : (task, some a) ∈ (w.microtasks ++ [task']).zip (l.queued ++ [ask])) :
    (task, some a) ∈ w.microtasks.zip l.queued ∨ (task = task' ∧ ask = some a) := by
  rw [List.zip_append h.queued.length_eq] at hmem
  rcases List.mem_append.mp hmem with hmem | hmem
  · exact Or.inl hmem
  · obtain ⟨rfl, rfl⟩ := by simpa using hmem
    exact Or.inr ⟨rfl, rfl⟩

theorem mayFail_enqueue (h : l.Tracks w) {task : Microtask} {ask : Option Ask} {a : Ask}
    (hmay : { l with queued := l.queued ++ [ask] }.MayFail (w.enqueue [task]) a) :
    l.MayFail w a ∨ (task.Failed ∧ ask = some a) := by
  rcases hmay with hmem | ⟨task', hmem, hfailed⟩
  · exact Or.inl (Or.inl hmem)
  · rcases mem_zip_enqueue h hmem with hmem | ⟨rfl, hask⟩
    · exact Or.inl (Or.inr ⟨task', hmem, hfailed⟩)
    · exact Or.inr ⟨hfailed, hask⟩

end Ledger

theorem World.Hopeful.enqueue {w : World} (h : w.Hopeful) {task : Microtask}
    (hok : ∀ s, task = .resumeDoConnect s (.ok ()) → w.microtasks = [])
    (hfailed : task.Failed → ∀ s, Microtask.resumeDoConnect s (.ok ()) ∉ w.microtasks) :
    (w.enqueue [task]).Hopeful := by
  intro s hmem task' hmem' hf
  rcases List.mem_append.mp hmem with hold | hnew
  · rcases List.mem_append.mp hmem' with hmem' | hmem'
    · exact h s hold task' hmem' hf
    · obtain rfl := List.mem_singleton.mp hmem'
      exact hfailed hf s hold
  · have htask := List.mem_singleton.mp hnew
    rw [World.microtasks_enqueue, hok s htask.symm, List.nil_append] at hmem'
    rw [List.mem_singleton.mp hmem', ← htask] at hf
    obtain ⟨e, he⟩ := hf
    cases he

namespace Ledger
variable {o : RpcConnectionOptions} {v w w' : World} {l l' : Ledger}

theorem Backoff.answer (h : l.Backoff o w) (ht : l.Tracks w) (caller : Caller)
    (attempt : Option SocketId) {task : Microtask}
    (hloop : caller = .reconnectTimer → o.reconnect ≠ some false ∧ w.reconnectTimer = none)
    (hok : ∀ s, task ≠ .resumeDoConnect s (.ok ()))
    (hfailed : task.Failed → ∀ s, Microtask.resumeDoConnect s (.ok ()) ∉ w.microtasks) :
    (l.answer caller attempt).Backoff o (w.enqueue [task]) := by
  refine ⟨h.attempts, h.delays, h.enabled, fun a hmay hc => ?_, h.advance,
    h.hopeful.enqueue (fun s hs => absurd hs (hok s)) hfailed⟩
  have hmay' : { l with
      queued := l.queued ++ [some (⟨caller, attempt, l.delays.length⟩ : Ask)] }.MayFail
      (w.enqueue [task]) a := hmay
  rcases mayFail_enqueue ht hmay' with hmay | ⟨-, hask⟩
  · exact h.awaiting a hmay hc
  · obtain rfl := Option.some.inj hask
    obtain ⟨henabled, hnone⟩ := hloop hc
    exact ⟨henabled, by simp [Ledger.answer, World.enqueue, hnone]⟩

theorem Backoff.await (h : l.Backoff o w) (caller : Caller) (s : SocketId)
    (hloop : caller = .reconnectTimer → o.reconnect ≠ some false ∧ w.reconnectTimer = none)
    (htimer : v.reconnectTimer = w.reconnectTimer)
    (hattempts : v.reconnectAttempts = w.reconnectAttempts)
    (hmicrotasks : v.microtasks = w.microtasks) : (l.await caller s).Backoff o v := by
  refine ⟨hattempts.trans h.attempts, h.delays, by rw [htimer]; exact h.enabled,
    fun a hmay hc => ?_, h.advance, ?_⟩
  · rcases hmay with hmem | hqueue
    · rcases List.mem_append.mp hmem with hmem | hmem
      · rw [htimer]
        exact h.awaiting a (Or.inl hmem) hc
      · obtain rfl := List.mem_singleton.mp hmem
        obtain ⟨henabled, hnone⟩ := hloop hc
        exact ⟨henabled, by simp [Ledger.await, htimer, hnone]⟩
    · rw [hmicrotasks] at hqueue
      rw [htimer]
      exact h.awaiting a (Or.inr hqueue) hc
  · unfold World.Hopeful
    rw [hmicrotasks]
    exact h.hopeful

/-- A settled attempt whose promise is pending has no `doConnect` to resume. -/
theorem not_resumeDoConnect (ha : w.AttemptWf) {s : SocketId} {r : Result}
    (hp : w.connectionPromise = some s) (hs : (w.sockets s).attempt = .settled r) (s' : SocketId)
    (r' : Result) : Microtask.resumeDoConnect s' r' ∉ w.microtasks := by
  intro hmem
  have hin : Microtask.resumeDoConnect s' r' ∈ w.progress := List.mem_filter.mpr ⟨hmem, rfl⟩
  have he := ha.expected
  simp only [World.Expected, hp, hs] at he
  rw [he] at hin
  cases List.mem_singleton.mp hin

theorem Backoff.connect (h : l.Backoff o w) (ht : l.Tracks w) (ha : w.AttemptWf)
    (caller : Caller)
    (hloop : caller = .reconnectTimer → o.reconnect ≠ some false ∧ w.reconnectTimer = none) :
    (l.connect w caller).Backoff o (w.connect caller) := by
  unfold Ledger.connect
  rcases World.connect_cases w caller with ⟨hstate, hlive, he⟩ | ⟨hno, ⟨s, hp, he⟩ | ⟨hp, he⟩⟩ <;>
    rw [he]
  · rw [if_pos ⟨hstate, hlive⟩]
    refine h.answer ht caller none hloop (by simp) fun hf => ?_
    obtain ⟨e, he⟩ := hf
    cases he
  · rw [if_neg hno, hp]
    rcases World.join_cases w s caller with ⟨result, hs, hj⟩ | ⟨hs, hj⟩ <;> rw [hj]
    · simp only [hs, Attempt.isSettled, if_true]
      exact h.answer ht caller (some s) hloop (by simp)
        fun _ s' => not_resumeDoConnect ha hp hs s' _
    · have hunsettled : (w.sockets s).attempt.isSettled = false := by
        cases hat : (w.sockets s).attempt with
        | settled r => exact absurd hat (hs r)
        | _ => rfl
      simp only [hunsettled, Bool.false_eq_true, if_false]
      exact h.await caller s hloop rfl rfl rfl
  · rw [if_neg hno, hp]
    exact h.await caller w.nextSocket hloop rfl rfl rfl

/-- While a `doConnect` is suspended, none is about to be resumed. -/
theorem not_resumeDoConnect_of_awaiting (ha : w.AttemptWf) {s : SocketId} (hlt : s < w.nextSocket)
    (hat : (w.sockets s).attempt = .awaiting) (s' : SocketId) (r' : Result) :
    Microtask.resumeDoConnect s' r' ∉ w.microtasks := by
  intro hmem
  have hin : Microtask.resumeDoConnect s' r' ∈ w.progress := List.mem_filter.mpr ⟨hmem, rfl⟩
  rw [ha.progress_of_awaiting (ha.promise_of_not_settled hlt (by simp [hat])) hat] at hin
  cases hin

theorem Backoff.resumeAttempt (h : l.Backoff o w) (ht : l.Tracks w) {s : SocketId}
    {result : Result}
    (hfree : (w.sockets s).attempt = .awaiting →
      ∀ s' r', Microtask.resumeDoConnect s' r' ∉ w.microtasks)
    (hok : result = .ok () → w.microtasks = []) :
    (match (w.sockets s).attempt with
      | .awaiting => { l with queued := l.queued ++ [none] }
      | _ => l).Backoff o (w.resumeAttempt s result) := by
  rcases World.resumeAttempt_cases w s result with ⟨hat, he⟩ | ⟨hat, he⟩ <;> rw [he]
  · simp only [hat]
    have hhopeful : (w.enqueue [.resumeDoConnect s result]).Hopeful := by
      refine h.hopeful.enqueue (fun s' hs' => ?_) fun _ s' => hfree hat s' _
      cases hs'
      exact hok rfl
    refine h.keep rfl rfl rfl (fun a hmay _ => ?_) h.advance hhopeful
    have hmay' : { l with queued := l.queued ++ [none] }.MayFail
        (w.enqueue [.resumeDoConnect s result]) a := hmay
    rcases mayFail_enqueue ht hmay' with hmay | ⟨-, hask⟩
    · exact hmay
    · cases hask
  · split
    · next hawait => exact absurd hawait hat
    · exact h

theorem Backoff.requeue (h : l.Backoff o w) (ht : l.Tracks w) {task : Microtask}
    {tasks : List Microtask} {ask : Option Ask} {queued : List (Option Ask)}
    (hm : w.microtasks = task :: tasks) (hq : l.queued = ask :: queued) (task' : Microtask)
    (hresult : task'.result = task.result) (hok : ∀ s, task' ≠ .resumeDoConnect s (.ok ()))
    (hloop : World.SameLoop w v) (hv : v.microtasks = tasks ++ [task']) :
    { l with delays := l.delays ++ armed w v, queued := queued ++ [ask] }.Backoff o v := by
  have hall := ht.queued
  rw [hm, hq, List.forall₂_cons] at hall
  have hfailed : task'.Failed → task.Failed := by
    rintro ⟨e, he⟩
    exact ⟨e, hresult.symm.trans he⟩
  refine h.keep hloop.reconnectTimer hloop.reconnectAttempts ?_ (fun a hmay _ => ?_) h.advance ?_
  · simp only [armed_same hloop.reconnectTimer, List.append_nil]
  · rcases hmay with hmem | ⟨t, hmem, hf⟩
    · exact Or.inl hmem
    · rw [hv, List.zip_append hall.2.length_eq] at hmem
      unfold MayFail
      rw [hm, hq, List.zip_cons_cons]
      rcases List.mem_append.mp hmem with hmem | hmem
      · exact Or.inr ⟨t, List.mem_cons_of_mem _ hmem, hf⟩
      · obtain ⟨rfl, rfl⟩ := by simpa using hmem
        exact Or.inr ⟨task, List.mem_cons_self, hfailed hf⟩
  · intro s hmem t hmem' hf
    rw [hv] at hmem hmem'
    rcases List.mem_append.mp hmem with hmem | hmem
    · have hin : Microtask.resumeDoConnect s (.ok ()) ∈ w.microtasks := by simp [hm, hmem]
      rcases List.mem_append.mp hmem' with hmem' | hmem'
      · exact h.hopeful s hin t (by simp [hm, hmem']) hf
      · rw [List.mem_singleton.mp hmem'] at hf
        exact h.hopeful s hin task (by simp [hm]) (hfailed hf)
    · exact hok s (List.mem_singleton.mp hmem).symm

theorem Hopeful.tail {task : Microtask} {tasks : List Microtask} (h : w.Hopeful)
    (hm : w.microtasks = task :: tasks) (hv : v.microtasks = tasks) : v.Hopeful := by
  intro s hmem t hmem'
  rw [hv] at hmem hmem'
  exact h s (by simp [hm, hmem]) t (by simp [hm, hmem'])

theorem mayFail_tail {task : Microtask} {tasks : List Microtask} {ask : Option Ask}
    {queued : List (Option Ask)} (hm : w.microtasks = task :: tasks) (hq : l.queued = ask :: queued)
    (hv : v.microtasks = tasks) (hl : l'.queued = queued) (hw : l'.waiting = l.waiting) {a : Ask}
    (hmay : l'.MayFail v a) : l.MayFail w a := by
  unfold MayFail at hmay ⊢
  rw [hv, hl, hw] at hmay
  rw [hm, hq, List.zip_cons_cons]
  rcases hmay with hmem | ⟨t, hmem, hf⟩
  · exact Or.inl hmem
  · exact Or.inr ⟨t, List.mem_cons_of_mem _ hmem, hf⟩

theorem Advances.snoc (h : l.Advances) (reply : Reply)
    (hreply : reply.ask.caller = .reconnectTimer → reply.result.isOk = false →
      reply.armedAfter = reply.ask.armedAt + 1) (hl : l'.replies = l.replies ++ [reply]) :
    l'.Advances := by
  intro reply' hmem
  rw [hl] at hmem
  rcases List.mem_append.mp hmem with hmem | hmem
  · exact h reply' hmem
  · rw [List.mem_singleton.mp hmem]
    exact hreply

/-- The `catch` of a callback arms a timer unless its attempt has armed one. -/
theorem Backoff.caught (h : l.Backoff o w) {a : Ask} (hmay : l.MayFail w a)
    (hc : a.caller = .reconnectTimer) (hs : World.Schedules o w w') :
    (l.delays ++ armed w w').length = a.armedAt + 1 := by
  obtain ⟨henabled, hlen⟩ := h.awaiting a hmay hc
  cases hs with
  | kept enough timer _ =>
    have hsome := enough.resolve_right henabled
    rw [armed_same timer, List.append_nil, hlen, if_pos hsome]
  | armed unarmed _ timer delay _ =>
    have hone : (Ledger.armed w w').length = 1 := by
      rw [Ledger.armed, timer, unarmed, if_neg (by simp), Option.bind_some, delay]
      rfl
    rw [List.length_append, hone, hlen, unarmed]
    rfl

theorem startHeartbeat_loop (o : RpcConnectionOptions) (w : World) (now : ℚ) :
    World.SameLoop w (World.startHeartbeat o w now) := by
  rcases World.startHeartbeat_cases o w now with he | he <;> rw [he]
  · exact .refl w
  · exact ⟨rfl, rfl, rfl, rfl⟩

theorem mem_settleAttempt {s : SocketId} {r : Result} {task : Microtask}
    (hmem : task ∈ (w.settleAttempt s r).microtasks) :
    task ∈ w.microtasks ∨ (task.result = r ∧ ∀ s' r', task ≠ .resumeDoConnect s' r') := by
  rcases List.mem_append.mp hmem with hmem | hmem
  · exact Or.inl hmem
  · right
    rcases List.mem_cons.mp hmem with rfl | hmem
    · exact ⟨rfl, by simp⟩
    · obtain ⟨c, -, rfl⟩ := List.mem_map.mp hmem
      exact ⟨rfl, by simp⟩

/-- A success of `doConnect` starts the count again; no failure is queued then. -/
theorem Backoff.succeed (h : l.Backoff o w) {s : SocketId} {tasks : List Microtask}
    (hm : w.microtasks = .resumeDoConnect s (.ok ()) :: tasks)
    (hv : v.microtasks = tasks) (htimer : v.reconnectTimer = w.reconnectTimer)
    (hattempts : v.reconnectAttempts = 0) (hdelays : l'.delays = []) (hwaiting : l'.waiting = [])
    (hreplies : l'.replies = l.replies) : l'.Backoff o (v.settleAttempt s (.ok ())) := by
  have hnone : ∀ task ∈ (v.settleAttempt s (.ok ())).microtasks, ¬ task.Failed := by
    intro task hmem
    rcases mem_settleAttempt hmem with hmem | ⟨hr, -⟩
    · rw [hv] at hmem
      exact h.hopeful s (by simp [hm]) task (by simp [hm, hmem])
    · rintro ⟨e, he⟩
      rw [hr] at he
      cases he
  refine ⟨?_, by rw [hdelays]; rfl, ?_, fun a hmay _ => ?_, ?_, fun _ _ => hnone⟩
  · rw [hdelays]
    exact hattempts
  · intro hsome
    have hsome' : v.reconnectTimer.isSome := hsome
    rw [htimer] at hsome'
    exact h.enabled hsome'
  · rcases hmay with hmem | ⟨task, hmem, hf⟩
    · rw [hwaiting] at hmem
      cases hmem
    · exact absurd hf (hnone task (List.of_mem_zip hmem).1)
  · intro reply hmem
    rw [hreplies] at hmem
    exact h.advance reply hmem

theorem Backoff.fail (h : l.Backoff o w) (ht : l.Tracks w) (ha : w.AttemptWf) {s : SocketId}
    {e : JsError} {tasks : List Microtask} {queued : List (Option Ask)}
    (hm : w.microtasks = .resumeDoConnect s (.error e) :: tasks) (hq : l.queued = none :: queued) :
    { l with waiting := [], queued := queued ++ l.waiting.map some }.Backoff o
      ({ w with microtasks := tasks }.settleAttempt s (.error e)) := by
  have hall := ht.queued
  rw [hm, hq, List.forall₂_cons] at hall
  refine h.keep rfl rfl rfl (fun a hmay _ => ?_) h.advance fun s' hmem => ?_
  · rcases hmay with hmem | ⟨task, hmem, hf⟩
    · cases hmem
    · have hzip : (task, some a) ∈
          (tasks ++ (Microtask.resumeConnect (w.sockets s).starter (.error e) ::
            (w.sockets s).joined.map fun c => Microtask.resumeJoined c (.error e))).zip
              (queued ++ l.waiting.map some) := hmem
      rw [List.zip_append hall.2.length_eq] at hzip
      rcases List.mem_append.mp hzip with hold | hnew
      · unfold MayFail
        rw [hm, hq, List.zip_cons_cons]
        exact Or.inr ⟨task, List.mem_cons_of_mem _ hold, hf⟩
      · obtain ⟨b, hb, hba⟩ := List.mem_map.mp (List.of_mem_zip hnew).2
        obtain rfl := Option.some.inj hba
        exact Or.inl hb
  · obtain ⟨-, -, hprogress⟩ := ha.of_resumeDoConnect hm
    rcases mem_settleAttempt hmem with hold | ⟨-, hno⟩
    · have hin : Microtask.resumeDoConnect s' (.ok ()) ∈ tasks.filter Microtask.isProgress :=
        List.mem_filter.mpr ⟨hold, rfl⟩
      rw [hprogress] at hin
      cases hin
    · exact absurd rfl (hno s' _)

theorem Backoff.returned (h : l.Backoff o w) {a : Ask} {r : Result} {tasks : List Microtask}
    {queued : List (Option Ask)} (hm : w.microtasks = .resumeCaller a.caller r :: tasks)
    (hq : l.queued = some a :: queued) {now : ℚ} (hpaced : w.Paced (.microtask now))
    (hw' : w' =
      World.runMicrotask o { w with microtasks := tasks } now (.resumeCaller a.caller r)) :
    ({ l with delays := l.delays ++ armed w w' }.resume (some a) queued
      (.resumeCaller a.caller r)).Backoff o w' := by
  have hqueue : w'.microtasks = tasks := by
    rw [hw']
    cases hcaller : a.caller with
    | user n => rfl
    | reconnectTimer =>
      cases r with
      | ok u => rfl
      | error e => exact (World.sameSockets_scheduleReconnect o _).microtasks
  generalize hl : { l with delays := l.delays ++ armed w w' }.resume (some a) queued
    (.resumeCaller a.caller r) = l'
  have hdelays : l'.delays = l.delays ++ armed w w' := by
    rw [← hl]
    rfl
  have hreplies : l'.replies = l.replies ++ [⟨a, r, (l.delays ++ armed w w').length⟩] := by
    rw [← hl]
    rfl
  have hmay : ∀ b, l'.MayFail w' b → b.caller = .reconnectTimer → l.MayFail w b :=
    fun b hb _ => mayFail_tail hm hq hqueue (by rw [← hl]; rfl) (by rw [← hl]; rfl) hb
  have hhopeful := Hopeful.tail h.hopeful hm hqueue
  have hadvance := fun hreply => h.advance.snoc ⟨a, r, (l.delays ++ armed w w').length⟩ hreply
    hreplies
  cases hcaller : a.caller with
  | user n =>
    rw [hcaller] at hw'
    have hloop : World.SameLoop w w' := by
      rw [hw']
      exact ⟨rfl, rfl, rfl, rfl⟩
    rw [armed_same hloop.reconnectTimer, List.append_nil] at hdelays
    refine h.keep hloop.reconnectTimer hloop.reconnectAttempts hdelays hmay
      (hadvance fun hc => ?_) hhopeful
    rw [hcaller] at hc
    cases hc
  | reconnectTimer =>
    rw [hcaller] at hw'
    cases r with
    | ok u =>
      have hzero : w.reconnectAttempts = 0 := by
        simp only [World.Paced, hm, hcaller] at hpaced
        exact hpaced _ rfl rfl
      have htimer : w'.reconnectTimer = w.reconnectTimer := by rw [hw']; rfl
      rw [armed_same htimer, List.append_nil] at hdelays
      refine h.keep htimer ?_ hdelays hmay (hadvance fun _ hok => by cases hok) hhopeful
      rw [hw', hzero]
      rfl
    | error e =>
      have hschedules : World.Schedules o w w' := by
        have hs := World.schedules_scheduleReconnect o
          { w with microtasks := tasks, state := .reconnecting }
        rw [hw']
        exact hs.congr rfl rfl rfl rfl rfl
      have hhead : l.MayFail w a := by
        unfold MayFail
        rw [hm, hq, List.zip_cons_cons]
        exact Or.inr ⟨_, List.mem_cons_self, e, rfl⟩
      exact h.scheduled hschedules hdelays hmay
        (hadvance fun hc _ => h.caught hhead hcaller hschedules) hhopeful

theorem Backoff.runMicrotask (h : l.Backoff o w) (ht : l.Tracks w) (ha : w.AttemptWf)
    {task : Microtask} {tasks : List Microtask} {ask : Option Ask} {queued : List (Option Ask)}
    (hm : w.microtasks = task :: tasks) (hq : l.queued = ask :: queued) {now : ℚ}
    (hpaced : w.Paced (.microtask now))
    (hw' : w' = World.runMicrotask o { w with microtasks := tasks } now task) :
    ({ l with delays := l.delays ++ armed w w' }.resume ask queued task).Backoff o w' := by
  have hall := ht.queued
  rw [hm, hq, List.forall₂_cons] at hall
  obtain ⟨hc, -⟩ := hall
  cases task with
  | resumeDoConnect s r =>
    obtain rfl : ask = none := hc
    cases r with
    | ok u =>
      have hloop := startHeartbeat_loop o { w with
        microtasks := tasks, state := .connected, reconnectAttempts := 0 } now
      have hsame := World.sameSockets_startHeartbeat o { w with
        microtasks := tasks, state := .connected, reconnectAttempts := 0 } now
      rw [hw']
      exact h.succeed hm hsame.microtasks hloop.reconnectTimer hloop.reconnectAttempts rfl rfl rfl
    | error e =>
      have htimer : w'.reconnectTimer = w.reconnectTimer := by rw [hw']; rfl
      rw [armed_same htimer, List.append_nil, hw']
      exact h.fail ht ha hm hq
  | resumeConnect caller r =>
    have hloop : World.SameLoop w w' := by
      rw [hw']
      exact ⟨rfl, rfl, rfl, rfl⟩
    exact h.requeue ht hm hq (.resumeCaller caller r) rfl (by simp) hloop (by rw [hw']; rfl)
  | resumeJoined caller r =>
    have hloop : World.SameLoop w w' := by
      rw [hw']
      exact ⟨rfl, rfl, rfl, rfl⟩
    exact h.requeue ht hm hq (.resumeCaller caller r) rfl (by simp) hloop (by rw [hw']; rfl)
  | resumeCaller caller r =>
    obtain ⟨a, rfl, rfl, -⟩ := hc
    exact h.returned hm hq hpaced hw'

theorem armed_congr (htimer : w'.reconnectTimer = v.reconnectTimer)
    (htimers : w'.timers = v.timers) : armed w w' = armed w v := by
  simp only [armed, htimer, htimers]

theorem Backoff.step {e : Event} (h : l.Backoff o w) (ht : l.Tracks w) (hwf : w.TimersWf)
    (ha : w.AttemptWf) (hs : (machine o).Step w e w') (hpaced : w.Paced e) :
    (next w e w' l).Backoff o w' := by
  cases loopStep_of_step hwf hs with
  | quiet plain _ loop calls =>
    rw [next_plain plain]
    refine h.keep loop.reconnectTimer loop.reconnectAttempts ?_
      (fun a hmay _ => (mayFail_of_calls calls).1 hmay) h.advance (hopeful_of_calls calls h.hopeful)
    simp only [armed_same loop.reconnectTimer, List.append_nil]
  | disconnect plain _ effect calls =>
    rw [next_plain plain]
    exact h.disconnected effect rfl (fun a hmay _ => (mayFail_of_calls calls).1 hmay) h.advance
      (hopeful_of_calls calls h.hopeful)
  | connect n =>
    have hsame := (World.sameTables_connect w (.user n)).reconnectTimer
    simp only [next, armed_same hsame, List.append_nil]
    exact h.connect ht ha (.user n) fun hc => by cases hc
  | close closes =>
    simp only [next, armed_none closes.reconnectTimer, List.append_nil]
    cases htimer : w.reconnectTimer with
    | none =>
      exact h.keep (closes.reconnectTimer.trans htimer.symm) closes.reconnectAttempts rfl
        (fun a hmay _ => (mayFail_of_calls closes.calls).1 hmay) h.advance
        (hopeful_of_calls closes.calls h.hopeful)
    | some t =>
      refine h.clear (fun a hmay hc => ?_) closes.reconnectTimer closes.reconnectAttempts
        closes.calls.microtasks
      exact hpaced (by rw [htimer]; rfl) (ht.loopAwaits ha hmay hc)
  | lapse armed idle closed fired =>
    simp only [next, closed, Bool.true_eq_false, and_false, if_false,
      armed_none fired.reconnectTimer, List.append_nil]
    refine h.clear (fun a hmay hc => ?_) fired.reconnectTimer fired.reconnectAttempts
      fired.calls.microtasks
    exact hpaced armed (ht.loopAwaits ha hmay hc)
  | @fire t now uuid v armed idle unclosed fired =>
    have hnone : (v.connect .reconnectTimer).reconnectTimer = none :=
      (World.sameTables_connect v .reconnectTimer).reconnectTimer.trans fired.reconnectTimer
    simp only [next, armed, unclosed, and_self, if_true, armed_none hnone, List.append_nil]
    rw [connect_fired fired]
    have hclear : l.Backoff o v := by
      refine h.clear (fun a hmay hc => ?_) fired.reconnectTimer fired.reconnectAttempts
        fired.calls.microtasks
      exact hpaced armed (ht.loopAwaits ha hmay hc)
    exact hclear.connect (ht.keep fired.calls)
      (ha.same ⟨fired.sockets, fired.calls.nextSocket, fired.socket,
        fired.calls.connectionPromise, fired.calls.microtasks⟩) .reconnectTimer
      fun _ => ⟨h.enabled (by rw [armed]; rfl), fired.reconnectTimer⟩
  | @connected s v lt idle loop calls =>
    have htimer : (v.resumeAttempt s (.ok ())).reconnectTimer = w.reconnectTimer :=
      (World.sameLoop_resumeAttempt v s _).reconnectTimer.trans loop.reconnectTimer
    have hkeep : l.Backoff o v :=
      h.keep loop.reconnectTimer loop.reconnectAttempts rfl
        (fun a hmay _ => (mayFail_of_calls calls).1 hmay) h.advance
        (hopeful_of_calls calls h.hopeful)
    simp only [next, armed_same htimer, List.append_nil, ← calls.attempt]
    refine hkeep.resumeAttempt (ht.keep calls) (fun hat => ?_) fun _ => calls.microtasks.trans idle
    rw [calls.attempt] at hat
    rw [calls.microtasks]
    exact not_resumeDoConnect_of_awaiting ha lt hat
  | @failed s error v lt effect calls =>
    have htables := World.sameTables_resumeAttempt v s (.error error)
    have hkeep : { l with delays := l.delays ++ armed w v }.Backoff o v :=
      h.disconnected effect rfl (fun a hmay _ => (mayFail_of_calls calls).1 hmay) h.advance
        (hopeful_of_calls calls h.hopeful)
    simp only [next, armed_congr htables.reconnectTimer htables.timers, ← calls.attempt]
    refine hkeep.resumeAttempt ((ht.arm _).keep calls) (fun hat => ?_) fun hok => by cases hok
    rw [calls.attempt] at hat
    rw [calls.microtasks]
    exact not_resumeDoConnect_of_awaiting ha lt hat
  | @microtask now task tasks queued =>
    have hall := ht.queued
    cases hq : l.queued with
    | nil =>
      rw [queued, hq] at hall
      cases hall
    | cons ask rest =>
      simp only [next, queued, hq]
      exact h.runMicrotask ht ha queued hq hpaced rfl

theorem run_backoff {codec : RpcCodec} {es : List Event} {p : World × Ledger}
    (hrun : ((recorded o).guard fun p e => p.1.Paced e).Run (World.init codec, empty) es p) :
    (p.1.TimersWf ∧ p.1.ConnectWf) ∧ p.2.Tracks p.1 ∧ p.2.Backoff o p.1 := by
  refine hrun.invariant
    (I := fun q => (q.1.TimersWf ∧ q.1.ConnectWf) ∧ q.2.Tracks q.1 ∧ q.2.Backoff o q.1) ?_
    ⟨⟨World.timersWf_init codec, World.attemptWf_init codec, World.resultWf_init codec⟩,
      tracks_init codec, backoff_init codec⟩
  rintro ⟨w, l⟩ e ⟨w', l'⟩ ⟨⟨hwf, hconnect⟩, ht, hb⟩ hs
  obtain ⟨hpaced, hs⟩ := Machine.guard_step.mp hs
  obtain ⟨hs, hl⟩ := Machine.record_step.mp hs
  have hl' : l' = next w e w' l := hl
  rw [hl']
  exact ⟨⟨hwf.step hs, hconnect.step hs⟩, ht.step hwf hconnect.1 hs,
    hb.step ht hwf hconnect.1 hs hpaced⟩

end Ledger

/-- In every run whose steps meet the condition there is one attempt and one timer at a time,
the calls that share an attempt share its outcome, and every failed attempt of the loop
doubles the delay once. -/
theorem one_reconnect (o : RpcConnectionOptions) (codec : RpcCodec) (es : List Event) (w : World)
    (l : Ledger) (hrun : ((recorded o).guard fun p e => p.1.Paced e).Run
      (World.init codec, .empty) es (w, l)) : OneReconnect o w l := by
  obtain ⟨⟨hwf, hconnect⟩, ht, hb⟩ := Ledger.run_backoff hrun
  refine ⟨fun s hs s' hs' hu hu' => ?_, fun t t' delay delay' hd hd' => ?_, ht.shared,
    ht.accounted, hb.delays, hb.advance⟩
  · have hpending : ∀ s < w.nextSocket, (w.sockets s).attempt.isSettled = false →
        w.connectionPromise = some s := by
      intro s hs hu
      refine hconnect.1.promise_of_not_settled hs fun r hr => ?_
      rw [hr] at hu
      cases hu
    exact Option.some.inj ((hpending s hs hu).symm.trans (hpending s' hs' hu'))
  · exact Option.some.inj ((hwf.reconnect_armed t delay hd).symm.trans
      (hwf.reconnect_armed t' delay' hd'))

/-- A connection that is lost and whose first reconnect fails. -/
def sampleLoop : Option (World × Ledger) :=
  ((recorded sampleOptions).guard fun p e => p.1.Paced e).exec (World.init sampleCodec, .empty)
    [.connect 0, .socketConnect 0, .microtask 0, .microtask 0, .microtask 0,
      .socketError 0 World.connectionClosed, .socketClose 0, .timer 0 100 "", .connect 1,
      .socketError 1 World.connectionClosed, .microtask 100, .microtask 100, .microtask 100,
      .microtask 100, .microtask 100, .socketClose 1]

theorem sampleLoop_isSome : sampleLoop.isSome := by decide +kernel

theorem one_reconnect_sample :
    OneReconnect sampleOptions (sampleLoop.get sampleLoop_isSome).1
      (sampleLoop.get sampleLoop_isSome).2 :=
  one_reconnect sampleOptions sampleCodec _ _ _ (Machine.run_exec_get sampleLoop_isSome)

/-- A user's attempt that a reconnect timer's callback shares fails, and the user closes the
connection before the callback is told. -/
def sampleTwice : Option (World × Ledger) :=
  ((recorded sampleOptions).guard fun _ _ => True).exec (World.init sampleCodec, .empty)
    [.connect 0, .socketConnect 0, .microtask 0, .microtask 0, .microtask 0,
      .socketError 0 World.connectionClosed, .connect 1, .timer 0 100 "",
      .socketError 1 World.connectionClosed, .microtask 100, .microtask 100, .microtask 100,
      .microtask 100, .close, .microtask 100]

theorem sampleTwice_isSome : sampleTwice.isSome := by decide +kernel

theorem failed_attempt_counts_twice : ¬ ∀ o codec es w l, RpcCodec.new o.codecOptions = .ok codec →
    (recorded o).Run (World.init codec, .empty) es (w, l) → OneReconnect o w l := by
  intro h
  have hone := h _ _ _ _ _ rfl (Machine.run_exec_get sampleTwice_isSome).unguard
  have hadvance : ∀ reply ∈ (sampleTwice.get sampleTwice_isSome).2.replies,
      reply.ask.caller = .reconnectTimer → reply.result.isOk = false →
        reply.armedAfter = reply.ask.armedAt + 1 := hone.advance
  revert hadvance
  decide +kernel

end WeisleyRpc.Client
