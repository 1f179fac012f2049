import Mathlib.Data.List.Forall2
import Mathlib.Data.List.ReduceOption
import Mathlib.Tactic.Ring
import WeisleyRpc.ReconnectState

/-!
# The calls of `connect` and their outcomes

A run is recorded: who called `connect`, from users or from a reconnect timer, which attempt
each call came to await, what it was told, and the delays of the timers that were armed since
the last success. The calls that await one attempt are all told how it ended.
-/

namespace WeisleyRpc.Client

/-- A call of `connect`: the socket of the attempt it awaits, unless it found the connection
open, and how many timers had been armed since the last success. -/
structure Ask where
  caller : Caller
  attempt : Option SocketId
  armedAt : ℕ
  deriving DecidableEq

structure Reply where
  ask : Ask
  result : Result
  armedAfter : ℕ

/-- The record of a run. Beside every queued continuation stands the call it belongs to. -/
structure Ledger where
  asked : List Ask
  waiting : List Ask
  queued : List (Option Ask)
  replies : List Reply
  delays : List ℚ

namespace Ledger

def empty : Ledger := ⟨[], [], [], [], []⟩

def await (l : Ledger) (caller : Caller) (s : SocketId) : Ledger :=
  { l with
    asked := l.asked ++ [⟨caller, some s, l.delays.length⟩]
    waiting := l.waiting ++ [⟨caller, some s, l.delays.length⟩] }

def answer (l : Ledger) (caller : Caller) (attempt : Option SocketId) : Ledger :=
  { l with
    asked := l.asked ++ [⟨caller, attempt, l.delays.length⟩]
    queued := l.queued ++ [some ⟨caller, attempt, l.delays.length⟩] }

def connect (l : Ledger) (w : World) (caller : Caller) : Ledger :=
  if w.state = .connected ∧ w.liveSocket.isSome then l.answer caller none
  else
    match w.connectionPromise with
    | none => l.await caller w.nextSocket
    | some s =>
      if (w.sockets s).attempt.isSettled then l.answer caller (some s) else l.await caller s

/-- The delay of the reconnect timer that a step has armed. -/
def armed (w w' : World) : List ℚ :=
  if w'.reconnectTimer = w.reconnectTimer then []
  else
    match w'.reconnectTimer.bind w'.timers.get with
    | some (.reconnect delay) => [delay]
    | _ => []

/-- The first continuation runs; `ask` is its call, and `queued` stands beside the others. -/
def resume (l : Ledger) (ask : Option Ask) (queued : List (Option Ask)) : Microtask → Ledger
  | .resumeDoConnect _ result =>
    { l with
      waiting := []
      queued := queued ++ l.waiting.map some
      delays := if result.isOk then [] else l.delays }
  | .resumeConnect _ _ | .resumeJoined _ _ => { l with queued := queued ++ [ask] }
  | .resumeCaller _ result =>
    { l with
      queued := queued
      replies := l.replies ++ ask.toList.map fun ask => ⟨ask, result, l.delays.length⟩ }

def next (w : World) (e : Event) (w' : World) (l : Ledger) : Ledger :=
  let l := { l with delays := l.delays ++ armed w w' }
  match e with
  | .connect n => l.connect w (.user n)
  | .timer t _ _ =>
    if w.reconnectTimer = some t ∧ w.manuallyClosed = false then l.connect w .reconnectTimer else l
  | .socketConnect s | .socketError s _ =>
    match (w.sockets s).attempt with
    | .awaiting => { l with queued := l.queued ++ [none] }
    | _ => l
  | .microtask _ =>
    match w.microtasks, l.queued with
    | task :: _, ask :: queued => l.resume ask queued task
    | _, _ => l
  | _ => l

end Ledger

/-- The connection beside the record of its run. -/
def recorded (o : RpcConnectionOptions) : Machine (World × Ledger) Event JsError :=
  (machine o).record Ledger.next

/-- The record follows the connection and changes nothing in it. -/
theorem run_recorded_iff {o : RpcConnectionOptions} {w w' : World} {es : List Event} (l : Ledger) :
    (∃ l', (recorded o).Run (w, l) es (w', l')) ↔ (machine o).Run w es w' := by
  constructor
  · rintro ⟨l', h⟩
    exact h.unrecord
  · intro h
    exact h.recorded l

instance (o : RpcConnectionOptions) (p : World × Ledger) (e : Event) :
    Decidable ((recorded o).Enabled p e) := inferInstanceAs (Decidable (Enabled p.1 e))

/-- The result is how the awaited attempt ended; an open connection is a success. -/
def Ask.Shares (w : World) (a : Ask) (result : Result) : Prop :=
  match a.attempt with
  | none => result = .ok ()
  | some s => s < w.nextSocket ∧ (w.sockets s).attempt = .settled result

/-- The call that stands beside a continuation is its own. -/
def Microtask.CarriedBy (w : World) (task : Microtask) (ask : Option Ask) : Prop :=
  match task with
  | .resumeDoConnect _ _ => ask = none
  | .resumeConnect caller result | .resumeJoined caller result | .resumeCaller caller result =>
    ∃ a, ask = some a ∧ a.caller = caller ∧ a.Shares w result

/-- What the record says of the connection. -/
structure Ledger.Tracks (w : World) (l : Ledger) : Prop where
  queued : List.Forall₂ (Microtask.CarriedBy w) w.microtasks l.queued
  waiting : ∀ a ∈ l.waiting, ∃ s, w.connectionPromise = some s ∧ a.attempt = some s
  callers : ∀ s, w.connectionPromise = some s →
    l.waiting.map (·.caller) =
      if (w.sockets s).attempt.isSettled then [] else (w.sockets s).starter :: (w.sockets s).joined
  shared : ∀ reply ∈ l.replies, reply.ask.Shares w reply.result
  accounted : l.asked.Perm (l.replies.map (·.ask) ++ (l.queued.reduceOption ++ l.waiting))

namespace Ledger
variable {o : RpcConnectionOptions} {v w w' : World} {l : Ledger}

theorem tracks_init (codec : RpcCodec) : empty.Tracks (World.init codec) where
  queued := .nil
  waiting := by simp [empty]
  callers := by simp [World.init]
  shared := by simp [empty]
  accounted := .refl _

/-- A settled attempt stays as it is. -/
structure Settles (w v : World) : Prop where
  nextSocket : w.nextSocket ≤ v.nextSocket
  settled : ∀ s < w.nextSocket, ∀ r, (w.sockets s).attempt = .settled r →
    (v.sockets s).attempt = .settled r

theorem settles_of_calls (h : World.SameCalls w v) : Settles w v :=
  ⟨h.nextSocket.ge, fun s _ _ hs => (h.attempt s).trans hs⟩

theorem Settles.shares (h : Settles w v) {a : Ask} {r : Result} (hs : a.Shares w r) :
    a.Shares v r := by
  unfold Ask.Shares at hs ⊢
  cases ha : a.attempt with
  | none => rwa [ha] at hs
  | some s =>
    rw [ha] at hs
    exact ⟨hs.1.trans_le h.nextSocket, h.settled s hs.1 r hs.2⟩

theorem Settles.carried (h : Settles w v) {task : Microtask} {ask : Option Ask}
    (hc : task.CarriedBy w ask) : task.CarriedBy v ask := by
  cases task with
  | resumeDoConnect s r => exact hc
  | resumeConnect caller r | resumeJoined caller r | resumeCaller caller r =>
    obtain ⟨a, ha, hcaller, hs⟩ := hc
    exact ⟨a, ha, hcaller, h.shares hs⟩

theorem Tracks.keep (h : l.Tracks w) (hc : World.SameCalls w v) : l.Tracks v := by
  have hs := settles_of_calls hc
  refine ⟨?_, ?_, ?_, fun reply hr => hs.shares (h.shared reply hr), h.accounted⟩
  · rw [hc.microtasks]
    exact h.queued.imp fun _ _ => hs.carried
  · rw [hc.connectionPromise]
    exact h.waiting
  · intro s hp
    rw [hc.attempt, hc.starter, hc.joined]
    exact h.callers s (hc.connectionPromise.symm.trans hp)

theorem Tracks.arm (h : l.Tracks w) (delays : List ℚ) : { l with delays := delays }.Tracks w :=
  ⟨h.queued, h.waiting, h.callers, h.shared, h.accounted⟩

theorem accounted_answer (a : Ask) {replies queued : List Ask} {asked waiting : List Ask}
    (h : asked.Perm (replies ++ (queued ++ waiting))) :
    (asked ++ [a]).Perm (replies ++ (queued ++ [a] ++ waiting)) := by
  rw [List.perm_iff_count] at h ⊢
  intro x
  have hx := h x
  simp only [List.count_append] at hx ⊢
  omega

theorem Tracks.answer (h : l.Tracks w) (caller : Caller) {attempt : Option SocketId}
    {task : Microtask}
    (hc : task.CarriedBy w (some ⟨caller, attempt, l.delays.length⟩)) :
    (l.answer caller attempt).Tracks (w.enqueue [task]) := by
  refine ⟨List.rel_append h.queued (.cons hc .nil), h.waiting, h.callers, h.shared, ?_⟩
  simp only [Ledger.answer, List.reduceOption_append, List.reduceOption_singleton,
    Option.toList_some]
  exact accounted_answer _ h.accounted

theorem accounted_await (a : Ask) {asked replies queued waiting : List Ask}
    (h : asked.Perm (replies ++ (queued ++ waiting))) :
    (asked ++ [a]).Perm (replies ++ (queued ++ (waiting ++ [a]))) := by
  rw [List.perm_iff_count] at h ⊢
  intro x
  have hx := h x
  simp only [List.count_append] at hx ⊢
  omega

theorem Tracks.connect (h : l.Tracks w) (ha : w.AttemptWf) (caller : Caller) :
    (l.connect w caller).Tracks (w.connect caller) := by
  unfold Ledger.connect
  rcases World.connect_cases w caller with ⟨hstate, hlive, he⟩ | ⟨hno, ⟨s, hp, he⟩ | ⟨hp, he⟩⟩ <;>
    rw [he]
  · rw [if_pos ⟨hstate, hlive⟩]
    exact h.answer caller ⟨_, rfl, rfl, rfl⟩
  · rw [if_neg hno, hp]
    have hlt : s < w.nextSocket := by
      rw [← ha.latest s (ha.promise s hp)]
      exact Nat.lt_succ_self s
    rcases World.join_cases w s caller with ⟨result, hs, hj⟩ | ⟨hs, hj⟩ <;> rw [hj]
    · simp only [hs, Attempt.isSettled, if_true]
      exact h.answer caller ⟨_, rfl, rfl, hlt, hs⟩
    · have hunsettled : (w.sockets s).attempt.isSettled = false := by
        cases hat : (w.sockets s).attempt with
        | settled r => exact absurd hat (hs r)
        | _ => rfl
      simp only [hunsettled, Bool.false_eq_true, if_false]
      have hattempt := fun s' => w.updateSocket_field s
        (f := fun k => { k with joined := k.joined ++ [caller] }) s' Socket.attempt fun _ => rfl
      have hsettles : Settles w
          (w.updateSocket s fun k => { k with joined := k.joined ++ [caller] }) :=
        ⟨Nat.le_refl _, fun s' _ _ hr => (hattempt s').trans hr⟩
      refine ⟨h.queued.imp fun _ _ => hsettles.carried, fun a hmem => ?_, fun s' hp' => ?_,
        fun reply hr => hsettles.shares (h.shared reply hr), accounted_await _ h.accounted⟩
      · rcases List.mem_append.mp hmem with hmem | hmem
        · exact h.waiting a hmem
        · obtain rfl := List.mem_singleton.mp hmem
          exact ⟨s, hp, rfl⟩
      · obtain rfl := Option.some.inj (hp.symm.trans hp')
        have hcallers := h.callers s hp
        simp only [hunsettled, Bool.false_eq_true, if_false] at hcallers
        simp only [Ledger.await, List.map_append, hcallers, World.sockets_updateSocket, if_true,
          hunsettled, Bool.false_eq_true, if_false, List.map_cons, List.map_nil, List.cons_append]
  · rw [if_neg hno, hp]
    have hnone : l.waiting = [] := by
      cases hw : l.waiting with
      | nil => rfl
      | cons a rest =>
        obtain ⟨s, hs, -⟩ := h.waiting a (by simp [hw])
        rw [hp] at hs
        cases hs
    have hsettles : Settles w
        { w.doConnect caller with connectionPromise := some w.nextSocket } := by
      refine ⟨Nat.le_succ _, fun s hlt r hr => ?_⟩
      simpa [World.doConnect, Function.update_apply, Nat.ne_of_lt hlt] using hr
    refine ⟨h.queued.imp fun _ _ => hsettles.carried, fun a hmem => ?_, fun s hs => ?_,
      fun reply hr => hsettles.shares (h.shared reply hr), accounted_await _ h.accounted⟩
    · simp only [Ledger.await, hnone, List.nil_append, List.mem_singleton] at hmem
      exact ⟨w.nextSocket, rfl, by rw [hmem]⟩
    · obtain rfl := Option.some.inj hs
      simp [Ledger.await, hnone, World.doConnect, Socket.new, Attempt.isSettled]

theorem Tracks.resumeAttempt (h : l.Tracks w) (s : SocketId) (result : Result) :
    (match (w.sockets s).attempt with
      | .awaiting => { l with queued := l.queued ++ [none] }
      | _ => l).Tracks (w.resumeAttempt s result) := by
  rcases World.resumeAttempt_cases w s result with ⟨hat, he⟩ | ⟨hat, he⟩ <;> rw [he]
  · simp only [hat]
    have hsettles : Settles w ((w.updateSocket s fun k => { k with attempt := .resuming }).enqueue
        [.resumeDoConnect s result]) := by
      refine ⟨Nat.le_refl _, fun s' _ r hr => ?_⟩
      have hne : s' ≠ s := by
        rintro rfl
        rw [hat] at hr
        cases hr
      rwa [World.sockets_enqueue, World.sockets_updateSocket, if_neg hne]
    refine ⟨List.rel_append (h.queued.imp fun _ _ => hsettles.carried) (.cons rfl .nil), h.waiting,
      fun s' hp => ?_, fun reply hr => hsettles.shares (h.shared reply hr), ?_⟩
    · have hcallers := h.callers s' hp
      by_cases hss : s' = s
      · rw [hss, hat] at hcallers
        simp only [World.sockets_enqueue, World.sockets_updateSocket, hss, if_true]
        exact hcallers
      · simp only [World.sockets_enqueue, World.sockets_updateSocket, hss, if_false]
        exact hcallers
    · simpa [List.reduceOption_append, List.reduceOption_singleton] using h.accounted
  · split
    · next hawait => exact absurd hawait hat
    · exact h

theorem Tracks.settleAttempt (h : l.Tracks w) (ha : w.AttemptWf) {s : SocketId} {r : Result}
    {tasks : List Microtask} {queued : List (Option Ask)}
    (hm : w.microtasks = .resumeDoConnect s r :: tasks) (hq : l.queued = none :: queued)
    (hv : World.SameAttempts { w with microtasks := tasks } v) (delays : List ℚ) :
    Tracks (v.settleAttempt s r)
      { l with waiting := [], queued := queued ++ l.waiting.map some, delays := delays } := by
  obtain ⟨hp, hat, -⟩ := ha.of_resumeDoConnect hm
  have hlt : s < w.nextSocket := by
    rw [← ha.latest s (ha.promise s hp)]
    exact Nat.lt_succ_self s
  have hattempt : ∀ s', ((v.settleAttempt s r).sockets s').attempt =
      if s' = s then .settled r else (w.sockets s').attempt := by
    intro s'
    rw [World.settleAttempt, World.sockets_enqueue, World.sockets_updateSocket, hv.sockets]
    split_ifs <;> rfl
  have hnext : (v.settleAttempt s r).nextSocket = w.nextSocket := hv.nextSocket
  have hsettles : Settles w (v.settleAttempt s r) := by
    refine ⟨hnext.ge, fun s' _ r' hr' => ?_⟩
    have hne : s' ≠ s := by
      rintro rfl
      rw [hat] at hr'
      cases hr'
    rw [hattempt, if_neg hne, hr']
  have hcallers := h.callers s hp
  simp only [hat, Attempt.isSettled, Bool.false_eq_true, if_false] at hcallers
  obtain ⟨first, rest, hwaiting, hfirst, hrest⟩ := List.map_eq_cons_iff.mp hcallers
  have hshares : ∀ a ∈ l.waiting, a.Shares (v.settleAttempt s r) r := by
    intro a hmem
    obtain ⟨s', hp', has⟩ := h.waiting a hmem
    obtain rfl := Option.some.inj (hp.symm.trans hp')
    unfold Ask.Shares
    rw [has]
    exact ⟨hlt.trans_eq hnext.symm, by rw [hattempt, if_pos rfl]⟩
  have htail : List.Forall₂ (Microtask.CarriedBy (v.settleAttempt s r)) tasks queued := by
    have hall := h.queued
    rw [hm, hq, List.forall₂_cons] at hall
    exact hall.2.imp fun _ _ => hsettles.carried
  refine ⟨?_, by simp, fun s' hp' => ?_, fun reply hr => hsettles.shares (h.shared reply hr), ?_⟩
  · have hmicrotasks : (v.settleAttempt s r).microtasks = tasks ++
        (.resumeConnect first.caller r :: rest.map fun a => .resumeJoined a.caller r) := by
      rw [World.settleAttempt, World.microtasks_enqueue, World.microtasks_updateSocket,
        hv.microtasks, hv.sockets, hfirst, ← hrest, List.map_map]
      rfl
    rw [hmicrotasks, hwaiting, List.map_cons]
    refine List.rel_append htail (.cons ⟨first, rfl, rfl, hshares first (by simp [hwaiting])⟩ ?_)
    rw [List.forall₂_map_left_iff, List.forall₂_map_right_iff, List.forall₂_same]
    intro a hmem
    exact ⟨a, rfl, rfl, hshares a (by simp [hwaiting, hmem])⟩
  · have hps : s' = s := by
      have hp'' : v.connectionPromise = some s' := hp'
      rw [hv.connectionPromise] at hp''
      exact Option.some.inj (hp''.symm.trans hp)
    simp [hattempt, hps, Attempt.isSettled]
  · have haccounted := h.accounted
    rw [hq, List.reduceOption_cons_of_none] at haccounted
    have hsome : (l.waiting.map some).reduceOption = l.waiting := by
      simp [List.reduceOption, List.filterMap_map]
    simpa [List.reduceOption_append, hsome] using haccounted

theorem accounted_requeue (ask : Option Ask) {queued : List (Option Ask)}
    {asked replies waiting : List Ask}
    (h : asked.Perm (replies ++ ((ask :: queued).reduceOption ++ waiting))) :
    asked.Perm (replies ++ ((queued ++ [ask]).reduceOption ++ waiting)) := by
  have hmoved : (ask :: queued).reduceOption.Perm (queued ++ [ask]).reduceOption :=
    (List.perm_append_singleton ask queued).symm.filterMap id
  exact h.trans (List.Perm.append_left _ (List.Perm.append_right _ hmoved))

theorem Tracks.runMicrotask (h : l.Tracks w) (ha : w.AttemptWf) {task : Microtask}
    {tasks : List Microtask} (hm : w.microtasks = task :: tasks) {ask : Option Ask}
    {queued : List (Option Ask)} (hq : l.queued = ask :: queued) (now : ℚ) :
    (l.resume ask queued task).Tracks
      (World.runMicrotask o { w with microtasks := tasks } now task) := by
  have hall := h.queued
  rw [hm, hq, List.forall₂_cons] at hall
  obtain ⟨hc, htail⟩ := hall
  have haccounted := h.accounted
  rw [hq] at haccounted
  cases task with
  | resumeDoConnect s r =>
    obtain rfl : ask = none := hc
    cases r with
    | ok u =>
      have hb := World.sameSockets_startHeartbeat o { w with
        microtasks := tasks, state := .connected, reconnectAttempts := 0 } now
      exact h.settleAttempt ha hm hq
        ⟨hb.sockets, hb.nextSocket, hb.socket, hb.connectionPromise, hb.microtasks⟩ _
    | error e => exact h.settleAttempt ha hm hq ⟨rfl, rfl, rfl, rfl, rfl⟩ _
  | resumeConnect caller r =>
    obtain ⟨s, hp, hat, -, -⟩ := ha.of_resumeConnect hm
    have hnone : l.waiting = [] := by
      have hcallers := h.callers s hp
      simp only [hat, Attempt.isSettled, if_true, List.map_eq_nil_iff] at hcallers
      exact hcallers
    refine ⟨List.rel_append htail (.cons hc .nil), ?_, ?_, h.shared,
      accounted_requeue ask haccounted⟩
    · simp [Ledger.resume, hnone]
    · intro s' hp'
      cases hp'
  | resumeJoined caller r =>
    exact ⟨List.rel_append htail (.cons hc .nil), h.waiting, h.callers, h.shared,
      accounted_requeue ask haccounted⟩
  | resumeCaller caller r =>
    obtain ⟨a, rfl, hcaller, hshares⟩ := hc
    have hsame : World.SameCalls { w with microtasks := tasks }
        (World.runMicrotask o { w with microtasks := tasks } now (.resumeCaller caller r)) := by
      cases caller with
      | user n => exact ⟨rfl, rfl, rfl, fun _ => rfl, fun _ => rfl, fun _ => rfl⟩
      | reconnectTimer =>
        cases r with
        | ok u => exact ⟨rfl, rfl, rfl, fun _ => rfl, fun _ => rfl, fun _ => rfl⟩
        | error e =>
          have hcalls := (World.sameSockets_scheduleReconnect o
            { w with microtasks := tasks, state := .reconnecting }).calls
          exact ⟨hcalls.nextSocket, hcalls.connectionPromise, hcalls.microtasks, hcalls.attempt,
            hcalls.starter, hcalls.joined⟩
    have hpopped : (l.resume (some a) queued (.resumeCaller caller r)).Tracks
        { w with microtasks := tasks } := by
      refine ⟨htail, h.waiting, h.callers, fun reply hr => ?_, ?_⟩
      · rcases List.mem_append.mp hr with hr | hr
        · exact h.shared reply hr
        · obtain rfl := List.mem_singleton.mp hr
          exact hshares
      · rw [List.reduceOption_cons_of_some] at haccounted
        simpa [Ledger.resume] using haccounted
    exact hpopped.keep hsame

theorem connect_fired (h : World.Fired w v) (l : Ledger) (caller : Caller) :
    l.connect w caller = l.connect v caller := by
  have hlive : v.liveSocket = w.liveSocket := by
    rw [World.liveSocket, World.liveSocket, h.socket, h.sockets]
  simp only [Ledger.connect, h.state, hlive, h.calls.connectionPromise, h.calls.nextSocket,
    h.sockets]

theorem next_plain {e : Event} (h : w.Plain e) (w' : World) (l : Ledger) :
    next w e w' l = { l with delays := l.delays ++ armed w w' } := by
  cases e with
  | timer t now uuid =>
    have hne : w.reconnectTimer ≠ some t := h
    simp only [next, hne, false_and, if_false]
  | connect | close | socketConnect | socketError | microtask => cases h
  | _ => rfl

theorem Tracks.step {e : Event} (h : l.Tracks w) (ht : w.TimersWf) (ha : w.AttemptWf)
    (hs : (machine o).Step w e w') : (next w e w' l).Tracks w' := by
  have harm := h.arm (l.delays ++ armed w w')
  cases loopStep_of_step ht hs with
  | quiet plain _ _ calls =>
    rw [next_plain plain]
    exact harm.keep calls
  | disconnect plain _ _ calls =>
    rw [next_plain plain]
    exact harm.keep calls
  | connect n => exact harm.connect ha (.user n)
  | close closes => exact harm.keep closes.calls
  | lapse armed idle closed fired =>
    simp only [next, closed, Bool.true_eq_false, and_false, if_false]
    exact harm.keep fired.calls
  | fire armed idle unclosed fired =>
    simp only [next, armed, unclosed, and_self, if_true]
    rw [connect_fired fired]
    exact (harm.keep fired.calls).connect
      (ha.same ⟨fired.sockets, fired.calls.nextSocket, fired.socket,
        fired.calls.connectionPromise, fired.calls.microtasks⟩) .reconnectTimer
  | @connected s v _ _ _ calls =>
    simp only [next, ← calls.attempt]
    exact (harm.keep calls).resumeAttempt s (.ok ())
  | @failed s error v _ _ calls =>
    simp only [next, ← calls.attempt]
    exact (harm.keep calls).resumeAttempt s (.error error)
  | @microtask now task tasks queued =>
    have hall := h.queued
    cases hq : l.queued with
    | nil =>
      rw [queued, hq] at hall
      cases hall
    | cons ask rest =>
      simp only [next, queued, hq]
      exact harm.runMicrotask ha queued hq now

end Ledger

end WeisleyRpc.Client
