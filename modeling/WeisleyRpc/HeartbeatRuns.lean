import Mathlib.Tactic.Linarith
import WeisleyRpc.ConnectionHeartbeat
import WeisleyRpc.ConnectionSockets

/-!
# The heartbeat over time

A run is watched: the clock, the last tick of the current heartbeat, the last pong and whether
a ping is unanswered. What is watched makes no difference to the connection.
-/

namespace WeisleyRpc.Client

/-- The reading of the clock by the callback of an event. -/
def Event.time : Event → Option ℚ
  | .timer _ now _ => some now
  | .socketData _ _ now => some now
  | .microtask now => some now
  | _ => none

/-- The heartbeat of the last connect: its timer, its last tick or its start, the last pong or
its start, and whether the ping of its last tick is unanswered. -/
structure Heartbeat where
  timer : TimerId
  lastTick : ℚ
  lastPong : ℚ
  asked : Bool
  deriving DecidableEq

structure Watched where
  world : World
  clock : ℚ
  heartbeat : Option Heartbeat

/-- The tick writes a ping. -/
def World.Pings (o : RpcConnectionOptions) (w : World) (now : ℚ) : Prop :=
  w.liveSocket.isSome ∧ ¬ heartbeatExpired o w now

instance (o : RpcConnectionOptions) (w : World) (now : ℚ) : Decidable (w.Pings o now) :=
  inferInstanceAs (Decidable (_ ∧ _))

namespace Watched

def observe (o : RpcConnectionOptions) (s : Watched) : Event → Option Heartbeat
  | .microtask now =>
    if s.world.startsHeartbeat o then some ⟨s.world.nextTimer, now, now, false⟩ else s.heartbeat
  | .socketData _ chunk now =>
    if s.world.pongs chunk then s.heartbeat.map fun h => { h with lastPong := now, asked := false }
    else s.heartbeat
  | .timer t now _ => s.heartbeat.map fun h =>
    if t = h.timer then { h with lastTick := now, asked := decide (s.world.Pings o now) } else h
  | _ => s.heartbeat

/-- The clock does not go back. -/
def Enabled (s : Watched) (e : Event) : Prop :=
  Client.Enabled s.world e ∧ ∀ now ∈ e.time, s.clock ≤ now

def machine (o : RpcConnectionOptions) : Machine Watched Event JsError where
  Enabled := Enabled
  apply s e := (apply o s.world e).map fun world => ⟨world, e.time.getD s.clock, s.observe o e⟩

def start (codec : RpcCodec) : Watched := ⟨World.init codec, 0, none⟩

variable {o : RpcConnectionOptions} {s s' : Watched} {e : Event} {h h' : Heartbeat}

theorem step_world (hs : (machine o).Step s e s') :
    (Client.machine o).Step s.world e s'.world ∧ (∀ now ∈ e.time, s.clock ≤ now) ∧
      s'.clock = e.time.getD s.clock ∧ s'.heartbeat = s.observe o e := by
  obtain ⟨⟨henabled, hclock⟩, happly⟩ := hs
  cases hw : Client.apply o s.world e with
  | error error =>
    simp only [machine, hw] at happly
    cases happly
  | ok world =>
    simp only [machine, hw] at happly
    obtain rfl := Except.ok.inj happly
    exact ⟨⟨henabled, hw⟩, hclock, rfl, rfl⟩

/-- What is watched agrees with the connection. -/
structure Sees (s : Watched) (h : Heartbeat) : Prop where
  known : h.timer < s.world.nextTimer
  beats : s.world.Beats h.timer
  lastPong : s.world.lastPongAt = h.lastPong
  lastTick : h.lastTick ≤ s.clock
  answered : (s.world.timers.get h.timer).isSome → h.asked = false → h.lastTick ≤ h.lastPong

theorem Sees.kept (hs : s.Sees h) (hk : World.KeepsBeat h.timer s.world s'.world)
    (hclock : s.clock ≤ s'.clock) : s'.Sees h where
  known := hs.known.trans_le hk.nextTimer
  beats := hk.beats hs.known hs.beats
  lastPong := hk.lastPongAt.trans hs.lastPong
  lastTick := hs.lastTick.trans hclock
  answered halive hasked := hs.answered (hk.timers hs.known halive) hasked

/-- A tick that writes no ping stops the heartbeat. -/
theorem heartbeatTimer_of_tick {w w' : World} {now : ℚ} {uuid : String}
    (htick : World.heartbeatTick o w now uuid = .ok w') (hpings : ¬ w.Pings o now) :
    w'.heartbeatTimer = none := by
  rcases World.heartbeatTick_cases htick with ⟨-, rfl⟩ | ⟨k, hlive, ⟨-, error, rfl⟩ | ⟨hx, -⟩⟩
  · rw [World.stopHeartbeat_eq]
  · exact World.handleUnexpectedDisconnect_heartbeatTimer o w error
  · exact absurd ⟨by rw [hlive]; rfl, hx⟩ hpings

theorem Sees.ticked (hs : s.Sees h) (hwf : s.world.TimersWf) {now : ℚ} {uuid : String}
    (hstep : (Client.machine o).Step s.world (.timer h.timer now uuid) s'.world)
    (hk : World.KeepsBeat h.timer s.world s'.world) (hclock : s'.clock = now) :
    s'.Sees { h with lastTick := now, asked := decide (s.world.Pings o now) } := by
  refine ⟨hs.known.trans_le hk.nextTimer, hk.beats hs.known hs.beats,
    hk.lastPongAt.trans hs.lastPong, hclock.ge, ?_⟩
  intro halive hasked
  have hpings : ¬ s.world.Pings o now := of_decide_eq_false hasked
  have hcurrent := hk.beats hs.known hs.beats halive
  obtain ⟨k, htask⟩ := hwf.heartbeat h.timer (hs.beats (hk.timers hs.known halive))
  cases answer_of_step hstep with
  | timer armed _ run =>
    rw [htask] at armed
    obtain rfl := Option.some.inj armed
    rw [heartbeatTimer_of_tick run hpings] at hcurrent
    cases hcurrent

/-- What holds in every watched state. -/
structure Sound (s : Watched) : Prop where
  timers : s.world.TimersWf
  sees : ∀ h, s.heartbeat = some h → s.Sees h

theorem sound_start (codec : RpcCodec) : (start codec).Sound :=
  ⟨World.timersWf_init codec, fun h hh => by cases hh⟩

/-- An event that neither starts nor answers a heartbeat, nor is a tick of its own. -/
theorem Sound.kept (hsound : s.Sound) (hs : (machine o).Step s e s') (hle : s.clock ≤ s'.clock)
    (hd : ∀ k chunk now, e ≠ .socketData k chunk now)
    (hm : ∀ now, e = .microtask now → s.world.startsHeartbeat o = false)
    (hh : s.heartbeat = some h) : s'.Sees h := by
  cases World.beatStep_of_answer h.timer (answer_of_step (step_world hs).1) with
  | kept _ _ hk => exact (hsound.sees h hh).kept hk hle
  | data => exact absurd rfl (hd _ _ _)
  | started hstarts =>
    rw [hm _ rfl] at hstarts
    cases hstarts

theorem Sound.step (hsound : s.Sound) (hs : (machine o).Step s e s') : s'.Sound := by
  obtain ⟨hworld, htime, hclock, hheartbeat⟩ := step_world hs
  have hle : s.clock ≤ s'.clock := by
    rw [hclock]
    cases ht : e.time with
    | none => exact le_rfl
    | some now => exact htime now ht
  refine ⟨hsound.timers.step hworld, ?_⟩
  intro h' hh'
  rw [hheartbeat] at hh'
  cases e with
  | microtask now =>
    simp only [observe] at hh'
    split_ifs at hh' with hstarts
    · obtain rfl := Option.some.inj hh'
      cases World.beatStep_of_answer 0 (answer_of_step hworld) with
      | kept _ hno =>
        rw [hno now rfl] at hstarts
        cases hstarts
      | started _ hnext htimer hlast =>
        refine ⟨?_, fun _ => htimer, hlast, hclock.ge, fun _ _ => le_rfl⟩
        rw [hnext]
        exact Nat.lt_succ_self _
    · exact hsound.kept hs hle (fun _ _ _ h => by cases h) (fun _ _ => by simpa using hstarts) hh'
  | socketData k chunk now =>
    simp only [observe] at hh'
    split_ifs at hh' with hpong
    · obtain ⟨h, hh, rfl⟩ := Option.map_eq_some_iff.1 hh'
      have hsees := hsound.sees h hh
      cases World.beatStep_of_answer h.timer (answer_of_step hworld) with
      | kept hno => exact absurd rfl (hno _ _ _)
      | data hk hlast =>
        rw [if_pos hpong] at hlast
        exact ⟨hsees.known.trans_le hk.nextTimer, hk.beats hsees.known hsees.beats, hlast,
          hsees.lastTick.trans hle, fun _ _ => hsees.lastTick.trans (htime now rfl)⟩
    · have hsees := hsound.sees h' hh'
      cases World.beatStep_of_answer h'.timer (answer_of_step hworld) with
      | kept hno => exact absurd rfl (hno _ _ _)
      | data hk hlast =>
        rw [if_neg hpong] at hlast
        exact hsees.kept ⟨hk, hlast⟩ hle
  | timer t now uuid =>
    obtain ⟨h, hh, rfl⟩ := Option.map_eq_some_iff.1 hh'
    split_ifs with ht
    · subst ht
      cases World.beatStep_of_answer h.timer (answer_of_step hworld) with
      | kept _ _ hk => exact (hsound.sees h hh).ticked hsound.timers hworld hk hclock
    · exact hsound.kept hs hle (fun _ _ _ h => by cases h) (fun _ h => by cases h) hh
  | connect | close | send | socketConnect | socketError | socketDestroyed | socketClose =>
    exact hsound.kept hs hle (fun _ _ _ h => by cases h) (fun _ h => by cases h) hh'

theorem run_sound {codec : RpcCodec} {es : List Event} (h : (machine o).Run (start codec) es s) :
    s.Sound :=
  h.invariant (fun _ _ _ hs hstep => hs.step hstep) (sound_start codec)

end Watched

def heartbeatTimeout : JsError := rpcError "Heartbeat timeout" "HEARTBEAT_TIMEOUT"

/-- Every pending call is rejected with `HEARTBEAT_TIMEOUT`, and the socket is destroyed. -/
structure Killed (w w' : World) (k : SocketId) : Prop where
  destroyed : (w'.sockets k).destroyed = true
  pending : w'.pending = .empty
  settled : w'.settled = w.settled ++ World.rejections w.pending.entries heartbeatTimeout

/-- A tick that rejects no call and destroys no socket, and writes its ping. -/
structure Spared (w w' : World) (now : ℚ) (uuid : String) : Prop where
  destroyed : ∀ k, (w'.sockets k).destroyed = (w.sockets k).destroyed
  pending : w'.pending = w.pending
  settled : w'.settled = w.settled
  pinged : ∀ k, w.liveSocket = some k → ∃ packet,
    w.codec.encode (pingMessage (.string uuid) now) = .ok packet ∧ w' = w.write k packet

theorem Spared.not_killed {w w' : World} {now : ℚ} {uuid : String} {k : SocketId}
    (h : Spared w w' now uuid) (hlive : w.liveSocket = some k) : ¬ Killed w w' k := by
  intro hkilled
  have hdestroyed := hkilled.destroyed
  rw [h.destroyed, (World.liveSocket_eq_some_iff.1 hlive).2] at hdestroyed
  cases hdestroyed

namespace World
variable {o : RpcConnectionOptions} {w w' : World} {now : ℚ} {uuid : String} {k : SocketId}

theorem killed_of_expired (hlive : w.liveSocket = some k) (hexpired : heartbeatExpired o w now)
    (htick : heartbeatTick o w now uuid = .ok w') : Killed w w' k := by
  simp only [heartbeatTick, hlive, if_pos hexpired] at htick
  obtain rfl := Except.ok.inj htick
  obtain ⟨hpending, hsettled⟩ := handleUnexpectedDisconnect_tables o w heartbeatTimeout
  refine ⟨?_, hpending, hsettled⟩
  rw [sockets_updateSocket, if_pos rfl]

theorem destroyed_write (w : World) (k k' : SocketId) (packet : Buffer) :
    ((w.write k packet).sockets k').destroyed = (w.sockets k').destroyed := by
  unfold write
  split_ifs
  · rfl
  · exact updateSocket_field w k k' Socket.destroyed fun _ => rfl

theorem spared_of_unexpired (hexpired : ¬ heartbeatExpired o w now)
    (htick : heartbeatTick o w now uuid = .ok w') : Spared w w' now uuid := by
  rcases heartbeatTick_cases htick with ⟨hnone, rfl⟩ | ⟨k, hlive, ⟨hx, -⟩ | ⟨-, packet, hping, rfl⟩⟩
  · rw [stopHeartbeat_eq]
    refine ⟨fun _ => rfl, rfl, rfl, fun k hk => ?_⟩
    rw [hnone] at hk
    cases hk
  · exact absurd hx hexpired
  · have htables := sameTables_write w k packet
    refine ⟨fun k' => destroyed_write w k k' packet, htables.pending, htables.settled,
      fun k' hk' => ?_⟩
    obtain rfl := Option.some.inj (hlive.symm.trans hk')
    exact ⟨packet, hping, rfl⟩

end World

namespace Watched
variable {o : RpcConnectionOptions} {s s' : Watched} {e : Event}

/-- Every tick is one of the last connect's heartbeat and comes one interval behind the one
before, and the ping of the one before has been answered. -/
def OnTime (o : RpcConnectionOptions) (s : Watched) (e : Event) : Prop :=
  ∀ t now uuid k, e = .timer t now uuid → s.world.timers.get t = some (.heartbeat k) →
    ∃ h, s.heartbeat = some h ∧ t = h.timer ∧
      now = h.lastTick + o.heartbeatIntervalMs.getD 0 ∧ h.asked = false

def heartbeatTimeoutMs (o : RpcConnectionOptions) : ℚ :=
  o.heartbeatTimeoutMs.getD (o.heartbeatIntervalMs.getD 0 * 2)

/-- Every tick spares a connection that answers in time, and the first one behind the timeout
kills a silent connection. -/
structure MeetsHeartbeat (o : RpcConnectionOptions) (codec : RpcCodec) : Prop where
  responsive : ∀ es s s' t now uuid k,
    ((machine o).guard (OnTime o)).Run (start codec) es s →
    ((machine o).guard (OnTime o)).Step s (.timer t now uuid) s' →
    s.world.timers.get t = some (.heartbeat k) → Spared s.world s'.world now uuid
  silent : ∀ es s s' t now uuid k live h, (machine o).Run (start codec) es s →
    (machine o).Step s (.timer t now uuid) s' →
    s.world.timers.get t = some (.heartbeat k) → s.world.liveSocket = some live →
    s.heartbeat = some h → heartbeatTimeoutMs o < now - h.lastPong →
      Killed s.world s'.world live

theorem tick_of_step {t : TimerId} {now : ℚ} {uuid : String} {k : Option SocketId}
    (hs : (machine o).Step s (.timer t now uuid) s')
    (htask : s.world.timers.get t = some (.heartbeat k)) :
    World.heartbeatTick o s.world now uuid = .ok s'.world := by
  cases answer_of_step (step_world hs).1 with
  | timer armed _ run =>
    rw [htask] at armed
    obtain rfl := Option.some.inj armed
    exact run

theorem silent_killed {codec : RpcCodec} {es : List Event} {t : TimerId} {now : ℚ}
    {uuid : String} {k : Option SocketId} {live : SocketId} {h : Heartbeat}
    (hrun : (machine o).Run (start codec) es s) (hs : (machine o).Step s (.timer t now uuid) s')
    (htask : s.world.timers.get t = some (.heartbeat k)) (hlive : s.world.liveSocket = some live)
    (hh : s.heartbeat = some h) (hsilent : heartbeatTimeoutMs o < now - h.lastPong) :
    Killed s.world s'.world live := by
  refine World.killed_of_expired hlive ?_ (tick_of_step hs htask)
  rw [World.heartbeatExpired, ((run_sound hrun).sees h hh).lastPong]
  exact hsilent

theorem responsive_spared {codec : RpcCodec} {es : List Event} {t : TimerId} {now : ℚ}
    {uuid : String} {k : Option SocketId}
    (hinterval : o.heartbeatIntervalMs.getD 0 ≤ heartbeatTimeoutMs o)
    (hrun : ((machine o).guard (OnTime o)).Run (start codec) es s)
    (hs : ((machine o).guard (OnTime o)).Step s (.timer t now uuid) s')
    (htask : s.world.timers.get t = some (.heartbeat k)) : Spared s.world s'.world now uuid := by
  obtain ⟨hontime, hs⟩ := Machine.guard_step.1 hs
  obtain ⟨h, hh, rfl, hnow, hasked⟩ := hontime t now uuid k rfl htask
  have hsees := (run_sound hrun.unguard).sees h hh
  have hanswered := hsees.answered (by rw [htask]; rfl) hasked
  refine World.spared_of_unexpired ?_ (tick_of_step hs htask)
  rw [World.heartbeatExpired, hsees.lastPong, hnow, not_lt]
  exact le_trans (by linarith) hinterval

theorem step_watched {w : World} (hw : (Client.machine o).Step s.world e w)
    (ht : ∀ now ∈ e.time, s.clock ≤ now) :
    (machine o).Step s e ⟨w, e.time.getD s.clock, s.observe o e⟩ := by
  refine ⟨⟨hw.1, ht⟩, ?_⟩
  have happly : Client.apply o s.world e = .ok w := hw.2
  simp only [machine, happly]
  rfl

/-- A first connection whose socket has just connected, and the same with its heartbeat
started. -/
def connecting (codec : RpcCodec) : World :=
  (((World.init codec).connect (.user 0)).updateSocket 0 fun k =>
    { k with connected := true }).resumeAttempt 0 (.ok ())

def beating (codec : RpcCodec) : World :=
  { { connecting codec with
      microtasks := []
      state := .connected
      reconnectAttempts := 0 }.setTimer (.heartbeat (some 0)) with
    lastPongAt := 0
    heartbeatTimer := some 0 }.settleAttempt 0 (.ok ())

theorem step_beating (hset : o.heartbeatIntervalMs.any (· ≠ 0) = true) (codec : RpcCodec) :
    (Client.machine o).Step (connecting codec) (.microtask 0) (beating codec) := by
  refine ⟨Nat.one_pos, ?_⟩
  change Except.ok (World.runMicrotask o { connecting codec with microtasks := [] } 0
    (.resumeDoConnect 0 (.ok ()))) = _
  simp only [World.runMicrotask, World.startHeartbeat_set hset]
  rfl

/-- The same when all its microtasks have run. -/
def connected (codec : RpcCodec) : World :=
  { beating codec with
    microtasks := []
    connectionPromise := none
    connects := [(0, .ok ())] }

def firstConnect : List Event :=
  [.connect 0, .socketConnect 0, .microtask 0, .microtask 0, .microtask 0]

theorem onTime_of_not_timer (s : Watched) (he : ∀ t now uuid, e ≠ .timer t now uuid) :
    OnTime o s e := fun t now uuid _ heq => absurd heq (he t now uuid)

theorem run_firstConnect (hset : o.heartbeatIntervalMs.any (· ≠ 0) = true) (codec : RpcCodec) :
    ((machine o).guard (OnTime o)).Run (start codec) firstConnect
      ⟨connected codec, 0, some ⟨0, 0, 0, false⟩⟩ := by
  have hstep : ∀ {w v : World} {h h' : Option Heartbeat} {e : Event},
      (∀ t now uuid, e ≠ .timer t now uuid) → e.time.getD 0 = 0 →
      (Client.machine o).Step w e v → Watched.observe o ⟨w, 0, h⟩ e = h' →
      ((machine o).guard (OnTime o)).Step ⟨w, 0, h⟩ e ⟨v, 0, h'⟩ := by
    rintro w v h h' e hno htime hworld rfl
    have hwatched := step_watched (s := ⟨w, 0, h⟩) hworld (by
      intro now hnow
      rw [hnow, Option.getD_some] at htime
      exact htime.ge)
    rw [htime] at hwatched
    exact Machine.guard_step.2 ⟨onTime_of_not_timer _ hno, hwatched⟩
  have hconnect : ((machine o).guard (OnTime o)).Step (start codec) (.connect 0)
      ⟨(World.init codec).connect (.user 0), 0, none⟩ :=
    hstep (fun _ _ _ h => by cases h) rfl ⟨trivial, rfl⟩ rfl
  have hsocket : ((machine o).guard (OnTime o)).Step
      ⟨(World.init codec).connect (.user 0), 0, none⟩ (.socketConnect 0)
      ⟨connecting codec, 0, none⟩ :=
    hstep (fun _ _ _ h => by cases h) rfl ⟨⟨Nat.one_pos, rfl, rfl, rfl⟩, rfl⟩ rfl
  have hstart : ((machine o).guard (OnTime o)).Step ⟨connecting codec, 0, none⟩ (.microtask 0)
      ⟨beating codec, 0, some ⟨0, 0, 0, false⟩⟩ := by
    have hstarts : World.startsHeartbeat o (connecting codec) = true := hset
    exact hstep (fun _ _ _ h => by cases h) rfl (step_beating hset codec) (if_pos hstarts)
  have hresume : ((machine o).guard (OnTime o)).Step
      ⟨beating codec, 0, some ⟨0, 0, 0, false⟩⟩ (.microtask 0)
      ⟨{ beating codec with
        microtasks := [.resumeCaller (.user 0) (.ok ())]
        connectionPromise := none }, 0, some ⟨0, 0, 0, false⟩⟩ :=
    hstep (fun _ _ _ h => by cases h) rfl ⟨Nat.one_pos, rfl⟩ rfl
  refine .cons hconnect (.cons hsocket (.cons hstart (.cons hresume (.single ?_))))
  exact hstep (fun _ _ _ h => by cases h) rfl ⟨Nat.one_pos, rfl⟩ rfl

/-- With a timeout below the interval the first tick kills the connection that has just been
made. -/
theorem first_tick_kills {intervalMs : ℚ} (hI : o.heartbeatIntervalMs = some intervalMs)
    (hpos : 0 < intervalMs) (hlt : heartbeatTimeoutMs o < intervalMs) (codec : RpcCodec) :
    ∃ s s', ((machine o).guard (OnTime o)).Run (start codec) firstConnect s ∧
      ((machine o).guard (OnTime o)).Step s (.timer 0 intervalMs "1") s' ∧
      s.world.timers.get 0 = some (.heartbeat (some 0)) ∧ s.world.liveSocket = some 0 ∧
      Killed s.world s'.world 0 := by
  have hset : o.heartbeatIntervalMs.any (· ≠ 0) = true := by
    rw [hI]
    simpa using hpos.ne'
  have hexpired : World.heartbeatExpired o (connected codec) intervalMs := by
    have hlast : (connected codec).lastPongAt = 0 := rfl
    rw [World.heartbeatExpired, hlast, sub_zero]
    exact hlt
  have hlive : (connected codec).liveSocket = some 0 := rfl
  have htick : ∃ w, World.heartbeatTick o (connected codec) intervalMs "1" = .ok w := by
    simp only [World.heartbeatTick, hlive, if_pos hexpired]
    exact ⟨_, rfl⟩
  obtain ⟨w, htick⟩ := htick
  have hworld : (Client.machine o).Step (connected codec) (.timer 0 intervalMs "1") w :=
    ⟨⟨rfl, rfl⟩, htick⟩
  have hwatched := step_watched (s := ⟨connected codec, 0, some ⟨0, 0, 0, false⟩⟩) hworld (by
    intro now hnow
    obtain rfl := Option.some.inj hnow
    exact hpos.le)
  refine ⟨_, _, run_firstConnect hset codec, Machine.guard_step.2 ⟨?_, hwatched⟩, rfl, rfl,
    World.killed_of_expired hlive hexpired htick⟩
  intro t now uuid k he _
  obtain ⟨rfl, rfl, rfl⟩ := Event.timer.inj he
  refine ⟨_, rfl, rfl, ?_, rfl⟩
  rw [hI, Option.getD_some, zero_add]

/-- The heartbeat does what it is for exactly when its timeout is no shorter than its interval. -/
theorem heartbeat_meets_iff {intervalMs : ℚ} (hI : o.heartbeatIntervalMs = some intervalMs)
    (hpos : 0 < intervalMs) (codec : RpcCodec) :
    MeetsHeartbeat o codec ↔ intervalMs ≤ heartbeatTimeoutMs o := by
  constructor
  · intro hmeets
    by_contra hlt
    obtain ⟨s, s', hrun, hs, htask, hlive, hkilled⟩ :=
      first_tick_kills hI hpos (not_le.1 hlt) codec
    exact (hmeets.responsive _ _ _ _ _ _ _ hrun hs htask).not_killed hlive hkilled
  · intro hle
    have hinterval : o.heartbeatIntervalMs.getD 0 ≤ heartbeatTimeoutMs o := by
      rw [hI]
      exact hle
    refine ⟨?_, ?_⟩
    · intro es s s' t now uuid k hrun hs htask
      exact responsive_spared hinterval hrun hs htask
    · intro es s s' t now uuid k live h hrun hs htask hlive hh hsilent
      exact silent_killed hrun hs htask hlive hh hsilent

def sampleHeartbeat (timeoutMs : Option ℚ) : RpcConnectionOptions :=
  { sampleOptions with heartbeatIntervalMs := some 5000, heartbeatTimeoutMs := timeoutMs }

def sampleCodec : RpcCodec := .ofSerializer (.ofTable sampleTable)

theorem sampleCodec_new (timeoutMs : Option ℚ) :
    RpcCodec.new (sampleHeartbeat timeoutMs).codecOptions = .ok sampleCodec := rfl

theorem unset_timeout_meets : MeetsHeartbeat (sampleHeartbeat none) sampleCodec := by
  refine (heartbeat_meets_iff (o := sampleHeartbeat none) rfl (by norm_num) sampleCodec).2 ?_
  simp only [heartbeatTimeoutMs, sampleHeartbeat, Option.getD_none, Option.getD_some]
  norm_num

/-- With 5 s between the pings and a timeout of 3 s. -/
theorem short_timeout_kills : ¬ ∀ (o : RpcConnectionOptions) (intervalMs : ℚ) (codec : RpcCodec),
    o.heartbeatIntervalMs = some intervalMs → 0 < intervalMs →
      (∀ timeoutMs, o.heartbeatTimeoutMs = some timeoutMs → 0 < timeoutMs) →
      RpcCodec.new o.codecOptions = .ok codec → MeetsHeartbeat o codec := by
  intro h
  have hmeets := h (sampleHeartbeat (some 3000)) 5000 sampleCodec rfl (by norm_num) (by
    intro timeoutMs ht
    obtain rfl := Option.some.inj ht
    norm_num) (sampleCodec_new (some 3000))
  have hlt : heartbeatTimeoutMs (sampleHeartbeat (some 3000)) < 5000 := by
    simp only [heartbeatTimeoutMs, sampleHeartbeat, Option.getD_some]
    norm_num
  obtain ⟨s, s', hrun, hs, htask, hlive, hkilled⟩ :=
    first_tick_kills (o := sampleHeartbeat (some 3000)) rfl (by norm_num) hlt sampleCodec
  exact (hmeets.responsive _ _ _ _ _ _ _ hrun hs htask).not_killed hlive hkilled

end Watched

end WeisleyRpc.Client
