import WeisleyRpc.CodecStream
import WeisleyRpc.ConnectionOps

/-!
# What a connection decodes from its sockets

The codec belongs to the connection and its queue survives a socket. The sockets'
byte streams stay apart as long as a socket's data arrives only while nothing of
another socket is queued. A chunk is survived when it completes no invalid packet.
-/

namespace WeisleyRpc.Client
namespace World

/-- What a socket has brought, what was decoded from it, and the packets it has taken. -/
structure Stream where
  received : List Buffer
  handled : List JsValue
  written : List Buffer

def stream (w : World) (s : SocketId) : Stream :=
  ⟨(w.sockets s).received, (w.sockets s).handled, (w.sockets s).written⟩

/-- Codec and streams are left alone; a new socket's stream is empty. -/
structure KeepsStreams (w v : World) : Prop where
  codec : v.codec = w.codec
  lastData : v.lastData = w.lastData
  le : w.nextSocket ≤ v.nextSocket
  stream : ∀ s, v.stream s = w.stream s ∨ (w.nextSocket ≤ s ∧ v.stream s = ⟨[], [], []⟩)

/-- Socket `s` takes a packet. -/
structure WritesStream (w v : World) (s : SocketId) (payload : Buffer) : Prop where
  codec : v.codec = w.codec
  lastData : v.lastData = w.lastData
  nextSocket : v.nextSocket = w.nextSocket
  stream : ∀ s', v.stream s' = if s' = s then
    { w.stream s with written := (w.sockets s).written ++ [payload] } else w.stream s'

theorem KeepsStreams.trans {u v w : World} (h : KeepsStreams u v) (h' : KeepsStreams v w) :
    KeepsStreams u w := by
  refine ⟨h'.codec.trans h.codec, h'.lastData.trans h.lastData, h.le.trans h'.le, fun s => ?_⟩
  rcases h'.stream s with hs | ⟨hle, hs⟩
  · rw [hs]
    exact h.stream s
  · exact Or.inr ⟨h.le.trans hle, hs⟩

theorem SameSockets.keepsStreams {w v : World} (h : SameSockets w v) : KeepsStreams w v :=
  ⟨h.codec, h.lastData, Nat.le_of_eq h.nextSocket.symm, fun s => Or.inl (by
    simp only [World.stream, h.sockets])⟩

theorem keepsStreams_updateSocket (w : World) (s : SocketId) {f : Socket → Socket}
    (hr : ∀ k, (f k).received = k.received) (hh : ∀ k, (f k).handled = k.handled)
    (hw : ∀ k, (f k).written = k.written) : KeepsStreams w (w.updateSocket s f) := by
  refine ⟨rfl, rfl, Nat.le_refl _, fun s' => Or.inl ?_⟩
  simp only [stream, updateSocket, Function.update_apply]
  split_ifs with h
  · rw [hr, hh, hw, h]
  · rfl

theorem write_streams (w : World) (s : SocketId) (payload : Buffer) :
    KeepsStreams w (w.write s payload) ∨ WritesStream w (w.write s payload) s payload := by
  unfold write
  split_ifs
  · exact Or.inl (SameSockets.refl w).keepsStreams
  · refine Or.inr ⟨rfl, rfl, rfl, fun s' => ?_⟩
    simp only [stream, updateSocket, Function.update_apply]
    split_ifs <;> rfl

theorem keepsStreams_resumeAttempt (w : World) (s : SocketId) (result : Result) :
    KeepsStreams w (w.resumeAttempt s result) := by
  rcases resumeAttempt_cases w s result with ⟨-, he⟩ | ⟨-, he⟩ <;> rw [he]
  · obtain ⟨hc, hl, hn, hs⟩ :=
      keepsStreams_updateSocket w s (f := fun k => { k with attempt := .resuming }) (fun _ => rfl)
        (fun _ => rfl) fun _ => rfl
    exact ⟨hc, hl, hn, hs⟩
  · exact (SameSockets.refl w).keepsStreams

theorem keepsStreams_connect (w : World) (caller : Caller) :
    KeepsStreams w (w.connect caller) := by
  rcases connect_cases w caller with ⟨-, -, he⟩ | ⟨-, ⟨s, -, he⟩ | ⟨-, he⟩⟩ <;> rw [he]
  · exact ⟨rfl, rfl, Nat.le_refl _, fun _ => Or.inl rfl⟩
  · rcases join_cases w s caller with ⟨result, -, hj⟩ | ⟨-, hj⟩ <;> rw [hj]
    · exact ⟨rfl, rfl, Nat.le_refl _, fun _ => Or.inl rfl⟩
    · exact keepsStreams_updateSocket w s (fun _ => rfl) (fun _ => rfl) fun _ => rfl
  · refine ⟨rfl, rfl, Nat.le_succ _, fun s => ?_⟩
    simp only [stream, doConnect, Function.update_apply]
    split_ifs with h
    · exact Or.inr ⟨Nat.le_of_eq h.symm, rfl⟩
    · exact Or.inl rfl

theorem keepsStreams_settleAttempt (w : World) (s : SocketId) (result : Result) :
    KeepsStreams w (w.settleAttempt s result) := by
  obtain ⟨hc, hl, hn, hs⟩ :=
    keepsStreams_updateSocket w s (f := fun k => { k with attempt := .settled result })
      (fun _ => rfl) (fun _ => rfl) fun _ => rfl
  exact ⟨hc, hl, hn, hs⟩

theorem keepsStreams_endSocket (w : World) : KeepsStreams w w.endSocket := by
  unfold endSocket
  split
  · exact (SameSockets.refl w).keepsStreams
  · exact keepsStreams_updateSocket w _ (fun _ => rfl) (fun _ => rfl) fun _ => rfl

theorem keepsStreams_close (w : World) : KeepsStreams w w.close := by
  rw [close_eq, cancelReconnect_eq]
  refine KeepsStreams.trans ?_ (keepsStreams_endSocket _)
  exact ⟨rfl, rfl, Nat.le_refl _, fun _ => Or.inl rfl⟩

/-- A packet is written: that of an accepted call, or a ping. -/
def Sends (w : World) (e : Event) (w' : World) (s : SocketId) (payload : Buffer) : Prop :=
  (∃ id, e = .send id payload ∧ w'.accepted = w.accepted ++ [⟨w.nextCall, id, s⟩]) ∨
    ∃ id timestamp, w.codec.encode (pingMessage id timestamp) = .ok payload

theorem send_streams (w : World) (id : String) (payload : Buffer) :
    KeepsStreams w (w.send id payload) ∨
      ∃ s, WritesStream w (w.send id payload) s payload ∧
        (w.send id payload).accepted = w.accepted ++ [⟨w.nextCall, id, s⟩] := by
  rcases send_cases w id payload with ⟨e, he⟩ | ⟨s, -, -, he⟩ <;> rw [he]
  · exact Or.inl ⟨rfl, rfl, Nat.le_refl _, fun _ => Or.inl rfl⟩
  · rcases write_streams (w.setTimer (.callTimeout id w.nextCall)) s payload with h | h
    · exact Or.inl ⟨h.codec, h.lastData, h.le, h.stream⟩
    · exact Or.inr ⟨s, ⟨h.codec, h.lastData, h.nextSocket, h.stream⟩, rfl⟩

theorem runTimer_streams {o : RpcConnectionOptions} {w w' : World} {t : TimerId} {now : ℚ}
    {uuid : String} {task : TimerTask} (h : runTimer o w t now uuid task = .ok w') :
    KeepsStreams w w' ∨ ∃ s packet, WritesStream w w' s packet ∧
      ∃ id timestamp, w.codec.encode (pingMessage id timestamp) = .ok packet := by
  rcases runTimer_cases h with ⟨id, call, rfl, rfl⟩ | ⟨delay, rfl, hw⟩ | ⟨s, rfl, hb⟩
  · exact Or.inl ⟨rfl, rfl, Nat.le_refl _, fun _ => Or.inl rfl⟩
  · have hc : KeepsStreams w { w.clearTimer t with reconnectTimer := none } :=
      ⟨rfl, rfl, Nat.le_refl _, fun _ => Or.inl rfl⟩
    rcases hw with ⟨-, rfl⟩ | ⟨-, rfl⟩
    · exact Or.inl hc
    · exact Or.inl (hc.trans (keepsStreams_connect _ _))
  · rcases heartbeatTick_cases hb with ⟨-, rfl⟩ | ⟨s, -, ⟨-, error, rfl⟩ | ⟨-, packet, hp, rfl⟩⟩
    · exact Or.inl (sameSockets_stopHeartbeat w).keepsStreams
    · exact Or.inl ((sameSockets_handleUnexpectedDisconnect o w error).keepsStreams.trans
        (keepsStreams_updateSocket _ s (fun _ => rfl) (fun _ => rfl) fun _ => rfl))
    · exact (write_streams w s packet).imp id fun hw => ⟨s, packet, hw, _, _, hp⟩

theorem keepsStreams_runMicrotask (o : RpcConnectionOptions) (w : World) (now : ℚ)
    (task : Microtask) : KeepsStreams w (runMicrotask o w now task) := by
  cases task with
  | resumeDoConnect s result =>
    cases result with
    | ok u =>
      have h : KeepsStreams w { w with state := .connected, reconnectAttempts := 0 } :=
        ⟨rfl, rfl, Nat.le_refl _, fun _ => Or.inl rfl⟩
      exact (h.trans (sameSockets_startHeartbeat o _ now).keepsStreams).trans
        (keepsStreams_settleAttempt _ s _)
    | error e => exact keepsStreams_settleAttempt w s _
  | resumeConnect caller result => exact ⟨rfl, rfl, Nat.le_refl _, fun _ => Or.inl rfl⟩
  | resumeJoined caller result => exact ⟨rfl, rfl, Nat.le_refl _, fun _ => Or.inl rfl⟩
  | resumeCaller caller result =>
    cases caller with
    | user n => exact ⟨rfl, rfl, Nat.le_refl _, fun _ => Or.inl rfl⟩
    | reconnectTimer =>
      cases result with
      | ok u => exact ⟨rfl, rfl, Nat.le_refl _, fun _ => Or.inl rfl⟩
      | error e =>
        have h : KeepsStreams w { w with state := .reconnecting } :=
          ⟨rfl, rfl, Nat.le_refl _, fun _ => Or.inl rfl⟩
        exact h.trans (sameSockets_scheduleReconnect o _).keepsStreams

theorem step_streams {o : RpcConnectionOptions} {w w' : World} {e : Event}
    (hs : (machine o).Step w e w') :
    ((∀ s chunk now, e ≠ .socketData s chunk now) ∧
      (KeepsStreams w w' ∨ ∃ s payload, WritesStream w w' s payload ∧ w.Sends e w' s payload)) ∨
    ∃ s chunk now messages, e = .socketData s chunk now ∧ s < w.nextSocket ∧
      (w.codec.push chunk).1 = .ok messages ∧ w'.codec = (w.codec.push chunk).2 ∧
      w'.lastData = some s ∧ w'.nextSocket = w.nextSocket ∧
      ∀ s', w'.stream s' = if s' = s then
        ⟨(w.sockets s).received ++ [chunk], (w.sockets s).handled ++ messages,
          (w.sockets s).written⟩ else w.stream s' := by
  cases answer_of_step hs with
  | connect n => exact Or.inl ⟨by simp, Or.inl (keepsStreams_connect w _)⟩
  | close => exact Or.inl ⟨by simp, Or.inl (keepsStreams_close w)⟩
  | send id payload =>
    refine Or.inl ⟨by simp, ?_⟩
    rcases send_streams w id payload with hk | ⟨s, hw, ha⟩
    · exact Or.inl hk
    · exact Or.inr ⟨s, payload, hw, Or.inl ⟨id, rfl, ha⟩⟩
  | timer _ _ hr =>
    refine Or.inl ⟨by simp, (runTimer_streams hr).imp id fun hwrote => ?_⟩
    obtain ⟨s, packet, hw, hp⟩ := hwrote
    exact ⟨s, packet, hw, Or.inr hp⟩
  | @socketConnect s =>
    have h := keepsStreams_updateSocket w s (f := fun k => { k with connected := true })
      (fun _ => rfl) (fun _ => rfl) fun _ => rfl
    exact Or.inl ⟨by simp, Or.inl (h.trans (keepsStreams_resumeAttempt _ s _))⟩
  | @socketError s error =>
    have h := keepsStreams_updateSocket w s (f := fun k => { k with destroyed := true })
      (fun _ => rfl) (fun _ => rfl) fun _ => rfl
    exact Or.inl ⟨by simp, Or.inl ((h.trans
      (sameSockets_handleUnexpectedDisconnect o _ error).keepsStreams).trans
        (keepsStreams_resumeAttempt _ s _))⟩
  | @socketDestroyed s =>
    exact Or.inl ⟨by simp, Or.inl
      (keepsStreams_updateSocket w s (fun _ => rfl) (fun _ => rfl) fun _ => rfl)⟩
  | @socketClose s =>
    have h := keepsStreams_updateSocket w s (f := fun k => { k with closed := true })
      (fun _ => rfl) (fun _ => rfl) fun _ => rfl
    exact Or.inl ⟨by simp, Or.inl
      (h.trans (sameSockets_handleUnexpectedDisconnect o _ _).keepsStreams)⟩
  | @socketData s chunk now _ hlt _ _ hd =>
    obtain ⟨messages, hp, hsame⟩ := sameSockets_handleData hd
    refine Or.inr ⟨s, chunk, now, messages, rfl, hlt, hp, hsame.codec, hsame.lastData,
      hsame.nextSocket, fun s' => ?_⟩
    simp only [stream, hsame.sockets, updateSocket, Function.update_apply]
    split_ifs <;> rfl
  | @microtask now task tasks =>
    refine Or.inl ⟨by simp, Or.inl ?_⟩
    have h : KeepsStreams w { w with microtasks := tasks } :=
      ⟨rfl, rfl, Nat.le_refl _, fun _ => Or.inl rfl⟩
    exact h.trans (keepsStreams_runMicrotask o _ now task)

theorem step_nextSocket {o : RpcConnectionOptions} {w w' : World} {e : Event}
    (hs : (machine o).Step w e w') : w.nextSocket ≤ w'.nextSocket := by
  rcases step_streams hs with ⟨-, hk | ⟨s, payload, hk, -⟩⟩ | ⟨s, chunk, now, messages, -, -, -, -, -,
    hn, -⟩
  · exact hk.le
  · exact Nat.le_of_eq hk.nextSocket.symm
  · exact Nat.le_of_eq hn.symm

theorem step_stream {o : RpcConnectionOptions} {w w' : World} {e : Event}
    (hs : (machine o).Step w e w') (s : SocketId) :
    ((∀ chunk now, e ≠ .socketData s chunk now) ∧
      (w'.stream s = w.stream s ∨ (w.nextSocket ≤ s ∧ w'.stream s = ⟨[], [], []⟩) ∨
        ∃ payload, w.Sends e w' s payload ∧
          w'.stream s = { w.stream s with written := (w.stream s).written ++ [payload] })) ∨
    ∃ chunk now messages, e = .socketData s chunk now ∧
      w'.stream s = ⟨(w.stream s).received ++ [chunk], (w.stream s).handled ++ messages,
        (w.stream s).written⟩ := by
  rcases step_streams hs with ⟨hne, hk | ⟨s', payload, hk, hsends⟩⟩ | ⟨s', chunk, now, messages, rfl, -,
    -, -, -, -, hstream⟩
  · refine Or.inl ⟨fun chunk now => hne s chunk now, ?_⟩
    rcases hk.stream s with he | hnew
    · exact Or.inl he
    · exact Or.inr (Or.inl hnew)
  · refine Or.inl ⟨fun chunk now => hne s chunk now, ?_⟩
    have hstream := hk.stream s
    split_ifs at hstream with hss
    · subst hss
      exact Or.inr (Or.inr ⟨payload, hsends, hstream⟩)
    · exact Or.inl hstream
  · have hs' := hstream s
    split_ifs at hs' with hss
    · subst hss
      exact Or.inr ⟨chunk, now, messages, rfl, hs'⟩
    · refine Or.inl ⟨fun chunk' now' he => hss ?_, Or.inl hs'⟩
      exact (Event.socketData.inj he).1.symm

end World

/-- Data of a socket arrives while nothing of another socket is queued. -/
def QueueOwn (w : World) : Event → Prop
  | .socketData s _ _ => w.codec.queue.length = 0 ∨ w.lastData = some s
  | _ => True

instance (w : World) (e : Event) : Decidable (QueueOwn w e) :=
  match e with
  | .socketData _ _ _ => inferInstanceAs (Decidable (_ ∨ _))
  | .connect _ | .close | .send _ _ | .timer _ _ _ | .socketConnect _ | .socketError _ _
  | .socketDestroyed _ | .socketClose _ | .microtask _ => isTrue trivial

/-- Every stream is decoded by itself, and the queue holds the rest of the last one. -/
structure World.StreamsWf (c : CodecConfig) (w : World) : Prop where
  config : w.codec.config = c
  fresh : ∀ s, w.nextSocket ≤ s → (w.stream s).received = [] ∧ (w.stream s).handled = []
  lt : ∀ s, w.lastData = some s → s < w.nextSocket
  decoded : ∀ s, c.decode (w.stream s).received.flatten =
    ⟨(w.stream s).handled, none, if w.lastData = some s then w.codec.queue.bytes else []⟩

namespace World

theorem streamsWf_init (codec : RpcCodec) : (World.init codec).StreamsWf codec.config := by
  refine ⟨rfl, fun _ _ => ⟨rfl, rfl⟩, by simp [World.init], fun s => ?_⟩
  simpa [World.init, World.stream, Socket.new] using codec.config.decode_nil

theorem StreamsWf.same {c : CodecConfig} {w v : World} (h : w.StreamsWf c)
    (hc : v.codec = w.codec) (hl : v.lastData = w.lastData) (hle : w.nextSocket ≤ v.nextSocket)
    (hs : ∀ s, (v.stream s).received = (w.stream s).received ∧
      (v.stream s).handled = (w.stream s).handled) : v.StreamsWf c := by
  refine ⟨by rw [hc, h.config], fun s hns => ?_, fun s hls => ?_, fun s => ?_⟩
  · rw [(hs s).1, (hs s).2]
    exact h.fresh s (hle.trans hns)
  · exact Nat.lt_of_lt_of_le (h.lt s (hl ▸ hls)) hle
  · rw [(hs s).1, (hs s).2, hl, hc]
    exact h.decoded s

theorem StreamsWf.keeps {c : CodecConfig} {w v : World} (h : w.StreamsWf c)
    (hk : KeepsStreams w v) : v.StreamsWf c := by
  refine h.same hk.codec hk.lastData hk.le fun s => ?_
  rcases hk.stream s with hs | ⟨hle, hs⟩ <;> rw [hs]
  · exact ⟨rfl, rfl⟩
  · obtain ⟨hr, hh⟩ := h.fresh s hle
    exact ⟨hr.symm, hh.symm⟩

theorem StreamsWf.writes {c : CodecConfig} {w v : World} (h : w.StreamsWf c) {s : SocketId}
    {payload : Buffer} (hk : WritesStream w v s payload) : v.StreamsWf c := by
  refine h.same hk.codec hk.lastData (Nat.le_of_eq hk.nextSocket.symm) fun s' => ?_
  rw [hk.stream]
  split_ifs with hs
  · exact hs ▸ ⟨rfl, rfl⟩
  · exact ⟨rfl, rfl⟩

theorem StreamsWf.step {o : RpcConnectionOptions} {c : CodecConfig} {w w' : World} {e : Event}
    (h : w.StreamsWf c) (hs : ((machine o).guard QueueOwn).Step w e w') : w'.StreamsWf c := by
  obtain ⟨hown, hs⟩ := Machine.guard_step.mp hs
  rcases step_streams hs with ⟨-, hk | ⟨s, payload, hk, -⟩⟩ | ⟨s, chunk, now, messages, rfl, hlt, hp,
    hcodec, hlast, hn, hstream⟩
  · exact h.keeps hk
  · exact h.writes hk
  · have hown' : w.codec.queue.bytes = [] ∨ w.lastData = some s := by
      rcases hown with hq | hl
      · exact Or.inl (List.eq_nil_of_length_eq_zero (by simpa using hq))
      · exact Or.inr hl
    obtain ⟨hb, hq⟩ := RpcCodec.push_eq w.codec chunk
    obtain ⟨he, hi⟩ := RpcCodec.push_eq_ok_iff.mp hp
    rw [h.config] at he hi hq
    refine ⟨by rw [hcodec, RpcCodec.push_config, h.config], fun s' hle => ?_, fun s' hl => ?_,
      fun s' => ?_⟩
    · rw [hn] at hle
      rw [hstream, if_neg (fun hss : s' = s => absurd hlt (Nat.not_lt.mpr (hss ▸ hle)))]
      exact h.fresh s' hle
    · rw [hlast] at hl
      rw [hn, ← Option.some.inj hl]
      exact hlt
    · rw [hstream, hlast, hcodec]
      by_cases hss : s' = s
      · subst hss
        have hd := h.decoded s'
        have hrest : (if w.lastData = some s' then w.codec.queue.bytes else []) =
            w.codec.queue.bytes := by
          split_ifs with hl
          · rfl
          · exact (hown'.resolve_right hl).symm
        rw [hrest] at hd
        simp only [if_true, List.flatten_append, List.flatten_singleton]
        rw [hq, ← hi, ← he]
        exact CodecConfig.decode_append hd chunk
      · rw [if_neg hss, if_neg (by simpa [eq_comm] using hss)]
        have hd := h.decoded s'
        split_ifs at hd with hl
        · rw [hown'.resolve_right (by rw [hl]; simpa using hss)] at hd
          exact hd
        · exact hd

/-- The messages handled for socket `s` are those that a fresh codec with the same
options returns for that socket's bytes alone. -/
def StreamApart (o : RpcConnectionOptions) (w : World) (s : SocketId) : Prop :=
  ∃ fresh, RpcCodec.new o.codecOptions = .ok fresh ∧
    fresh.messagesOf (w.sockets s).received = some (w.sockets s).handled

/-- Streams do not mix in any run whose data events find an empty queue or continue the
stream of the data event before them. -/
theorem streamApart_of_queueOwn {o : RpcConnectionOptions} {w : World}
    (h : ReachableWhen o QueueOwn w) (s : SocketId) : w.StreamApart o s := by
  obtain ⟨codec, hn, hr⟩ := h
  have hq := RpcCodec.queue_new hn
  have hw := hr.invariant (fun _ _ _ hi hs => StreamsWf.step hi hs) (streamsWf_init codec)
  refine ⟨codec, hn, (RpcCodec.messagesOf_eq_some_iff (by rw [hq]; rfl)).mpr ?_⟩
  have hd := hw.decoded s
  exact ⟨congrArg Parsed.error hd, congrArg Parsed.items hd⟩

/-- A response cut off after its header, a reconnect, and a whole pong. -/
def sampleMixed : List Event :=
  [.connect 0, .socketConnect 0, .microtask 0, .microtask 0, .microtask 0,
    .socketData 0 (packetHeader 100 ⟨.json, .response, 0⟩) 0, .socketDestroyed 0, .socketClose 0,
    .timer 0 0 "", .socketConnect 1, .microtask 0, .microtask 0, .microtask 0,
    .socketData 1 (samplePacket samplePong) 0]

theorem sampleMixed_isSome :
    (((machine sampleOptions).guard fun _ _ => True).exec (World.init sampleCodec)
      sampleMixed).isSome := by decide +kernel

/-- The second socket's pong becomes the body of the first socket's response. -/
theorem streams_mixed : ¬ ∀ o w s, Reachable o w → w.StreamApart o s := by
  intro h
  obtain ⟨fresh, hn, hm⟩ := h sampleOptions _ 1 (reachableWhen_of_exec rfl
    sampleMixed_isSome).reachable
  obtain rfl : sampleCodec = fresh := Except.ok.inj hn
  revert hm
  decide +kernel

/-- Two sockets, the first of which drops between packets. -/
def sampleApart : List Event :=
  [.connect 0, .socketConnect 0, .microtask 0, .microtask 0, .microtask 0,
    .socketData 0 (samplePacket samplePong) 0, .socketDestroyed 0, .socketClose 0,
    .timer 0 0 "", .socketConnect 1, .microtask 0, .microtask 0, .microtask 0,
    .socketData 1 ((samplePacket samplePong).take 30) 0,
    .socketData 1 ((samplePacket samplePong).drop 30) 0]

theorem sampleApart_isSome :
    (((machine sampleOptions).guard QueueOwn).exec (World.init sampleCodec)
      sampleApart).isSome := by decide +kernel

theorem streamApart_sampleApart :
    World.StreamApart sampleOptions
      ((((machine sampleOptions).guard QueueOwn).exec (World.init sampleCodec) sampleApart).get
        sampleApart_isSome) 1 :=
  streamApart_of_queueOwn (reachableWhen_of_exec rfl sampleApart_isSome) 1

/-- The queued bytes and the chunk complete a packet that is not valid. -/
def BadChunk (w : World) (chunk : Buffer) : Prop :=
  (w.codec.config.decode (w.codec.queue.bytes ++ chunk)).error ≠ none

/-- The connection has been failed for socket `s`: its calls are rejected, the socket is
dropped, and nothing of its stream is left for the next one. -/
structure FailedBy (w w' : World) (s : SocketId) : Prop where
  rejected : w'.pending = .empty ∧ ∀ id p, w.pending.get id = some p →
    ∃ error, ⟨p.call, .error error, .disconnect⟩ ∈ w'.settled
  dropped : (w'.sockets s).destroyed = true
  usable : w'.codec.queue.bytes = []

/-- The data event handler survives a chunk: no exception escapes, and a chunk that
completes an invalid packet fails the connection. -/
def SurvivesData (o : RpcConnectionOptions) (w : World) (s : SocketId) (chunk : Buffer) (now : ℚ) :
    Prop :=
  ∃ w', apply o w (.socketData s chunk now) = .ok w' ∧ (w.BadChunk chunk → w.FailedBy w' s)

/-- Each first response to a pending call carries a result or an error message that has a
string form. -/
def Readable (w : World) (messages : List JsValue) : Prop :=
  ∀ before m after id, messages = before ++ m :: after → Responds m id →
    (w.pending.get id).isSome → (∀ m' ∈ before, ¬ Responds m' id) →
    (m.prop "ok").truthy = true ∨
      ∃ text, (((m.prop "error").prop "message").orElse (.string "RPC call failed")).toText =
        .ok text

theorem responseOutcome_ok_iff {m : JsValue} :
    (∃ outcome, responseOutcome m = .ok outcome) ↔ (m.prop "ok").truthy = true ∨
      ∃ text, (((m.prop "error").prop "message").orElse (.string "RPC call failed")).toText =
        .ok text := by
  have hne : ((m.prop "error").prop "message").orElse (.string "RPC call failed") ≠ .undefined := by
    cases (m.prop "error").prop "message" <;> simp [JsValue.orElse, JsValue.isNullish]
  unfold responseOutcome
  by_cases h : (m.prop "ok").truthy = true
  · simp [h]
  · simp only [h, responseError, newRpcError, if_neg hne]
    cases (((m.prop "error").prop "message").orElse (.string "RPC call failed")).toText <;>
      simp [bind, Except.bind, Except.map, pure, Except.pure]

theorem handleMessage_ok_iff {w : World} {s : SocketId} {m : JsValue} {now : ℚ} :
    (∃ w', handleMessage s now w m = .ok w') ↔
      ∀ id, Responds m id → (w.pending.get id).isSome → ∃ outcome, responseOutcome m = .ok outcome := by
  constructor
  · rintro ⟨w', h⟩ id hr hp
    obtain ⟨p, hp⟩ := Option.isSome_iff_exists.mp hp
    rcases handleMessage_cases h with ⟨hno, -⟩ | ⟨id', p', outcome, -, -, ho, -⟩
    · have := pendingOf_eq_some_iff.mpr ⟨hr.2, hp⟩
      rw [hno hr.1] at this
      cases this
    · exact ⟨outcome, ho⟩
  · intro h
    unfold handleMessage
    split_ifs with hr hp
    · unfold handleResponse
      rw [pendingOf_note]
      cases hpo : w.pendingOf m with
      | none => exact ⟨w.note s [m], rfl⟩
      | some entry =>
        obtain ⟨id, p⟩ := entry
        obtain ⟨hid, hg⟩ := pendingOf_eq_some_iff.mp hpo
        obtain ⟨outcome, ho⟩ := h id ⟨hr, hid⟩ (by simp [hg])
        simp [ho, bind, Except.bind, pure, Except.pure]
    · exact ⟨_, rfl⟩
    · exact ⟨_, rfl⟩

theorem handleMessage_pending_iff {w w' : World} {s : SocketId} {m : JsValue} {now : ℚ}
    (h : handleMessage s now w m = .ok w') (id : String) :
    (w'.pending.get id).isSome ↔ (w.pending.get id).isSome ∧ ¬ Responds m id := by
  rcases handleMessage_cases h with ⟨hno, at', rfl⟩ | ⟨id', p, outcome, ht, hp, -, rfl⟩
  · refine ⟨fun hs => ⟨hs, fun hr => ?_⟩, fun hs => hs.1⟩
    obtain ⟨p, hp⟩ := Option.isSome_iff_exists.mp hs
    have : w.pendingOf m = some (id, p) := pendingOf_eq_some_iff.mpr ⟨hr.2, hp⟩
    rw [hno hr.1] at this
    cases this
  · obtain ⟨hid, -⟩ := pendingOf_eq_some_iff.mp hp
    have hresp : Responds m id ↔ id = id' := by
      simp [Responds, ht, hid, eq_comm]
    change ((w.pending.delete id').get id).isSome ↔ _
    rw [OrderedMap.get_delete, hresp]
    split_ifs with he <;> simp [he]

theorem handleMessages_ok_iff {messages : List JsValue} {w : World} {s : SocketId} {now : ℚ} :
    (∃ w', messages.foldlM (handleMessage s now) w = .ok w') ↔ w.Readable messages := by
  induction messages generalizing w with
  | nil =>
    refine ⟨fun _ before m after id he => ?_, fun _ => ⟨w, rfl⟩⟩
    simp at he
  | cons m messages ih =>
    simp only [List.foldlM_cons, Except.bind_eq_ok_iff]
    constructor
    · rintro ⟨w', v, hv, hf⟩ before m' after id he hr hp hb
      cases before with
      | nil =>
        obtain ⟨rfl, -⟩ := List.cons.inj he
        exact responseOutcome_ok_iff.mp (handleMessage_ok_iff.mp ⟨v, hv⟩ id hr hp)
      | cons b before =>
        obtain ⟨rfl, he'⟩ := List.cons.inj he
        exact ih.mp ⟨w', hf⟩ before m' after id he' hr
          ((handleMessage_pending_iff hv id).mpr ⟨hp, hb m (by simp)⟩)
          fun m'' hm'' => hb m'' (List.mem_cons_of_mem _ hm'')
    · intro h
      obtain ⟨v, hv⟩ := (@handleMessage_ok_iff w s m now).mpr fun id hr hp =>
        responseOutcome_ok_iff.mpr (h [] m messages id rfl hr hp (by simp))
      obtain ⟨w', hf⟩ := ih.mpr fun before m' after id he hr hp hb => by
        obtain ⟨hp, hn⟩ := (handleMessage_pending_iff hv id).mp hp
        refine h (m :: before) m' after id (by rw [he]; rfl) hr hp fun m'' hm'' => ?_
        rcases List.mem_cons.mp hm'' with rfl | hm''
        · exact hn
        · exact hb m'' hm''
      exact ⟨w', v, hv, hf⟩

/-- The handler survives a chunk exactly when the chunk completes no invalid packet and
no unreadable response. -/
theorem survivesData_iff (o : RpcConnectionOptions) (w : World) (s : SocketId) (chunk : Buffer)
    (now : ℚ) :
    w.SurvivesData o s chunk now ↔ ¬ w.BadChunk chunk ∧
      w.Readable (w.codec.config.decode (w.codec.queue.bytes ++ chunk)).items := by
  have happly : apply o w (.socketData s chunk now) = (w.receive s chunk).handleData s chunk now := rfl
  have hpush := fun messages => @RpcCodec.push_eq_ok_iff w.codec chunk messages
  constructor
  · rintro ⟨w', hw, -⟩
    rw [happly] at hw
    obtain ⟨messages, hp, hf⟩ := handleData_eq_ok hw
    obtain ⟨he, hi⟩ := (hpush messages).mp hp
    refine ⟨not_not.mpr he, ?_⟩
    rw [hi]
    exact (@handleMessages_ok_iff messages
      { w.receive s chunk with codec := (w.codec.push chunk).2 } s now).mp ⟨w', hf⟩
  · rintro ⟨hb, hr⟩
    have hp := (hpush _).mpr ⟨not_not.mp hb, rfl⟩
    obtain ⟨w', hf⟩ := (@handleMessages_ok_iff _
      { w.receive s chunk with codec := (w.codec.push chunk).2 } s now).mpr hr
    refine ⟨w', ?_, fun h => absurd h hb⟩
    rw [happly, handleData]
    have hp' : ((w.receive s chunk).codec.push chunk).1 = .ok _ := hp
    rw [hp']
    exact hf

def sampleConnected : Option World :=
  ((machine sampleOptions).guard fun _ _ => True).exec (World.init sampleCodec)
    [.connect 0, .socketConnect 0, .microtask 0, .microtask 0, .microtask 0]

theorem sampleConnected_isSome : sampleConnected.isSome := by decide +kernel

/-- Ten bytes without the magic number arrive on a connected socket. -/
theorem data_escapes :
    ¬ ∀ o w s chunk now, Reachable o w → Enabled w (.socketData s chunk now) →
      w.SurvivesData o s chunk now := by
  intro h
  obtain ⟨w', hw, -⟩ := h sampleOptions (sampleConnected.get sampleConnected_isSome) 0
    (List.replicate 10 0) 0 (reachableWhen_of_exec rfl sampleConnected_isSome).reachable
    (by decide +kernel)
  obtain ⟨messages, hp, -⟩ := handleData_eq_ok hw
  have hno : ((sampleConnected.get sampleConnected_isSome).codec.push
      (List.replicate 10 0)).1.toOption = none := by decide +kernel
  have hp' : ((sampleConnected.get sampleConnected_isSome).codec.push
      (List.replicate 10 0)).1 = .ok messages := hp
  rw [hp'] at hno
  cases hno

end World
end WeisleyRpc.Client
