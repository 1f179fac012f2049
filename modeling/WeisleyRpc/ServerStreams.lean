import WeisleyRpc.CodecStream
import WeisleyRpc.ServerRecords

/-!
# What a server decodes from a socket and what it calls

The messages of a socket's handlers are those of its byte stream, a call is what the
registry makes of its request, and what was written to a socket stays written.
-/

namespace WeisleyRpc.Server

theorem map_messages_modify {f : Handler → Handler} (hf : ∀ x, (f x).messages = x.messages)
    (handlers : List Handler) (n : ℕ) :
    (handlers.modify n f).map Handler.messages = handlers.map Handler.messages := by
  induction handlers generalizing n with
  | nil => simp
  | cons x handlers ih =>
    cases n with
    | zero => simp [hf]
    | succ n => simp [ih]

namespace ServerSocket

/-- The messages that the socket's handlers have to see. -/
def messages (s : ServerSocket) : List JsValue := (s.handlers.map Handler.messages).flatten

theorem map_messages_setPhase (s : ServerSocket) (n : ℕ) (phase : Phase) :
    (s.setPhase n phase).handlers.map Handler.messages = s.handlers.map Handler.messages :=
  map_messages_modify (f := fun x => { x with phase := phase }) (fun _ => rfl) s.handlers n

theorem map_messages_advance (s : ServerSocket) (n : ℕ) :
    (s.advance n).handlers.map Handler.messages = s.handlers.map Handler.messages :=
  map_messages_modify (f := fun x => { x with next := x.next + 1, phase := .running })
    (fun _ => rfl) s.handlers n

theorem messages_setPhase (s : ServerSocket) (n : ℕ) (phase : Phase) :
    (s.setPhase n phase).messages = s.messages :=
  congrArg List.flatten (map_messages_setPhase s n phase)

theorem messages_advance (s : ServerSocket) (n : ℕ) : (s.advance n).messages = s.messages :=
  congrArg List.flatten (map_messages_advance s n)

theorem messages_receive (s : ServerSocket) (chunk : Buffer) :
    (s.receive chunk).messages = s.messages ++ (s.codec.push chunk).1.toOption.getD [] := by
  simp [messages, receive]

/-- The handlers have what the socket's bytes decode to, up to an invalid packet, and
the queue of an open socket has the rest. -/
structure Streamed (s : ServerSocket) : Prop where
  decoded : s.destroyed = false →
    s.codec.config.decode s.received.flatten = ⟨s.messages, none, s.codec.queue.bytes⟩
  seen : s.messages <+: (s.codec.config.decode s.received.flatten).items

theorem streamed_new (server : ServerId) (codec : RpcCodec) (hq : codec.queue = .empty) :
    (new server codec).Streamed := by
  have h : codec.config.decode (new server codec).received.flatten =
      ⟨(new server codec).messages, none, codec.queue.bytes⟩ := by
    rw [hq]
    exact codec.config.decode_nil
  exact ⟨fun _ => h, ⟨_, rfl⟩⟩

theorem Streamed.same {s s' : ServerSocket} (h : s.Streamed) (hm : s'.messages = s.messages)
    (hc : s'.codec = s.codec) (hr : s'.received = s.received)
    (hd : s'.destroyed = false → s.destroyed = false) : s'.Streamed := by
  refine ⟨fun halive => ?_, ?_⟩
  · rw [hm, hc, hr]
    exact h.decoded (hd halive)
  · rw [hm, hc, hr]
    exact h.seen

theorem alive_of_write {s : ServerSocket} {wr : Write} (h : (s.write wr).destroyed = false) :
    s.destroyed = false := by
  unfold write at h
  split_ifs at h with hd he
  · simp [hd] at h
  · simpa using hd

theorem Streamed.decode_receive {s : ServerSocket} (h : s.Streamed) (halive : s.destroyed = false)
    (chunk : Buffer) :
    s.codec.config.decode (s.receive chunk).received.flatten =
      ⟨s.messages ++ (s.codec.config.decode (s.codec.queue.bytes ++ chunk)).items,
        (s.codec.config.decode (s.codec.queue.bytes ++ chunk)).error,
        (s.codec.config.decode (s.codec.queue.bytes ++ chunk)).rest⟩ := by
  have hd := CodecConfig.decode_append (h.decoded halive) chunk
  simpa [receive] using hd

theorem Streamed.micro {k : SocketId} {w w' : World} (h : (w.conns k).Streamed)
    (hm : Micro k w w') : (w'.conns k).Streamed := by
  have hphase : ∀ (s₀ : ServerSocket) (n : ℕ) (phase : Phase),
      s₀.handlers = (w.conns k).handlers → s₀.codec = (w.conns k).codec →
      s₀.received = (w.conns k).received →
      (s₀.destroyed = false → (w.conns k).destroyed = false) → (s₀.setPhase n phase).Streamed := by
    intro s₀ n phase hh hc hr hd
    refine h.same ?_ hc hr hd
    rw [messages_setPhase, ServerSocket.messages, hh]
    rfl
  have hadvance : ∀ (s₀ : ServerSocket) (n : ℕ), s₀.handlers = (w.conns k).handlers →
      s₀.codec = (w.conns k).codec → s₀.received = (w.conns k).received →
      (s₀.destroyed = false → (w.conns k).destroyed = false) → (s₀.advance n).Streamed := by
    intro s₀ n hh hc hr hd
    refine h.same ?_ hc hr hd
    rw [messages_advance, ServerSocket.messages, hh]
    rfl
  cases hm with
  | @receive chunk messages halive hp =>
    rw [World.conns_updateSocket_self]
    obtain ⟨he, hi⟩ := RpcCodec.push_eq_ok_iff.mp hp
    have hd := h.decode_receive halive chunk
    have hmessages : ((w.conns k).receive chunk).messages = (w.conns k).messages ++ messages := by
      rw [messages_receive, hp]
      rfl
    rw [he, hi, ← hmessages, ← (RpcCodec.push_eq _ _).2] at hd
    refine ⟨fun _ => hd, ?_⟩
    change _ <+: ((w.conns k).codec.config.decode _).items
    rewrite [hd]
    exact List.prefix_rfl
  | @reject chunk e halive hp =>
    rw [World.conns_updateSocket_self]
    have hd := h.decode_receive halive chunk
    have hmessages : ((w.conns k).receive chunk).messages = (w.conns k).messages := by
      rw [messages_receive, hp]
      simp [Except.toOption]
    refine ⟨fun hd => (by cases hd), ?_⟩
    change (setPhase _ _ _).messages <+: ((w.conns k).codec.config.decode _).items
    rw [messages_setPhase, hmessages]
    change _ <+: ((w.conns k).codec.config.decode ((w.conns k).receive chunk).received.flatten).items
    rw [hd]
    exact List.prefix_append _ _
  | @skip n =>
    rw [World.conns_updateSocket_self]
    exact hadvance (w.conns k) n rfl rfl rfl id
  | @pong n =>
    rw [World.conns_updateSocket_self]
    exact hadvance _ n (by simp) (by simp) (by simp) alive_of_write
  | @refuse n =>
    rw [World.conns_updateSocket_self]
    exact hphase _ n _ (by simp) (by simp) (by simp) alive_of_write
  | @start n =>
    unfold World.start
    simp only [World.conns_updateSocket_self]
    exact hphase _ n _ rfl rfl rfl id
  | @done n =>
    rw [World.conns_updateSocket_self]
    exact hphase (w.conns k) n _ rfl rfl rfl id
  | @fail n =>
    rw [World.conns_updateSocket_self]
    exact (hphase (w.conns k) n _ rfl rfl rfl id).same rfl rfl rfl fun hd => by cases hd
  | @respond n =>
    rw [World.conns_updateSocket_self]
    exact hphase _ n _ (by simp) (by simp) (by simp) alive_of_write
  | @abort n =>
    rw [World.conns_finishRequest, World.conns_updateSocket_self]
    exact hphase (w.conns k) n _ rfl rfl rfl id
  | @finish n =>
    rw [World.conns_finishRequest, World.conns_updateSocket_self]
    exact hadvance (w.conns k) n rfl rfl rfl id
  | @resume n =>
    rw [World.conns_updateSocket_self]
    exact hadvance (w.conns k) n rfl rfl rfl id

/-- The same stream with the same messages; at most calls and writes have been added. -/
structure Continues (s s' : ServerSocket) : Prop where
  received : s'.received = s.received
  codec : s'.codec = s.codec
  messages : s'.handlers.map Handler.messages = s.handlers.map Handler.messages
  invocations : s.invocations <+: s'.invocations
  written : s.written <+: s'.written

namespace Continues
variable {s t u : ServerSocket}

theorem refl (s : ServerSocket) : s.Continues s :=
  ⟨rfl, rfl, rfl, List.prefix_rfl, List.prefix_rfl⟩

theorem trans (h : s.Continues t) (h' : t.Continues u) : s.Continues u :=
  ⟨h'.received.trans h.received, h'.codec.trans h.codec, h'.messages.trans h.messages,
    h.invocations.trans h'.invocations, h.written.trans h'.written⟩

theorem setPhase (h : s.Continues t) (n : ℕ) (phase : Phase) : s.Continues (t.setPhase n phase) :=
  ⟨h.received, h.codec, (map_messages_setPhase t n phase).trans h.messages, h.invocations,
    h.written⟩

theorem advance (h : s.Continues t) (n : ℕ) : s.Continues (t.advance n) :=
  ⟨h.received, h.codec, (map_messages_advance t n).trans h.messages, h.invocations, h.written⟩

theorem destroy (h : s.Continues t) : s.Continues t.destroy :=
  ⟨h.received, h.codec, h.messages, h.invocations, h.written⟩

theorem invoke (h : s.Continues t) (v : Invocation) : s.Continues (t.invoke v) :=
  ⟨h.received, h.codec, h.messages, h.invocations.trans (List.prefix_append _ _), h.written⟩

theorem write (h : s.Continues t) (wr : Write) : s.Continues (t.write wr) := by
  refine ⟨?_, ?_, ?_, ?_, ?_⟩
  · rw [received_write, h.received]
  · rw [codec_write, h.codec]
  · rw [handlers_write, h.messages]
  · rw [invocations_write]
    exact h.invocations
  · rw [written_write]
    exact h.written.trans (List.prefix_append _ _)

end Continues

end ServerSocket

/-- A step of a data handler takes in a chunk or goes on with what has been received. -/
theorem Micro.continues {k : SocketId} {w w' : World} (hm : Micro k w w') :
    (∃ chunk, ((w.conns k).receive chunk).Continues (w'.conns k)) ∨
      (w.conns k).Continues (w'.conns k) := by
  have hrefl := ServerSocket.Continues.refl (w.conns k)
  cases hm with
  | @receive chunk =>
    rw [World.conns_updateSocket_self]
    exact Or.inl ⟨chunk, .refl _⟩
  | @reject chunk =>
    rw [World.conns_updateSocket_self]
    exact Or.inl ⟨chunk, ((ServerSocket.Continues.refl _).setPhase _ _).destroy⟩
  | @skip n =>
    rw [World.conns_updateSocket_self]
    exact Or.inr (hrefl.advance n)
  | @pong n =>
    rw [World.conns_updateSocket_self]
    exact Or.inr ((hrefl.write _).advance n)
  | @refuse n =>
    rw [World.conns_updateSocket_self]
    exact Or.inr ((hrefl.write _).setPhase n _)
  | @start n =>
    unfold World.start
    simp only [World.conns_updateSocket_self]
    exact Or.inr ((hrefl.invoke _).setPhase n _)
  | @done n =>
    rw [World.conns_updateSocket_self]
    exact Or.inr (hrefl.setPhase n _)
  | @fail n =>
    rw [World.conns_updateSocket_self]
    exact Or.inr (hrefl.setPhase n _).destroy
  | @respond n =>
    rw [World.conns_updateSocket_self]
    exact Or.inr ((hrefl.write _).setPhase n _)
  | @abort n =>
    rw [World.conns_finishRequest, World.conns_updateSocket_self]
    exact Or.inr (hrefl.setPhase n _)
  | @finish n =>
    rw [World.conns_finishRequest, World.conns_updateSocket_self]
    exact Or.inr (hrefl.advance n)
  | @resume n =>
    rw [World.conns_updateSocket_self]
    exact Or.inr (hrefl.advance n)

namespace ServerSocket

/-- Every call is what some registry makes of its request. -/
def Called (s : ServerSocket) : Prop :=
  ∀ v ∈ s.invocations, ∃ registry, v.called = MethodInvoker.call registry v.request

theorem Called.micro {k : SocketId} {w w' : World} (h : (w.conns k).Called) (hm : Micro k w w') :
    (w'.conns k).Called := by
  intro v hv
  rcases hm.invocations with hsame | ⟨n, x, m, now, -, -, rfl⟩
  · exact h v (hsame ▸ hv)
  · simp only [World.start, World.conns_updateSocket_self] at hv
    rcases List.mem_append.mp hv with hv | hv
    · exact h v hv
    · obtain rfl := List.mem_singleton.mp hv
      exact ⟨w.registry, rfl⟩

theorem written_micro {k : SocketId} {w w' : World} (hm : Micro k w w') :
    (w.conns k).written <+: (w'.conns k).written := by
  rcases hm.continues with ⟨chunk, hc⟩ | hc
  · exact hc.written
  · exact hc.written

end ServerSocket

/-- The chunks that an event brings to socket `k`. -/
def Event.chunks (k : SocketId) : Event → List Buffer
  | .data k' chunk _ => if k' = k then [chunk] else []
  | _ => []

theorem Event.chunks_of_turn {e : Event} {k : SocketId} (h : e.turn ≠ some k) :
    e.chunks k = [] := by
  cases e with
  | data k' chunk now => exact if_neg fun hk => h (congrArg some hk)
  | _ => rfl

namespace World

theorem continues_fail {w w' : World} {k : SocketId} {n : ℕ} {e : JsError}
    (h : w.fail k n e = .ok w') : (w.conns k).Continues (w'.conns k) := by
  rw [fail_eq_ok h, conns_updateSocket_self]
  exact ((ServerSocket.Continues.refl _).setPhase n _).destroy

theorem continues_handleMessages {now : ℚ} {k : SocketId} {n : ℕ} {messages : List JsValue} {i : ℕ}
    {w w' : World} (h : handleMessages now k n messages i w = .ok w') :
    (w.conns k).Continues (w'.conns k) := by
  have hrefl := ServerSocket.Continues.refl (w.conns k)
  induction messages generalizing i w with
  | nil =>
    obtain rfl := Except.ok.inj h
    rw [conns_updateSocket_self]
    exact hrefl.setPhase n _
  | cons message messages ih =>
    cases turn_of_handleMessages h with
    | fails _ _ failed => exact continues_fail failed
    | refuses _ _ _ left =>
      rw [left, conns_updateSocket_self]
      exact (hrefl.write _).setPhase n _
    | invokes _ _ left =>
      subst left
      unfold start
      simp only [conns_updateSocket_self]
      exact (hrefl.invoke _).setPhase n _
    | pongs _ _ _ rest =>
      refine ServerSocket.Continues.trans ?_ (ih rest (.refl _))
      rw [conns_updateSocket_self]
      exact (hrefl.write _).advance n
    | skips _ _ rest =>
      refine ServerSocket.Continues.trans ?_ (ih rest (.refl _))
      rw [conns_updateSocket_self]
      exact hrefl.advance n

/-- A data event takes in its chunk and goes on from there. -/
theorem continues_handleData {w w' : World} {k : SocketId} {chunk : Buffer} {now : ℚ}
    (h : w.handleData k chunk now = .ok w') :
    ((w.conns k).receive chunk).Continues (w'.conns k) := by
  have hk := conns_updateSocket_self w k fun s => s.receive chunk
  unfold handleData at h
  split at h
  · exact hk ▸ continues_fail h
  · exact hk ▸ continues_handleMessages h

theorem continues_settle {w w' : World} {k : SocketId} {n : ℕ} {returned : Except Thrown JsValue}
    {now : ℚ} (h : w.settle k n returned now = .ok w') :
    (w.conns k).Continues (w'.conns k) := by
  have hrefl := ServerSocket.Continues.refl (w.conns k)
  unfold settle at h
  split at h
  · exact Except.ok.inj h ▸ hrefl
  · split at h
    · unfold respond at h
      split at h
      · refine ServerSocket.Continues.trans ?_ (continues_fail h)
        rw [conns_finishRequest, conns_updateSocket_self]
        exact hrefl.setPhase n _
      · obtain rfl := Except.ok.inj h
        rw [conns_updateSocket_self]
        exact (hrefl.write _).setPhase n _
    · exact Except.ok.inj h ▸ hrefl

theorem continues_wrote {w w' : World} {k : SocketId} {n : ℕ} {result : Except JsError Unit}
    {now : ℚ} (h : w.wrote k n result now = .ok w') :
    (w.conns k).Continues (w'.conns k) := by
  have hrefl := ServerSocket.Continues.refl (w.conns k)
  unfold wrote at h
  split at h
  · exact Except.ok.inj h ▸ hrefl
  · split at h
    · refine ServerSocket.Continues.trans ?_ (continues_handleMessages h)
      rw [conns_finishRequest, conns_updateSocket_self]
      exact hrefl.advance n
    · refine ServerSocket.Continues.trans ?_ (continues_fail h)
      rw [conns_finishRequest, conns_updateSocket_self]
      exact hrefl.setPhase n _
    · refine ServerSocket.Continues.trans ?_ (continues_handleMessages h)
      rw [conns_updateSocket_self]
      exact hrefl.advance n
    · exact continues_fail h
    · exact Except.ok.inj h ▸ hrefl

end World

/-- A socket has received what its data events brought since it was created. -/
theorem step_received {w w' : World} {e : Event} (hs : machine.Step w e w') (k : SocketId) :
    (w'.conns k).received = (w.conns k).received ++ e.chunks k ∨ (w'.conns k).received = [] := by
  by_cases ht : e.turn = some k
  · left
    cases e with
    | data k' chunk now =>
      obtain rfl := Option.some.inj ht
      rw [(World.continues_handleData hs.2).received, Event.chunks, if_pos rfl]
      rfl
    | settle k' n returned now =>
      obtain rfl := Option.some.inj ht
      rw [(World.continues_settle hs.2).received]
      exact (List.append_nil _).symm
    | wrote k' n result now =>
      obtain rfl := Option.some.inj ht
      rw [(World.continues_wrote hs.2).received]
      exact (List.append_nil _).symm
    | _ => cases ht
  · rw [Event.chunks_of_turn ht, List.append_nil]
    rcases (answer_of_step hs).conn k with ⟨ht', -⟩ | ⟨_, _, _, -, he⟩ | ⟨-, n, codec, -, -, he⟩
    · exact absurd ht' ht
    · left
      rw [he]
    · right
      rw [he]
      rfl

theorem step_written {w w' : World} {e : Event} (hs : machine.Step w e w') {k : SocketId}
    (hk : k < w.nextSocket) : (w.conns k).written <+: (w'.conns k).written := by
  rcases (answer_of_step hs).conn k with ⟨-, hrun⟩ | ⟨_, _, _, -, he⟩ | ⟨rfl, -⟩
  · exact hrun.invariant (I := fun v => (w.conns k).written <+: (v.conns k).written)
      (fun _ _ hm hi => hi.trans (ServerSocket.written_micro hm)) List.prefix_rfl
  · rewrite [he]
    exact List.prefix_rfl
  · exact absurd hk (Nat.lt_irrefl _)

theorem config_micro {k : SocketId} {w w' : World} (hm : Micro k w w') :
    (w'.conns k).codec.config = (w.conns k).codec.config := by
  rcases hm.continues with ⟨chunk, hc⟩ | hc
  · rw [hc.codec]
    exact RpcCodec.push_config _ _
  · rw [hc.codec]

/-- All sockets have the codec that `options` make, and so will those to come. -/
structure World.Configured (options : RpcCodecOptions) (codec : RpcCodec) (w : World) : Prop where
  options : 0 < w.nextServer → w.options.codecOptions = options
  config : ∀ k < w.nextSocket, (w.conns k).codec.config = codec.config

theorem World.Configured.step {options : RpcCodecOptions} {codec : RpcCodec}
    (hnew : RpcCodec.new options = .ok codec) {w w' : World} {e : Event}
    (h : w.Configured options codec) (hs : machine.Step w e w')
    (hl : ∀ o, e = .listen o → o.codecOptions = options) : w'.Configured options codec := by
  have ha := answer_of_step hs
  have hcreated : ∀ {n : ServerId} {codec' : RpcCodec}, n < w.nextServer →
      RpcCodec.new w.options.codecOptions = .ok codec' → codec' = codec := by
    intro n codec' hn hc
    rw [h.options (Nat.zero_lt_of_lt hn)] at hc
    exact Except.ok.inj (hc.symm.trans hnew)
  refine ⟨fun hpos => ?_, fun k hk => ?_⟩
  · rcases ha.options with ⟨ho, hn⟩ | ⟨o, he, ho⟩
    · rw [ho]
      exact h.options (hn ▸ hpos)
    · rw [ho]
      exact hl o he
  · by_cases hlt : k < w.nextSocket
    · rcases ha.conn k with ⟨-, hrun⟩ | ⟨_, _, _, -, he⟩ | ⟨rfl, -⟩
      · exact hrun.invariant (I := fun v => (v.conns k).codec.config = codec.config)
          (fun _ _ hm hi => (config_micro hm).trans hi) (h.config k hlt)
      · rw [he]
        exact h.config k hlt
      · exact absurd hlt (Nat.lt_irrefl _)
    · rcases ha.nextSocket with hn | ⟨hn, n, codec', hlt', hc, he⟩
      · exact absurd (hn ▸ hk) hlt
      · rw [hn] at hk
        obtain rfl : k = w.nextSocket :=
          Nat.le_antisymm (Nat.le_of_lt_succ hk) (Nat.not_lt.mp hlt)
        rw [he, ← hcreated hlt' hc]
        rfl

theorem Reachable.streamed {w : World} (h : Reachable w) :
    ∀ k < w.nextSocket, (w.conns k).Streamed :=
  h.conns ServerSocket.streamed_new (fun _ _ _ hs hm => hs.micro hm)
    fun _ _ _ _ hd hs => hs.same rfl rfl rfl fun ha => by simpa using mt hd (by simpa using ha)

theorem Reachable.called {w : World} (h : Reachable w) : ∀ k < w.nextSocket, (w.conns k).Called :=
  h.conns (fun _ _ _ _ hv => by cases hv) (fun _ _ _ hc hm => hc.micro hm) fun _ _ _ _ _ hc => hc

end WeisleyRpc.Server
