import WeisleyRpc.ServerResponses
import WeisleyRpc.ServerStreams

/-!
# When a message is dispatched

A data handler awaits each request before it looks at the next message of its chunk. So the
messages of a stream are dispatched as they arrive only if no chunk completes a request in
front of another message.
-/

namespace WeisleyRpc.Server
open World

/-- No message to be handled stands behind a request. -/
def RequestLast : List JsValue → Prop
  | [] => True
  | m :: ms => (IsRequest m → ∀ x ∈ ms, ¬ IsRequest x ∧ ¬ IsPing x) ∧ RequestLast ms

instance decidableRequestLast : (messages : List JsValue) → Decidable (RequestLast messages)
  | [] => isTrue trivial
  | m :: ms =>
    have : Decidable (RequestLast ms) := decidableRequestLast ms
    inferInstanceAs (Decidable ((IsRequest m → ∀ x ∈ ms, ¬ IsRequest x ∧ ¬ IsPing x) ∧ _))

namespace ServerSocket

/-- The handling of `m`, message `i` of handler `n`, has started: a request has been invoked, or
its refusal is written, and the pong of a ping is. -/
def Started (s : ServerSocket) (n i : ℕ) (m : JsValue) : Prop :=
  (IsRequest m →
    (∃ v ∈ s.invocations, v.handler = n ∧ v.index = i ∧ v.request = m) ∨
      ∃ wr ∈ s.written, wr.handler = n ∧ wr.index = i ∧ wr.cause = .refusal ∧ s.Wrote m wr) ∧
  (IsPing m → ∃ wr ∈ s.written, wr.handler = n ∧ wr.index = i ∧ wr.cause = .pong ∧ s.Wrote m wr)

/-- The complete messages of the received bytes are those of the handlers, and the handling
of every one of them has started. -/
structure Dispatched (s : ServerSocket) : Prop where
  decoded : s.codec.config.decode s.received.flatten = ⟨s.messages, none, s.codec.queue.bytes⟩
  started : ∀ n ms, (s.handlers.map Handler.messages)[n]? = some ms → ∀ i m, ms[i]? = some m →
    s.Started n i m

variable {s t : ServerSocket} {n i : ℕ} {m : JsValue}

theorem not_ping (h : IsRequest m) : ¬ IsPing m := by
  intro hping
  rw [IsRequest] at h
  rw [IsPing, h] at hping
  simp at hping

theorem Started.mono (h : s.Started n i m) (hc : t.codec.config = s.codec.config)
    (hw : ∀ wr ∈ s.written, wr ∈ t.written) (hi : ∀ v ∈ s.invocations, v ∈ t.invocations) :
    t.Started n i m := by
  obtain ⟨hrequest, hping⟩ := h
  refine ⟨fun hr => ?_, fun hp => ?_⟩
  · rcases hrequest hr with ⟨v, hv, hrest⟩ | ⟨wr, hwr, hn, hindex, hcause, hwrote⟩
    · exact Or.inl ⟨v, hi v hv, hrest⟩
    · exact Or.inr ⟨wr, hw wr hwr, hn, hindex, hcause, hwrote.mono hc hi⟩
  · obtain ⟨wr, hwr, hn, hindex, hcause, hwrote⟩ := hping hp
    exact ⟨wr, hw wr hwr, hn, hindex, hcause, hwrote.mono hc hi⟩

theorem Started.continues (h : s.Started n i m) (hc : s.Continues t) : t.Started n i m :=
  h.mono (congrArg RpcCodec.config hc.codec) (fun _ hwr => hc.written.subset hwr)
    fun _ hv => hc.invocations.subset hv

theorem started_inert (hr : ¬ IsRequest m) (hp : ¬ IsPing m) : s.Started n i m :=
  ⟨fun h => absurd h hr, fun h => absurd h hp⟩

theorem Dispatched.continues (h : s.Dispatched) (hc : s.Continues t) : t.Dispatched := by
  refine ⟨?_, fun n ms hn i m hm => ?_⟩
  · rw [hc.codec, hc.received, messages, hc.messages]
    exact h.decoded
  · rw [hc.messages] at hn
    exact (h.started n ms hn i m hm).continues hc

theorem dispatched_new (server : ServerId) (codec : RpcCodec) (hq : codec.queue = .empty) :
    (new server codec).Dispatched :=
  ⟨(streamed_new server codec hq).decoded rfl, fun n ms hn => by simp [new] at hn⟩

theorem written_write_last (hs : s.doomed = false) (wr : Write) : wr ∈ (s.write wr).written := by
  simp [written_write, hs]

theorem doomed_write (hs : s.doomed = false) (wr : Write) : (s.write wr).doomed = false := by
  rw [doomed, Bool.or_eq_false_iff] at hs
  simp [write, doomed, hs.1, hs.2]

end ServerSocket

/-- What the turns of these messages write can be sent. -/
structure TurnsFit (w : World) (k : SocketId) (now : ℚ) (messages : List JsValue) : Prop where
  pongs : PongsFit (w.conns k).codec.config now messages
  refusals : w.state = .draining → ∀ m ∈ messages, IsRequest m →
    (w.conns k).codec.config.Fits (drainingResponse m)

instance (w : World) (k : SocketId) (now : ℚ) (messages : List JsValue) :
    Decidable (TurnsFit w k now messages) :=
  decidable_of_iff (PongsFit (w.conns k).codec.config now messages ∧
      (w.state = .draining → ∀ m ∈ messages, IsRequest m →
        (w.conns k).codec.config.Fits (drainingResponse m)))
    ⟨fun h => ⟨h.1, h.2⟩, fun h => ⟨h.1, h.2⟩⟩

theorem TurnsFit.tail {w v : World} {k : SocketId} {now : ℚ} {m : JsValue} {ms : List JsValue}
    (h : TurnsFit w k now (m :: ms)) (hm : ¬ IsRequest m) (hstate : v.state = w.state)
    (hcodec : (v.conns k).codec = (w.conns k).codec) : TurnsFit v k now ms := by
  constructor
  · intro x hx
    rw [hcodec]
    exact h.pongs x (by simpa [hm] using Or.inr (by simpa using hx))
  · intro hdraining x hx
    rw [hcodec]
    exact h.refusals (hstate ▸ hdraining) x (List.mem_cons_of_mem m hx)

theorem forall_getElem?_cons {α : Type} {P : ℕ → α → Prop} {x : α} {xs : List α} (hzero : P 0 x)
    (hsucc : ∀ j m, xs[j]? = some m → P (j + 1) m) : ∀ j m, (x :: xs)[j]? = some m → P j m := by
  intro j m hm
  cases j with
  | zero =>
    obtain rfl := Option.some.inj hm
    exact hzero
  | succ j => exact hsucc j m hm

/-- The turns that one run of the loop reaches are all there are if requests come last. -/
theorem started_handleMessages {now : ℚ} {k : SocketId} {n : ℕ} {messages : List JsValue} {i : ℕ}
    {w w' : World} (h : handleMessages now k n messages i w = .ok w')
    (hopen : (w.conns k).doomed = false) (hlast : RequestLast messages)
    (hfit : TurnsFit w k now messages) :
    ∀ j m, messages[j]? = some m → (w'.conns k).Started n (i + j) m := by
  induction messages generalizing i w with
  | nil =>
    intro j m hm
    simp at hm
  | cons message messages ih =>
    have hmessage : message ∈ message :: messages := List.mem_cons_self
    -- behind a request nothing has to be handled
    have hbehind : IsRequest message → ∀ j m, messages[j]? = some m →
        (w'.conns k).Started n (i + (j + 1)) m := by
      intro hr j m hm
      obtain ⟨hnot, hnotPing⟩ := hlast.1 hr m (List.mem_of_getElem? hm)
      exact ServerSocket.started_inert hnot hnotPing
    cases World.turn_of_handleMessages h with
    | fails answers thrown _ =>
      rcases answers with ⟨hreq, hdraining, rfl⟩ | ⟨hping, rfl⟩
      · obtain ⟨payload, he⟩ := (hfit.refusals hdraining message hmessage hreq).encode .response rfl
        cases thrown.symm.trans he
      · have hreq : ¬ message.prop "type" = .string "request" :=
          fun hreq => ServerSocket.not_ping hreq hping
        obtain ⟨payload, he⟩ := (hfit.pongs message (by simp [hreq, IsRequest]) hping).encode .pong rfl
        cases thrown.symm.trans he
    | refuses hreq _ he left =>
      subst left
      refine forall_getElem?_cons ⟨fun _ => Or.inr ?_, fun hp => absurd hp (ServerSocket.not_ping hreq)⟩
        (hbehind hreq)
      rw [conns_updateSocket_self]
      refine ⟨_, ServerSocket.written_write_last hopen _, rfl, rfl, rfl, ?_, hreq, rfl⟩
      exact (congrArg (fun c : RpcCodec => c.encode (drainingResponse message))
        (ServerSocket.codec_write _ _)).trans he
    | invokes hreq _ left =>
      subst left
      refine forall_getElem?_cons ⟨fun _ => Or.inl ?_, fun hp => absurd hp (ServerSocket.not_ping hreq)⟩
        (hbehind hreq)
      simp only [World.start, conns_updateSocket_self]
      exact ⟨_, List.mem_append_right _ (List.mem_singleton_self _), rfl, rfl, rfl⟩
    | pongs hreq hping he rest =>
      have hstarted := ih rest ?_ hlast.2 (hfit.tail hreq rfl ?_)
      · refine forall_getElem?_cons ⟨fun hr => absurd hr hreq, fun _ => ?_⟩ ?_
        · have hwritten := (World.continues_handleMessages rest).written
          rw [conns_updateSocket_self] at hwritten
          refine ⟨_, hwritten.subset (ServerSocket.written_write_last hopen _), rfl, rfl, rfl, ?_,
            hping, now, rfl⟩
          rw [(World.continues_handleMessages rest).codec, conns_updateSocket_self]
          exact (congrArg (fun c : RpcCodec => c.encode (pongMessage (message.prop "id") now))
            (ServerSocket.codec_write _ _)).trans he
        · intro j m hm
          have hj := hstarted j m hm
          rwa [Nat.add_right_comm] at hj
      · rw [conns_updateSocket_self]
        exact ServerSocket.doomed_write hopen _
      · rw [conns_updateSocket_self]
        exact ServerSocket.codec_write _ _
    | skips hreq hping rest =>
      have hstarted := ih rest ?_ hlast.2 (hfit.tail hreq rfl ?_)
      · refine forall_getElem?_cons (ServerSocket.started_inert hreq hping) ?_
        intro j m hm
        have hj := hstarted j m hm
        rwa [Nat.add_right_comm] at hj
      · rw [conns_updateSocket_self]
        exact hopen
      · rw [conns_updateSocket_self]
        rfl

/-- Socket `k` receives valid packets. -/
def ValidData (k : SocketId) (w : World) (e : Event) : Prop :=
  match e with
  | .data j chunk _ => j = k → ((w.conns k).codec.push chunk).1.isOk = true
  | _ => True

/-- No chunk of socket `k` completes a request in front of another message to be handled, and
what the turns of its messages write can be sent. -/
def Uncoalesced (k : SocketId) (w : World) (e : Event) : Prop :=
  match e with
  | .data j chunk now => j = k → ∀ messages ∈ ((w.conns k).codec.push chunk).1.toOption,
    RequestLast messages ∧ TurnsFit w k now messages
  | _ => True

instance (k : SocketId) (w : World) (e : Event) : Decidable (ValidData k w e) :=
  match e with
  | .data _ _ _ => inferInstanceAs (Decidable (_ → _))
  | .registerService _ _ | .listen _ | .listening _ | .listenError _ | .connection _
  | .settle _ _ _ _ | .wrote _ _ _ _ | .peerEnd _ | .finished _ | .socketError _ _
  | .socketClose _ | .close _ | .drainTimeout _ | .resumeDrain _ | .closeCallback _
  | .resumeClose _ => isTrue trivial

instance (k : SocketId) (w : World) (e : Event) : Decidable (Uncoalesced k w e) :=
  match e with
  | .data _ _ _ => inferInstanceAs (Decidable (_ → _))
  | .registerService _ _ | .listen _ | .listening _ | .listenError _ | .connection _
  | .settle _ _ _ _ | .wrote _ _ _ _ | .peerEnd _ | .finished _ | .socketError _ _
  | .socketClose _ | .close _ | .drainTimeout _ | .resumeDrain _ | .closeCallback _
  | .resumeClose _ => isTrue trivial

theorem dispatched_data {w w' : World} {k : SocketId} {chunk : Buffer} {now : ℚ}
    (h : (w.conns k).Dispatched) (hopen : (w.conns k).doomed = false)
    (hvalid : ValidData k w (.data k chunk now)) (hunc : Uncoalesced k w (.data k chunk now))
    (hd : w.handleData k chunk now = .ok w') : (w'.conns k).Dispatched := by
  have hc := World.continues_handleData hd
  cases hpush : ((w.conns k).codec.push chunk).1 with
  | error e =>
    have hok := hvalid rfl
    simp [hpush, Except.isOk, Except.toBool] at hok
  | ok messages =>
    obtain ⟨hlast, hfit⟩ := hunc rfl messages (Except.toOption_eq_some_iff.mpr hpush)
    rw [handleData, hpush] at hd
    have hnew := started_handleMessages hd (by rw [conns_updateSocket_self]; exact hopen) hlast
      ⟨by rw [conns_updateSocket_self]; exact hfit.pongs,
        by rw [conns_updateSocket_self]; exact hfit.refusals⟩
    have hmap : (w'.conns k).handlers.map Handler.messages =
        (w.conns k).handlers.map Handler.messages ++ [messages] := by
      rw [hc.messages]
      simp [ServerSocket.receive, hpush, Except.toOption]
    refine ⟨?_, fun n ms hn i m hm => ?_⟩
    · obtain ⟨he, hi⟩ := RpcCodec.push_eq_ok_iff.mp hpush
      have hdecode := CodecConfig.decode_append h.decoded chunk
      rw [he, hi, ← (RpcCodec.push_eq _ _).2] at hdecode
      rw [hc.codec, hc.received, ServerSocket.messages, hmap]
      simpa [ServerSocket.receive, ServerSocket.messages, RpcCodec.push_config] using hdecode
    · rw [hmap] at hn
      by_cases hlt : n < ((w.conns k).handlers.map Handler.messages).length
      · rw [List.getElem?_append_left hlt] at hn
        have hold : ((w.conns k).receive chunk).Started n i m :=
          (h.started n ms hn i m hm).mono (RpcCodec.push_config _ _) (fun _ hwr => hwr)
            fun _ hv => hv
        exact hold.continues hc
      · have hle := Nat.not_lt.1 hlt
        rw [List.getElem?_append_right hle, List.getElem?_singleton] at hn
        split_ifs at hn with hzero
        obtain rfl := Option.some.inj hn
        rw [List.length_map] at hzero hle
        obtain rfl : n = (w.conns k).handlers.length := by omega
        simpa using hnew i m hm

theorem dispatched_turn {w w' : World} {k : SocketId} {e : Event} (h : (w.conns k).Dispatched)
    (hs : machine.Step w e w') (ht : e.turn = some k) (hvalid : ValidData k w e)
    (hunc : Uncoalesced k w e) : (w'.conns k).Dispatched := by
  obtain ⟨he, ha⟩ := hs
  cases e with
  | data j chunk now =>
    obtain rfl := Option.some.inj ht
    exact dispatched_data h (by simp [ServerSocket.doomed, he.2.1, he.2.2]) hvalid hunc ha
  | settle j n returned now =>
    obtain rfl := Option.some.inj ht
    exact h.continues (World.continues_settle ha)
  | wrote j n result now =>
    obtain rfl := Option.some.inj ht
    exact h.continues (World.continues_wrote ha)
  | _ => cases ht

theorem dispatched_step {w w' : World} {k : SocketId} {e : Event}
    (h : k < w.nextSocket → (w.conns k).Dispatched) (hs : machine.Step w e w')
    (hvalid : ValidData k w e) (hunc : Uncoalesced k w e) (hk : k < w'.nextSocket) :
    (w'.conns k).Dispatched := by
  have ha := answer_of_step hs
  by_cases hlt : k < w.nextSocket
  · rcases ha.conn k with ⟨ht, -⟩ | ⟨_, _, _, -, he⟩ | ⟨rfl, -⟩
    · exact dispatched_turn (h hlt) hs ht hvalid hunc
    · rw [he]
      exact ⟨(h hlt).decoded, fun n ms hn i m hm => ((h hlt).started n ms hn i m hm).mono rfl
        (fun _ hwr => hwr) fun _ hv => hv⟩
    · exact absurd hlt (Nat.lt_irrefl _)
  · rcases ha.nextSocket with hn | ⟨hn, n, codec, -, hc, he⟩
    · exact absurd (hn ▸ hk) hlt
    · rw [hn] at hk
      obtain rfl : k = w.nextSocket :=
        Nat.le_antisymm (Nat.le_of_lt_succ hk) (Nat.not_lt.mp hlt)
      rw [he]
      exact ServerSocket.dispatched_new n codec (RpcCodec.queue_new hc)

/-- Every message is dispatched as it arrives in a run whose chunks do not put a request in
front of another message. -/
theorem dispatched_as_received (serializer : Serializer) (k : SocketId) (w : World)
    (es : List Event)
    (hrun : (machine.guard fun w e => ValidData k w e ∧ Uncoalesced k w e).Run
      (World.init serializer) es w) (hk : k < w.nextSocket) : (w.conns k).Dispatched := by
  refine hrun.invariant (I := fun v => k < v.nextSocket → (v.conns k).Dispatched)
    (fun _ _ _ hi hs => ?_) (fun hk => absurd hk (Nat.not_lt_zero k)) hk
  obtain ⟨⟨hvalid, hunc⟩, hstep⟩ := Machine.guard_step.mp hs
  exact fun hk => dispatched_step hi hstep hvalid hunc hk

/-- Two requests and a ping, each in its own chunk. -/
def sampleSeparate : Option World :=
  (machine.guard fun w e => ValidData 0 w e ∧ Uncoalesced 0 w e).exec
    (World.init (.ofTable sampleTable))
    [.registerService "s" ⟨[("m", true)], []⟩, .listen sampleServerOptions, .listening 0,
      .connection 0, .data 0 (samplePacket sampleRequest) 5, .data 0 (samplePacket sampleRequest) 5,
      .data 0 (samplePacket samplePing) 5]

theorem sampleSeparate_isSome : sampleSeparate.isSome := by decide +kernel

theorem dispatched_as_received_sample :
    ((sampleSeparate.get sampleSeparate_isSome).conns 0).Dispatched :=
  dispatched_as_received _ 0 _ _ (Machine.run_exec_get sampleSeparate_isSome) (by decide +kernel)

/-- The same bytes in one chunk. -/
def sampleCoalesced : Option World :=
  (machine.guard (ValidData 0)).exec (World.init (.ofTable sampleTable))
    [.registerService "s" ⟨[("m", true)], []⟩, .listen sampleServerOptions, .listening 0,
      .connection 0, .data 0 (samplePacket sampleRequest ++ samplePacket sampleRequest ++
        samplePacket samplePing) 5]

theorem sampleCoalesced_isSome : sampleCoalesced.isSome := by decide +kernel

theorem coalesced_messages_wait :
    ((sampleSeparate.get sampleSeparate_isSome).conns 0).invocations.length = 2 ∧
      ((sampleCoalesced.get sampleCoalesced_isSome).conns 0).invocations.length = 1 ∧
      ¬ ∀ serializer k w es, (machine.guard (ValidData k)).Run (World.init serializer) es w →
        k < w.nextSocket → (w.conns k).Dispatched := by
  refine ⟨by decide +kernel, by decide +kernel, fun h => ?_⟩
  have hall : ((sampleCoalesced.get sampleCoalesced_isSome).conns 0).Dispatched :=
    h _ 0 _ _ (Machine.run_exec_get sampleCoalesced_isSome) (by decide +kernel)
  have hping := (hall.started 0 [sampleRequest, sampleRequest, samplePing] (by decide +kernel) 2
    samplePing rfl).2 (by decide)
  obtain ⟨wr, hwr, -⟩ := hping
  have hnone : ((sampleCoalesced.get sampleCoalesced_isSome).conns 0).written.length = 0 := by
    decide +kernel
  rw [List.length_eq_zero_iff.1 hnone] at hwr
  cases hwr

end WeisleyRpc.Server
