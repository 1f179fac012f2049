import WeisleyRpc.ServerLifecycle
import WeisleyRpc.ServerTurns

/-!
# One response for each request

The `catch` of the data handler takes every exception for bad data of the peer. As long
as no response and no pong makes one, a socket that its peer keeps open answers every
request exactly once.
-/

namespace WeisleyRpc

/-- A message of a known type that the codec can serialize, compress and frame. -/
def CodecConfig.Fits (c : CodecConfig) (message : JsValue) : Prop :=
  ∃ serialized ∈ (c.defaultSerializer.serialize message).toOption,
    serialized.length ≤ c.maxBodyLength ∧
      ∃ payload ∈ (c.payloadOf serialized).toOption, payload.length ≤ MAX_PACKET_LENGTH

instance (c : CodecConfig) (message : JsValue) : Decidable (c.Fits message) :=
  inferInstanceAs (Decidable (∃ serialized ∈ (c.defaultSerializer.serialize message).toOption, _))

theorem CodecConfig.Fits.encode {c : CodecConfig} {message : JsValue} (h : c.Fits message)
    (type : MessageType) (ht : message.get "type" = .ok (.string type.text)) :
    ∃ packet, c.encode message = .ok packet := by
  obtain ⟨serialized, hs, hlen, payload, hp, hmax⟩ := h
  exact ⟨_, CodecConfig.encode_eq_ok_iff.mpr ⟨serialized, Except.toOption_eq_some_iff.mp hs, hlen,
    payload, Except.toOption_eq_some_iff.mp hp, _, ht, hmax, rfl⟩⟩

theorem MethodInvoker.response_eq_ok {request r : JsValue} {outcome : Except Thrown JsValue}
    (h : MethodInvoker.response request outcome = .ok r) :
    r.get "type" = .ok (.string "response") ∧ r.prop "id" = request.prop "id" ∧
      r.prop "ok" = .boolean outcome.isOk := by
  cases outcome with
  | ok result =>
    obtain rfl := Except.ok.inj h
    exact ⟨rfl, rfl, rfl⟩
  | error thrown =>
    obtain ⟨error, -, he⟩ := Except.bind_eq_ok_iff.mp h
    obtain rfl := Except.ok.inj he
    exact ⟨rfl, rfl, rfl⟩

/-- An `Error` was thrown, if anything, or `String` gives what was thrown a text. -/
def HasText : Except Thrown JsValue → Prop
  | .ok _ | .error (.error _) => True
  | .error (.value v) => v.toText.isOk = true

instance (outcome : Except Thrown JsValue) : Decidable (HasText outcome) :=
  match outcome with
  | .ok _ | .error (.error _) => isTrue trivial
  | .error (.value v) => inferInstanceAs (Decidable (v.toText.isOk = true))

theorem MethodInvoker.response_total (request : JsValue) {outcome : Except Thrown JsValue}
    (h : HasText outcome) : ∃ r, MethodInvoker.response request outcome = .ok r := by
  match outcome with
  | .ok result => exact ⟨_, rfl⟩
  | .error (.error (.rpcError _ _)) => exact ⟨_, rfl⟩
  | .error (.error (.native _ _ _ _)) => exact ⟨_, rfl⟩
  | .error (.value v) =>
    cases ht : v.toText with
    | error e => simp [HasText, ht, Except.isOk, Except.toBool] at h
    | ok t => exact ⟨_, by rw [MethodInvoker.response, MethodInvoker.toRpcError, ht]; rfl⟩

namespace Server

/-- The handler has been through its messages or awaits what its peer and its methods do. -/
def Handler.Waits (x : Handler) : Prop :=
  x.phase = .done ∨ x.invoking = true ∨ x.phase = .responding false

theorem Handler.Waits.not_refusing {x : Handler} (h : x.Waits) (doomed : Bool) :
    x.phase ≠ .refusing doomed := by
  intro hp
  rcases h with hw | hw | hw <;> simp [Handler.invoking, hp] at hw

namespace ServerSocket

/-- The socket takes bytes, its handlers other than the one at turn wait, and no request was
refused. -/
structure Sound (s : ServerSocket) (turn : Option ℕ) : Prop where
  alive : s.destroyed = false
  unended : s.ended = false
  waits : ∀ (n : ℕ) (x : Handler), s.handlers[n]? = some x → turn ≠ some n → x.Waits
  served : ∀ wr ∈ s.written, wr.cause ≠ .refusal

theorem Sound.not_doomed {s : ServerSocket} {turn : Option ℕ} (h : s.Sound turn) :
    s.doomed = false := by
  simp [doomed, h.alive, h.unended]

theorem Sound.write {s : ServerSocket} {turn : Option ℕ} (h : s.Sound turn) {wr : Write}
    (hwr : wr.cause ≠ .refusal) : (s.write wr).Sound turn := by
  have hw : s.write wr = { s with written := s.written ++ [wr] } := by
    simp [ServerSocket.write, h.alive, h.unended]
  rw [hw]
  refine ⟨h.alive, h.unended, h.waits, fun u hu => ?_⟩
  rcases List.mem_append.mp hu with hu | hu
  · exact h.served u hu
  · obtain rfl := List.mem_singleton.mp hu
    exact hwr

theorem Sound.advance {s : ServerSocket} {turn : Option ℕ} {n : ℕ} (h : s.Sound turn)
    (hturn : ∀ j, turn = some j → j = n) : (s.advance n).Sound (some n) := by
  refine ⟨h.alive, h.unended, fun j x hx hj => ?_, h.served⟩
  have hne : n ≠ j := fun he => hj (congrArg some he)
  simp only [ServerSocket.advance, List.getElem?_modify_ne _ _ hne] at hx
  exact h.waits j x hx fun ht => hne (hturn j ht).symm

theorem Sound.setPhase {s : ServerSocket} {turn : Option ℕ} {n : ℕ} {phase : Phase}
    (h : s.Sound turn) (hturn : ∀ j, turn = some j → j = n)
    (hp : ∀ x : Handler, Handler.Waits { x with phase := phase }) :
    (s.setPhase n phase).Sound none := by
  refine ⟨h.alive, h.unended, fun j x hx _ => ?_, h.served⟩
  rw [ServerSocket.setPhase, List.getElem?_modify] at hx
  obtain ⟨y, hy, rfl⟩ := Option.map_eq_some_iff.mp hx
  split_ifs with hj
  · exact hp y
  · exact h.waits j y hy fun ht => hj (hturn j ht).symm

theorem sound_new (server : ServerId) (codec : RpcCodec) : (new server codec).Sound none :=
  ⟨rfl, rfl, by simp [new], by simp [new]⟩

end ServerSocket

/-- The pongs that are due before the next request can be sent. -/
def PongsFit (c : CodecConfig) (now : ℚ) (messages : List JsValue) : Prop :=
  ∀ m ∈ messages.takeWhile (fun m => ¬ IsRequest m), IsPing m →
    c.Fits (pongMessage (m.prop "id") now)

instance (c : CodecConfig) (now : ℚ) (messages : List JsValue) :
    Decidable (PongsFit c now messages) :=
  inferInstanceAs (Decidable (∀ m ∈ messages.takeWhile (fun m => ¬ IsRequest m), _ → _))

namespace World

theorem handleMessages_sound {now : ℚ} {k : SocketId} {n : ℕ} {messages : List JsValue} {i : ℕ}
    {w : World} (hs : (w.conns k).Sound (some n)) (hstate : w.state ≠ .draining)
    (hp : PongsFit (w.conns k).codec.config now messages) :
    ∃ w', handleMessages now k n messages i w = .ok w' ∧ (w'.conns k).Sound none := by
  have hturn : ∀ j, some n = some j → j = n := fun j hj => (Option.some.inj hj).symm
  induction messages generalizing i w with
  | nil =>
    refine ⟨_, rfl, ?_⟩
    rw [conns_updateSocket_self]
    exact hs.setPhase hturn fun _ => Or.inl rfl
  | cons message messages ih =>
    have hrest : ¬ IsRequest message → PongsFit (w.conns k).codec.config now messages :=
      fun hreq m hm => hp m (by simpa [hreq] using Or.inr (by simpa using hm))
    simp only [handleMessages]
    split_ifs with hreq hping
    · refine ⟨_, rfl, ?_⟩
      simp only [World.start, conns_updateSocket_self]
      have hinvoke : ((w.conns k).invoke ⟨n, i, message, MethodInvoker.call w.registry message⟩).Sound
        (some n) := ⟨hs.alive, hs.unended, hs.waits, hs.served⟩
      exact hinvoke.setPhase hturn fun _ => Or.inr (Or.inl rfl)
    · obtain ⟨payload, he⟩ :=
        (hp message (by simp [IsRequest, hreq]) hping).encode .pong rfl
      rw [RpcCodec.encode, he]
      refine ih ?_ hstate ?_
      · rw [conns_updateSocket_self]
        exact (hs.write (by simp)).advance hturn
      · rw [conns_updateSocket_self, ServerSocket.advance, ServerSocket.codec_write]
        exact hrest hreq
    · refine ih ?_ hstate ?_
      · rw [conns_updateSocket_self]
        exact hs.advance hturn
      · rw [conns_updateSocket_self]
        exact hrest hreq

/-- The method's outcome can be turned into a response, logged and sent. -/
def Presentable (w : World) (k : SocketId) (m : JsValue) (outcome : Except Thrown JsValue)
    (durationMs : ℚ) : Prop :=
  HasText outcome ∧
    ∀ r ∈ (MethodInvoker.response m outcome).toOption,
      w.logResponse m r durationMs = .ok () ∧ (w.conns k).codec.config.Fits r

theorem Presentable.encodeResponse {w : World} {k : SocketId} {m : JsValue}
    {outcome : Except Thrown JsValue} {durationMs : ℚ} (h : w.Presentable k m outcome durationMs) :
    ∃ response payload, w.encodeResponse k m outcome durationMs = .ok (response, payload) := by
  obtain ⟨r, hr⟩ := MethodInvoker.response_total m h.1
  obtain ⟨hlog, hfits⟩ := h.2 r (Except.toOption_eq_some_iff.mpr hr)
  obtain ⟨payload, he⟩ := hfits.encode .response (MethodInvoker.response_eq_ok hr).1
  refine ⟨r, payload, ?_⟩
  simp only [World.encodeResponse, hr, RpcCodec.encode, he, hlog, bind, Except.bind, pure,
    Except.pure]

end World

instance (w : World) (k : SocketId) (m : JsValue) (outcome : Except Thrown JsValue)
    (durationMs : ℚ) : Decidable (w.Presentable k m outcome durationMs) :=
  inferInstanceAs (Decidable (HasText outcome ∧
    ∀ r ∈ (MethodInvoker.response m outcome).toOption, _ ∧ _))

/-- The peer of socket `k` keeps it open and sends valid packets, and nobody closes the
server meanwhile. -/
def Peaceful (k : SocketId) (w : World) (e : Event) : Prop :=
  Exclusive w e ∧
    match e with
    | .close _ => w.nextSocket ≤ k
    | .peerEnd j | .finished j | .socketError j _ | .socketClose j => j ≠ k
    | .data j chunk _ => j = k → ((w.conns k).codec.push chunk).1.isOk = true
    | .wrote j _ result _ => j = k → result = .ok ()
    | _ => True

instance (k : SocketId) (w : World) (e : Event) : Decidable (Peaceful k w e) :=
  match e with
  | .registerService _ _ | .listen _ | .listening _ | .listenError _ | .connection _ | .data _ _ _
  | .settle _ _ _ _ | .wrote _ _ _ _ | .peerEnd _ | .finished _ | .socketError _ _ | .socketClose _
  | .close _ | .drainTimeout _ | .resumeDrain _ | .closeCallback _ | .resumeClose _ =>
    inferInstanceAs (Decidable (_ ∧ _))

/-- The method call that the handler awaits, with the request that it is for. -/
def Handler.awaited (x : Handler) : Option (ℚ × Except JsError Call × JsValue) :=
  match x.phase, x.messages[x.next]? with
  | .invoking startedAt called, some m => some (startedAt, called, m)
  | _, _ => none

/-- What handler `x` makes of what its method has `returned` can be sent. -/
def World.Returns (w : World) (k : SocketId) (x : Handler) (returned : Except Thrown JsValue)
    (now : ℚ) : Prop :=
  ∀ a ∈ x.awaited, w.Presentable k a.2.2 (MethodInvoker.outcome a.2.1 returned) (now - a.1)

instance (w : World) (k : SocketId) (x : Handler) (returned : Except Thrown JsValue) (now : ℚ) :
    Decidable (w.Returns k x returned now) :=
  inferInstanceAs (Decidable (∀ a ∈ x.awaited, _))

/-- What socket `k` has to send in this step can be sent. -/
def Sendable (k : SocketId) (w : World) (e : Event) : Prop :=
  match e with
  | .data j chunk now => j = k → ∀ messages ∈ ((w.conns k).codec.push chunk).1.toOption,
    PongsFit (w.conns k).codec.config now messages
  | .settle j n returned now => j = k → ∀ x ∈ (w.conns k).handlers[n]?, w.Returns k x returned now
  | .wrote j n _ now => j = k → ∀ x ∈ (w.conns k).handlers[n]?,
    PongsFit (w.conns k).codec.config now (x.messages.drop (x.next + 1))
  | _ => True

instance (k : SocketId) (w : World) (e : Event) : Decidable (Sendable k w e) :=
  match e with
  | .data _ _ _ | .settle _ _ _ _ | .wrote _ _ _ _ => inferInstanceAs (Decidable (_ → _))
  | .registerService _ _ | .listen _ | .listening _ | .listenError _ | .connection _ | .peerEnd _
  | .finished _ | .socketError _ _ | .socketClose _ | .close _ | .drainTimeout _ | .resumeDrain _
  | .closeCallback _ | .resumeClose _ => isTrue trivial

namespace World

theorem sound_data {w : World} {k : SocketId} {chunk : Buffer} {now : ℚ}
    (hs : (w.conns k).Sound none) (hstate : w.state ≠ .draining)
    (hp : Peaceful k w (.data k chunk now)) (hf : Sendable k w (.data k chunk now)) :
    ∃ w', w.handleData k chunk now = .ok w' ∧ (w'.conns k).Sound none := by
  unfold handleData
  cases hpush : ((w.conns k).codec.push chunk).1 with
  | error e =>
    have := hp.2 rfl
    simp [hpush, Except.isOk, Except.toBool] at this
  | ok messages =>
    have hfit := hf rfl messages (Except.toOption_eq_some_iff.mpr hpush)
    refine handleMessages_sound ?_ hstate ?_
    · rw [conns_updateSocket_self]
      refine ⟨hs.alive, hs.unended, fun n x hx hn => ?_, hs.served⟩
      rw [ServerSocket.receive, List.getElem?_append] at hx
      split_ifs at hx with hlt
      · exact hs.waits n x hx (by simp)
      · have hlen := (List.getElem?_eq_some_iff.mp hx).1
        simp only [List.length_singleton] at hlen
        exact absurd (congrArg some (by omega)) hn
    · rw [conns_updateSocket_self]
      exact hfit

theorem sound_settle {w : World} {k : SocketId} {n : ℕ} {returned : Except Thrown JsValue} {now : ℚ}
    (hs : (w.conns k).Sound none) (hf : Sendable k w (.settle k n returned now)) :
    ∃ w', w.settle k n returned now = .ok w' ∧ (w'.conns k).Sound none := by
  unfold settle
  cases hn : (w.conns k).handlers[n]? with
  | none => exact ⟨w, rfl, hs⟩
  | some x =>
    dsimp only
    split
    · rename_i startedAt called message hp hm
      have hawaited : x.awaited = some (startedAt, called, message) := by
        simp only [Handler.awaited, hp, hm]
      obtain ⟨response, payload, he⟩ := (hf rfl x hn _ hawaited).encodeResponse
      refine ⟨_, by rw [respond, he], ?_⟩
      rw [conns_updateSocket_self]
      refine (hs.write (by simp)).setPhase (n := n) (by simp) fun _ => Or.inr (Or.inr ?_)
      rw [hs.not_doomed]
    · exact ⟨w, rfl, hs⟩

theorem sound_wrote {w : World} {k : SocketId} {n : ℕ} {result : Except JsError Unit} {now : ℚ}
    (hs : (w.conns k).Sound none) (hstate : w.state ≠ .draining)
    (hp : Peaceful k w (.wrote k n result now)) (hf : Sendable k w (.wrote k n result now)) :
    ∃ w', w.wrote k n result now = .ok w' ∧ (w'.conns k).Sound none := by
  obtain rfl := hp.2 rfl
  have hadvance : ((w.conns k).advance n).Sound (some n) := hs.advance (by simp)
  unfold wrote
  cases hn : (w.conns k).handlers[n]? with
  | none => exact ⟨w, rfl, hs⟩
  | some x =>
    have hfit := hf rfl x hn
    dsimp only
    split
    · refine handleMessages_sound ?_ ?_ ?_
      · rw [conns_finishRequest, conns_updateSocket_self]
        exact hadvance
      · rwa [(sameServer_finishRequest w k _).state]
      · rw [conns_finishRequest, conns_updateSocket_self]
        exact hfit
    · cases ‹Except.ok () = Except.error _›
    · exact absurd ‹x.phase = .refusing _› ((hs.waits n x hn (by simp)).not_refusing _)
    · exact absurd ‹x.phase = .refusing _› ((hs.waits n x hn (by simp)).not_refusing _)
    · exact ⟨w, rfl, hs⟩
/-- While socket `k` is open its server listens. -/
structure Serving (k : SocketId) (w : World) : Prop where
  servers : w.ServersWf
  state : ∀ n, w.server = some n → w.servers n = .listening → w.state = .listening
  socket : k < w.nextSocket → w.servers (w.conns k).server = .listening ∧ (w.conns k).Sound none

theorem Serving.same {k : SocketId} {w v : World} (h : w.Serving k) (hv : SameLifecycle w v)
    (hstate : v.state = w.state) (hc : k < w.nextSocket → (v.conns k).Sound none) : v.Serving k := by
  refine ⟨h.servers.same hv, ?_, fun hk => ?_⟩
  · rw [hv.server, hv.servers, hstate]
    exact h.state
  · rw [hv.nextSocket] at hk
    rw [hv.servers, (hv.conn k).1]
    exact ⟨(h.socket hk).1, hc hk⟩

/-- The server of an open socket is current, so it does not drain and nobody closes it. -/
theorem Serving.listening {k : SocketId} {w : World} (h : w.Serving k) (hk : k < w.nextSocket) :
    w.state = .listening ∧ ∀ c < w.nextCloser, (w.closers c).isFinished = true := by
  have hl := (h.socket hk).1
  have hcur := h.servers.current _ (h.servers.socket k hk).1 (Or.inr hl)
  exact ⟨h.state _ hcur hl, (h.servers.idle _ hcur).2.2.2⟩

theorem Serving.turn {k : SocketId} {w : World} {e : Event} (h : w.Serving k)
    (hk : k < w.nextSocket) (ht : e.turn = some k) (hp : Peaceful k w e) (hf : Sendable k w e) :
    ∃ w', apply w e = .ok w' ∧ (w'.conns k).Sound none := by
  have hs := (h.socket hk).2
  have hstate : w.state ≠ .draining := by simp [(h.listening hk).1]
  cases e with
  | data =>
    obtain rfl := Option.some.inj ht
    exact sound_data hs hstate hp hf
  | settle =>
    obtain rfl := Option.some.inj ht
    exact sound_settle hs hf
  | wrote =>
    obtain rfl := Option.some.inj ht
    exact sound_wrote hs hstate hp hf
  | _ => cases ht

theorem Serving.step {k : SocketId} {w w' : World} {e : Event} (h : w.Serving k)
    (hs : machine.Step w e w') (hp : Peaceful k w e) (hf : Sendable k w e) : w'.Serving k := by
  have hwf : w'.ServersWf := h.servers.step (Machine.guard_step.mpr ⟨hp.1, hs⟩)
  -- an open socket and a current server exclude a `close` that is under way
  have hidle : ∀ c < w.nextCloser, (w.closers c).isFinished = false →
      w.server = none ∧ ¬ k < w.nextSocket := by
    intro c hc hopen
    refine ⟨Option.eq_none_iff_forall_ne_some.mpr fun n hn => ?_, fun hk => ?_⟩
    · exact absurd ((h.servers.idle n hn).2.2.2 c hc) (by simp [hopen])
    · exact absurd ((h.listening hk).2 c hc) (by simp [hopen])
  have hupdate : ∀ k₀ (f : ServerSocket → ServerSocket), k₀ ≠ k →
      k < w.nextSocket → ((w.updateSocket k₀ f).conns k).Sound none := by
    intro k₀ f hkk hk
    rw [conns_updateSocket, if_neg (Ne.symm hkk)]
    exact (h.socket hk).2
  cases answer_of_step hs with
  | @turn _ k₀ _ ht hlt hrun =>
    refine h.same (sameLifecycle_micros hrun) hrun.same.state fun hk => ?_
    by_cases hkk : k = k₀
    · subst hkk
      obtain ⟨v, hv, hsound⟩ := h.turn hk ht hp hf
      obtain rfl := Except.ok.inj (hv.symm.trans hs.2)
      exact hsound
    · rw [hrun.conns_ne hkk]
      exact (h.socket hk).2
  | registerService => exact ⟨hwf, h.state, h.socket⟩
  | listen =>
    refine ⟨hwf, fun n hn hl => ?_, fun hk => ?_⟩
    · obtain rfl := Option.some.inj hn
      simp [World.listen] at hl
    · have hl := (h.socket hk).1
      rcases hp.1.1 _ (h.servers.socket k hk).1 with he | he <;> cases hl.symm.trans he
  | listening =>
    refine ⟨hwf, fun _ _ _ => rfl, fun hk => ⟨?_, (h.socket hk).2⟩⟩
    simp only [Function.update_apply]
    split_ifs
    · rfl
    · exact (h.socket hk).1
  | @listenError n hlt hst =>
    refine ⟨hwf, fun m hm hl => ?_, fun hk => ⟨?_, (h.socket hk).2⟩⟩
    · simp only [Function.update_apply] at hl
      split_ifs at hl
      exact h.state m hm hl
    · have hl := (h.socket hk).1
      have hne : (w.conns k).server ≠ n := by
        rintro he
        rw [he, hst] at hl
        cases hl
      simp only [Function.update_apply, if_neg hne]
      exact hl
  | @connection n codec hlt hl =>
    refine ⟨hwf, h.state, fun hk => ?_⟩
    simp only [Function.update_apply]
    split_ifs with hkn
    · exact ⟨hl, ServerSocket.sound_new n codec⟩
    · exact h.socket (Nat.lt_of_le_of_ne (Nat.le_of_lt_succ hk) hkn)
  | peerEnd => exact h.same (sameLifecycle_updateSocket w _ rfl id) rfl (hupdate _ _ hp.2)
  | finished => exact h.same (sameLifecycle_updateSocket w _ rfl id) rfl (hupdate _ _ hp.2)
  | @socketClose k₀ =>
    have hu := sameLifecycle_updateSocket w k₀ (f := fun s => { s with closed := true }) rfl
      fun _ => rfl
    exact h.same ⟨rfl, rfl, rfl, rfl, rfl, hu.conn, hu.closer⟩ rfl
      (hupdate k₀ (fun s => { s with closed := true }) hp.2)
  | close o =>
    refine ⟨hwf, fun n hn => ?_, fun hk => ?_⟩
    · cases (w.close_closesTo o).server.symm.trans hn
    · rw [nextSocket_close] at hk
      exact absurd hk (Nat.not_lt.mpr hp.2)
  | @drainTimeout c =>
    have hu := sameLifecycle_updateCloser w c (f := fun x =>
      { x with timer := none, timedOut := true, drained := true }) ⟨rfl, rfl, rfl, rfl⟩
    exact h.same ⟨rfl, rfl, rfl, rfl, rfl, hu.conn, hu.closer⟩ rfl fun hk => (h.socket hk).2
  | @resumeDrain c hlt hph =>
    obtain ⟨-, hk⟩ := hidle c hlt (by simp [Closer.isFinished, hph])
    exact h.same (sameLifecycle_resumeDrain hph) rfl fun hk' => absurd hk' hk
  | @closeCallback c n hlt hn hcl =>
    have hopen : (w.closers c).isFinished = false := by
      by_contra hfin
      have := (h.servers.closer c hlt n hn).2.1 (by simpa using hfin)
      simp [hcl] at this
    obtain ⟨hnone, hk⟩ := hidle c hlt hopen
    exact ⟨hwf, fun m hm => absurd (hnone.symm.trans hm) (by simp), fun hk' => absurd hk' hk⟩
  | @resumeClose c hlt hph hc =>
    obtain ⟨hnone, hk⟩ := hidle c hlt (by simp [Closer.isFinished, hph])
    obtain ⟨result, -, he⟩ := resumeClose_cases hc
    rw [he] at hwf ⊢
    exact ⟨hwf, fun m hm => absurd (hnone.symm.trans hm) (by simp), fun hk' => absurd hk' hk⟩

end World

theorem filter_key {α β : Type} [DecidableEq β] (f : α → β) {l : List α} (hl : (l.map f).Nodup)
    {a : α} (ha : a ∈ l) : (l.filter fun b => f b = f a) = [a] := by
  induction l with
  | nil => cases ha
  | cons b l ih =>
    obtain ⟨hb, hl⟩ := List.nodup_cons.mp hl
    rcases List.mem_cons.mp ha with rfl | ha
    · have hnone : (l.filter fun b => f b = f a) = [] := by
        refine List.filter_eq_nil_iff.mpr fun c hc he => hb ?_
        rw [← of_decide_eq_true he]
        exact List.mem_map_of_mem hc
      rw [List.filter_cons_of_pos (by simp), hnone]
    · have hne : f b ≠ f a := fun he => hb (he ▸ List.mem_map_of_mem ha)
      rw [List.filter_cons_of_neg (by simp [hne]), ih hl ha]

/-- What the socket's handler writes for request `m`, which is its message `i`. -/
structure ServerSocket.Responds (s : ServerSocket) (n i : ℕ) (m : JsValue) (wr : Write) : Prop where
  only : (s.written.filter fun u => u.handler = n ∧ u.index = i) = [wr]
  encoded : s.codec.config.encode wr.message = .ok wr.payload
  response : wr.message.prop "type" = .string "response"
  id : wr.message.prop "id" = m.prop "id"
  outcome : ∃ v ∈ s.invocations, v.handler = n ∧ v.index = i ∧ ∃ returned,
    wr.cause = .response (MethodInvoker.outcome v.called returned) ∧
      MethodInvoker.response m (MethodInvoker.outcome v.called returned) = .ok wr.message ∧
        wr.message.prop "ok" = .boolean (MethodInvoker.outcome v.called returned).isOk

/-- The socket is open, none of its handlers has failed, and a request has one response
from its turn on and none before. -/
structure ServerSocket.Served (s : ServerSocket) : Prop where
  alive : s.destroyed = false
  waits : ∀ (n : ℕ) (x : Handler), s.handlers[n]? = some x → x.Waits
  answered : ∀ (n : ℕ) (x : Handler) (i : ℕ) m, s.handlers[n]? = some x → x.messages[i]? = some m →
    IsRequest m → x.phase = .done ∨ x.Responded i → ∃ wr, s.Responds n i m wr
  unanswered : ∀ (n : ℕ) (x : Handler) (i : ℕ), s.handlers[n]? = some x → ¬ x.Responded i →
    (s.written.filter fun u => u.handler = n ∧ u.index = i) = []

theorem ServerSocket.Recorded.served {s : ServerSocket} (h : s.Recorded) (hs : s.Sound none) :
    s.Served := by
  have hwaits : ∀ (n : ℕ) (x : Handler), s.handlers[n]? = some x → x.Waits :=
    fun n x hx => hs.waits n x hx (by simp)
  refine ⟨hs.alive, hwaits, fun n x i m hx hm hreq hover => ?_, fun n x i hx hno => ?_⟩
  · have hresponded : x.Responded i := by
      rcases hover with hdone | hover
      · left
        rw [(h.handler n x hx).done hdone]
        exact (List.getElem?_eq_some_iff.mp hm).1
      · exact hover
    obtain ⟨wr, hwr, hwn, hwi⟩ := h.responded n x i m hx hm hreq hresponded
    have hw := h.wrote hx hm hwr hwn hwi
    have honly : (s.written.filter fun u => u.handler = n ∧ u.index = i) = [wr] := by
      rw [← filter_key _ h.writtenOnce hwr, hwn, hwi]
      simp only [Prod.mk.injEq]
    have hcause := hw.cause
    cases hc : wr.cause with
    | pong => exact absurd hc (hw.not_pong hreq)
    | refusal => exact absurd hc (hs.served wr hwr)
    | response outcome =>
      simp only [hc] at hcause
      obtain ⟨-, hresponse, v, hv, hvn, hvi, returned, rfl⟩ := hcause
      obtain ⟨htype, hid, hok⟩ := MethodInvoker.response_eq_ok hresponse
      exact ⟨wr, honly, hw.encoded, (JsValue.get_eq_ok_iff.mp htype).2, hid, v, hv, hvn.trans hwn,
        hvi.trans hwi, returned, hc, hresponse, hok⟩
  · refine List.filter_eq_nil_iff.mpr fun wr hwr he => hno ?_
    obtain ⟨rfl, rfl⟩ := of_decide_eq_true he
    obtain ⟨m, -, hanswered, -⟩ := h.write_at hwr hx
    refine hanswered.imp id fun hi => ⟨hi.1, ?_⟩
    have hp := hi.2
    rcases hwaits wr.handler x hx with hw | hw | hw
    · simp [Handler.writing, hw] at hp
    · unfold Handler.invoking at hw
      split at hw
      · rename_i hph
        simp [Handler.writing, hph] at hp
      · cases hw
    · exact Or.inl hw

/-- What an event of the socket's handlers does for their requests: the next request is invoked
when its turn comes, and the end of its method is answered at once, by one response. -/
inductive Serves (w : World) (k : SocketId) (s' : ServerSocket) : Event → Prop
  | received {chunk : Buffer} {now : ℚ} {messages : List JsValue} {x' : Handler}
      (pushed : ((w.conns k).codec.push chunk).1 = .ok messages)
      (handlers : s'.handlers = (w.conns k).handlers ++ [x']) (decoded : x'.messages = messages)
      (stops : x'.Stops w k now 0) (goes : x'.phase = .done ∨ x'.invoking = true) :
      Serves w k s' (.data k chunk now)
  | responded {n : ℕ} {returned : Except Thrown JsValue} {now startedAt : ℚ}
      {called : Except JsError Call} {x : Handler} {m : JsValue} {wr : Write}
      (handler : (w.conns k).handlers[n]? = some x) (invoking : x.phase = .invoking startedAt called)
      (message : x.messages[x.next]? = some m) (request : IsRequest m)
      (handlers : s'.handlers = (w.conns k).handlers.set n { x with phase := .responding false })
      (response : s'.Responds n x.next m wr)
      (cause : wr.cause = .response (MethodInvoker.outcome called returned))
      (ok : wr.message.prop "ok" = .boolean (MethodInvoker.outcome called returned).isOk) :
      Serves w k s' (.settle k n returned now)
  | wrote {n : ℕ} {now : ℚ} {x x' : Handler} (handler : (w.conns k).handlers[n]? = some x)
      (handlers : s'.handlers = (w.conns k).handlers.set n x')
      (messages : x'.messages = x.messages) (stops : x'.Stops w k now (x.next + 1))
      (goes : x'.phase = .done ∨ x'.invoking = true) : Serves w k s' (.wrote k n (.ok ()) now)

theorem Handler.Stops.goes {w : World} {k : SocketId} {now : ℚ} {x : Handler} {i : ℕ}
    (h : x.Stops w k now i) (hw : x.Waits) : x.phase = .done ∨ x.invoking = true := by
  cases h with
  | done phase => exact Or.inl phase
  | invokes _ _ _ phase => exact Or.inr (by simp only [Handler.invoking, phase])
  | refuses _ _ _ _ phase => exact absurd phase (hw.not_refusing _)
  | fails _ _ _ phase =>
    rcases hw with hw | hw | hw <;> simp [Handler.invoking, phase] at hw

theorem Handler.Waits.not_failed {x : Handler} (h : x.Waits) : x.phase ≠ .failed := by
  intro hp
  rcases h with hw | hw | hw <;> simp [Handler.invoking, hp] at hw

/-- A turn that leaves a sound socket serves its request. -/
theorem TurnsTo.serves {w : World} {k : SocketId} {s' : ServerSocket} {e : Event}
    (h : TurnsTo w k s' e) (hrec : (w.conns k).Recorded) (hs : (w.conns k).Sound none)
    (hrec' : s'.Recorded) (hs' : s'.Sound none) : Serves w k s' e := by
  have hserved := hrec'.served hs'
  cases h with
  | rejected thrown handlers =>
    have hwaits := hserved.waits _ _ (handlers ▸ List.getElem?_concat_length)
    exact absurd rfl hwaits.not_failed
  | @received _ _ _ x' pushed handlers decoded stops =>
    exact .received pushed handlers decoded stops
      (stops.goes (hserved.waits _ x' (handlers ▸ List.getElem?_concat_length)))
  | thrown handler _ _ _ handlers =>
    have hwaits := hserved.waits _ _ (handlers ▸ TurnsTo.getElem?_set_self_of_some handler)
    exact absurd rfl hwaits.not_failed
  | @responded n returned now startedAt called x m response payload handler invoking message
      encoded handlers written =>
    rw [hs.not_doomed] at handlers written
    obtain ⟨m', hm', hreq⟩ := (hrec.handler n x handler).suspended
      (Or.inl (by simp only [Handler.invoking, invoking]))
    obtain rfl := Option.some.inj (message.symm.trans hm')
    have hx' := handlers ▸ TurnsTo.getElem?_set_self_of_some
      (a := { x with phase := .responding false }) handler
    obtain ⟨wr, hwr⟩ := hserved.answered n _ x.next m hx' message hreq
      (Or.inr (Or.inr ⟨rfl, Or.inl rfl⟩))
    have hmem : (⟨n, x.next, response, payload, .response (MethodInvoker.outcome called returned)⟩ :
        Write) ∈ s'.written.filter fun u => u.handler = n ∧ u.index = x.next := by
      rw [List.mem_filter, written]
      exact ⟨List.mem_append_right _ List.mem_cons_self, by simp⟩
    rw [hwr.only] at hmem
    obtain rfl := List.mem_singleton.mp hmem
    obtain ⟨r, hr, -, -, b, -, hp⟩ := by
      simpa only [World.encodeResponse, Except.bind_eq_ok_iff] using encoded
    obtain ⟨rfl, -⟩ := Prod.mk.inj (Except.ok.inj hp)
    exact .responded handler invoking message hreq handlers hwr rfl
      (MethodInvoker.response_eq_ok hr).2.2
  | unwritten handler _ handlers =>
    have hwaits := hserved.waits _ _ (handlers ▸ TurnsTo.getElem?_set_self_of_some handler)
    exact absurd rfl hwaits.not_failed
  | @wrote n now x x' handler _ handlers messages stops =>
    exact .wrote handler handlers messages stops
      (stops.goes (hserved.waits n x' (handlers ▸ TurnsTo.getElem?_set_self_of_some handler)))

/-- A socket whose peer keeps it open and whose responses and pongs can be sent: whatever has been
answered has one response, and every event of its handlers is taken and serves the request that it
is for. -/
theorem every_request_served (serializer : Serializer) (k : SocketId) (w : World) (es : List Event)
    (hrun : (machine.guard fun w e => Peaceful k w e ∧ Sendable k w e).Run
      (World.init serializer) es w) (hk : k < w.nextSocket) :
    (w.conns k).Served ∧ ∀ e, e.turn = some k → Enabled w e → Peaceful k w e → Sendable k w e →
      ∃ w', machine.Step w e w' ∧ (w'.conns k).Served ∧ Serves w k (w'.conns k) e := by
  have hserving : w.Serving k := by
    refine hrun.invariant (I := fun v => v.Serving k) (fun _ _ _ hi hs => ?_)
      ⟨World.serversWf_init _, fun _ hs => (by cases hs), fun hk => absurd hk (Nat.not_lt_zero k)⟩
    obtain ⟨⟨hp, hf⟩, hstep⟩ := Machine.guard_step.mp hs
    exact hi.step hstep hp hf
  have hreach : Reachable w := ⟨serializer, es, hrun.unguard⟩
  have hrec := hreach.recorded k hk
  have hsound := (hserving.socket hk).2
  refine ⟨hrec.served hsound, fun e ht he hp hf => ?_⟩
  obtain ⟨w', hw', hsound'⟩ := hserving.turn hk ht hp hf
  have hstep : machine.Step w e w' := ⟨he, hw'⟩
  have hreach' : Reachable w' := by
    obtain ⟨serializer, hr⟩ := hreach
    exact ⟨serializer, hr.snoc hstep⟩
  have hk' : k < w'.nextSocket := by
    cases answer_of_step hstep with
    | turn _ _ hrun => exact hrun.same.nextSocket ▸ hk
    | _ => cases ht
  have hrec' := hreach'.recorded k hk'
  exact ⟨w', hstep, hrec'.served hsound',
    (turnsTo_of_step hstep ht hrec).serves hrec hsound hrec' hsound'⟩

/-- A ping and a request, and the method of the request returns. -/
def sampleServed : Option World :=
  (machine.guard fun w e => Peaceful 0 w e ∧ Sendable 0 w e).exec (World.init (.ofTable sampleTable))
    [.registerService "s" ⟨[("m", true)], []⟩, .listen sampleServerOptions, .listening 0,
      .connection 0, .data 0 (samplePacket samplePing ++ samplePacket sampleRequest) 5,
      .settle 0 0 (.ok (.number (.ofNat 7))) 6, .wrote 0 0 (.ok ()) 7]

theorem sampleServed_isSome : sampleServed.isSome := by decide +kernel

theorem every_request_served_sample :
    ((sampleServed.get sampleServed_isSome).conns 0).Served ∧
      ∀ e, e.turn = some 0 → Enabled (sampleServed.get sampleServed_isSome) e →
        Peaceful 0 (sampleServed.get sampleServed_isSome) e →
        Sendable 0 (sampleServed.get sampleServed_isSome) e →
        ∃ w', machine.Step (sampleServed.get sampleServed_isSome) e w' ∧ (w'.conns 0).Served ∧
          Serves (sampleServed.get sampleServed_isSome) 0 (w'.conns 0) e :=
  every_request_served _ 0 _ _ (Machine.run_exec_get sampleServed_isSome) (by decide +kernel)

/-- Of two requests in one chunk the first returns a value that JSON cannot express. -/
def sampleUnserved : Option World :=
  (machine.guard (Peaceful 0)).exec (World.init (.ofTable sampleTable))
    [.registerService "s" ⟨[("m", true)], []⟩, .listen sampleServerOptions, .listening 0,
      .connection 0, .data 0 (samplePacket sampleRequest ++ samplePacket sampleRequest) 5,
      .settle 0 0 (.ok (.foreign none)) 6]

theorem sampleUnserved_isSome : sampleUnserved.isSome := by decide +kernel

theorem unsendable_response_closes : ¬ ∀ serializer k w es,
    (machine.guard (Peaceful k)).Run (World.init serializer) es w → k < w.nextSocket →
      (w.conns k).Served := by
  intro h
  have halive := (h _ 0 _ _ (Machine.run_exec_get sampleUnserved_isSome) (by decide +kernel)).alive
  revert halive
  decide +kernel

end Server

end WeisleyRpc
