import WeisleyRpc.AttemptRuns

/-!
# What an attempt comes to

A settlement says why it was made, and what it was made with follows from that. So the outcome
of an attempt goes back to the encoder, to a refusal, to its `connect`, or to the send that its
own connection has accepted for it, and a value is the result of a response with the id of the
call.
-/

namespace WeisleyRpc.Client
namespace World

/-- The two errors with which `send` rejects at once. -/
def refusals : List JsError :=
  [rpcError "Connection is not open" "CONNECTION_NOT_OPEN",
    rpcError "Connection is not connected" "CONNECTION_NOT_CONNECTED"]

theorem refusal_mem {w : World} {e : JsError} (h : w.sendSocket = .error e) : e ∈ refusals := by
  unfold sendSocket at h
  cases hs : w.liveSocket with
  | none =>
    rw [hs] at h
    obtain rfl := Except.error.inj h
    exact List.mem_cons_self
  | some s =>
    simp only [hs] at h
    split_ifs at h
    obtain rfl := Except.error.inj h
    exact List.mem_cons_of_mem _ List.mem_cons_self

variable {o : RpcConnectionOptions} {v w w' : World} {x : Settlement}

/-- The call was settled without a response. -/
def Unanswered (o : RpcConnectionOptions) (x : Settlement) : Prop :=
  (x.cause = .timeout ∧ x.outcome = .error (rpcTimeoutError o.timeoutMs)) ∨
    (x.cause = .disconnect ∧ ∃ e, x.outcome = .error e)

/-- A decoded response made the settlement. -/
def Answered (w : World) (x : Settlement) : Prop :=
  ∃ s, ∃ m ∈ (w.sockets s).handled, SettledBy x m

theorem unanswered_of_mem_rejections {entries : List (String × PendingRequest)} {error : JsError}
    (h : x ∈ rejections entries error) : Unanswered o x := by
  obtain ⟨entry, -, rfl⟩ := List.mem_map.mp h
  exact Or.inr ⟨rfl, error, rfl⟩

theorem unanswered_handleUnexpectedDisconnect {error : JsError}
    (h : x ∈ (handleUnexpectedDisconnect o w error).settled) : x ∈ w.settled ∨ Unanswered o x := by
  rw [(handleUnexpectedDisconnect_tables o w error).2] at h
  exact (List.mem_append.mp h).imp_right unanswered_of_mem_rejections

theorem settled_runMicrotask (o : RpcConnectionOptions) (w : World) (now : ℚ) (task : Microtask) :
    (runMicrotask o w now task).settled = w.settled := by
  rcases runMicrotask_tables o w now task with hs | ⟨v, hv, hs⟩ | ⟨v, hv, he⟩
  · exact hs.settled
  · rw [hs.settled, ← hv.settled]
    rcases startHeartbeat_cases o v now with he | he <;> rw [he]
    rfl
  · rw [he, ← hv.settled]
    rcases scheduleReconnect_cases o v with ⟨he, -⟩ | ⟨-, -, he⟩ <;> rw [he]
    rfl

theorem unanswered_runTimer {t : TimerId} {now : ℚ} {uuid : String} {task : TimerTask}
    (hr : runTimer o w t now uuid task = .ok w') (h : x ∈ w'.settled) :
    x ∈ w.settled ∨ Unanswered o x := by
  rcases runTimer_cases hr with ⟨id, call, rfl, rfl⟩ | ⟨delay, rfl, hw⟩ | ⟨s, rfl, hb⟩
  · refine (List.mem_append.mp h).imp_right fun hx => ?_
    obtain rfl := List.mem_singleton.mp hx
    exact Or.inl ⟨rfl, rfl⟩
  · rcases hw with ⟨-, rfl⟩ | ⟨-, rfl⟩
    · exact Or.inl h
    · rw [(sameTables_connect _ _).settled] at h
      exact Or.inl h
  · rcases heartbeatTick_cases hb with ⟨-, rfl⟩ | ⟨s, -, ⟨-, error, rfl⟩ | ⟨-, packet, -, rfl⟩⟩
    · rw [stopHeartbeat_eq] at h
      exact Or.inl h
    · exact unanswered_handleUnexpectedDisconnect h
    · rw [(sameTables_write w s packet).settled] at h
      exact Or.inl h

/-- Each settlement of a step is there before it, unanswered, or made by a response. -/
theorem settled_of_step {e : Event} (hs : (machine o).Step w e w') (h : x ∈ w'.settled) :
    x ∈ w.settled ∨ Unanswered o x ∨ w'.Answered x := by
  cases answer_of_step hs with
  | connect n =>
    rw [(sameTables_connect w _).settled] at h
    exact Or.inl h
  | close =>
    rw [(close_tables w).2] at h
    exact (List.mem_append.mp h).imp_right fun hx => Or.inl (unanswered_of_mem_rejections hx)
  | send id payload =>
    refine Or.inl ?_
    rcases send_cases w id payload with ⟨e, he⟩ | ⟨s, -, -, he⟩ <;> rw [he] at h
    · exact h
    · have hwrite := sameTables_write (w.setTimer (.callTimeout id w.nextCall)) s payload
      change x ∈ ((w.setTimer (.callTimeout id w.nextCall)).write s payload).settled at h
      rwa [hwrite.settled] at h
  | timer _ _ hr => exact (unanswered_runTimer hr h).imp_right Or.inl
  | socketConnect =>
    rw [(sameTables_resumeAttempt _ _ _).settled] at h
    exact Or.inl h
  | socketError error =>
    rw [(sameTables_resumeAttempt _ _ _).settled] at h
    exact (unanswered_handleUnexpectedDisconnect h).imp_right Or.inl
  | socketDestroyed => exact Or.inl h
  | socketClose => exact (unanswered_handleUnexpectedDisconnect h).imp_right Or.inl
  | @socketData s chunk now _ _ _ _ hd =>
    obtain ⟨messages, -, hf⟩ := handleData_eq_ok hd
    refine ((handleMessages_calls hf).2.2 x h).imp_right fun hm => Or.inr ?_
    obtain ⟨m, hm, hx⟩ := hm
    exact ⟨s, m, handled_handleMessages hf ▸ List.mem_append_right _ hm, hx⟩
  | microtask =>
    rw [settled_runMicrotask] at h
    exact Or.inl h

theorem handled_of_step {e : Event} {s : SocketId} (hs : (machine o).Step w e w')
    (hfresh : w.nextSocket ≤ s → (w.sockets s).handled = []) {m : JsValue}
    (hm : m ∈ (w.sockets s).handled) : m ∈ (w'.sockets s).handled := by
  change m ∈ (w'.stream s).handled
  rcases step_stream hs s with ⟨-, he | ⟨hle, -⟩ | ⟨payload, -, he⟩⟩ | ⟨_, _, messages, -, he⟩
  · rw [he]
    exact hm
  · rw [hfresh hle] at hm
    cases hm
  · rw [he]
    exact hm
  · rw [he]
    exact List.mem_append_left _ hm

/-- What the settlements of a connection say about themselves. -/
structure Explained (o : RpcConnectionOptions) (w : World) : Prop where
  fresh : ∀ s, w.nextSocket ≤ s → (w.sockets s).handled = []
  settled : ∀ x ∈ w.settled, Unanswered o x ∨ w.Answered x

theorem explained_init (o : RpcConnectionOptions) (codec : RpcCodec) :
    Explained o (World.init codec) := by
  refine ⟨fun _ _ => rfl, fun x hx => ?_⟩
  cases hx

theorem Explained.step {e : Event} (h : Explained o w) (hs : (machine o).Step w e w') :
    Explained o w' := by
  refine ⟨fun s hle => ?_, fun x hx => ?_⟩
  · have hold := h.fresh s (Nat.le_trans (step_nextSocket hs) hle)
    change (w'.stream s).handled = []
    rcases step_stream hs s with ⟨-, he | ⟨-, he⟩ | ⟨payload, -, he⟩⟩ | ⟨chunk, now, _, rfl, -⟩
    · rw [he]
      exact hold
    · rw [he]
    · rw [he]
      exact hold
    · have hlt : s < w.nextSocket := hs.1.1
      exact absurd (Nat.le_trans (step_nextSocket hs) hle) (Nat.not_le.mpr hlt)
  · rcases settled_of_step hs hx with hx | hx
    · refine (h.settled x hx).imp_right ?_
      rintro ⟨s, m, hm, hx⟩
      exact ⟨s, m, handled_of_step hs (h.fresh s) hm, hx⟩
    · exact hx

/-- A value is the `result` of the response that brought it. -/
theorem result_of_responseOutcome {m value : JsValue}
    (h : responseOutcome m = .ok (.ok value)) :
    (m.prop "ok").truthy = true ∧ value = m.prop "result" := by
  unfold responseOutcome at h
  split_ifs at h with hok
  · exact ⟨hok, (Except.ok.inj (Except.ok.inj h)).symm⟩
  · cases hr : responseError m with
    | error e => simp [hr, Except.map] at h
    | ok e => simp [hr, Except.map] at h

end World

/-- One while the attempt awaits `connect`, else zero. -/
def CallAttempt.awaiting (attempt : CallAttempt) : ℕ :=
  match attempt.phase with
  | .connecting _ _ => 1
  | .sending _ _ | .unconnected _ | .ended _ => 0

theorem CallAttempt.awaiting_le_one (attempt : CallAttempt) : attempt.awaiting ≤ 1 := by
  cases hphase : attempt.phase <;> simp [CallAttempt.awaiting, hphase]

namespace ClientNetwork
variable {o : CommonRpcClientOptions} {codec : RpcCodec} {u v w w' : ClientNetwork}

/-- A connection has accepted the request as its call. -/
def Sent (w : ClientNetwork) (request : RpcRequest) (c : ConnectionId) (call : CallId) : Prop :=
  ∃ s, ⟨request, c, s, call⟩ ∈ w.transmissions

/-- The call has begun more attempts than it has sent. -/
def Spare (w : ClientNetwork) (id : String) : Prop :=
  w.transmissions.countP (fun x => x.request.id = id) + 1 ≤
    w.begun.countP fun a => a.request.id = id

/-- The attempt is the last that its call has begun, on a connection whose `connect` got the
number. -/
def Latest (w : ClientNetwork) (attempt : CallAttempt) (c : ConnectionId) (n : ℕ) : Prop :=
  (w.begunOf attempt.request.id).getLast? = some { attempt with phase := .connecting c n }

/-- Where the outcome of an attempt comes from. -/
inductive EndsAs (codec : RpcCodec) (w : ClientNetwork) (attempt : CallAttempt) :
    Except JsError JsValue → Prop
  | unencoded {e : JsError} (threw : codec.encode attempt.request.toValue = .error e)
      (spare : w.Spare attempt.request.id) : EndsAs codec w attempt (.error e)
  | refused {c : ConnectionId} {e : JsError}
      (endpoint : c.endpoint = getEndpointKey attempt.host attempt.port)
      (refusal : e ∈ World.refusals)
      (recorded : (attempt.request.id, e) ∈ (w.connections c).refused)
      (spare : w.Spare attempt.request.id) : EndsAs codec w attempt (.error e)
  | unreached {c : ConnectionId} {n : ℕ} {e : JsError}
      (endpoint : c.endpoint = getEndpointKey attempt.host attempt.port)
      (own : w.Latest attempt c n) (told : (n, .error e) ∈ (w.connections c).connects)
      (spare : w.Spare attempt.request.id) : EndsAs codec w attempt (.error e)
  | settled {c : ConnectionId} {x : Settlement}
      (endpoint : c.endpoint = getEndpointKey attempt.host attempt.port)
      (sent : w.Sent attempt.request c x.call) (settlement : x ∈ (w.connections c).settled) :
      EndsAs codec w attempt x.outcome

/-- What is recorded of an attempt in its phase. -/
def Located (codec : RpcCodec) (w : ClientNetwork) (attempt : CallAttempt) : Prop :=
  match attempt.phase with
  | .connecting c n => c.endpoint = getEndpointKey attempt.host attempt.port ∧
      w.Latest attempt c n
  | .sending c call => c.endpoint = getEndpointKey attempt.host attempt.port ∧
      w.Sent attempt.request c call
  | .unconnected _ => w.Spare attempt.request.id
  | .ended outcome => EndsAs codec w attempt outcome

def awaiting (w : ClientNetwork) (id : String) : ℕ :=
  match w.attempts.get id with
  | some attempt => attempt.awaiting
  | none => 0

theorem awaiting_put (w : ClientNetwork) (attempt : CallAttempt) (id : String) :
    (w.put attempt.request.id attempt).awaiting id =
      if id = attempt.request.id then attempt.awaiting else w.awaiting id := by
  unfold awaiting ClientNetwork.put
  simp only [OrderedMap.get_set]
  split_ifs <;> rfl

/-- Some attempt has been begun for the request and the address. -/
def Began (w : ClientNetwork) (request : RpcRequest) (host : String) (port : ℕ) : Prop :=
  ∃ a ∈ w.begun, a.request = request ∧ a.host = host ∧ a.port = port

/-- Transmissions and accepted sends are the same, each belongs to an attempt that was begun
for its address, and no attempt has more than one. -/
structure Records (codec : RpcCodec) (w : ClientNetwork) : Prop where
  named : ∀ id attempt, w.attempts.get id = some attempt → attempt.request.id = id
  located : ∀ id attempt, w.attempts.get id = some attempt → w.Located codec attempt
  began : ∀ id attempt, w.attempts.get id = some attempt →
    w.Began attempt.request attempt.host attempt.port
  accepted : ∀ c, (w.transmissions.filter fun x => x.connection = c).map Transmission.accepted =
    (w.connections c).accepted
  sent : ∀ x ∈ w.transmissions, ∃ host port, w.Began x.request host port ∧
    x.connection.endpoint = getEndpointKey host port
  counted : ∀ id, w.transmissions.countP (fun x => x.request.id = id) + w.awaiting id ≤
    w.begun.countP fun a => a.request.id = id

theorem records_init (codec : RpcCodec) : Records codec (init codec) where
  named _ _ h := by cases h
  located _ _ h := by cases h
  began _ _ h := by cases h
  accepted _ := rfl
  sent _ h := by cases h
  counted _ := Nat.le_refl 0

theorem Sent.mono {request : RpcRequest} {c : ConnectionId} {call : CallId}
    (h : w.Sent request c call) (ht : w.transmissions ⊆ u.transmissions) :
    u.Sent request c call := by
  obtain ⟨s, hs⟩ := h
  exact ⟨s, ht hs⟩

theorem countP_begun_eq (w : ClientNetwork) (id : String) :
    (w.begun.countP fun a => a.request.id = id) = (w.begunOf id).length :=
  List.countP_eq_length_filter

theorem Spare.mono {id : String} (h : w.Spare id)
    (ht : u.transmissions.countP (fun x => x.request.id = id) =
      w.transmissions.countP fun x => x.request.id = id)
    (hb : u.begunOf id = w.begunOf id) : u.Spare id := by
  unfold Spare at h ⊢
  rwa [ht, countP_begun_eq, hb, ← countP_begun_eq]

theorem Latest.mono {attempt : CallAttempt} {c : ConnectionId} {n : ℕ} (h : w.Latest attempt c n)
    (hb : u.begunOf attempt.request.id = w.begunOf attempt.request.id) :
    u.Latest attempt c n := by
  unfold Latest at h ⊢
  rwa [hb]

/-- For the call nothing was begun and nothing was sent, whatever the connections did. -/
structure Idles (w u : ClientNetwork) (id : String) : Prop where
  transmissions : w.transmissions ⊆ u.transmissions
  connections : ∀ c, World.Extends (w.connections c) (u.connections c)
  sent : u.transmissions.countP (fun x => x.request.id = id) =
    w.transmissions.countP fun x => x.request.id = id
  begun : u.begunOf id = w.begunOf id

theorem EndsAs.mono {attempt : CallAttempt} {outcome : Except JsError JsValue}
    (h : EndsAs codec w attempt outcome) (hidles : w.Idles u attempt.request.id) :
    EndsAs codec u attempt outcome := by
  cases h with
  | unencoded threw spare => exact .unencoded threw (spare.mono hidles.sent hidles.begun)
  | @refused c e endpoint refusal recorded spare =>
    exact .refused endpoint refusal ((hidles.connections c).refused.subset recorded)
      (spare.mono hidles.sent hidles.begun)
  | @unreached c n e endpoint own told spare =>
    exact .unreached endpoint (own.mono hidles.begun)
      ((hidles.connections c).connects.subset told) (spare.mono hidles.sent hidles.begun)
  | @settled c x endpoint sent settlement =>
    exact .settled endpoint (sent.mono hidles.transmissions)
      ((hidles.connections c).settled.subset settlement)

theorem Located.mono {attempt : CallAttempt} (h : w.Located codec attempt)
    (hidles : w.Idles u attempt.request.id) : u.Located codec attempt := by
  unfold Located at h ⊢
  split at h
  · exact ⟨h.1, h.2.mono hidles.begun⟩
  · exact ⟨h.1, h.2.mono hidles.transmissions⟩
  · exact h.mono hidles.sent hidles.begun
  · exact h.mono hidles

theorem Began.mono {request : RpcRequest} {host : String} {port : ℕ}
    (h : w.Began request host port) (hb : w.begun ⊆ u.begun) : u.Began request host port := by
  obtain ⟨a, ha, hrest⟩ := h
  exact ⟨a, hb ha, hrest⟩

namespace Records

/-- The connections go on while nothing is sent and no attempt changes. -/
theorem move (h : Records codec w) (hattempts : u.attempts = w.attempts)
    (hbegun : u.begun = w.begun) (htransmissions : u.transmissions = w.transmissions)
    (he : ∀ c, World.Extends (w.connections c) (u.connections c))
    (ha : ∀ c, (u.connections c).accepted = (w.connections c).accepted) : Records codec u := by
  have hbegan : ∀ request host port, w.Began request host port → u.Began request host port :=
    fun _ _ _ hb => hb.mono (hbegun ▸ List.Subset.refl _)
  refine ⟨hattempts ▸ h.named, fun id attempt hget => ?_, fun id attempt hget => ?_, fun c => ?_,
    fun x hx => ?_, fun id => ?_⟩
  · rw [hattempts] at hget
    exact (h.located id attempt hget).mono ⟨htransmissions ▸ List.Subset.refl _, he,
      by rw [htransmissions], by simp only [begunOf, hbegun]⟩
  · rw [hattempts] at hget
    exact hbegan _ _ _ (h.began id attempt hget)
  · rw [htransmissions, ha]
    exact h.accepted c
  · rw [htransmissions] at hx
    obtain ⟨host, port, hb, hendpoint⟩ := h.sent x hx
    exact ⟨host, port, hbegan _ _ _ hb, hendpoint⟩
  · have hawaiting : u.awaiting id = w.awaiting id := by
      unfold awaiting
      rw [hattempts]
    rw [htransmissions, hbegun, hawaiting]
    exact h.counted id

/-- The attempt of a call goes into another phase, and may have sent. -/
theorem change (h : Records codec w) (attempt : CallAttempt) (sent : List Transmission)
    (hattempts : ∀ id, u.attempts.get id =
      if id = attempt.request.id then some attempt else w.attempts.get id)
    (hbegun : u.begun = w.begun) (htransmissions : u.transmissions = w.transmissions ++ sent)
    (he : ∀ c, World.Extends (w.connections c) (u.connections c))
    (haccepted : ∀ c, (u.transmissions.filter fun x => x.connection = c).map
      Transmission.accepted = (u.connections c).accepted)
    (hlocated : u.Located codec attempt)
    (hbegan : w.Began attempt.request attempt.host attempt.port)
    (hsent : ∀ x ∈ sent, x.request = attempt.request ∧
      x.connection.endpoint = getEndpointKey attempt.host attempt.port)
    (hcounted : u.transmissions.countP (fun x => x.request.id = attempt.request.id) +
      attempt.awaiting ≤ w.begun.countP fun a => a.request.id = attempt.request.id) : Records codec u := by
  have hkept : ∀ request host port, w.Began request host port → u.Began request host port :=
    fun _ _ _ hb => hb.mono (hbegun ▸ List.Subset.refl _)
  have hsubset : w.transmissions ⊆ u.transmissions := by
    rw [htransmissions]
    exact List.subset_append_left _ _
  have hcases : ∀ id attempt', u.attempts.get id = some attempt' →
      id = attempt.request.id ∧ attempt' = attempt ∨
        id ≠ attempt.request.id ∧ w.attempts.get id = some attempt' := by
    intro id attempt' hget
    rw [hattempts] at hget
    split_ifs at hget with hid
    · exact Or.inl ⟨hid, (Option.some.inj hget).symm⟩
    · exact Or.inr ⟨hid, hget⟩
  have hnone : ∀ id, id ≠ attempt.request.id →
      sent.countP (fun x => x.request.id = id) = 0 := by
    intro id hid
    refine List.countP_eq_zero.mpr fun x hx hx' => hid ?_
    rw [← of_decide_eq_true hx', (hsent x hx).1]
  refine ⟨fun id attempt' hget => ?_, fun id attempt' hget => ?_, fun id attempt' hget => ?_,
    haccepted, fun x hx => ?_, fun id => ?_⟩
  · rcases hcases id attempt' hget with ⟨rfl, rfl⟩ | ⟨-, hget⟩
    · rfl
    · exact h.named id attempt' hget
  · rcases hcases id attempt' hget with ⟨-, rfl⟩ | ⟨hid, hget⟩
    · exact hlocated
    · refine (h.located id attempt' hget).mono ⟨hsubset, he, ?_, by simp only [begunOf, hbegun]⟩
      rw [htransmissions, List.countP_append, hnone _ (h.named id attempt' hget ▸ hid), Nat.add_zero]
  · rcases hcases id attempt' hget with ⟨-, rfl⟩ | ⟨-, hget⟩
    · exact hkept _ _ _ hbegan
    · exact hkept _ _ _ (h.began id attempt' hget)
  · rw [htransmissions] at hx
    rcases List.mem_append.mp hx with hx | hx
    · obtain ⟨host, port, hb, hendpoint⟩ := h.sent x hx
      exact ⟨host, port, hkept _ _ _ hb, hendpoint⟩
    · obtain ⟨hrequest, hendpoint⟩ := hsent x hx
      exact ⟨attempt.host, attempt.port, hrequest ▸ hkept _ _ _ hbegan, hendpoint⟩
  · rw [hbegun]
    by_cases hid : id = attempt.request.id
    · have hawaiting : u.awaiting id = attempt.awaiting := by
        simp only [awaiting, hattempts, if_pos hid]
      rw [hawaiting, hid]
      exact hcounted
    · have hawaiting : u.awaiting id = w.awaiting id := by
        simp only [awaiting, hattempts, if_neg hid]
      rw [hawaiting, htransmissions, List.countP_append, hnone id hid]
      exact h.counted id

theorem put (h : Records codec w) (attempt : CallAttempt) (hlocated : w.Located codec attempt)
    (hbegan : w.Began attempt.request attempt.host attempt.port)
    (hcounted : w.transmissions.countP (fun x => x.request.id = attempt.request.id) +
      attempt.awaiting ≤ w.begun.countP fun a => a.request.id = attempt.request.id) :
    Records codec (w.put attempt.request.id attempt) := by
  refine h.change attempt [] (fun id => w.attempts.get_set _ id attempt) rfl
    (List.append_nil _).symm (fun c => .refl _) h.accepted ?_ hbegan (fun x hx => by cases hx)
    hcounted
  exact hlocated.mono ⟨List.Subset.refl _, fun c => .refl _, rfl, rfl⟩

end Records

theorem extends_updateConnection {c : ConnectionId} {f : World → World}
    (hf : World.Extends (w.connections c) (f (w.connections c))) (c' : ConnectionId) :
    World.Extends (w.connections c') ((w.updateConnection c f).connections c') := by
  rw [connections_updateConnection]
  split_ifs with hc
  · rw [hc]
    exact hf
  · exact .refl _

theorem accepted_updateConnection {c : ConnectionId} {f : World → World}
    (hf : (f (w.connections c)).accepted = (w.connections c).accepted) (c' : ConnectionId) :
    ((w.updateConnection c f).connections c').accepted = (w.connections c').accepted := by
  rw [connections_updateConnection]
  split_ifs with hc
  · rw [hc, hf]
  · rfl

namespace Records

theorem updateConnection (h : Records codec w) {c : ConnectionId} {f : World → World}
    (hf : World.Extends (w.connections c) (f (w.connections c)))
    (ha : (f (w.connections c)).accepted = (w.connections c).accepted) :
    Records codec (w.updateConnection c f) :=
  h.move rfl rfl rfl (extends_updateConnection hf) (accepted_updateConnection ha)

theorem startConnect (h : Records codec w) (c : ConnectionId) :
    Records codec (w.startConnect c) := by
  have hupdated := h.updateConnection (f := fun v => v.connect (.user w.nextConnect))
    (World.Extends.connect (w.connections c) _) (World.sameTables_connect _ _).accepted
  exact hupdated.move rfl rfl rfl (fun c => .refl _) fun _ => rfl

/-- A turn that ends with `send` uses up an attempt that has not sent. -/
theorem sendTurn {attempt : CallAttempt} {c : ConnectionId} {n : ℕ}
    (h : Records codec (w.put attempt.request.id attempt))
    (hphase : attempt.phase = .connecting c n) (turn : SendTurn codec w attempt c u) :
    Records codec u := by
  have hget : (w.put attempt.request.id attempt).attempts.get attempt.request.id =
      some attempt := by
    change (w.attempts.set _ _).get _ = _
    rw [OrderedMap.get_set, if_pos rfl]
  have hset : ∀ after id, (w.attempts.set attempt.request.id after).get id =
      if id = attempt.request.id then some after
      else (w.put attempt.request.id attempt).attempts.get id := by
    intro after id
    change _ = if id = _ then _ else (w.attempts.set _ _).get id
    simp only [OrderedMap.get_set]
    split_ifs <;> rfl
  have hlocated := h.located _ attempt hget
  have hbegan := h.began _ attempt hget
  have hcounted := h.counted attempt.request.id
  simp only [Located, hphase] at hlocated
  simp only [awaiting, hget, CallAttempt.awaiting, hphase] at hcounted
  have hroom := Nat.le_trans (Nat.le_add_right _ 1) hcounted
  cases turn with
  | @unencoded e threw =>
    exact h.change { attempt with phase := .ended (.error e) } [] (hset _) rfl
      (List.append_nil _).symm (fun c => .refl _) h.accepted (.unencoded threw hcounted) hbegan
      (fun x hx => by cases hx) hroom
  | @refused payload e encoded refusal =>
    have hsend := World.send_of_refusal refusal attempt.request.id payload
    have hupdated := h.updateConnection (f := fun v => v.send attempt.request.id payload)
      (World.Extends.send (w.connections c) _ _) (by
        change ((w.connections c).send _ _).accepted = _
        rw [hsend]
        rfl)
    refine hupdated.change { attempt with phase := .ended (.error e) } [] (hset _) rfl
      (List.append_nil _).symm (fun c => .refl _) hupdated.accepted
      (.refused hlocated.1 (World.refusal_mem refusal) ?_ hcounted) hbegan
      (fun x hx => by cases hx) hroom
    change _ ∈ ((w.updateConnection c fun v => v.send attempt.request.id payload).connections
      c).refused
    rw [connections_updateConnection, if_pos rfl, hsend]
    exact List.mem_append_right _ List.mem_cons_self
  | @accepted payload s encoded accepts =>
    obtain ⟨-, -, hsent⟩ := World.send_of_socket accepts attempt.request.id payload
    refine h.change { attempt with phase := .sending c (w.connections c).nextCall }
      [⟨attempt.request, c, s, (w.connections c).nextCall⟩] (hset _) rfl rfl
      (extends_updateConnection (w := w) (f := fun v => v.send attempt.request.id payload)
        (World.Extends.send (w.connections c) _ _)) (fun c' => ?_)
      ⟨hlocated.1, s, List.mem_append_right _ List.mem_cons_self⟩ hbegan (fun x hx => ?_) ?_
    · have hold : (w.transmissions.filter fun x => x.connection = c').map Transmission.accepted =
          (w.connections c').accepted := h.accepted c'
      change List.map _ (List.filter _ (w.transmissions ++ _)) =
        ((w.updateConnection c fun v => v.send attempt.request.id payload).connections c').accepted
      rw [List.filter_append, List.map_append, connections_updateConnection]
      by_cases hc : c' = c
      · rw [if_pos hc, hsent, ← hc]
        simpa [World.sent, Transmission.accepted, hc] using hold
      · simpa [hc, Ne.symm hc] using hold
    · obtain rfl := List.mem_singleton.mp hx
      exact ⟨rfl, hlocated.1⟩
    · change List.countP _ (w.transmissions ++ [_]) + 0 ≤ List.countP _ w.begun
      rw [List.countP_append, List.countP_singleton, if_pos (decide_eq_true rfl)]
      exact hcounted

end Records

theorem mem_of_told {c : ConnectionId} {n : ℕ} {result : Result}
    (h : w.told c n = some result) : (n, result) ∈ (w.connections c).connects := by
  obtain ⟨l, l', hl, -⟩ := List.lookup_eq_some_iff.mp h
  rw [hl]
  exact List.mem_append_right l List.mem_cons_self

theorem Began.of_mem {a : CallAttempt} (h : a ∈ w.begun) : w.Began a.request a.host a.port :=
  ⟨a, h, rfl, rfl, rfl⟩

theorem begunOf_begunWith (w : ClientNetwork) (attempt : CallAttempt) (id : String) :
    (w.begunWith attempt).begunOf id =
      w.begunOf id ++ if attempt.request.id = id then [attempt] else [] := by
  simp only [begunOf, ClientNetwork.begunWith, List.filter_append, List.filter_cons,
    List.filter_nil, decide_eq_true_eq]

theorem latest_begunWith (w : ClientNetwork) {attempt : CallAttempt} {c : ConnectionId} {n : ℕ}
    (hphase : attempt.phase = .connecting c n) : (w.begunWith attempt).Latest attempt c n := by
  unfold Latest
  rw [begunOf_begunWith, if_pos rfl, List.getLast?_append, ← hphase]
  rfl

/-- A further attempt leaves room for one transmission. -/
theorem Records.spare_begunWith (h : Records codec w) (attempt : CallAttempt) :
    (w.begunWith attempt).Spare attempt.request.id := by
  have hcounted := h.counted attempt.request.id
  unfold Spare
  rw [countP_begun_eq] at hcounted ⊢
  rw [begunOf_begunWith, if_pos rfl, List.length_append, List.length_singleton]
  exact Nat.add_le_add_right (Nat.le_trans (Nat.le_add_right _ _) hcounted) 1

theorem Records.begunWith (h : Records codec w) (attempt : CallAttempt)
    (hlocated : (w.begunWith attempt).Located codec attempt) :
    Records codec ((w.begunWith attempt).put attempt.request.id attempt) := by
  have hsubset : w.begun ⊆ (w.begunWith attempt).begun := List.subset_append_left _ _
  have hspare := h.spare_begunWith attempt
  have hcases : ∀ id a, ((w.begunWith attempt).put attempt.request.id attempt).attempts.get id =
      some a → id = attempt.request.id ∧ a = attempt ∨
        id ≠ attempt.request.id ∧ w.attempts.get id = some a := by
    intro id a hget
    change (w.attempts.set _ _).get id = _ at hget
    rw [OrderedMap.get_set] at hget
    split_ifs at hget with hid
    · exact Or.inl ⟨hid, (Option.some.inj hget).symm⟩
    · exact Or.inr ⟨hid, hget⟩
  refine ⟨fun id a hget => ?_, fun id a hget => ?_, fun id a hget => ?_, h.accepted,
    fun x hx => ?_, fun id => ?_⟩
  · rcases hcases id a hget with ⟨rfl, rfl⟩ | ⟨-, hget⟩
    · rfl
    · exact h.named id a hget
  · rcases hcases id a hget with ⟨-, rfl⟩ | ⟨hid, hget⟩
    · exact hlocated.mono ⟨List.Subset.refl _, fun c => .refl _, rfl, rfl⟩
    · have hother : attempt.request.id ≠ a.request.id := by
        rw [h.named id a hget]
        exact Ne.symm hid
      refine (h.located id a hget).mono ⟨List.Subset.refl _, fun c => .refl _, rfl, ?_⟩
      change (w.begunWith attempt).begunOf _ = _
      rw [begunOf_begunWith, if_neg hother, List.append_nil]
  · rcases hcases id a hget with ⟨-, rfl⟩ | ⟨-, hget⟩
    · exact .of_mem (List.mem_append_right _ List.mem_cons_self)
    · exact (h.began id a hget).mono hsubset
  · obtain ⟨host, port, hb, hendpoint⟩ := h.sent x hx
    exact ⟨host, port, hb.mono hsubset, hendpoint⟩
  · change w.transmissions.countP _ + _ ≤ (w.begunWith attempt).begun.countP _
    rw [awaiting_put]
    split_ifs with hid
    · subst hid
      exact Nat.le_trans (Nat.add_le_add_left attempt.awaiting_le_one _) hspare
    · have hcounted := h.counted id
      rw [countP_begun_eq] at hcounted ⊢
      rw [begunOf_begunWith, if_neg (Ne.symm hid), List.append_nil]
      exact hcounted

theorem Records.pooled (h : Records codec w) (hp : Pooled w v) : Records codec v :=
  h.move hp.attempts hp.begun hp.transmissions (fun _ => hp.connections ▸ .refl _)
    fun _ => hp.connections ▸ rfl

theorem Records.step {e : NetworkEvent} (h : Records codec w) (hw : NetworkWf o codec w)
    (hs : (machine o codec).Step w e w') : Records codec w' := by
  cases networkStep_of_step hs with
  | @unconnected request host port v e idle pooled threw =>
    have hv := h.pooled pooled
    exact hv.begunWith ⟨request, host, port, .unconnected e⟩ (hv.spare_begunWith _)
  | @connecting request host port v c idle pooled endpoint inUse =>
    have hv := (h.pooled pooled).begunWith ⟨request, host, port, .connecting c v.nextConnect⟩
      ⟨endpoint, v.latest_begunWith rfl⟩
    exact hv.startConnect c
  | @sending request host port v u c idle pooled endpoint inUse turn =>
    have hv := (h.pooled pooled).begunWith ⟨request, host, port, .connecting c v.nextConnect⟩
      ⟨endpoint, v.latest_begunWith rfl⟩
    exact hv.sendTurn rfl turn
  | @unreached id attempt c n e current phase told =>
    have hid := hw.named id attempt current
    subst hid
    have hlocated := h.located _ attempt current
    have hcounted := h.counted attempt.request.id
    simp only [Located, phase] at hlocated
    simp only [awaiting, current, CallAttempt.awaiting, phase] at hcounted
    exact h.put { attempt with phase := .ended (.error e) }
      (.unreached hlocated.1 hlocated.2 (mem_of_told told) hcounted) (h.began _ attempt current)
      (Nat.le_trans (Nat.le_add_right _ 1) hcounted)
  | @connected id attempt c n u current phase told turn =>
    have hid := hw.named id attempt current
    subst hid
    have hcounted := h.counted attempt.request.id
    simp only [awaiting, current] at hcounted
    exact (h.put attempt (h.located _ attempt current) (h.began _ attempt current)
      hcounted).sendTurn phase turn
  | @answered id attempt c call x current phase settled =>
    have hid := hw.named id attempt current
    subst hid
    have hlocated := h.located _ attempt current
    have hcounted := h.counted attempt.request.id
    simp only [Located, phase] at hlocated
    obtain ⟨hmem, rfl⟩ := settlement_eq_some settled
    refine h.put { attempt with phase := .ended x.outcome }
      (.settled hlocated.1 hlocated.2 hmem) (h.began _ attempt current) ?_
    exact Nat.le_trans (Nat.le_add_right _ _) hcounted
  | @connection c e k inUse external step =>
    refine h.updateConnection (World.Extends.step step) (World.accepted_of_step step ?_)
    rintro id payload rfl
    cases external
  | unpooled pooled => exact h.pooled pooled
  | connect pooled inUse => exact (h.pooled pooled).startConnect _
  | close =>
    refine h.move rfl rfl rfl (fun c => ?_) fun c => ?_
    · simp only [ClientNetwork.close]
      split_ifs
      · exact .close _
      · exact .refl _
    · simp only [ClientNetwork.close]
      split_ifs
      · exact (World.keepsCalls_close _).accepted
      · rfl

theorem Records.of_reachable (h : (machine o codec).Reachable (init codec) w) :
    Records codec w := by
  refine (h.invariant (I := fun v => NetworkWf o codec v ∧ Records codec v) ?_
    ⟨networkWf_init o codec, records_init codec⟩).2
  intro v e v' hv hs
  exact ⟨hv.1.step hs, hv.2.step hv.1 hs⟩

/-- Why an attempt has ended with its outcome; `answered` alone brings a value. -/
inductive Because (o : CommonRpcClientOptions) (codec : RpcCodec) (w : ClientNetwork)
    (attempt : CallAttempt) : Except JsError JsValue → Prop
  | unencoded {e : JsError} (threw : codec.encode attempt.request.toValue = .error e)
      (spare : w.Spare attempt.request.id) : Because o codec w attempt (.error e)
  | refused {c : ConnectionId} {e : JsError}
      (endpoint : c.endpoint = getEndpointKey attempt.host attempt.port)
      (refusal : e ∈ World.refusals)
      (recorded : (attempt.request.id, e) ∈ (w.connections c).refused)
      (spare : w.Spare attempt.request.id) : Because o codec w attempt (.error e)
  | unreached {c : ConnectionId} {n : ℕ} {e : JsError}
      (endpoint : c.endpoint = getEndpointKey attempt.host attempt.port)
      (own : w.Latest attempt c n) (told : (n, .error e) ∈ (w.connections c).connects)
      (spare : w.Spare attempt.request.id) : Because o codec w attempt (.error e)
  | answered {c : ConnectionId} {x : Settlement} {s : SocketId} {m : JsValue}
      {outcome : Except JsError JsValue}
      (endpoint : c.endpoint = getEndpointKey attempt.host attempt.port)
      (sent : w.Sent attempt.request c x.call) (settlement : x ∈ (w.connections c).settled)
      (received : m ∈ ((w.connections c).sockets s).handled)
      (responds : Responds m attempt.request.id) (cause : x.cause = .response m)
      (response : World.responseOutcome m = .ok outcome) (brought : x.outcome = outcome) :
      Because o codec w attempt outcome
  | timedOut {c : ConnectionId} {x : Settlement}
      (endpoint : c.endpoint = getEndpointKey attempt.host attempt.port)
      (sent : w.Sent attempt.request c x.call) (settlement : x ∈ (w.connections c).settled)
      (cause : x.cause = .timeout)
      (brought : x.outcome = .error (rpcTimeoutError o.connectionOptions.timeoutMs)) :
      Because o codec w attempt (.error (rpcTimeoutError o.connectionOptions.timeoutMs))
  | disconnected {c : ConnectionId} {x : Settlement} {e : JsError}
      (endpoint : c.endpoint = getEndpointKey attempt.host attempt.port)
      (sent : w.Sent attempt.request c x.call) (settlement : x ∈ (w.connections c).settled)
      (cause : x.cause = .disconnect) (brought : x.outcome = .error e) :
      Because o codec w attempt (.error e)

theorem NetworkWf.explained (h : NetworkWf o codec w) (c : ConnectionId) :
    World.Explained o.connectionOptions (w.connections c) :=
  (h.fresh c).unguard.invariant (fun _ _ _ hi hs => hi.step hs) (World.explained_init _ codec)

/-- The accepted send with the number of a transmission is that of its call. -/
theorem Records.id_of_accepted (h : Records codec w) (hw : NetworkWf o codec w)
    {c : ConnectionId} {call : CallId} {request : RpcRequest} (hsent : w.Sent request c call)
    {a : AcceptedCall} (ha : a ∈ (w.connections c).accepted) (hcall : a.call = call) :
    a.id = request.id := by
  obtain ⟨s, hs⟩ := hsent
  have hmem : ⟨call, request.id, s⟩ ∈ (w.connections c).accepted := by
    rw [← h.accepted c]
    refine List.mem_map.mpr ⟨⟨request, c, s, call⟩, List.mem_filter.mpr ⟨hs, ?_⟩, rfl⟩
    exact decide_eq_true rfl
  rw [List.inj_on_of_nodup_map (hw.callsWf c).distinct ha hmem hcall]

theorem Records.because (h : Records codec w) (hw : NetworkWf o codec w) {id : String}
    {attempt : CallAttempt} {outcome : Except JsError JsValue}
    (hget : w.attempts.get id = some attempt) (hphase : attempt.phase = .ended outcome) :
    Because o codec w attempt outcome := by
  have hends := h.located id attempt hget
  simp only [Located, hphase] at hends
  cases hends with
  | unencoded threw spare => exact .unencoded threw spare
  | refused endpoint refusal recorded spare => exact .refused endpoint refusal recorded spare
  | unreached endpoint own told spare => exact .unreached endpoint own told spare
  | @settled c x endpoint sent settlement =>
    rcases (hw.explained c).settled x settlement with
      (⟨hcause, hout⟩ | ⟨hcause, e, hout⟩) | ⟨s, m, hm, hby⟩
    · rw [hout]
      exact .timedOut endpoint sent settlement hcause hout
    · rw [hout]
      exact .disconnected endpoint sent settlement hcause hout
    · obtain ⟨a, ha, hcall, hresponds⟩ := (hw.callsWf c).own x settlement
      have hid := h.id_of_accepted hw sent ha hcall
      exact .answered endpoint sent settlement hm (hid ▸ hresponds m hby.1) hby.1 hby.2 rfl

/-- An attempt that has ended has either not sent, or a connection has settled its send. -/
theorem Records.unsent_or_settled (h : Records codec w) {id : String} {attempt : CallAttempt}
    {outcome : Except JsError JsValue} (hget : w.attempts.get id = some attempt)
    (hphase : attempt.phase = .ended outcome) :
    (∃ e, outcome = .error e ∧ w.Spare id) ∨ ∃ c call, ∃ x ∈ (w.connections c).settled,
      w.Sent attempt.request c call ∧ x.call = call ∧ outcome = x.outcome := by
  have hends := h.located id attempt hget
  simp only [Located, hphase] at hends
  rw [← h.named id attempt hget]
  cases hends with
  | unencoded _ spare => exact Or.inl ⟨_, rfl, spare⟩
  | refused _ _ _ spare => exact Or.inl ⟨_, rfl, spare⟩
  | unreached _ _ _ spare => exact Or.inl ⟨_, rfl, spare⟩
  | settled _ sent settlement => exact Or.inr ⟨_, _, _, settlement, sent, rfl, rfl⟩

/-- An attempt that has ended has its outcome for a reason that the connections recorded. -/
theorem attempt_ends_because (h : (machine o codec).Reachable (init codec) w) {id : String}
    {attempt : CallAttempt} {outcome : Except JsError JsValue}
    (hget : w.attempts.get id = some attempt) (hphase : attempt.phase = .ended outcome) :
    Because o codec w attempt outcome :=
  (Records.of_reachable h).because (NetworkWf.of_reachable h) hget hphase

/-- The response arrives and ends the attempt. -/
def sampleEnded : Option ClientNetwork :=
  (machine sampleClientOptions sampleCodec).exec (init sampleCodec) (sampleConnected ++
    [.connection sampleConnection (.socketData 0 (samplePacket sampleResponse) 3), .resume "1"])

theorem sampleEnded_isSome : sampleEnded.isSome := by decide +kernel

def sampleAttempt : CallAttempt :=
  ⟨⟨"1", "s", "m", [], none⟩, "127.0.0.1", 4000, .ended (.ok (.number (.ofNat 7)))⟩

theorem get_sampleEnded :
    (sampleEnded.get sampleEnded_isSome).attempts.get "1" = some sampleAttempt := by
  decide +kernel

theorem attempt_ends_because_sampleEnded : Because sampleClientOptions sampleCodec
    (sampleEnded.get sampleEnded_isSome) sampleAttempt (.ok (.number (.ofNat 7))) :=
  attempt_ends_because ⟨_, Machine.run_exec_get sampleEnded_isSome⟩ get_sampleEnded rfl

end ClientNetwork
end WeisleyRpc.Client
