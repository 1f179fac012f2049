import WeisleyRpc.ConnectionInvariant

/-!
# The pending-call table

Pending entries, accepted calls, settlements and call timers stay in step as long as
no call is sent under an id that is pending.
-/

namespace WeisleyRpc.Client

/-- The pending table is the graph of the accepted calls that are not settled, and an
armed call timer belongs to a pending call. -/
structure CallsWf (timers : OrderedMap TimerId TimerTask)
    (pending : OrderedMap String PendingRequest) (nextCall : CallId)
    (accepted : List AcceptedCall) (settled : List Settlement) : Prop where
  armed : ∀ t id call, timers.get t = some (.callTimeout id call) →
    pending.get id = some ⟨call, t⟩
  outstanding : ∀ id p, pending.get id = some p →
    (∃ s, ⟨p.call, id, s⟩ ∈ accepted) ∧ p.call ∉ settled.map Settlement.call
  unsettled : ∀ a ∈ accepted, a.call ∉ settled.map Settlement.call →
    ∃ t, pending.get a.id = some ⟨a.call, t⟩
  own : ∀ x ∈ settled, ∃ a ∈ accepted, a.call = x.call ∧ ∀ m, x.cause = .response m →
    m.prop "type" = .string "response" ∧ m.prop "id" = .string a.id
  once : (settled.map Settlement.call).Nodup
  distinct : (accepted.map AcceptedCall.call).Nodup
  lt : ∀ a ∈ accepted, a.call < nextCall

namespace CallsWf
variable {timers : OrderedMap TimerId TimerTask} {pending : OrderedMap String PendingRequest}
  {n : CallId} {accepted : List AcceptedCall} {settled : List Settlement}

theorem mono (h : CallsWf timers pending n accepted settled)
    {timers' : OrderedMap TimerId TimerTask}
    (ht : ∀ t id call, timers'.get t = some (.callTimeout id call) →
      timers.get t = some (.callTimeout id call)) :
    CallsWf timers' pending n accepted settled :=
  { h with armed := fun t id call h' => h.armed t id call (ht t id call h') }

theorem not_settled (h : CallsWf timers pending n accepted settled) {c : CallId} (hc : n ≤ c) :
    c ∉ settled.map Settlement.call := by
  intro hm
  obtain ⟨x, hx, rfl⟩ := List.mem_map.mp hm
  obtain ⟨a, ha, hax, -⟩ := h.own x hx
  have := h.lt a ha
  rw [hax] at this
  exact absurd hc (Nat.not_le.mpr this)

/-- An id that is not pending is sent. -/
theorem accept (h : CallsWf timers pending n accepted settled) {id : String}
    (hid : pending.get id = none) (t : TimerId) (s : SocketId) :
    CallsWf (timers.set t (.callTimeout id n)) (pending.set id ⟨n, t⟩) (n + 1)
      (accepted ++ [⟨n, id, s⟩]) settled := by
  have hne : ∀ {id' p}, pending.get id' = some p → id' ≠ id := by
    rintro id' p hp rfl
    simp [hid] at hp
  refine ⟨fun t' id' call ht => ?_, fun id' p hp => ?_, fun a ha hs => ?_, fun x hx => ?_, h.once,
    ?_, fun a ha => ?_⟩
  · rw [OrderedMap.get_set] at ht
    split_ifs at ht with he
    · obtain ⟨rfl, rfl⟩ := TimerTask.callTimeout.inj (Option.some.inj ht)
      rw [OrderedMap.get_set, if_pos rfl, he]
    · have := h.armed t' id' call ht
      rw [OrderedMap.get_set, if_neg (hne this), this]
  · rw [OrderedMap.get_set] at hp
    split_ifs at hp with he
    · obtain rfl := Option.some.inj hp
      exact ⟨⟨s, by simp [he]⟩, h.not_settled (Nat.le_refl n)⟩
    · obtain ⟨⟨s', hs'⟩, hn⟩ := h.outstanding id' p hp
      exact ⟨⟨s', List.mem_append_left _ hs'⟩, hn⟩
  · rcases List.mem_append.mp ha with ha | ha
    · obtain ⟨t', ht'⟩ := h.unsettled a ha hs
      exact ⟨t', by rw [OrderedMap.get_set, if_neg (hne ht'), ht']⟩
    · obtain rfl := List.mem_singleton.mp ha
      exact ⟨t, by rw [OrderedMap.get_set, if_pos rfl]⟩
  · obtain ⟨a, ha, hax⟩ := h.own x hx
    exact ⟨a, List.mem_append_left _ ha, hax⟩
  · rw [List.map_append, List.nodup_append]
    refine ⟨h.distinct, by simp, fun c hc d hd hcd => ?_⟩
    obtain ⟨a, ha, rfl⟩ := List.mem_map.mp hc
    have : d = n := by simpa using hd
    exact absurd (h.lt a ha) (by rw [hcd, this]; exact Nat.lt_irrefl n)
  · rcases List.mem_append.mp ha with ha | ha
    · exact Nat.lt_succ_of_lt (h.lt a ha)
    · obtain rfl := List.mem_singleton.mp ha
      exact Nat.lt_succ_self n

theorem call_inj (h : CallsWf timers pending n accepted settled) {id id' : String}
    {p p' : PendingRequest} (hp : pending.get id = some p) (hp' : pending.get id' = some p')
    (he : p.call = p'.call) : id = id' := by
  obtain ⟨⟨s, hs⟩, -⟩ := h.outstanding id p hp
  obtain ⟨⟨s', hs'⟩, -⟩ := h.outstanding id' p' hp'
  have := List.inj_on_of_nodup_map h.distinct hs hs' he
  exact (AcceptedCall.mk.inj this).2.1

/-- A pending call is settled: its entry goes, its timer is cleared. -/
theorem settle (h : CallsWf timers pending n accepted settled) {id : String} {p : PendingRequest}
    (hp : pending.get id = some p) (outcome : Except JsError JsValue) (cause : Cause)
    (hc : ∀ m, cause = .response m →
      m.prop "type" = .string "response" ∧ m.prop "id" = .string id) :
    CallsWf (timers.delete p.timer) (pending.delete id) n accepted
      (settled ++ [⟨p.call, outcome, cause⟩]) := by
  obtain ⟨⟨s, hs⟩, hn⟩ := h.outstanding id p hp
  refine ⟨fun t' id' call ht => ?_, fun id' p' hp' => ?_, fun a ha hns => ?_, fun x hx => ?_, ?_,
    h.distinct, h.lt⟩
  · rw [OrderedMap.get_delete] at ht
    split_ifs at ht with he
    have hp' := h.armed t' id' call ht
    rw [OrderedMap.get_delete, if_neg, hp']
    rintro rfl
    rw [hp] at hp'
    exact he (congrArg PendingRequest.timer (Option.some.inj hp')).symm
  · rw [OrderedMap.get_delete] at hp'
    split_ifs at hp' with he
    obtain ⟨hs', hn'⟩ := h.outstanding id' p' hp'
    refine ⟨hs', ?_⟩
    rw [List.map_append, List.mem_append, not_or]
    refine ⟨hn', ?_⟩
    rw [List.map_singleton, List.mem_singleton]
    exact fun hcall => he (h.call_inj hp' hp hcall)
  · rw [List.map_append, List.mem_append, not_or, List.map_singleton, List.mem_singleton] at hns
    obtain ⟨t, ht⟩ := h.unsettled a ha hns.1
    refine ⟨t, ?_⟩
    rw [OrderedMap.get_delete, if_neg, ht]
    intro hid
    rw [hid, hp] at ht
    exact hns.2 (congrArg PendingRequest.call (Option.some.inj ht)).symm
  · rcases List.mem_append.mp hx with hx | hx
    · exact h.own x hx
    · obtain rfl := List.mem_singleton.mp hx
      exact ⟨_, hs, rfl, hc⟩
  · rw [List.map_append, List.nodup_append]
    refine ⟨h.once, by simp, fun c hc' d hd hcd => ?_⟩
    have : d = p.call := by simpa using hd
    rw [hcd, this] at hc'
    exact hn hc'

end CallsWf

namespace World

def CallsWf (w : World) : Prop :=
  Client.CallsWf w.timers w.pending w.nextCall w.accepted w.settled

theorem callsWf_init (codec : RpcCodec) : (World.init codec).CallsWf := by
  constructor <;> simp [World.init]

theorem CallsWf.same {w v : World} (h : w.CallsWf) (hs : SameTables w v) : v.CallsWf := by
  unfold CallsWf
  rw [hs.timers, hs.pending, hs.nextCall, hs.accepted, hs.settled]
  exact h

theorem CallsWf.setTimer {w : World} (h : w.CallsWf) {task : TimerTask}
    (ht : ∀ id call, task ≠ .callTimeout id call) : (w.setTimer task).CallsWf := by
  refine CallsWf.mono h fun t id call hg => ?_
  simp only [World.setTimer, OrderedMap.get_set] at hg
  split_ifs at hg
  · exact absurd (Option.some.inj hg) (ht id call)
  · exact hg

theorem CallsWf.clearTimers {w : World} (h : w.CallsWf) (ts : List TimerId) :
    Client.CallsWf (w.timers.deleteAll ts) w.pending w.nextCall w.accepted w.settled := by
  refine CallsWf.mono h fun t id call hg => ?_
  rw [OrderedMap.get_deleteAll] at hg
  split_ifs at hg
  exact hg

theorem CallsWf.rejectOne {w : World} (h : w.CallsWf) {entry : String × PendingRequest}
    (he : w.pending.get entry.1 = some entry.2) (error : JsError) :
    (rejectOne error w entry).CallsWf :=
  Client.CallsWf.settle h he _ _ (by simp)

theorem CallsWf.foldl_rejectOne {error : JsError} {entries : List (String × PendingRequest)}
    {w : World} (h : w.CallsWf) (hn : (entries.map Prod.fst).Nodup)
    (he : ∀ e ∈ entries, w.pending.get e.1 = some e.2) :
    (entries.foldl (World.rejectOne error) w).CallsWf := by
  induction entries generalizing w with
  | nil => exact h
  | cons e entries ih =>
    rw [List.map_cons, List.nodup_cons] at hn
    refine ih (h.rejectOne (he e (by simp)) error) hn.2 fun e' he' => ?_
    have hne : e'.1 ≠ e.1 := fun heq => hn.1 (List.mem_map.mpr ⟨e', he', heq⟩)
    simp [World.rejectOne, hne, he e' (by simp [he'])]

theorem CallsWf.rejectAll {w : World} (h : w.CallsWf) (error : JsError) :
    (w.rejectAll error).CallsWf :=
  h.foldl_rejectOne w.pending.nodup fun _ he => w.pending.get_eq_some_iff.mpr he

theorem CallsWf.dropped {w : World} (h : w.CallsWf) (error : JsError) :
    (w.dropped error).CallsWf := by
  rw [← rejectAll_stopHeartbeat]
  refine CallsWf.rejectAll ?_ error
  rw [stopHeartbeat_eq]
  exact h.clearTimers _

theorem CallsWf.scheduleReconnect {o : RpcConnectionOptions} {w : World} (h : w.CallsWf) :
    (scheduleReconnect o w).CallsWf := by
  rcases scheduleReconnect_cases o w with ⟨he, -⟩ | ⟨-, -, he⟩ <;> rw [he]
  · exact h
  · exact h.setTimer (by simp)

theorem CallsWf.startHeartbeat {o : RpcConnectionOptions} {w : World} (h : w.CallsWf) (now : ℚ) :
    (startHeartbeat o w now).CallsWf := by
  rcases startHeartbeat_cases o w now with he | he <;> rw [he]
  · exact h
  · exact h.setTimer (by simp)

theorem CallsWf.handleUnexpectedDisconnect {o : RpcConnectionOptions} {w : World} (h : w.CallsWf)
    (error : JsError) : (handleUnexpectedDisconnect o w error).CallsWf := by
  rw [handleUnexpectedDisconnect_eq]
  split_ifs
  · exact h.dropped error
  · exact CallsWf.scheduleReconnect (w := { w.dropped error with state := .reconnecting })
      (h.dropped error)

theorem CallsWf.handleMessage {w w' : World} (h : w.CallsWf) {s : SocketId}
    {message : JsValue} {now : ℚ} (hm : handleMessage s now w message = .ok w') : w'.CallsWf := by
  rcases handleMessage_cases hm with ⟨-, at', rfl⟩ | ⟨id, p, outcome, ht, hp, -, rfl⟩
  · exact h
  · obtain ⟨hid, hg⟩ := pendingOf_eq_some_iff.mp hp
    refine Client.CallsWf.settle h hg _ _ ?_
    rintro m hm
    obtain rfl := Cause.response.inj hm
    exact ⟨ht, hid⟩

theorem CallsWf.runTimer {o : RpcConnectionOptions} {w w' : World} (h : w.CallsWf) {t : TimerId}
    {now : ℚ} {uuid : String} {task : TimerTask} (ht : w.timers.get t = some task)
    (hr : runTimer o w t now uuid task = .ok w') : w'.CallsWf := by
  rcases runTimer_cases hr with ⟨id, call, rfl, rfl⟩ | ⟨delay, rfl, hw⟩ | ⟨s, rfl, hb⟩
  · exact Client.CallsWf.settle h (h.armed t id call ht) _ _ (by simp)
  · have hc : { w.clearTimer t with reconnectTimer := none : World }.CallsWf := h.clearTimers [t]
    rcases hw with ⟨-, rfl⟩ | ⟨-, rfl⟩
    · exact hc
    · exact hc.same (sameTables_connect _ _)
  · rcases heartbeatTick_cases hb with ⟨-, rfl⟩ | ⟨s, -, ⟨-, error, rfl⟩ | ⟨-, packet, -, rfl⟩⟩
    · rw [stopHeartbeat_eq]
      exact h.clearTimers _
    · exact h.handleUnexpectedDisconnect error
    · exact h.same (sameTables_write w s packet)

theorem CallsWf.runMicrotask {o : RpcConnectionOptions} {w : World} (h : w.CallsWf) (now : ℚ)
    (task : Microtask) : (runMicrotask o w now task).CallsWf := by
  rcases runMicrotask_tables o w now task with hs | ⟨v, hv, hs⟩ | ⟨v, hv, he⟩
  · exact h.same hs
  · exact ((h.same hv).startHeartbeat now).same hs
  · rw [he]
    exact (h.same hv).scheduleReconnect

theorem CallsWf.send {w : World} (h : w.CallsWf) {id : String} (hid : w.pending.get id = none)
    (payload : Buffer) : (w.send id payload).CallsWf := by
  rcases send_cases w id payload with ⟨e, he⟩ | ⟨s, -, -, he⟩ <;> rw [he]
  · exact h
  · have hw := sameTables_write (w.setTimer (.callTimeout id w.nextCall)) s payload
    unfold World.CallsWf World.sent
    rw [hw.timers, hw.settled]
    exact h.accept hid w.nextTimer s

theorem CallsWf.close {w : World} (h : w.CallsWf) : w.close.CallsWf := by
  rw [close_eq, cancelReconnect_eq]
  refine CallsWf.same (CallsWf.dropped ?_ _) (sameTables_endSocket _)
  exact h.clearTimers _

end World

/-- A call is sent only under an id that is not pending. -/
def FreshId (w : World) : Event → Prop
  | .send id _ => w.pending.get id = none
  | _ => True

namespace World

theorem CallsWf.step {o : RpcConnectionOptions} {w w' : World} {e : Event} (h : w.CallsWf)
    (hs : ((machine o).guard FreshId).Step w e w') : w'.CallsWf := by
  obtain ⟨hf, hs⟩ := Machine.guard_step.mp hs
  cases answer_of_step hs with
  | connect n => exact h.same (sameTables_connect w _)
  | close => exact h.close
  | send id payload => exact h.send hf payload
  | timer ht _ hr => exact h.runTimer ht hr
  | @socketConnect s =>
    exact CallsWf.same (w := w.updateSocket s fun k => { k with connected := true }) h
      (sameTables_resumeAttempt _ _ _)
  | @socketError s error =>
    have hd : (w.updateSocket s fun k => { k with destroyed := true }).CallsWf := h
    exact (hd.handleUnexpectedDisconnect error).same (sameTables_resumeAttempt _ _ _)
  | socketDestroyed => exact h
  | @socketClose s =>
    exact CallsWf.handleUnexpectedDisconnect
      (w := w.updateSocket s fun k => { k with closed := true }) h _
  | @socketData s chunk now _ _ _ _ hd =>
    obtain ⟨messages, -, hm⟩ := handleData_eq_ok hd
    exact List.foldlM_invariant (I := CallsWf) (fun _ _ _ hi hm => hi.handleMessage hm) hm h
  | @microtask now task tasks =>
    exact CallsWf.runMicrotask (w := { w with microtasks := tasks }) h now task

end World

theorem ReachableWhen.callsWf {o : RpcConnectionOptions} {w : World}
    (h : ReachableWhen o FreshId w) : w.CallsWf := by
  obtain ⟨codec, -, hr⟩ := h
  exact hr.invariant (fun _ _ _ hi hs => hi.step hs) (World.callsWf_init codec)

namespace World

/-- The events that end the pending call `p` under `id`, and why. -/
def EndsBy (o : RpcConnectionOptions) (w : World) (id : String) (p : PendingRequest) :
    Event → Cause → Prop
  | .timer t now _, cause =>
    (t = p.timer ∧ cause = .timeout) ∨
      ((∃ s, w.timers.get t = some (.heartbeat s)) ∧ w.liveSocket.isSome ∧
        heartbeatExpired o w now ∧ cause = .disconnect)
  | .close, cause | .socketError _ _, cause | .socketClose _, cause => cause = .disconnect
  | .socketData _ chunk _, cause =>
    ∃ messages, (w.codec.push chunk).1 = .ok messages ∧
      ∃ m ∈ messages, Responds m id ∧ cause = .response m
  | _, _ => False

/-- The call `p` under `id` is settled for one of the given causes, or stays pending. -/
def Ended (w' : World) (id : String) (p : PendingRequest) (causes : Cause → Prop) : Prop :=
  w'.pending.get id = none ∧ ∃ cause outcome, causes cause ∧ ⟨p.call, outcome, cause⟩ ∈ w'.settled

def Kept (w' : World) (id : String) (p : PendingRequest) (causes : Cause → Prop) : Prop :=
  w'.pending.get id = some p ∧ ∀ cause, ¬ causes cause

theorem mem_rejections {w : World} {id : String} {p : PendingRequest}
    (hp : w.pending.get id = some p) (error : JsError) :
    ⟨p.call, .error error, .disconnect⟩ ∈ rejections w.pending.entries error :=
  List.mem_map.mpr ⟨(id, p), w.pending.get_eq_some_iff.mp hp, rfl⟩

theorem ended_of_disconnect {o : RpcConnectionOptions} {w v : World} {id : String}
    {p : PendingRequest} (hp : w.pending.get id = some p) (error : JsError)
    (hv : v.pending = (handleUnexpectedDisconnect o w error).pending)
    (hs : v.settled = (handleUnexpectedDisconnect o w error).settled) {causes : Cause → Prop}
    (hc : causes .disconnect) : v.Ended id p causes := by
  obtain ⟨he, hd⟩ := handleUnexpectedDisconnect_tables o w error
  refine ⟨by rw [hv, he]; rfl, .disconnect, .error error, hc, ?_⟩
  rw [hs, hd]
  exact List.mem_append_right _ (mem_rejections hp error)

/-- The first response to a pending call settles it; other messages leave it alone. -/
theorem handleMessages_pending {messages : List JsValue} {w w' : World} {s : SocketId} {now : ℚ}
    {id : String} {p : PendingRequest} (hf : messages.foldlM (handleMessage s now) w = .ok w')
    (hp : w.pending.get id = some p) :
    w'.Kept id p (fun c => ∃ m ∈ messages, Responds m id ∧ c = .response m) ∨
      w'.Ended id p (fun c => ∃ m ∈ messages, Responds m id ∧ c = .response m) := by
  induction messages generalizing w with
  | nil =>
    obtain rfl := Except.ok.inj hf
    exact Or.inl ⟨hp, by simp⟩
  | cons m messages ih =>
    rw [List.foldlM_cons] at hf
    obtain ⟨v, hv, hf⟩ := Except.bind_eq_ok_iff.mp hf
    have keep : v.pending.get id = some p → ¬ Responds m id →
        w'.Kept id p (fun c => ∃ m' ∈ m :: messages, Responds m' id ∧ c = .response m') ∨
          w'.Ended id p (fun c => ∃ m' ∈ m :: messages, Responds m' id ∧ c = .response m') := by
      intro hpv hm
      rcases ih hf hpv with ⟨hk, hn⟩ | ⟨hn, c, outcome, ⟨m', hm', hc⟩, hx⟩
      · refine Or.inl ⟨hk, ?_⟩
        rintro c ⟨m', hm', hr, hc⟩
        rcases List.mem_cons.mp hm' with rfl | hm'
        · exact hm hr
        · exact hn c ⟨m', hm', hr, hc⟩
      · exact Or.inr ⟨hn, c, outcome, ⟨m', List.mem_cons_of_mem _ hm', hc⟩, hx⟩
    rcases handleMessage_cases hv with ⟨hno, at', rfl⟩ | ⟨id', p', outcome, ht, hp', -, rfl⟩
    · refine keep hp fun hr => ?_
      have : w.pendingOf m = some (id, p) := pendingOf_eq_some_iff.mpr ⟨hr.2, hp⟩
      rw [hno hr.1] at this
      cases this
    · obtain ⟨hid', hg'⟩ := pendingOf_eq_some_iff.mp hp'
      by_cases he : id' = id
      · subst he
        obtain rfl := Option.some.inj (hg'.symm.trans hp)
        have hinv : w'.pending.get id' = none ∧ ⟨p'.call, outcome, .response m⟩ ∈ w'.settled := by
          refine List.foldlM_invariant
            (I := fun v : World => v.pending.get id' = none ∧
              ⟨p'.call, outcome, .response m⟩ ∈ v.settled) ?_ hf ?_
          · rintro u m' u' ⟨hn, hx⟩ hu
            rcases handleMessage_cases hu with ⟨-, at', rfl⟩ | ⟨id'', p'', outcome', -, -, -, rfl⟩
            · exact ⟨hn, hx⟩
            · refine ⟨?_, List.mem_append_left _ hx⟩
              change (u.pending.delete id'').get id' = none
              rw [OrderedMap.get_delete, hn, ite_self]
          · exact ⟨by simp [answered], by simp [answered, World.settle]⟩
        exact Or.inr ⟨hinv.1, .response m, outcome, ⟨m, by simp, ⟨ht, hid'⟩, rfl⟩, hinv.2⟩
      · refine keep ?_ fun hr => he (JsValue.string.inj (hid'.symm.trans hr.2))
        simp [answered, Ne.symm he, hp]

theorem close_tables (w : World) :
    w.close.pending = .empty ∧
      w.close.settled = w.settled ++ rejections w.pending.entries connectionClosed := by
  rw [close_eq, (sameTables_endSocket _).pending, (sameTables_endSocket _).settled,
    cancelReconnect_eq]
  exact ⟨rfl, rfl⟩

/-- A call's timer ends it, and so does a heartbeat that has expired. -/
theorem pending_timer {o : RpcConnectionOptions} {w w' : World} {t : TimerId} {now : ℚ}
    {uuid : String} {task : TimerTask} {id : String} {p : PendingRequest} (ht : w.TimersWf)
    (hc : w.CallsWf) (armed : w.timers.get t = some task)
    (hr : runTimer o w t now uuid task = .ok w') (hp : w.pending.get id = some p) :
    w'.Kept id p (w.EndsBy o id p (.timer t now uuid)) ∨
      w'.Ended id p (w.EndsBy o id p (.timer t now uuid)) := by
  rcases runTimer_cases hr with ⟨id', call, rfl, rfl⟩ | ⟨delay, rfl, hw⟩ | ⟨s, rfl, hb⟩
  · have hown := hc.armed t id' call armed
    by_cases he : id = id'
    · subst he
      obtain rfl := Option.some.inj (hown.symm.trans hp)
      exact Or.inr ⟨by simp [World.settle], .timeout, _, Or.inl ⟨rfl, rfl⟩,
        List.mem_append_right _ (List.mem_singleton.mpr rfl)⟩
    · refine Or.inl ⟨by simp [World.settle, he, hp], ?_⟩
      rintro cause (⟨rfl, -⟩ | ⟨⟨s, hs⟩, -⟩)
      · have := armed.symm.trans (ht.call id p hp)
        simp only [Option.some.injEq, TimerTask.callTimeout.injEq] at this
        exact he this.1.symm
      · simp [hs] at armed
  · have hn : ∀ cause, ¬ w.EndsBy o id p (.timer t now uuid) cause := by
      rintro cause (⟨rfl, -⟩ | ⟨⟨s, hs⟩, -⟩)
      · simp [ht.call id p hp] at armed
      · simp [hs] at armed
    rcases hw with ⟨-, rfl⟩ | ⟨-, rfl⟩
    · exact Or.inl ⟨hp, hn⟩
    · exact Or.inl ⟨by rw [(sameTables_connect _ _).pending]; exact hp, hn⟩
  · have hown : t ≠ p.timer := by
      rintro rfl
      simp [ht.call id p hp] at armed
    rcases heartbeatTick_cases hb with ⟨hl, rfl⟩ | ⟨s', hl, ⟨hx, error, rfl⟩ | ⟨hx, packet, -, rfl⟩⟩
    · refine Or.inl ⟨by rw [stopHeartbeat_eq]; exact hp, ?_⟩
      rintro cause (⟨h, -⟩ | ⟨-, h, -⟩)
      · exact hown h
      · simp [hl] at h
    · exact Or.inr (ended_of_disconnect hp error rfl rfl
        (Or.inr ⟨⟨s, armed⟩, by simp [hl], hx, rfl⟩))
    · refine Or.inl ⟨by rw [(sameTables_write w s' packet).pending, hp], ?_⟩
      rintro cause (⟨h, -⟩ | ⟨-, -, h, -⟩)
      · exact hown h
      · exact hx h

theorem pending_runMicrotask (o : RpcConnectionOptions) (w : World) (now : ℚ) (task : Microtask) :
    (runMicrotask o w now task).pending = w.pending := by
  rcases runMicrotask_tables o w now task with hs | ⟨v, hv, hs⟩ | ⟨v, hv, he⟩
  · exact hs.pending
  · rw [hs.pending]
    rcases startHeartbeat_cases o v now with he | he <;> rw [he]
    · exact hv.pending
    · exact hv.pending
  · rw [he]
    rcases scheduleReconnect_cases o v with ⟨he, -⟩ | ⟨-, -, he⟩ <;> rw [he]
    · exact hv.pending
    · exact hv.pending

/-- What one step does to a pending call. -/
theorem pending_step {o : RpcConnectionOptions} {w w' : World} {e : Event} {id : String}
    {p : PendingRequest} (ht : w.TimersWf) (hc : w.CallsWf)
    (hs : ((machine o).guard FreshId).Step w e w') (hp : w.pending.get id = some p) :
    w'.Kept id p (w.EndsBy o id p e) ∨ w'.Ended id p (w.EndsBy o id p e) := by
  obtain ⟨hfresh, hs⟩ := Machine.guard_step.mp hs
  cases answer_of_step hs with
  | connect n =>
    exact Or.inl ⟨by rw [(sameTables_connect w _).pending, hp], fun _ h => h⟩
  | close =>
    obtain ⟨he, hd⟩ := close_tables w
    refine Or.inr ⟨by rw [he]; rfl, .disconnect, .error connectionClosed, rfl, ?_⟩
    rw [hd]
    exact List.mem_append_right _ (mem_rejections hp _)
  | send id' payload =>
    refine Or.inl ⟨?_, fun _ h => h⟩
    have hne : id ≠ id' := by
      rintro rfl
      have : w.pending.get id = none := hfresh
      simp [hp] at this
    rcases send_cases w id' payload with ⟨e, he⟩ | ⟨s, -, -, he⟩ <;> rw [he]
    · exact hp
    · change (w.pending.set id' _).get id = _
      rw [OrderedMap.get_set, if_neg hne, hp]
  | timer armed _ hr => exact pending_timer ht hc armed hr hp
  | @socketConnect s =>
    refine Or.inl ⟨?_, fun _ h => h⟩
    rw [(sameTables_resumeAttempt _ _ _).pending]
    exact hp
  | @socketError s error =>
    exact Or.inr (ended_of_disconnect
      (w := w.updateSocket s fun k => { k with destroyed := true }) hp error
      (sameTables_resumeAttempt _ _ _).pending (sameTables_resumeAttempt _ _ _).settled rfl)
  | socketDestroyed => exact Or.inl ⟨hp, fun _ h => h⟩
  | @socketClose s =>
    exact Or.inr (ended_of_disconnect
      (w := w.updateSocket s fun k => { k with closed := true }) hp _ rfl rfl rfl)
  | @socketData s chunk now _ _ _ _ hd =>
    obtain ⟨messages, hm, hf⟩ := handleData_eq_ok hd
    have hm' : (w.codec.push chunk).1 = .ok messages := hm
    have hcauses : w.EndsBy o id p (.socketData s chunk now) =
        fun c => ∃ m ∈ messages, Responds m id ∧ c = .response m := by
      funext c
      simp [EndsBy, hm']
    rw [hcauses]
    exact handleMessages_pending hf hp
  | @microtask now task tasks =>
    refine Or.inl ⟨?_, fun _ h => h⟩
    rw [pending_runMicrotask]
    exact hp

/-- The pending table is exact, calls and call timers belong to each other, a call is
settled at most once and by its own response if by one, and each step either ends a
pending call for its own reason or keeps it. -/
structure PendingTable (o : RpcConnectionOptions) (w : World) : Prop where
  exact : ∀ id call, (∃ t, w.pending.get id = some ⟨call, t⟩) ↔
    (∃ s, ⟨call, id, s⟩ ∈ w.accepted) ∧ call ∉ w.settled.map Settlement.call
  armed : ∀ id p, w.pending.get id = some p → w.timers.get p.timer = some (.callTimeout id p.call)
  owned : ∀ t id call, w.timers.get t = some (.callTimeout id call) →
    w.pending.get id = some ⟨call, t⟩
  once : (w.settled.map Settlement.call).Nodup
  own : ∀ x ∈ w.settled, ∃ a ∈ w.accepted, a.call = x.call ∧
    ∀ m, x.cause = .response m → Responds m a.id
  step : ∀ e w' id p, ((machine o).guard FreshId).Step w e w' → w.pending.get id = some p →
    w'.Kept id p (w.EndsBy o id p e) ∨ w'.Ended id p (w.EndsBy o id p e)
  disconnected : ∀ error, (handleUnexpectedDisconnect o w error).pending = .empty
  closed : w.close.pending = .empty

/-- The invariant of the pending table, in every state that is reached by sending calls
under ids that are not pending. -/
theorem pendingTable_of_reachable {o : RpcConnectionOptions} {w : World}
    (h : ReachableWhen o FreshId w) : w.PendingTable o := by
  have ht := h.reachable.timersWf
  have hc := h.callsWf
  refine ⟨fun id call => ⟨?_, ?_⟩, ht.call, hc.armed, hc.once, hc.own,
    fun _ _ _ _ hs hp => pending_step ht hc hs hp,
    fun error => (handleUnexpectedDisconnect_tables o w error).1, (close_tables w).1⟩
  · rintro ⟨t, hp⟩
    exact hc.outstanding id _ hp
  · rintro ⟨⟨s, hs⟩, hn⟩
    exact hc.unsettled _ hs hn

instance (w : World) (e : Event) : Decidable (FreshId w e) :=
  match e with
  | .send id _ => inferInstanceAs (Decidable (w.pending.get id = none))
  | .connect _ | .close | .timer _ _ _ | .socketConnect _ | .socketError _ _
  | .socketDestroyed _ | .socketClose _ | .socketData _ _ _ | .microtask _ => isTrue trivial

/-- A connection with one call in flight and one that timed out, under the same id. -/
def sampleCalls : Option World :=
  ((machine (.ofSerializer (.ofTable sampleTable))).guard FreshId).exec (World.init sampleCodec)
    [.connect 0, .socketConnect 0, .microtask 0, .microtask 0, .microtask 0, .send "1" [1],
      .timer 0 1000 "", .send "1" [1]]

theorem sampleCalls_isSome : sampleCalls.isSome := by decide +kernel

theorem pendingTable_sampleCalls :
    (sampleCalls.get sampleCalls_isSome).PendingTable (.ofSerializer (.ofTable sampleTable)) :=
  pendingTable_of_reachable (reachableWhen_of_exec rfl sampleCalls_isSome)

end World

end WeisleyRpc.Client
