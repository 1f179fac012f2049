import WeisleyRpc.ConnectionPending
import WeisleyRpc.ConnectionStreams

/-!
# What a connection has recorded of its calls

Only `send` accepts a call, and only a decoded response settles one as answered.
-/

namespace WeisleyRpc.Client
namespace World

/-- No call is accepted, and none is settled by a response. -/
structure KeepsCalls (w v : World) : Prop where
  accepted : v.accepted = w.accepted
  nextCall : v.nextCall = w.nextCall
  settled : ∀ x ∈ v.settled, x ∈ w.settled ∨ ∀ m, x.cause ≠ .response m

theorem KeepsCalls.trans {u v w : World} (h : KeepsCalls u v) (h' : KeepsCalls v w) :
    KeepsCalls u w := by
  refine ⟨h'.accepted.trans h.accepted, h'.nextCall.trans h.nextCall, fun x hx => ?_⟩
  rcases h'.settled x hx with hv | hc
  · exact h.settled x hv
  · exact Or.inr hc

theorem SameTables.keepsCalls {w v : World} (h : SameTables w v) : KeepsCalls w v :=
  ⟨h.accepted, h.nextCall, fun _ hx => Or.inl (h.settled ▸ hx)⟩

theorem keepsCalls_dropped (w : World) (error : JsError) : KeepsCalls w (w.dropped error) := by
  refine ⟨rfl, rfl, fun x hx => ?_⟩
  rcases List.mem_append.mp hx with hx | hx
  · exact Or.inl hx
  · obtain ⟨entry, -, rfl⟩ := List.mem_map.mp hx
    exact Or.inr (by simp)

theorem keepsCalls_scheduleReconnect (o : RpcConnectionOptions) (w : World) :
    KeepsCalls w (scheduleReconnect o w) := by
  rcases scheduleReconnect_cases o w with ⟨he, -⟩ | ⟨-, -, he⟩ <;> rw [he]
  · exact (SameTables.refl w).keepsCalls
  · exact ⟨rfl, rfl, fun _ => Or.inl⟩

theorem keepsCalls_handleUnexpectedDisconnect (o : RpcConnectionOptions) (w : World)
    (error : JsError) : KeepsCalls w (handleUnexpectedDisconnect o w error) := by
  rw [handleUnexpectedDisconnect_eq]
  split_ifs
  · exact keepsCalls_dropped w error
  · have h : KeepsCalls w { w.dropped error with state := .reconnecting } :=
      let ⟨ha, hn, hs⟩ := keepsCalls_dropped w error
      ⟨ha, hn, hs⟩
    exact h.trans (keepsCalls_scheduleReconnect o _)

theorem keepsCalls_close (w : World) : KeepsCalls w w.close := by
  rw [close_eq, cancelReconnect_eq]
  refine KeepsCalls.trans ?_ (sameTables_endSocket _).keepsCalls
  obtain ⟨ha, hn, hs⟩ := keepsCalls_dropped { w with
    manuallyClosed := true
    state := .closed
    reconnectTimer := none
    timers := w.timers.deleteAll w.reconnectTimer.toList } connectionClosed
  exact ⟨ha, hn, hs⟩

theorem keepsCalls_runTimer {o : RpcConnectionOptions} {w w' : World} {t : TimerId} {now : ℚ}
    {uuid : String} {task : TimerTask} (h : runTimer o w t now uuid task = .ok w') :
    KeepsCalls w w' := by
  rcases runTimer_cases h with ⟨id, call, rfl, rfl⟩ | ⟨delay, rfl, hw⟩ | ⟨s, rfl, hb⟩
  · refine ⟨rfl, rfl, fun x hx => ?_⟩
    rcases List.mem_append.mp hx with hx | hx
    · exact Or.inl hx
    · obtain rfl := List.mem_singleton.mp hx
      exact Or.inr (by simp)
  · have hc : KeepsCalls w { w.clearTimer t with reconnectTimer := none } :=
      ⟨rfl, rfl, fun _ => Or.inl⟩
    rcases hw with ⟨-, rfl⟩ | ⟨-, rfl⟩
    · exact hc
    · exact hc.trans (sameTables_connect _ _).keepsCalls
  · rcases heartbeatTick_cases hb with ⟨-, rfl⟩ | ⟨s, -, ⟨-, error, rfl⟩ | ⟨-, packet, -, rfl⟩⟩
    · rw [stopHeartbeat_eq]
      exact ⟨rfl, rfl, fun _ => Or.inl⟩
    · obtain ⟨ha, hn, hs⟩ := keepsCalls_handleUnexpectedDisconnect o w error
      exact ⟨ha, hn, hs⟩
    · exact (sameTables_write w s packet).keepsCalls

theorem keepsCalls_runMicrotask (o : RpcConnectionOptions) (w : World) (now : ℚ)
    (task : Microtask) : KeepsCalls w (runMicrotask o w now task) := by
  rcases runMicrotask_tables o w now task with hs | ⟨v, hv, hs⟩ | ⟨v, hv, he⟩
  · exact hs.keepsCalls
  · refine hv.keepsCalls.trans (KeepsCalls.trans ?_ hs.keepsCalls)
    rcases startHeartbeat_cases o v now with he | he <;> rw [he]
    · exact (SameTables.refl v).keepsCalls
    · exact ⟨rfl, rfl, fun _ => Or.inl⟩
  · rw [he]
    exact hv.keepsCalls.trans (keepsCalls_scheduleReconnect o v)

/-- The settlement that a response makes. -/
def SettledBy (x : Settlement) (m : JsValue) : Prop :=
  x.cause = .response m ∧ responseOutcome m = .ok x.outcome

theorem handleMessages_calls {messages : List JsValue} {w w' : World} {s : SocketId} {now : ℚ}
    (h : messages.foldlM (handleMessage s now) w = .ok w') :
    w'.accepted = w.accepted ∧ w'.nextCall = w.nextCall ∧
      ∀ x ∈ w'.settled, x ∈ w.settled ∨ ∃ m ∈ messages, SettledBy x m := by
  induction messages generalizing w with
  | nil =>
    obtain rfl := Except.ok.inj h
    exact ⟨rfl, rfl, fun _ => Or.inl⟩
  | cons m messages ih =>
    rw [List.foldlM_cons] at h
    obtain ⟨v, hv, h⟩ := Except.bind_eq_ok_iff.mp h
    obtain ⟨ha, hn, hs⟩ := ih h
    rcases handleMessage_cases hv with ⟨-, at', rfl⟩ | ⟨id, p, outcome, -, -, ho, rfl⟩
    · refine ⟨ha, hn, fun x hx => (hs x hx).imp id ?_⟩
      rintro ⟨m', hm', hx⟩
      exact ⟨m', List.mem_cons_of_mem _ hm', hx⟩
    · refine ⟨ha, hn, fun x hx => ?_⟩
      rcases hs x hx with hx | ⟨m', hm', hx⟩
      · rcases List.mem_append.mp hx with hx | hx
        · exact Or.inl hx
        · obtain rfl := List.mem_singleton.mp hx
          exact Or.inr ⟨m, by simp, rfl, ho⟩
      · exact Or.inr ⟨m', List.mem_cons_of_mem _ hm', hx⟩

/-- A step keeps the calls, or it accepts one, or it is a data event. -/
theorem step_calls {o : RpcConnectionOptions} {w w' : World} {e : Event}
    (hs : (machine o).Step w e w') :
    KeepsCalls w w' ∨
      (∃ id payload s, e = .send id payload ∧ w'.accepted = w.accepted ++ [⟨w.nextCall, id, s⟩] ∧
        w'.nextCall = w.nextCall + 1 ∧ w'.settled = w.settled) ∨
      ∃ s chunk now, e = .socketData s chunk now ∧ w'.accepted = w.accepted ∧
        w'.nextCall = w.nextCall ∧
        ∀ x ∈ w'.settled, x ∈ w.settled ∨ ∃ m ∈ (w'.sockets s).handled, SettledBy x m := by
  cases answer_of_step hs with
  | connect n => exact Or.inl (sameTables_connect w _).keepsCalls
  | close => exact Or.inl (keepsCalls_close w)
  | send id payload =>
    rcases send_cases w id payload with ⟨e, he⟩ | ⟨s, -, -, he⟩ <;> rw [he]
    · exact Or.inl ⟨rfl, rfl, fun _ => Or.inl⟩
    · have hw := sameTables_write (w.setTimer (.callTimeout id w.nextCall)) s payload
      exact Or.inr (Or.inl ⟨id, payload, s, rfl, rfl, rfl, hw.settled⟩)
  | timer _ _ hr => exact Or.inl (keepsCalls_runTimer hr)
  | @socketConnect s =>
    have h : KeepsCalls w (w.updateSocket s fun k => { k with connected := true }) :=
      ⟨rfl, rfl, fun _ => Or.inl⟩
    exact Or.inl (h.trans (sameTables_resumeAttempt _ _ _).keepsCalls)
  | @socketError s error =>
    have h : KeepsCalls w (w.updateSocket s fun k => { k with destroyed := true }) :=
      ⟨rfl, rfl, fun _ => Or.inl⟩
    exact Or.inl ((h.trans (keepsCalls_handleUnexpectedDisconnect o _ error)).trans
      (sameTables_resumeAttempt _ _ _).keepsCalls)
  | socketDestroyed => exact Or.inl ⟨rfl, rfl, fun _ => Or.inl⟩
  | @socketClose s =>
    have h : KeepsCalls w (w.updateSocket s fun k => { k with closed := true }) :=
      ⟨rfl, rfl, fun _ => Or.inl⟩
    exact Or.inl (h.trans (keepsCalls_handleUnexpectedDisconnect o _ _))
  | @socketData s chunk now _ _ _ _ hd =>
    obtain ⟨messages, -, hf⟩ := handleData_eq_ok hd
    obtain ⟨ha, hn, hx⟩ := handleMessages_calls hf
    refine Or.inr (Or.inr ⟨s, chunk, now, rfl, ha, hn, fun x hx' => (hx x hx').imp id ?_⟩)
    rintro ⟨m, hm, hsettled⟩
    exact ⟨m, handled_handleMessages hf ▸ List.mem_append_right _ hm, hsettled⟩
  | @microtask now task tasks =>
    have h : KeepsCalls w { w with microtasks := tasks } := ⟨rfl, rfl, fun _ => Or.inl⟩
    exact Or.inl (h.trans (keepsCalls_runMicrotask o _ now task))

end World
end WeisleyRpc.Client
