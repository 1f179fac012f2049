import WeisleyRpc.ServerOps

/-!
# What a server socket has recorded

Every invocation and every write belongs to one message of one handler, each message has
at most one of either, and how far a handler has come says which of them exist.
-/

namespace WeisleyRpc.Server

namespace Handler

structure Wf (h : Handler) : Prop where
  bound : h.next ≤ h.messages.length
  done : h.phase = .done → h.next = h.messages.length
  suspended : h.invoking = true ∨ h.writing = true →
    ∃ m, h.messages[h.next]? = some m ∧ IsRequest m

/-- The method of message `i` may have been called. -/
def Reached (h : Handler) (i : ℕ) : Prop :=
  i < h.next ∨ (i = h.next ∧ (h.active = true ∨ h.phase = .failed))

/-- A packet may have been written for message `i`. -/
def Answered (h : Handler) (i : ℕ) : Prop :=
  i < h.next ∨ (i = h.next ∧ (h.writing = true ∨ h.phase = .failed))

/-- The packet for message `i`, if it is a request, has been taken by the socket. -/
def Responded (h : Handler) (i : ℕ) : Prop :=
  i < h.next ∨ (i = h.next ∧ (h.phase = .responding false ∨ h.phase = .refusing false))

end Handler

namespace ServerSocket

/-- The packet `wr` is what the handler of message `m` writes. -/
structure Wrote (s : ServerSocket) (m : JsValue) (wr : Write) : Prop where
  encoded : s.codec.config.encode wr.message = .ok wr.payload
  cause : match wr.cause with
    | .pong => IsPing m ∧ ∃ now, wr.message = pongMessage (m.prop "id") now
    | .refusal => IsRequest m ∧ wr.message = drainingResponse m
    | .response outcome => IsRequest m ∧ MethodInvoker.response m outcome = .ok wr.message ∧
      ∃ v ∈ s.invocations, v.handler = wr.handler ∧ v.index = wr.index ∧
        ∃ returned, outcome = MethodInvoker.outcome v.called returned

structure Recorded (s : ServerSocket) : Prop where
  handler : ∀ (n : ℕ) (h : Handler), s.handlers[n]? = some h → h.Wf
  invocation : ∀ v ∈ s.invocations, ∃ h, s.handlers[v.handler]? = some h ∧
    h.messages[v.index]? = some v.request ∧ IsRequest v.request ∧ h.Reached v.index
  invokedOnce : (s.invocations.map fun v => (v.handler, v.index)).Nodup
  write : ∀ wr ∈ s.written, ∃ h m, s.handlers[wr.handler]? = some h ∧
    h.messages[wr.index]? = some m ∧ h.Answered wr.index ∧ s.Wrote m wr
  writtenOnce : (s.written.map fun wr => (wr.handler, wr.index)).Nodup
  invoking : ∀ (n : ℕ) (h : Handler) startedAt called, s.handlers[n]? = some h →
    h.phase = .invoking startedAt called →
    ∃ v ∈ s.invocations, v.handler = n ∧ v.index = h.next ∧ v.called = called
  responded : ∀ (n : ℕ) (h : Handler) (i : ℕ) m, s.handlers[n]? = some h →
    h.messages[i]? = some m → IsRequest m → h.Responded i → ∃ wr ∈ s.written, wr.handler = n ∧ wr.index = i
  refused : ∀ wr ∈ s.written, wr.cause = .refusal → ∀ v ∈ s.invocations,
    ¬ (v.handler = wr.handler ∧ v.index = wr.index)

/-- Handler `n` goes on from `x` to `x'` and records at most one call and one write. -/
structure Turned (s s' : ServerSocket) (n : ℕ) (x x' : Handler) (v : Option Invocation)
    (wr : Option Write) : Prop where
  before : s.handlers[n]? = some x
  after : ∀ j, s'.handlers[j]? = if j = n then some x' else s.handlers[j]?
  messages : x'.messages = x.messages
  config : s'.codec.config = s.codec.config
  invocations : s'.invocations = s.invocations ++ v.toList
  written : s'.written = s.written ++ wr.toList

theorem Wrote.mono {s s' : ServerSocket} {m : JsValue} {wr : Write} (h : s.Wrote m wr)
    (hc : s'.codec.config = s.codec.config) (hi : ∀ v ∈ s.invocations, v ∈ s'.invocations) :
    s'.Wrote m wr := by
  obtain ⟨he, hcause⟩ := h
  refine ⟨hc ▸ he, ?_⟩
  cases hw : wr.cause with
  | pong => simpa only [hw] using hcause
  | refusal => simpa only [hw] using hcause
  | response outcome =>
    simp only [hw] at hcause ⊢
    obtain ⟨hr, hm, v, hv, hrest⟩ := hcause
    exact ⟨hr, hm, v, hi v hv, hrest⟩

/-- Adding an entry with a new key. -/
theorem nodup_map_append_toList {α β : Type} {key : α → β} {xs : List α} {o : Option α}
    (h : (xs.map key).Nodup) (hnew : ∀ u ∈ o, ∀ y ∈ xs, key y ≠ key u) :
    ((xs ++ o.toList).map key).Nodup := by
  rw [List.map_append, List.nodup_append]
  refine ⟨h, ?_, ?_⟩
  · cases o <;> simp
  · rintro a ha b hb rfl
    obtain ⟨y, hy, rfl⟩ := List.mem_map.mp ha
    obtain ⟨u, hu, he⟩ := List.mem_map.mp hb
    exact hnew u (by simpa using hu) y hy he.symm

theorem Recorded.invocation_at {s : ServerSocket} {x : Handler} {u : Invocation} (h : s.Recorded)
    (hu : u ∈ s.invocations) (hx : s.handlers[u.handler]? = some x) :
    x.messages[u.index]? = some u.request ∧ IsRequest u.request ∧ x.Reached u.index := by
  obtain ⟨y, hy, hrest⟩ := h.invocation u hu
  obtain rfl := Option.some.inj (hx.symm.trans hy)
  exact hrest

theorem Recorded.write_at {s : ServerSocket} {x : Handler} {u : Write} (h : s.Recorded)
    (hu : u ∈ s.written) (hx : s.handlers[u.handler]? = some x) :
    ∃ m, x.messages[u.index]? = some m ∧ x.Answered u.index ∧ s.Wrote m u := by
  obtain ⟨y, m, hy, hrest⟩ := h.write u hu
  obtain rfl := Option.some.inj (hx.symm.trans hy)
  exact ⟨m, hrest⟩

theorem Recorded.turned {s s' : ServerSocket} {n : ℕ} {x x' : Handler} {v : Option Invocation}
    {wr : Option Write} (h : s.Recorded) (t : Turned s s' n x x' v wr) (wf : x'.Wf)
    (hreached : ∀ i, x.Reached i → x'.Reached i) (hanswered : ∀ i, x.Answered i → x'.Answered i)
    (hv : ∀ u ∈ v, u.handler = n ∧ ¬ x.Reached u.index ∧ x'.Reached u.index ∧
      x.messages[u.index]? = some u.request ∧ IsRequest u.request)
    (hwr : ∀ u ∈ wr, u.handler = n ∧ ¬ x.Answered u.index ∧ x'.Answered u.index ∧
      ∃ m, x.messages[u.index]? = some m ∧ s'.Wrote m u)
    (hrefused : (∀ u ∈ v, ¬ x.Answered u.index ∧ wr = none) ∧
      ∀ u ∈ wr, u.cause = .refusal → ¬ x.Reached u.index)
    (hinvoking : ∀ startedAt called, x'.phase = .invoking startedAt called →
      ∃ u ∈ s'.invocations, u.handler = n ∧ u.index = x'.next ∧ u.called = called)
    (hresponded : ∀ i m, x.messages[i]? = some m → IsRequest m → x'.Responded i →
      x.Responded i ∨ ∃ u ∈ wr, u.index = i) : s'.Recorded := by
  have hin : ∀ u ∈ s.invocations, u ∈ s'.invocations := fun u hu => by simp [t.invocations, hu]
  have hwin : ∀ u ∈ s.written, u ∈ s'.written := fun u hu => by simp [t.written, hu]
  -- the entry of a handler, before and after
  have hself : s'.handlers[n]? = some x' := by rw [t.after, if_pos rfl]
  have hother : ∀ {j : ℕ}, j ≠ n → s'.handlers[j]? = s.handlers[j]? := fun hj => by
    rw [t.after, if_neg hj]
  refine ⟨fun j y hy => ?_, fun u hu => ?_, ?_, fun u hu => ?_, ?_, fun j y at' called hy hp => ?_,
    fun j y i m hy hm hr hi => ?_, fun u hu hcause u' hu' hat => ?_⟩
  · by_cases hj : j = n
    · subst hj
      obtain rfl := Option.some.inj (hself.symm.trans hy)
      exact wf
    · exact h.handler j y (hother hj ▸ hy)
  · rw [t.invocations, List.mem_append] at hu
    rcases hu with hu | hu
    · by_cases hj : u.handler = n
      · subst hj
        obtain ⟨hm, hr, hreach⟩ := h.invocation_at hu t.before
        exact ⟨x', hself, t.messages ▸ hm, hr, hreached _ hreach⟩
      · obtain ⟨y, hy, hrest⟩ := h.invocation u hu
        exact ⟨y, (hother hj).trans hy, hrest⟩
    · obtain ⟨hn, -, hreach, hm, hr⟩ := hv u (by simpa using hu)
      exact ⟨x', hn ▸ hself, t.messages ▸ hm, hr, hreach⟩
  · rw [t.invocations]
    refine nodup_map_append_toList h.invokedOnce fun u' hu' u hu he => ?_
    obtain ⟨hhandler, hindex⟩ := Prod.mk.inj he
    obtain ⟨hn, hno, -⟩ := hv u' hu'
    have hat := (h.invocation_at hu (by rw [hhandler, hn]; exact t.before)).2.2
    exact hno (hindex ▸ hat)
  · rw [t.written, List.mem_append] at hu
    rcases hu with hu | hu
    · by_cases hj : u.handler = n
      · subst hj
        obtain ⟨m, hm, hans, hw⟩ := h.write_at hu t.before
        exact ⟨x', m, hself, t.messages ▸ hm, hanswered _ hans, hw.mono t.config hin⟩
      · obtain ⟨y, m, hy, hm, hans, hw⟩ := h.write u hu
        exact ⟨y, m, (hother hj).trans hy, hm, hans, hw.mono t.config hin⟩
    · obtain ⟨hn, -, hans, m, hm, hw⟩ := hwr u (by simpa using hu)
      exact ⟨x', m, hn ▸ hself, t.messages ▸ hm, hans, hw⟩
  · rw [t.written]
    refine nodup_map_append_toList h.writtenOnce fun u' hu' u hu he => ?_
    obtain ⟨hhandler, hindex⟩ := Prod.mk.inj he
    obtain ⟨hn, hno, -⟩ := hwr u' hu'
    obtain ⟨m, -, hans, -⟩ := h.write_at hu (by rw [hhandler, hn]; exact t.before)
    exact hno (hindex ▸ hans)
  · by_cases hj : j = n
    · subst hj
      obtain rfl := Option.some.inj (hself.symm.trans hy)
      exact hinvoking at' called hp
    · obtain ⟨u, hu, hrest⟩ := h.invoking j y at' called (hother hj ▸ hy) hp
      exact ⟨u, hin u hu, hrest⟩
  · by_cases hj : j = n
    · subst hj
      obtain rfl := Option.some.inj (hself.symm.trans hy)
      rw [t.messages] at hm
      rcases hresponded i m hm hr hi with hi | ⟨u, hu, rfl⟩
      · obtain ⟨u, hu, hrest⟩ := h.responded j x i m t.before hm hr hi
        exact ⟨u, hwin u hu, hrest⟩
      · exact ⟨u, by simp [t.written, Option.mem_def.mp hu], (hwr u hu).1, rfl⟩
    · obtain ⟨u, hu, hrest⟩ := h.responded j y i m (hother hj ▸ hy) hm hr hi
      exact ⟨u, hwin u hu, hrest⟩
  · obtain ⟨hhandler, hindex⟩ := hat
    rw [t.written, List.mem_append] at hu
    rw [t.invocations, List.mem_append] at hu'
    rcases hu with hu | hu <;> rcases hu' with hu' | hu'
    · exact h.refused u hu hcause u' hu' ⟨hhandler, hindex⟩
    · obtain ⟨hn, -⟩ := hv u' (by simpa using hu')
      obtain ⟨m, -, hans, -⟩ := h.write_at hu (by rw [← hhandler, hn]; exact t.before)
      exact (hrefused.1 u' (by simpa using hu')).1 (hindex ▸ hans)
    · obtain ⟨hn, -⟩ := hwr u (by simpa using hu)
      obtain ⟨-, -, hreach⟩ := h.invocation_at hu' (by rw [hhandler, hn]; exact t.before)
      exact hrefused.2 u (by simpa using hu) hcause (hindex ▸ hreach)
    · have hnone := (hrefused.1 u' (by simpa using hu')).2
      simp [hnone] at hu

theorem Recorded.same {s s' : ServerSocket} (h : s.Recorded) (hh : s'.handlers = s.handlers)
    (hi : s'.invocations = s.invocations) (hw : s'.written = s.written)
    (hc : s'.codec.config = s.codec.config) : s'.Recorded := by
  refine ⟨?_, ?_, ?_, fun wr hwr => ?_, ?_, ?_, ?_, ?_⟩
  · exact hh ▸ h.handler
  · rw [hi, hh]
    exact h.invocation
  · exact hi ▸ h.invokedOnce
  · obtain ⟨x, m, hx, hm, ha, hwrote⟩ := h.write wr (hw ▸ hwr)
    exact ⟨x, m, hh ▸ hx, hm, ha, hwrote.mono hc fun v hv => hi ▸ hv⟩
  · exact hw ▸ h.writtenOnce
  · rw [hh, hi]
    exact h.invoking
  · rw [hh, hw]
    exact h.responded
  · rw [hw, hi]
    exact h.refused

theorem recorded_new (server : ServerId) (codec : RpcCodec) : (new server codec).Recorded := by
  refine ⟨?_, ?_, List.nodup_nil, ?_, List.nodup_nil, ?_, ?_, ?_⟩ <;> simp [new]

theorem Recorded.receive {s : ServerSocket} (h : s.Recorded) (chunk : Buffer) :
    (s.receive chunk).Recorded := by
  have hold : ∀ {j : ℕ} {x : Handler}, s.handlers[j]? = some x →
      (s.receive chunk).handlers[j]? = some x := by
    intro j x hx
    rw [ServerSocket.receive, List.getElem?_append_left (List.getElem?_eq_some_iff.mp hx).1, hx]
  have hnew : ∀ {j : ℕ} {x : Handler}, (s.receive chunk).handlers[j]? = some x →
      s.handlers[j]? = some x ∨ (x.next = 0 ∧ x.phase = .running) := by
    intro j x hx
    rw [ServerSocket.receive, List.getElem?_append] at hx
    split_ifs at hx
    · exact Or.inl hx
    · obtain rfl := List.mem_singleton.mp (List.mem_of_getElem? hx)
      exact Or.inr ⟨rfl, rfl⟩
  refine ⟨fun j x hx => ?_, fun v hv => ?_, h.invokedOnce, fun wr hwr => ?_, h.writtenOnce,
    fun j x at' called hx hp => ?_, fun j x i m hx hm hr hi => ?_, h.refused⟩
  · rcases hnew hx with hx | ⟨hz, hp⟩
    · exact h.handler j x hx
    · exact ⟨by omega, by simp [hp], by simp [Handler.invoking, Handler.writing, hp]⟩
  · obtain ⟨x, hx, hrest⟩ := h.invocation v hv
    exact ⟨x, hold hx, hrest⟩
  · obtain ⟨x, m, hx, hm, ha, hw⟩ := h.write wr hwr
    exact ⟨x, m, hold hx, hm, ha, hw.mono (RpcCodec.push_config _ _) fun _ hv => hv⟩
  · rcases hnew hx with hx | ⟨hz, hr⟩
    · exact h.invoking j x at' called hx hp
    · cases hr.symm.trans hp
  · rcases hnew hx with hx | ⟨hz, hp⟩
    · exact h.responded j x i m hx hm hr hi
    · rcases hi with hlt | ⟨-, hi | hi⟩
      · omega
      · cases hp.symm.trans hi
      · cases hp.symm.trans hi

section Turns
variable {s t : ServerSocket} {n : ℕ} {x : Handler} {v : Option Invocation} {u : Option Write}

theorem turned_setPhase (hn : s.handlers[n]? = some x) (phase : Phase)
    (hh : t.handlers = s.handlers) (hc : t.codec = s.codec)
    (hi : t.invocations = s.invocations ++ v.toList) (hw : t.written = s.written ++ u.toList) :
    Turned s (t.setPhase n phase) n x { x with phase := phase } v u := by
  refine ⟨hn, fun j => ?_, rfl, congrArg RpcCodec.config hc, hi, hw⟩
  rw [setPhase, List.getElem?_modify, hh]
  by_cases hj : j = n
  · subst hj
    simp [hn]
  · simp [hj, Ne.symm hj]

theorem turned_advance (hn : s.handlers[n]? = some x)
    (hh : t.handlers = s.handlers) (hc : t.codec = s.codec)
    (hi : t.invocations = s.invocations ++ v.toList) (hw : t.written = s.written ++ u.toList) :
    Turned s (t.advance n) n x { x with next := x.next + 1, phase := .running } v u := by
  refine ⟨hn, fun j => ?_, rfl, congrArg RpcCodec.config hc, hi, hw⟩
  rw [advance, List.getElem?_modify, hh]
  by_cases hj : j = n
  · subst hj
    simp [hn]
  · simp [hj, Ne.symm hj]

theorem written_write_toList (s : ServerSocket) (u : Write) :
    (s.write u).written = s.written ++ (if s.doomed then none else some u).toList := by
  rw [written_write]
  split_ifs <;> rfl

end Turns

end ServerSocket

namespace Handler

/-- A handler whose turn of message `next` is over. -/
theorem Wf.advance {x : Handler} (h : x.next < x.messages.length) :
    Wf { x with next := x.next + 1, phase := .running } :=
  ⟨h, (by simp), by simp [Handler.invoking, Handler.writing]⟩

theorem Reached.advance {x : Handler} {i : ℕ} (h : x.Reached i) :
    Reached { x with next := x.next + 1, phase := .running } i := by
  rcases h with h | ⟨h, -⟩
  · exact Or.inl (Nat.lt_succ_of_lt h)
  · exact Or.inl (by simp [h])

theorem Answered.advance {x : Handler} {i : ℕ} (h : x.Answered i) :
    Answered { x with next := x.next + 1, phase := .running } i := by
  rcases h with h | ⟨h, -⟩
  · exact Or.inl (Nat.lt_succ_of_lt h)
  · exact Or.inl (by simp [h])

theorem responded_advance {x : Handler} {i : ℕ}
    (h : Responded { x with next := x.next + 1, phase := .running } i) : i < x.next ∨ i = x.next := by
  rcases h with h | ⟨-, h | h⟩
  · exact Nat.lt_or_eq_of_le (Nat.le_of_lt_succ h)
  · cases h
  · cases h

/-- A change of phase alone keeps what may have happened, unless it leaves a phase that
allowed it. -/
theorem Wf.fail {x : Handler} (h : x.Wf) : Wf { x with phase := .failed } :=
  ⟨h.bound, (by simp), by simp [Handler.invoking, Handler.writing]⟩

theorem Reached.fail {x : Handler} {i : ℕ} (h : x.Reached i) :
    Reached { x with phase := .failed } i :=
  h.imp id fun h => ⟨h.1, Or.inr rfl⟩

theorem Answered.fail {x : Handler} {i : ℕ} (h : x.Answered i) :
    Answered { x with phase := .failed } i :=
  h.imp id fun h => ⟨h.1, Or.inr rfl⟩

theorem responded_fail {x : Handler} {i : ℕ} (h : Responded { x with phase := .failed } i) :
    x.Responded i := by
  rcases h with h | ⟨-, h | h⟩
  · exact Or.inl h
  · cases h
  · cases h

/-- In a turn nothing has happened yet for the message at hand. -/
theorem reached_running {x : Handler} (hp : x.phase = .running) {i : ℕ} :
    x.Reached i ↔ i < x.next := by
  simp [Reached, Handler.active, hp]

theorem answered_running {x : Handler} (hp : x.phase = .running) {i : ℕ} :
    x.Answered i ↔ i < x.next := by
  simp [Answered, Handler.writing, hp]

theorem lt_of_message {x : Handler} {m : JsValue} (hm : x.messages[x.next]? = some m) :
    x.next < x.messages.length := (List.getElem?_eq_some_iff.mp hm).1

end Handler

namespace ServerSocket

theorem Recorded.fail {s : ServerSocket} {n : ℕ} {x : Handler} (h : s.Recorded)
    (hn : s.handlers[n]? = some x) : (s.setPhase n .failed).Recorded := by
  refine h.turned (turned_setPhase (v := none) (u := none) hn .failed rfl rfl (by simp) (by simp))
    (h.handler n x hn).fail (fun _ => .fail) (fun _ => .fail) (by simp) (by simp) (by simp) (by simp)
    fun i m _ _ hi => Or.inl (Handler.responded_fail hi)

/-- The write of a request or of none is over. -/
theorem Recorded.advance {s : ServerSocket} {n : ℕ} {x : Handler} (h : s.Recorded)
    (hn : s.handlers[n]? = some x) {m : JsValue} (hm : x.messages[x.next]? = some m)
    (hr : IsRequest m → x.Responded x.next) : (s.advance n).Recorded := by
  refine h.turned (turned_advance (v := none) (u := none) hn rfl rfl (by simp) (by simp))
    (.advance (Handler.lt_of_message hm)) (fun _ => .advance) (fun _ => .advance) (by simp)
    (by simp) (by simp) (by simp) fun i m' hm' hreq hi => Or.inl ?_
  rcases Handler.responded_advance hi with hlt | rfl
  · exact Or.inl hlt
  · obtain rfl := Option.some.inj (hm.symm.trans hm')
    exact hr hreq

theorem Recorded.micro {k : SocketId} {w w' : World} (h : (w.conns k).Recorded)
    (hmicro : Micro k w w') : (w'.conns k).Recorded := by
  cases hmicro with
  | receive =>
    rw [World.conns_updateSocket_self]
    exact h.receive _
  | reject =>
    rw [World.conns_updateSocket_self]
    exact ((h.receive _).fail (handlers_receive_last _ _)).same rfl rfl rfl rfl
  | skip turn hreq _ =>
    rw [World.conns_updateSocket_self]
    exact h.advance turn.handler turn.message fun hr => absurd hr hreq
  | @pong n x m now payload turn hreq hping henc =>
    rw [World.conns_updateSocket_self]
    refine h.turned (turned_advance (v := none) turn.handler (handlers_write _ _) (codec_write _ _)
      (by simp) (written_write_toList _ _)) (.advance (Handler.lt_of_message turn.message))
      (fun _ => .advance) (fun _ => .advance) (by simp) (fun u hu => ?_)
      ⟨by simp, fun u hu hc => ?_⟩ (by simp) fun i m' hm' hr hi => Or.inl ?_
    · obtain ⟨-, rfl⟩ := by simpa using hu
      refine ⟨rfl, ?_, Or.inl (Nat.lt_succ_self _), m, turn.message, ?_, hping, now, rfl⟩
      · simp [Handler.answered_running turn.running]
      · simpa [ServerSocket.advance, RpcCodec.encode] using henc
    · obtain ⟨-, rfl⟩ := by simpa using hu
      cases hc
    · rcases Handler.responded_advance hi with hlt | rfl
      · exact Or.inl hlt
      · obtain rfl := Option.some.inj (turn.message.symm.trans hm')
        exact absurd hr hreq
  | @refuse n x m payload turn hreq _ henc =>
    rw [World.conns_updateSocket_self]
    refine h.turned (turned_setPhase (v := none) turn.handler _ (handlers_write _ _)
      (codec_write _ _) (by simp) (written_write_toList _ _)) ⟨?_, (by simp), fun _ => ?_⟩
      (fun i hi => Or.inl ((Handler.reached_running turn.running).mp hi))
      (fun i hi => Or.inl ((Handler.answered_running turn.running).mp hi)) (by simp)
      (fun u hu => ?_) ⟨by simp, fun u hu _ => ?_⟩ (by simp) fun i m' _ _ hi => ?_
    · exact (h.handler n x turn.handler).bound
    · exact ⟨m, turn.message, hreq⟩
    · obtain ⟨-, rfl⟩ := by simpa using hu
      refine ⟨rfl, ?_, Or.inr ⟨rfl, Or.inl rfl⟩, m, turn.message, ?_, hreq, rfl⟩
      · simp [Handler.answered_running turn.running]
      · simpa [ServerSocket.setPhase, RpcCodec.encode] using henc
    · obtain ⟨-, rfl⟩ := by simpa using hu
      simp [Handler.reached_running turn.running]
    · rcases hi with hlt | ⟨rfl, hp | hp⟩
      · exact Or.inl (Or.inl hlt)
      · cases hp
      · simp only [Phase.refusing.injEq] at hp
        exact Or.inr ⟨_, by rw [hp]; rfl, rfl⟩
  | @start n x m now turn hreq _ =>
    unfold World.start
    simp only [World.conns_updateSocket_self]
    refine h.turned (turned_setPhase (v := some ⟨n, x.next, m, MethodInvoker.call w.registry m⟩)
      (u := none) (t := (w.conns k).invoke _) turn.handler _ rfl rfl rfl (by simp [invoke]))
      ⟨?_, (by simp), fun _ => ?_⟩
      (fun i hi => Or.inl ((Handler.reached_running turn.running).mp hi))
      (fun i hi => Or.inl ((Handler.answered_running turn.running).mp hi)) (fun u hu => ?_)
      (by simp) ⟨fun u hu => ⟨?_, rfl⟩, by simp⟩ (fun at' called hp => ?_) fun i m' _ _ hi => ?_
    · exact (h.handler n x turn.handler).bound
    · exact ⟨m, turn.message, hreq⟩
    · obtain rfl := by simpa using hu
      refine ⟨rfl, ?_, Or.inr ⟨rfl, Or.inl rfl⟩, turn.message, hreq⟩
      simp [Handler.reached_running turn.running]
    · obtain rfl := by simpa using hu
      simp [Handler.answered_running turn.running]
    · obtain ⟨-, rfl⟩ := by simpa using hp
      exact ⟨⟨n, x.next, m, MethodInvoker.call w.registry m⟩, by simp [invoke, setPhase], rfl, rfl,
        rfl⟩
    · rcases hi with hlt | ⟨-, hp | hp⟩
      · exact Or.inl (Or.inl hlt)
      · cases hp
      · cases hp
  | @done n x hn hrun hover =>
    rw [World.conns_updateSocket_self]
    have hwf := h.handler n x hn
    refine h.turned (turned_setPhase (v := none) (u := none) hn .done rfl rfl (by simp) (by simp))
      ⟨hwf.bound, fun _ => Nat.le_antisymm hwf.bound hover, ?_⟩
      (fun i hi => Or.inl ((Handler.reached_running hrun).mp hi))
      (fun i hi => Or.inl ((Handler.answered_running hrun).mp hi)) (by simp) (by simp) (by simp) (by simp)
      fun i m' _ _ hi => Or.inl ?_
    · simp [Handler.invoking, Handler.writing]
    · rcases hi with hlt | ⟨-, hp | hp⟩
      · exact Or.inl hlt
      · cases hp
      · cases hp
  | fail hn _ =>
    rw [World.conns_updateSocket_self]
    exact (h.fail hn).same rfl rfl rfl rfl
  | @respond n x m startedAt called response payload returned hn hinv hm hconv henc =>
    rw [World.conns_updateSocket_self]
    have hwf := h.handler n x hn
    have hreq : IsRequest m := by
      obtain ⟨m', hm', hreq⟩ := hwf.suspended (Or.inl (by simp [Handler.invoking, hinv]))
      obtain rfl := Option.some.inj (hm.symm.trans hm')
      exact hreq
    refine h.turned (turned_setPhase (v := none) hn _ (handlers_write _ _) (codec_write _ _)
      (by simp) (written_write_toList _ _)) ⟨hwf.bound, (by simp), fun _ => ⟨m, hm, hreq⟩⟩
      (fun i hi => hi.imp id fun hi => ⟨hi.1, Or.inl rfl⟩)
      (fun i hi => hi.imp id fun hi => ⟨hi.1, Or.inl rfl⟩) (by simp) (fun u hu => ?_)
      ⟨by simp, fun u hu hc => ?_⟩ (by simp) fun i m' _ _ hi => ?_
    · obtain ⟨-, rfl⟩ := by simpa using hu
      obtain ⟨u, hu, hun, hui, huc⟩ := h.invoking n x startedAt called hn hinv
      refine ⟨rfl, ?_, Or.inr ⟨rfl, Or.inl rfl⟩, m, hm, ?_, hreq, hconv, u, ?_, hun, hui, returned,
        by rw [huc]⟩
      · simp [Handler.Answered, Handler.writing, hinv]
      · simpa [ServerSocket.setPhase, RpcCodec.encode] using henc
      · simpa [ServerSocket.setPhase] using hu
    · obtain ⟨-, rfl⟩ := by simpa using hu
      cases hc
    · rcases hi with hlt | ⟨rfl, hp | hp⟩
      · exact Or.inl (Or.inl hlt)
      · simp only [Phase.responding.injEq] at hp
        exact Or.inr ⟨_, by rw [hp]; rfl, rfl⟩
      · cases hp
  | abort hn _ =>
    rw [World.conns_finishRequest, World.conns_updateSocket_self]
    exact h.fail hn
  | @finish n x hn hp =>
    rw [World.conns_finishRequest, World.conns_updateSocket_self]
    obtain ⟨m, hm, -⟩ := (h.handler n x hn).suspended (Or.inr (by simp [Handler.writing, hp]))
    exact h.advance hn hm fun _ => Or.inr ⟨rfl, Or.inl hp⟩
  | @resume n x hn hp =>
    rw [World.conns_updateSocket_self]
    obtain ⟨m, hm, -⟩ := (h.handler n x hn).suspended (Or.inr (by simp [Handler.writing, hp]))
    exact h.advance hn hm fun _ => Or.inr ⟨rfl, Or.inr hp⟩

end ServerSocket

namespace ServerSocket

/-- What a handler writes for a message is recorded with it. -/
theorem Recorded.wrote {s : ServerSocket} (h : s.Recorded) {n i : ℕ} {x : Handler} {m : JsValue}
    {wr : Write} (hx : s.handlers[n]? = some x) (hm : x.messages[i]? = some m)
    (hwr : wr ∈ s.written) (hn : wr.handler = n) (hi : wr.index = i) : s.Wrote m wr := by
  subst hn hi
  obtain ⟨m', hm', -, hw⟩ := h.write_at hwr hx
  obtain rfl := Option.some.inj (hm.symm.trans hm')
  exact hw

theorem Wrote.not_pong {s : ServerSocket} {m : JsValue} {wr : Write} (h : s.Wrote m wr)
    (hreq : IsRequest m) : wr.cause ≠ .pong := by
  intro hc
  have hcause := h.cause
  simp only [hc, IsPing] at hcause
  exact absurd (hcause.1.symm.trans hreq) (by simp)

/-- The reply to request `q`: it was refused, or its method has ended. -/
inductive Replies (s : ServerSocket) (q : JsValue) (wr : Write) : Prop
  | refused (cause : wr.cause = .refusal) (message : wr.message = drainingResponse q)
  | ended {v : Invocation} {outcome : Except Thrown JsValue} (cause : wr.cause = .response outcome)
      (response : MethodInvoker.response q outcome = .ok wr.message) (invoked : v ∈ s.invocations)
      (place : v.handler = wr.handler ∧ v.index = wr.index) (request : v.request = q)
      (returned : ∃ returned, outcome = MethodInvoker.outcome v.called returned)

/-- A packet of the type `response` is the reply to a request. -/
theorem Recorded.replies {s : ServerSocket} (h : s.Recorded) {wr : Write} (hwr : wr ∈ s.written)
    (htype : wr.message.prop "type" = .string "response") : ∃ x q,
      s.handlers[wr.handler]? = some x ∧ x.messages[wr.index]? = some q ∧ IsRequest q ∧
        s.Replies q wr := by
  obtain ⟨x, q, hx, hq, -, hwrote⟩ := h.write wr hwr
  have hcause := hwrote.cause
  cases hc : wr.cause with
  | pong =>
    simp only [hc] at hcause
    obtain ⟨-, now, hpong⟩ := hcause
    simp [hpong, pongMessage] at htype
  | refusal =>
    simp only [hc] at hcause
    obtain ⟨hreq, hmessage⟩ := hcause
    exact ⟨x, q, hx, hq, hreq, .refused hc hmessage⟩
  | response outcome =>
    simp only [hc] at hcause
    obtain ⟨hreq, hresponse, v, hv, hn, hi, hreturned⟩ := hcause
    obtain ⟨x', hx', hrequest, -⟩ := h.invocation v hv
    rw [hn] at hx'
    rw [hi] at hrequest
    obtain rfl := Option.some.inj (hx.symm.trans hx')
    exact ⟨x, q, hx, hq, hreq, .ended hc hresponse hv ⟨hn, hi⟩
      (Option.some.inj (hrequest.symm.trans hq)) hreturned⟩

theorem Replies.fields {s : ServerSocket} {q : JsValue} {wr : Write} (h : s.Replies q wr) :
    wr.message.prop "toJSON" = .undefined ∧ wr.message.prop "id" = q.prop "id" := by
  cases h with
  | refused _ message =>
    rw [message]
    refine ⟨?_, rfl⟩
    unfold drainingResponse
    split_ifs <;> rfl
  | @ended v outcome _ response =>
    cases outcome with
    | ok value =>
      obtain hmessage : successResponse q value = wr.message := Except.ok.inj response
      rw [← hmessage]
      exact ⟨rfl, rfl⟩
    | error thrown =>
      obtain ⟨error, -, he⟩ := Except.bind_eq_ok_iff.mp response
      obtain hmessage : failureResponse q error = wr.message := Except.ok.inj he
      rw [← hmessage]
      exact ⟨rfl, rfl⟩

/-- A request that was invoked and whose turn is over has its response. -/
theorem Recorded.response {s : ServerSocket} (h : s.Recorded) {v : Invocation}
    (hv : v ∈ s.invocations) {x : Handler} (hx : s.handlers[v.handler]? = some x)
    (hr : x.Responded v.index) : ∃ wr ∈ s.written, wr.handler = v.handler ∧ wr.index = v.index ∧
      ∃ outcome, wr.cause = .response outcome := by
  obtain ⟨hm, hreq, -⟩ := h.invocation_at hv hx
  obtain ⟨wr, hwr, hn, hi⟩ := h.responded v.handler x v.index v.request hx hm hreq hr
  refine ⟨wr, hwr, hn, hi, ?_⟩
  have hw := h.wrote hx hm hwr hn hi
  cases hc : wr.cause with
  | pong => exact absurd hc (hw.not_pong hreq)
  | refusal => exact absurd ⟨hn.symm, hi.symm⟩ (h.refused wr hwr hc v hv)
  | response outcome => exact ⟨outcome, rfl⟩

/-- A request that was not invoked and whose turn is over has been refused. -/
theorem Recorded.refusal {s : ServerSocket} (h : s.Recorded) {n i : ℕ} {x : Handler} {m : JsValue}
    (hx : s.handlers[n]? = some x) (hm : x.messages[i]? = some m) (hreq : IsRequest m)
    (hr : x.Responded i) (hno : ∀ v ∈ s.invocations, ¬ (v.handler = n ∧ v.index = i)) :
    ∃ wr ∈ s.written, wr.handler = n ∧ wr.index = i ∧ wr.cause = .refusal ∧
      wr.message = drainingResponse m := by
  obtain ⟨wr, hwr, hn, hi⟩ := h.responded n x i m hx hm hreq hr
  have hw := h.wrote hx hm hwr hn hi
  have hcause := hw.cause
  refine ⟨wr, hwr, hn, hi, ?_⟩
  cases hc : wr.cause with
  | pong => exact absurd hc (hw.not_pong hreq)
  | refusal =>
    simp only [hc] at hcause
    exact ⟨rfl, hcause.2⟩
  | response outcome =>
    simp only [hc] at hcause
    obtain ⟨-, -, v, hv, hvn, hvi, -⟩ := hcause
    exact absurd ⟨hvn.trans hn, hvi.trans hi⟩ (hno v hv)

end ServerSocket

theorem Reachable.recorded {w : World} (h : Reachable w) :
    ∀ k < w.nextSocket, (w.conns k).Recorded :=
  h.conns (fun n codec _ => ServerSocket.recorded_new n codec) (fun _ _ _ hr hm => hr.micro hm)
    fun _ _ _ _ _ hr => hr.same rfl rfl rfl rfl

end WeisleyRpc.Server
