import WeisleyRpc.ServerDrain
import WeisleyRpc.ServerTurns

/-!
# What holds from a graceful close on

Until the server listens again no method is called. The sockets that are left are
destroyed by `close` itself only when no request is active or its timer has fired.
-/

namespace WeisleyRpc.Server

/-- On a closed socket no handler is in a turn or awaits a write that can succeed. -/
def ServerSocket.Shut (s : ServerSocket) : Prop :=
  s.closed = true → s.destroyed = true ∧
    ∀ (n : ℕ) (x : Handler), s.handlers[n]? = some x →
      x.phase ≠ .running ∧ x.phase ≠ .responding false ∧ ∀ doomed, x.phase ≠ .refusing doomed

namespace ServerSocket

theorem shut_new (server : ServerId) (codec : RpcCodec) : (new server codec).Shut := by
  intro hc
  cases hc

theorem shut_of_alive {s : ServerSocket} (h : s.Shut) (hd : s.destroyed = false) :
    s.closed = false := by
  by_contra hc
  exact absurd (h (by simpa using hc)).1 (by simp [hd])

theorem Shut.setPhase {s t : ServerSocket} (h : s.Shut) (hh : t.handlers = s.handlers)
    (hc : t.closed = true → s.closed = true) (hd : s.destroyed = true → t.destroyed = true)
    {phase : Phase}
    (hp : s.closed = true →
      phase ≠ .running ∧ phase ≠ .responding false ∧ ∀ doomed, phase ≠ .refusing doomed)
    (n : ℕ) : (t.setPhase n phase).Shut := by
  intro hclosed
  have hs := hc hclosed
  refine ⟨hd (h hs).1, fun j y hy => ?_⟩
  rw [ServerSocket.setPhase, List.getElem?_modify, hh] at hy
  obtain ⟨x, hx, rfl⟩ := Option.map_eq_some_iff.mp hy
  split_ifs
  · exact hp hs
  · exact (h hs).2 j x hx

theorem Shut.turn {s : ServerSocket} (h : s.Shut) {n : ℕ} {x : Handler}
    (hn : s.handlers[n]? = some x) (hp : x.phase = .running) : s.closed = false := by
  by_contra hc
  exact ((h (by simpa using hc)).2 n x hn).1 hp

theorem shut_of_open {s : ServerSocket} (h : s.closed = false) : s.Shut := fun hc =>
  absurd hc (by simp [h])

theorem Shut.micro {k : SocketId} {w w' : World} (h : (w.conns k).Shut) (hm : Micro k w w') :
    (w'.conns k).Shut := by
  cases hm with
  | receive halive =>
    rw [World.conns_updateSocket_self]
    have hopen := shut_of_alive h halive
    exact shut_of_open hopen
  | reject halive =>
    rw [World.conns_updateSocket_self]
    have hopen := shut_of_alive h halive
    exact shut_of_open hopen
  | skip turn =>
    rw [World.conns_updateSocket_self]
    exact shut_of_open (h.turn turn.handler turn.running)
  | pong turn =>
    rw [World.conns_updateSocket_self]
    refine shut_of_open ?_
    rw [advance, closed_write]
    exact h.turn turn.handler turn.running
  | refuse turn =>
    rw [World.conns_updateSocket_self]
    refine shut_of_open ?_
    rw [ServerSocket.setPhase, closed_write]
    exact h.turn turn.handler turn.running
  | start now turn =>
    rw [World.start, World.conns_updateSocket_self]
    exact shut_of_open (h.turn turn.handler turn.running)
  | done hn hrun =>
    rw [World.conns_updateSocket_self]
    exact shut_of_open (h.turn hn hrun)
  | @fail n x hn _ =>
    rw [World.conns_updateSocket_self]
    exact h.setPhase (t := (w.conns k).destroy) rfl id (fun _ => rfl) (by simp) n
  | @respond n x m at' called response payload returned hn hinv =>
    rw [World.conns_updateSocket_self]
    refine h.setPhase (handlers_write _ _) (by simp) (fun hd => ?_) (fun hc => ?_) n
    · simp [ServerSocket.write, hd]
    · simp [doomed, (h hc).1]
  | @abort n x hn _ =>
    rw [World.conns_finishRequest, World.conns_updateSocket_self]
    exact h.setPhase rfl id id (by simp) n
  | @finish n x hn hp =>
    rw [World.conns_finishRequest, World.conns_updateSocket_self]
    refine shut_of_open ?_
    by_contra hc
    exact ((h (by simpa [advance] using hc)).2 n x hn).2.1 hp
  | @resume n x hn hp =>
    rw [World.conns_updateSocket_self]
    refine shut_of_open ?_
    by_contra hc
    exact ((h (by simpa [advance] using hc)).2 n x hn).2.2 false hp

end ServerSocket

namespace World

def Shut (w : World) : Prop := ∀ k < w.nextSocket, (w.conns k).Shut

theorem Shut.micros {k : SocketId} {w w' : World} (h : w.Shut) (hm : Micros k w w') :
    w'.Shut := by
  intro k' hk'
  rw [hm.same.nextSocket] at hk'
  by_cases hkk : k' = k
  · subst hkk
    exact hm.invariant (I := fun v => (v.conns k').Shut) (fun _ _ hs hi => hi.micro hs) (h k' hk')
  · rw [hm.conns_ne hkk]
    exact h k' hk'

theorem Shut.update {w : World} (h : w.Shut) {k : SocketId} {f : ServerSocket → ServerSocket}
    (hf : k < w.nextSocket → (f (w.conns k)).Shut) : (w.updateSocket k f).Shut := by
  intro k' hk'
  rw [conns_updateSocket]
  split_ifs with hkk
  · exact hf (hkk ▸ hk')
  · exact h k' hk'

theorem shut_destroy {s : ServerSocket} (h : s.Shut) : s.destroy.Shut := fun hc =>
  ⟨rfl, (h hc).2⟩

theorem Shut.step {w w' : World} {e : Event} (h : w.Shut) (hs : machine.Step w e w') :
    w'.Shut := by
  cases answer_of_step hs with
  | turn _ _ hrun => exact h.micros hrun
  | registerService => exact h
  | listen => exact h
  | listening => exact h
  | listenError => exact h
  | connection =>
    intro k hk
    simp only [Function.update_apply]
    split_ifs with hkn
    · exact ServerSocket.shut_new _ _
    · exact h k (Nat.lt_of_le_of_ne (Nat.le_of_lt_succ hk) hkn)
  | peerEnd => exact h.update fun hk => h _ hk
  | finished => exact h.update fun hk => shut_destroy (h _ hk)
  | @socketClose k _ hd hidle =>
    refine h.update (f := fun s => { s with closed := true }) fun _ _ => ⟨hd, fun n x hx => ?_⟩
    have hbusy := hidle x (List.mem_of_getElem? hx)
    refine ⟨fun hp => ?_, fun hp => ?_, fun doomed hp => ?_⟩ <;> simp [Handler.busy, hp] at hbusy
  | close o =>
    intro k hk
    rw [nextSocket_close] at hk
    rcases conns_close w o k with he | he <;> rw [he]
    · exact h k hk
    · exact shut_destroy (h k hk)
  | drainTimeout => exact h
  | resumeDrain =>
    intro k hk
    change (w.closeConnections.conns k).Shut
    rw [conns_closeConnections]
    split_ifs
    · exact shut_destroy (h k hk)
    · exact h k hk
  | closeCallback => exact h
  | resumeClose _ _ hc =>
    obtain ⟨result, -, he⟩ := resumeClose_cases hc
    rw [he]
    exact h

/-- No `net.Server` takes connections, and the server drains or has no open socket. -/
structure Quiesced (w : World) : Prop where
  servers : ∀ n < w.nextServer, w.servers n ≠ .listening
  state : w.state = .draining ∨ ∀ k < w.nextSocket, (w.conns k).closed = true

theorem ServersWf.closed {w : World} (h : w.ServersWf)
    (hl : ∀ n < w.nextServer, w.servers n ≠ .listening)
    (hc : ∀ n < w.nextServer, w.servers n ≠ .closing) :
    ∀ k < w.nextSocket, (w.conns k).closed = true := by
  intro k hk
  obtain ⟨hlt, hst, hfl⟩ := h.socket k hk
  cases hs : w.servers (w.conns k).server with
  | starting => exact absurd hs hst
  | failed => exact absurd hs hfl
  | listening => exact absurd hs (hl _ hlt)
  | closing => exact absurd hs (hc _ hlt)
  | closed => exact h.gone _ hlt hs k hk rfl

theorem ServersWf.not_closing {w : World} (h : w.ServersWf) {n : ServerId} (hn : w.server = some n) :
    ∀ m < w.nextServer, w.servers m ≠ .closing := by
  intro m hm hs
  obtain ⟨c, hc, hf, -⟩ := h.closing m hm hs
  exact absurd ((h.idle n hn).2.2.2 c hc) (by simp [hf])

theorem quiesced_close {w : World} (h : w.ServersWf) {n : ServerId} (hn : w.server = some n)
    (hl : w.servers n = .listening) {o : RpcServerCloseOptions} (hg : o.graceful = true) :
    (w.close o).Quiesced := by
  have hservers : ∀ m < w.nextServer, (if w.servers n = .listening then
      Function.update w.servers n .closing else w.servers) m ≠ .listening := by
    intro m hm
    rw [if_pos hl, Function.update_apply]
    split_ifs with hmn
    · simp
    · intro hs
      exact hmn (Option.some.inj ((h.current m hm (Or.inr hs)).symm.trans hn))
  rcases close_cases w o with ⟨hs, -⟩ | ⟨m, hm, ⟨-, -, he⟩ | ⟨-, -, he⟩ | ⟨hf, -⟩⟩
  · cases hs.symm.trans hn
  · obtain rfl := Option.some.inj (hm.symm.trans hn)
    rw [he, beginDrain, closeServer_eq]
    exact ⟨hservers, Or.inl rfl⟩
  · obtain rfl := Option.some.inj (hm.symm.trans hn)
    rw [he, beginDrain, closeServer_eq]
    exact ⟨hservers, Or.inl rfl⟩
  · cases hf.symm.trans hg

theorem Quiesced.same {w v : World} (h : w.Quiesced) (hs : v.state = w.state)
    (hl : SameLifecycle w v) : v.Quiesced := by
  refine ⟨?_, ?_⟩
  · rw [hl.nextServer, hl.servers]
    exact h.servers
  · rw [hs, hl.nextSocket]
    exact h.state.imp id fun hc k hk => (hl.conn k).2 (hc k hk)

/-- A further `close` finds no open socket or a `net.Server` that it cannot drain. -/
theorem Quiesced.close {w : World} (h : w.Quiesced) (hw : w.ServersWf)
    (o : RpcServerCloseOptions) : (w.close o).Quiesced := by
  have hservers : ∀ n, ∀ m < w.nextServer, (if w.servers n = .listening then
      Function.update w.servers n .closing else w.servers) m ≠ .listening := by
    intro n m hm
    split_ifs
    · rw [Function.update_apply]
      split_ifs
      · simp
      · exact h.servers m hm
    · exact h.servers m hm
  rcases close_cases w o with ⟨-, he⟩ | ⟨n, hn, ⟨-, -, he⟩ | ⟨-, -, he⟩ | ⟨-, he⟩⟩ <;> rw [he]
  · exact ⟨h.servers, h.state⟩
  · rw [beginDrain, closeServer_eq]
    exact ⟨hservers n, Or.inl rfl⟩
  · rw [beginDrain, closeServer_eq]
    exact ⟨hservers n, Or.inl rfl⟩
  · rw [beginClose, closeServer_eq]
    refine ⟨hservers n, Or.inr fun k hk => ?_⟩
    have hclosed := hw.closed h.servers (hw.not_closing hn) k hk
    change ((closeConnections _).conns k).closed = true
    rw [conns_closeConnections]
    split_ifs <;> exact hclosed

/-- The environment after a graceful close: no `listen` runs concurrently with another one
or with a `close`, and the server does not yet listen again. -/
def NotListening (w : World) (e : Event) : Prop := Exclusive w e ∧ ∀ n, e ≠ .listening n

theorem Quiesced.step {w w' : World} {e : Event} (h : w.Quiesced) (hw : w.ServersWf)
    (hs : (machine.guard NotListening).Step w e w') : w'.Quiesced := by
  obtain ⟨⟨-, hno⟩, hs⟩ := Machine.guard_step.mp hs
  cases answer_of_step hs with
  | turn _ _ hrun => exact h.same hrun.same.state (sameLifecycle_micros hrun)
  | registerService => exact ⟨h.servers, h.state⟩
  | listen =>
    refine ⟨fun n hn => ?_, h.state⟩
    simp only [World.listen, Function.update_apply]
    split_ifs with hnn
    · simp
    · exact h.servers n (Nat.lt_of_le_of_ne (Nat.le_of_lt_succ hn) hnn)
  | @listening n => exact absurd rfl (hno n)
  | @listenError n =>
    refine ⟨fun m hm => ?_, h.state⟩
    simp only [Function.update_apply]
    split_ifs
    · simp
    · exact h.servers m hm
  | @connection n _ hlt hl => exact absurd hl (h.servers n hlt)
  | peerEnd => exact h.same rfl (sameLifecycle_updateSocket w _ rfl id)
  | finished => exact h.same rfl (sameLifecycle_updateSocket w _ rfl id)
  | @socketClose k =>
    have hu := sameLifecycle_updateSocket w k (f := fun s => { s with closed := true }) rfl
      fun _ => rfl
    exact h.same rfl ⟨rfl, rfl, rfl, rfl, rfl, hu.conn, hu.closer⟩
  | close o => exact h.close hw o
  | drainTimeout => exact ⟨h.servers, h.state⟩
  | resumeDrain _ hp _ => exact h.same rfl (sameLifecycle_resumeDrain hp)
  | @closeCallback c n =>
    refine ⟨fun m hm => ?_, h.state⟩
    simp only [World.closedServer]
    split_ifs
    · rw [Function.update_apply]
      split_ifs
      · simp
      · exact h.servers m hm
    · exact h.servers m hm
  | @resumeClose c hlt hp hc =>
    obtain ⟨result, hr, he⟩ := resumeClose_cases hc
    rw [he]
    refine ⟨h.servers, ?_⟩
    split_ifs with hok
    · refine Or.inr (hw.closed h.servers fun n hn hs => ?_)
      -- `c` is the only `close` under way, and its `net.Server` is closed
      obtain ⟨c', hc', hf, -, -, hcl⟩ := hw.closing n hn hs
      obtain rfl := hw.single c' hc' c hlt hf (by simp [Closer.isFinished, hp])
      cases hcl.symm.trans hr
    · exact h.state

theorem invocations_micros {k : SocketId} {w w' : World} (hm : Micros k w w')
    (hs : (w.conns k).Shut) (hq : w.state = .draining ∨ (w.conns k).closed = true) :
    (w'.conns k).invocations = (w.conns k).invocations := by
  refine (hm.invariant (I := fun v => (v.conns k).Shut ∧
    (v.state = .draining ∨ (v.conns k).closed = true) ∧
      (v.conns k).invocations = (w.conns k).invocations) (fun u v hm hu => ?_) ⟨hs, hq, rfl⟩).2.2
  obtain ⟨hs, hq, hi⟩ := hu
  refine ⟨hs.micro hm, hq.imp hm.same.state.trans ((sameLifecycle_micro hm).conn k).2, ?_⟩
  rcases hm.invocations with hsame | ⟨n, h, m, now, turn, hnd, -⟩
  · exact hsame.trans hi
  · have hopen := hs.turn turn.handler turn.running
    rcases hq with hd | hc
    · exact absurd hd hnd
    · exact absurd hc (by simp [hopen])

theorem Quiesced.invocations {w w' : World} {e : Event} (h : w.Quiesced) (hshut : w.Shut)
    (ha : Answer w e w') (k : SocketId) :
    (w'.conns k).invocations = (w.conns k).invocations := by
  have hupdate : ∀ k₀ (f : ServerSocket → ServerSocket), (∀ s, (f s).invocations = s.invocations) →
      ((w.updateSocket k₀ f).conns k).invocations = (w.conns k).invocations := by
    intro k₀ f hf
    rw [conns_updateSocket]
    split_ifs with hkk
    · rw [hf, hkk]
    · rfl
  cases ha with
  | @turn _ k₀ _ _ hlt hrun =>
    by_cases hkk : k = k₀
    · subst hkk
      exact invocations_micros hrun (hshut k hlt) (h.state.imp id fun hc => hc k hlt)
    · rw [hrun.conns_ne hkk]
  | @connection n _ hlt hl => exact absurd hl (h.servers n hlt)
  | peerEnd => exact hupdate _ _ fun _ => rfl
  | finished => exact hupdate _ _ fun _ => rfl
  | @socketClose k₀ => exact hupdate k₀ (fun s => { s with closed := true }) fun _ => rfl
  | close o => rcases conns_close w o k with he | he <;> rw [he]; rfl
  | resumeDrain =>
    change (w.closeConnections.conns k).invocations = _
    rw [conns_closeConnections]
    split_ifs <;> rfl
  | resumeClose _ _ hc =>
    obtain ⟨result, -, he⟩ := resumeClose_cases hc
    rw [he]
    rfl
  | _ => rfl

/-- After a graceful close the sockets are destroyed by events of their own or by the
`close` that goes on. -/
theorem Quiesced.destroyed {w w' : World} {e : Event} {k : SocketId} (h : w.Quiesced)
    (hw : w.ServersWf) (hshut : w.Shut) (ha : Answer w e w') (hk : k < w.nextSocket)
    (halive : (w.conns k).destroyed = false) (hd : (w'.conns k).destroyed = true) :
    e.socket = some k ∨ ∃ c, e = .resumeDrain c ∧ c < w.nextCloser ∧
      (w.closers c).phase = .draining ∧ (w.closers c).drained = true := by
  have hsame : w'.conns k ≠ w.conns k := fun he => by simp [he, halive] at hd
  have hupdate : ∀ k₀ (f : ServerSocket → ServerSocket),
      (w.updateSocket k₀ f).conns k ≠ w.conns k → some k₀ = some k := by
    intro k₀ f hne
    by_contra hkk
    refine hne ?_
    rw [conns_updateSocket, if_neg fun he => hkk (congrArg some he.symm)]
  cases ha with
  | @turn _ k₀ _ hsocket _ hrun =>
    by_cases hkk : k = k₀
    · exact Or.inl (hkk ▸ Event.socket_of_turn hsocket)
    · exact absurd (hrun.conns_ne hkk) hsame
  | connection =>
    refine absurd ?_ hsame
    simp only [Function.update_apply, if_neg (Nat.ne_of_lt hk)]
  | peerEnd => exact Or.inl (hupdate _ _ hsame)
  | finished => exact Or.inl (hupdate _ _ hsame)
  | @socketClose k₀ => exact Or.inl (hupdate k₀ (fun s => { s with closed := true }) hsame)
  | close o =>
    rcases close_cases w o with ⟨-, he⟩ | ⟨n, hn, ⟨-, -, he⟩ | ⟨-, -, he⟩ | ⟨-, -⟩⟩
    · exact absurd (congrArg (fun v : World => v.conns k) he) hsame
    · refine absurd ?_ hsame
      rw [he, beginDrain, closeServer_eq]
      rfl
    · refine absurd ?_ hsame
      rw [he, beginDrain, closeServer_eq]
      rfl
    · have hclosed := hw.closed h.servers (hw.not_closing hn) k hk
      exact absurd (hshut k hk hclosed).1 (by simp [halive])
  | @resumeDrain c hlt hp hdr => exact Or.inr ⟨c, rfl, hlt, hp, hdr⟩
  | resumeClose _ _ hc =>
    obtain ⟨result, -, he⟩ := resumeClose_cases hc
    exact absurd (congrArg (fun v : World => v.conns k) he) hsame
  | _ => exact absurd rfl hsame

end World

/-- The response to the invocation has been written, or its handler has failed on it. -/
def ServerSocket.Finished (s : ServerSocket) (v : Invocation) : Prop :=
  (∃ wr ∈ s.written, wr.handler = v.handler ∧ wr.index = v.index ∧
    ∃ outcome, wr.cause = .response outcome) ∨
  ∃ x, s.handlers[v.handler]? = some x ∧ x.phase = .failed ∧ x.next = v.index

theorem ServerSocket.Recorded.finished {s : ServerSocket} (h : s.Recorded)
    (hidle : s.activeHandlers = 0) {v : Invocation} (hv : v ∈ s.invocations) : s.Finished v := by
  obtain ⟨x, hx, -, -, hreached⟩ := h.invocation v hv
  have hactive := activeHandlers_eq_zero_iff.mp hidle v.handler x hx
  rcases hreached with hlt | ⟨hi, ha | hf⟩
  · exact Or.inl (h.response hv hx (Or.inl hlt))
  · exact absurd ha (by simp [hactive])
  · exact Or.inr ⟨x, hx, hf, hi.symm⟩

/-- Request `i` of the handler has been refused, stands behind an earlier message whose end the
handler awaits or behind one that made it fail, or was refused on a socket that took no bytes. -/
inductive ServerSocket.Meets (s : ServerSocket) (n : ℕ) (x : Handler) (i : ℕ) (m : JsValue) : Prop
  | refused {wr : Write} (written : wr ∈ s.written) (handler : wr.handler = n)
      (index : wr.index = i) (message : wr.message = drainingResponse m) : Meets s n x i m
  | waits (behind : x.next < i) (awaits : x.invoking = true ∨ x.writing = true) : Meets s n x i m
  | fails (behind : x.next ≤ i) (failed : x.phase = .failed) : Meets s n x i m
  | lost (current : x.next = i) (doomed : x.phase = .refusing true) : Meets s n x i m

theorem ServerSocket.Recorded.meets {serializer : Serializer} {w : World} {k : SocketId}
    (h : (w.conns k).Recorded) (ha : Accounted serializer w k) {n i : ℕ} {x : Handler} {m : JsValue}
    (hx : (w.conns k).handlers[n]? = some x) (hm : x.messages[i]? = some m) (hreq : IsRequest m)
    (hno : ∀ v ∈ (w.conns k).invocations, ¬ (v.handler = n ∧ v.index = i)) :
    (w.conns k).Meets n x i m := by
  by_cases hresponded : x.Responded i
  · obtain ⟨wr, hwr, hn, hi, -, hmessage⟩ := h.refusal hx hm hreq hresponded hno
    exact .refused hwr hn hi hmessage
  have hle : x.next ≤ i := Nat.not_lt.mp fun hlt => hresponded (Or.inl hlt)
  cases hphase : x.phase with
  | running => exact absurd hphase (ha.rests n x hx)
  | failed => exact .fails hle hphase
  | done =>
    have hnext := (h.handler n x hx).done hphase
    exact absurd (List.getElem?_eq_some_iff.mp hm).1 (hnext ▸ Nat.not_lt.mpr hle)
  | invoking startedAt called =>
    rcases Nat.lt_or_eq_of_le hle with hlt | rfl
    · exact .waits hlt (Or.inl (by simp only [Handler.invoking, hphase]))
    · obtain ⟨v, hv, hn, hi, -⟩ := h.invoking n x startedAt called hx hphase
      exact absurd ⟨hn, hi⟩ (hno v hv)
  | responding doomed =>
    rcases Nat.lt_or_eq_of_le hle with hlt | rfl
    · exact .waits hlt (Or.inr (by simp only [Handler.writing, hphase]))
    · obtain ⟨v, hv, hrest⟩ := ha.invoked n x doomed hx hphase
      exact absurd hrest (hno v hv)
  | refusing doomed =>
    rcases Nat.lt_or_eq_of_le hle with hlt | rfl
    · exact .waits hlt (Or.inr (by simp only [Handler.writing, hphase]))
    · cases doomed with
      | false => exact absurd (Or.inr ⟨rfl, Or.inr hphase⟩) hresponded
      | true => exact .lost rfl hphase

/-- What holds in a state `w` after a graceful close that has left `w₁`. -/
structure Drained (serializer : Serializer) (w₁ w : World) : Prop where
  invocations : ∀ k, (w.conns k).invocations = (w₁.conns k).invocations
  refused : ∀ k < w.nextSocket, ∀ (n : ℕ) (x : Handler) (i : ℕ) m,
    (w.conns k).handlers[n]? = some x → x.messages[i]? = some m → IsRequest m →
    x.phase = .done ∨ x.Responded i →
    (∀ v ∈ (w₁.conns k).invocations, ¬ (v.handler = n ∧ v.index = i)) →
    ∃ wr ∈ (w.conns k).written, wr.handler = n ∧ wr.index = i ∧ wr.message = drainingResponse m
  met : ∀ k < w.nextSocket, ∀ (n : ℕ) (x : Handler) (i : ℕ) m,
    (w.conns k).handlers[n]? = some x → x.messages[i]? = some m → IsRequest m →
    (∀ v ∈ (w₁.conns k).invocations, ¬ (v.handler = n ∧ v.index = i)) →
    (w.conns k).Meets n x i m
  accounted : ∀ k < w.nextSocket, Accounted serializer w k
  active : w.activeRequests = w.activeHandlers
  nonneg : 0 ≤ w.activeRequests
  destroyed : ∀ e w', (machine.guard World.NotListening).Step w e w' → ∀ k < w.nextSocket,
    (w.conns k).destroyed = false → (w'.conns k).destroyed = true →
    (e.socket = some k ∧ (e.turn = some k → (w.conns k).ended = true ∨ ∃ n x,
      (w'.conns k).handlers[n]? = some x ∧ x.phase = .failed ∧ FailsIn w k n x e)) ∨
    ∃ c, e = .resumeDrain c ∧ ((w.closers c).timedOut = true ∨
      (w.activeRequests = 0 ∧ ∀ v ∈ (w₁.conns k).invocations, (w.conns k).Finished v))

theorem World.wf_of_reachable {serializer : Serializer} {w : World}
    (h : (machine.guard Exclusive).Reachable (World.init serializer) w) :
    w.ServersWf ∧ w.DrainsWf ∧ w.Shut := by
  have hi : w.ServersWf ∧ w.DrainsWf ∧ w.Counted ∧ w.Shut :=
    h.invariant (I := fun v => v.ServersWf ∧ v.DrainsWf ∧ v.Counted ∧ v.Shut)
      (fun _ _ _ hi hstep => by
        have hplain := (Machine.guard_step.mp hstep).2
        obtain ⟨hw, hd, hc, hs⟩ := hi
        exact ⟨hw.step hstep, hd.step hc hw hstep, hc.step hplain, hs.step hplain⟩)
      ⟨World.serversWf_init _, World.drainsWf_init _, World.counted_init _,
        fun k hk => absurd hk (Nat.not_lt_zero k)⟩
  exact ⟨hi.1, hi.2.1, hi.2.2.2⟩

instance (w : World) (e : Event) : Decidable (World.NotListening w e) :=
  match e with
  | .listening n => isFalse fun h => h.2 n rfl
  | .registerService _ _ | .listen _ | .listenError _ | .connection _ | .data _ _ _ | .peerEnd _
  | .settle _ _ _ _ | .wrote _ _ _ _ | .finished _ | .socketError _ _ | .socketClose _ | .close _
  | .drainTimeout _ | .resumeDrain _ | .closeCallback _ | .resumeClose _ =>
    decidable_of_iff (Exclusive w _) ⟨fun h => ⟨h, fun _ h => by cases h⟩, And.left⟩

/-- A server that has called the method of one request. -/
def sampleServing : Option World :=
  (machine.guard Exclusive).exec (World.init (.ofTable sampleTable))
    [.registerService "s" ⟨[("m", true)], []⟩, .listen sampleServerOptions, .listening 0,
      .connection 0, .data 0 (samplePacket sampleRequest) 0]

theorem sampleServing_isSome : sampleServing.isSome := by decide +kernel

def sampleClosing : World := (sampleServing.get sampleServing_isSome).close ⟨true, none⟩

/-- A second request is refused, then the first is answered. -/
def sampleDrained : Option World :=
  (machine.guard World.NotListening).exec sampleClosing
    [.data 0 (samplePacket sampleRequest) 1, .wrote 0 1 (.ok ()) 2,
      .settle 0 0 (.ok (.number (.ofNat 7))) 3, .wrote 0 0 (.ok ()) 4, .resumeDrain 0,
      .socketClose 0, .closeCallback 0, .resumeClose 0]

theorem sampleDrained_isSome : sampleDrained.isSome := by decide +kernel

/-- Two more requests come in one chunk, and `close` goes on while the first is being refused. -/
def sampleCutOff : Option World :=
  (machine.guard World.NotListening).exec sampleClosing
    [.data 0 (samplePacket sampleRequest ++ samplePacket sampleRequest) 1,
      .settle 0 0 (.ok (.number (.ofNat 7))) 2, .wrote 0 0 (.ok ()) 3, .resumeDrain 0,
      .wrote 0 1 (.error (.platform "Error" "write ECANCELED")) 4]

theorem sampleCutOff_isSome : sampleCutOff.isSome := by decide +kernel

end WeisleyRpc.Server
