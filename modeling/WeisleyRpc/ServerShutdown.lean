import WeisleyRpc.ServerClose

/-!
# What a close waits for

A `close` that finds a `net.Server` fulfils when everything is shut. One that finds none
fulfils at once, wherever the earlier ones stand.
-/

namespace WeisleyRpc.Server

/-- Everything that the server has opened is shut. -/
structure World.Down (w : World) : Prop where
  state : w.state = .closed
  servers : ∀ n < w.nextServer, w.servers n = .failed ∨ w.servers n = .closed
  sockets : ∀ k < w.nextSocket, (w.conns k).destroyed = true

/-- The event fulfils `close` promises only behind the shutdown, and a `close` that is not
graceful destroys the sockets in its own turn. -/
structure Waits (w : World) (e : Event) : Prop where
  fulfils : ∀ w', machine.Step w e w' → ∀ c < w'.nextCloser,
    (w'.closers c).phase = .finished (.ok ()) →
      (c < w.nextCloser → (w.closers c).isFinished = false) → w'.Down
  forces : ∀ w' o, machine.Step w e w' → e = .close o → o.graceful = false →
    ∀ k < w'.nextSocket, (w'.conns k).destroyed = true

/-- A `close` that finds no server comes behind the earlier ones. -/
def Late (w : World) : Event → Prop
  | .close _ => w.server = none →
    w.state = .closed ∧ ∀ n < w.nextServer, w.servers n ≠ .closing
  | _ => True

namespace World
variable {w w' : World} {e : Event}

/-- A socket that is not destroyed is in the set of the server. -/
def Kept (w : World) : Prop :=
  ∀ k < w.nextSocket, (w.conns k).destroyed = true ∨ k ∈ w.sockets

/-- A `close` under way that is not graceful has set the state. -/
def Forced (w : World) : Prop :=
  ∀ c < w.nextCloser, (w.closers c).isFinished = false → (w.closers c).graceful = false →
    w.state = .closed

theorem destroyed_write {s : ServerSocket} (hd : s.destroyed = true) (wr : Write) :
    (s.write wr).destroyed = true := by
  rw [ServerSocket.write, if_pos hd]
  exact hd

theorem micro_destroyed {k : SocketId} (h : Micro k w w')
    (hd : (w.conns k).destroyed = true) : (w'.conns k).destroyed = true := by
  cases h with
  | receive alive | reject alive =>
    rw [hd] at alive
    cases alive
  | pong | refuse | respond =>
    rw [conns_updateSocket_self]
    exact destroyed_write hd _
  | start =>
    rw [World.start, conns_updateSocket_self]
    exact hd
  | abort | finish =>
    rw [conns_finishRequest, conns_updateSocket_self]
    exact hd
  | fail =>
    rw [conns_updateSocket_self]
    rfl
  | skip | done | resume =>
    rw [conns_updateSocket_self]
    exact hd

theorem destroyed_step (h : Answer w e w') {k : SocketId} (hk : k < w.nextSocket)
    (hd : (w.conns k).destroyed = true) : (w'.conns k).destroyed = true := by
  rcases h.conn k with ⟨-, hrun⟩ | ⟨ended, destroyed, closed, hkept, he⟩ | ⟨rfl, -⟩
  · exact hrun.invariant (I := fun v => (v.conns k).destroyed = true)
      (fun _ _ hm hd => micro_destroyed hm hd) hd
  · rw [he]
    exact hkept hd
  · exact absurd hk (Nat.lt_irrefl _)

theorem destroyed_closeConnections (h : w.Kept) {k : SocketId} (hk : k < w.nextSocket) :
    (w.closeConnections.conns k).destroyed = true := by
  rw [conns_closeConnections]
  split_ifs with hin
  · rfl
  · exact (h k hk).resolve_right hin

theorem destroyed_beginClose (h : w.Kept) (n : ServerId) {k : SocketId} (hk : k < w.nextSocket) :
    ((w.beginClose n).conns k).destroyed = true := by
  rw [beginClose, closeServer_eq]
  exact destroyed_closeConnections (w := { w with server := none, state := .closed }) h hk

theorem Kept.step (h : w.Kept) (ha : Answer w e w') : w'.Kept := by
  have hold : ∀ k < w.nextSocket, (k ∈ w.sockets → k ∈ w'.sockets) →
      (w'.conns k).destroyed = true ∨ k ∈ w'.sockets :=
    fun k hk hin => (h k hk).imp (destroyed_step ha hk) hin
  cases ha with
  | turn _ _ hrun =>
    intro k hk
    rw [hrun.same.nextSocket] at hk
    exact hold k hk fun hin => by rwa [hrun.same.sockets]
  | @connection n codec _ _ _ =>
    intro k hk
    rcases Nat.lt_or_eq_of_le (Nat.le_of_lt_succ hk) with hlt | rfl
    · exact hold k hlt (List.mem_append_left _)
    · exact .inr (List.mem_append_right _ (List.mem_singleton.2 rfl))
  | @socketClose k₀ _ hd _ =>
    intro k hk
    by_cases hkk : k = k₀
    · subst hkk
      refine .inl ?_
      change ((w.updateSocket k fun s => { s with closed := true }).conns k).destroyed = true
      rw [conns_updateSocket_self]
      exact hd
    · exact hold k hk fun hin => List.mem_filter.2 ⟨hin, by simpa using hkk⟩
  | close o =>
    intro k hk
    rw [nextSocket_close] at hk
    rcases close_cases w o with ⟨-, he⟩ | ⟨n, -, ⟨-, -, he⟩ | ⟨-, -, he⟩ | ⟨-, he⟩⟩ <;> rw [he]
    · exact h k hk
    · rw [beginDrain, closeServer_eq]
      exact h k hk
    · rw [beginDrain, closeServer_eq]
      exact h k hk
    · exact .inl (destroyed_beginClose h n hk)
  | resumeDrain =>
    intro k hk
    exact .inl (destroyed_closeConnections h hk)
  | resumeClose _ _ hc =>
    obtain ⟨result, -, he⟩ := resumeClose_cases hc
    rw [he]
    exact h
  | _ => exact fun k hk => hold k hk id

theorem Forced.same {v : World} (h : w.Forced) (hn : v.nextCloser = w.nextCloser)
    (hs : w.state = .closed → v.state = .closed)
    (hc : ∀ c, (v.closers c).isFinished = false →
      (w.closers c).isFinished = false ∧ (v.closers c).graceful = (w.closers c).graceful) :
    v.Forced := by
  intro c hlt hf hg
  obtain ⟨hf', hg'⟩ := hc c hf
  exact hs (h c (hn ▸ hlt) hf' (hg' ▸ hg))

theorem Forced.updateCloser (h : w.Forced) (c : CloseId) {f : Closer → Closer}
    (hf : (f (w.closers c)).isFinished = (w.closers c).isFinished)
    (hg : (f (w.closers c)).graceful = (w.closers c).graceful) : (w.updateCloser c f).Forced := by
  refine h.same rfl id ?_
  intro c' hfin
  simp only [World.updateCloser, Function.update_apply] at hfin ⊢
  split_ifs at hfin ⊢ with hc
  · subst hc
    exact ⟨hf ▸ hfin, hg⟩
  · exact ⟨hfin, rfl⟩

theorem Forced.micro {k : SocketId} (h : w.Forced) (hm : Micro k w w') : w'.Forced := by
  refine h.same hm.same.nextCloser (fun hs => hm.same.state.trans hs) ?_
  intro c hf
  rcases micro_closers hm with he | ⟨-, he⟩
  · rw [he] at hf ⊢
    exact ⟨hf, rfl⟩
  · rw [he, isFinished_congr (wake_closer w.drainResolvers w.closers c).2.2.2.1] at hf
    refine ⟨hf, ?_⟩
    rw [he, wake]
    split_ifs <;> rfl

/-- With a current server no `close` is under way. -/
theorem ServersWf.finished (hw : w.ServersWf) {n : ServerId} (hn : w.server = some n)
    {c : CloseId} (hc : c < w.nextCloser) : (w.closers c).isFinished = true :=
  (hw.idle n hn).2.2.2 c hc

theorem Forced.begun (hw : w.ServersWf) {v : World} {n : ServerId} {x : Closer}
    (hn : w.server = some n) (hcl : v.closers = Function.update w.closers w.nextCloser x)
    (hnext : v.nextCloser = w.nextCloser + 1) (hx : x.graceful = false → v.state = .closed) :
    v.Forced := by
  intro c hc hf hg
  rw [hnext] at hc
  rw [hcl] at hf hg
  rcases Nat.lt_or_eq_of_le (Nat.le_of_lt_succ hc) with hlt | rfl
  · rw [Function.update_apply, if_neg (Nat.ne_of_lt hlt), hw.finished hn hlt] at hf
    cases hf
  · rw [Function.update_self] at hg
    exact hx hg

theorem Forced.close (h : w.Forced) (hw : w.ServersWf) (o : RpcServerCloseOptions) :
    (w.close o).Forced := by
  rcases close_cases w o with ⟨-, he⟩ | ⟨n, hn, ⟨-, -, he⟩ | ⟨-, -, he⟩ | ⟨-, he⟩⟩ <;> rw [he]
  · intro c hc hf hg
    simp only [addCloser] at hf hg
    rcases Nat.lt_or_eq_of_le (Nat.le_of_lt_succ hc) with hlt | rfl
    · rw [Function.update_apply, if_neg (Nat.ne_of_lt hlt)] at hf hg
      exact h c hlt hf hg
    · rw [Function.update_self] at hf
      cases hf
  · rw [beginDrain, closeServer_eq]
    exact Forced.begun hw hn rfl rfl fun hg => by cases hg
  · rw [beginDrain, closeServer_eq]
    exact Forced.begun hw hn rfl rfl fun hg => by cases hg
  · rw [beginClose, closeServer_eq]
    exact Forced.begun hw hn rfl rfl fun _ => rfl

theorem Forced.step (h : w.Forced) (hw : w.ServersWf)
    (hs : (machine.guard Exclusive).Step w e w') : w'.Forced := by
  cases answer_of_step (Machine.guard_step.mp hs).2 with
  | turn _ _ hrun => exact hrun.invariant (fun _ _ hm h => h.micro hm) h
  | registerService => exact h
  | listen => exact h
  | @listening n hlt hst =>
    intro c hc hf
    rw [hw.finished (hw.current n hlt (.inl hst)) hc] at hf
    cases hf
  | listenError => exact h
  | connection => exact h
  | peerEnd => exact h
  | finished => exact h
  | socketClose => exact h
  | close o => exact h.close hw o
  | @drainTimeout c =>
    exact h.updateCloser c
      (f := fun x => { x with timer := none, timedOut := true, drained := true }) rfl rfl
  | @resumeDrain c _ hp _ =>
    refine Forced.updateCloser (w := w.closeConnections) h c (f := fun x =>
      { x with phase := .closing }) ?_ rfl
    have hc : w.closeConnections.closers c = w.closers c := rfl
    simp [hc, Closer.isFinished, hp]
  | @closeCallback c =>
    exact h.updateCloser c (f := fun x => { x with closed := some (closeResult (w.closers c)) })
      rfl rfl
  | @resumeClose c _ _ hcl =>
    obtain ⟨result, -, he⟩ := resumeClose_cases hcl
    rw [he]
    refine h.same rfl ?_ ?_
    · intro hs
      simp only
      split_ifs
      · rfl
      · exact hs
    · intro c' hfin
      simp only [World.updateCloser, Function.update_apply] at hfin ⊢
      split_ifs at hfin ⊢ with hcc
      · cases hfin
      · exact ⟨hfin, rfl⟩

/-- What holds from the start on while no `listen` is concurrent. -/
structure Sound (w : World) : Prop where
  servers : w.ServersWf
  shut : w.Shut
  kept : w.Kept
  forced : w.Forced

theorem sound_init (serializer : Serializer) : (World.init serializer).Sound :=
  ⟨serversWf_init serializer, fun k hk => absurd hk (Nat.not_lt_zero k),
    fun k hk => absurd hk (Nat.not_lt_zero k), fun c hc => absurd hc (Nat.not_lt_zero c)⟩

theorem Sound.step (h : w.Sound) (hs : (machine.guard Exclusive).Step w e w') : w'.Sound := by
  have hplain := (Machine.guard_step.mp hs).2
  exact ⟨h.servers.step hs, h.shut.step hplain, h.kept.step (answer_of_step hplain),
    h.forced.step h.servers hs⟩

theorem Sound.down (h : w.Sound) (hstate : w.state = .closed)
    (hopen : ∀ n < w.nextServer,
      w.servers n ≠ .starting ∧ w.servers n ≠ .listening ∧ w.servers n ≠ .closing) : w.Down := by
  refine ⟨hstate, ?_, ?_⟩
  · intro n hn
    obtain ⟨hst, hl, hc⟩ := hopen n hn
    cases hs : w.servers n with
    | starting => exact absurd hs hst
    | failed => exact .inl rfl
    | listening => exact absurd hs hl
    | closing => exact absurd hs hc
    | closed => exact .inr rfl
  · intro k hk
    have hclosed := h.servers.closed (fun n hn => (hopen n hn).2.1) (fun n hn => (hopen n hn).2.2)
      k hk
    exact (h.shut k hk hclosed).1

/-- Without a current server nothing starts or listens. -/
theorem Sound.not_current (h : w.Sound) (hnone : w.server = none) {n : ServerId}
    (hn : n < w.nextServer) : w.servers n ≠ .starting ∧ w.servers n ≠ .listening := by
  refine ⟨fun hs => ?_, fun hs => ?_⟩
  · rw [h.servers.current n hn (.inl hs)] at hnone
    cases hnone
  · rw [h.servers.current n hn (.inr hs)] at hnone
    cases hnone

/-- What fulfils the promise of a `close`. -/
inductive Fulfils (w : World) (c : CloseId) : Event → World → Prop
  | close (o : RpcServerCloseOptions) : w.server = none → Fulfils w c (.close o) (w.close o)
  | resumed : c < w.nextCloser → (w.closers c).isFinished = false →
      (w.closers c).closed = some (.ok ()) → Fulfils w c (.resumeClose c) (w.resumeClose c)

theorem fulfils_of_step (h : w.ServersWf) (ha : Answer w e w') {c : CloseId}
    (hc : c < w'.nextCloser) (hphase : (w'.closers c).phase = .finished (.ok ()))
    (hnew : c < w.nextCloser → (w.closers c).isFinished = false) : Fulfils w c e w' := by
  have hfin : (w'.closers c).isFinished = true := by
    unfold Closer.isFinished
    rw [hphase]
  have hsame : w'.nextCloser = w.nextCloser →
      (w'.closers c).isFinished = (w.closers c).isFinished → Fulfils w c e w' := by
    intro hn hf
    rw [hf, hnew (hn ▸ hc)] at hfin
    cases hfin
  have hbegun : ∀ n x, w.server = some n →
      w'.closers = Function.update w.closers w.nextCloser x → w'.nextCloser = w.nextCloser + 1 →
      x.isFinished = false → Fulfils w c e w' := by
    intro n x hn hcl hnext hx
    rw [hnext] at hc
    rcases Nat.lt_or_eq_of_le (Nat.le_of_lt_succ hc) with hlt | rfl
    · have hunfinished := hnew hlt
      rw [h.finished hn hlt] at hunfinished
      cases hunfinished
    · rw [hcl, Function.update_self, hx] at hfin
      cases hfin
  cases ha with
  | turn _ _ hrun =>
    have hl := sameLifecycle_micros hrun
    exact hsame hl.nextCloser (hl.closer c).2.2.2
  | close o =>
    rcases close_cases w o with ⟨hs, -⟩ | ⟨n, hn, ⟨-, -, he⟩ | ⟨-, -, he⟩ | ⟨-, he⟩⟩
    · exact .close o hs
    · rw [beginDrain, closeServer_eq] at he
      exact hbegun n _ hn (by rw [he]; rfl) (by rw [he]; rfl) rfl
    · rw [beginDrain, closeServer_eq] at he
      exact hbegun n _ hn (by rw [he]; rfl) (by rw [he]; rfl) rfl
    · rw [beginClose, closeServer_eq] at he
      exact hbegun n _ hn (by rw [he]; rfl) (by rw [he]; rfl) rfl
  | @drainTimeout c' =>
    have hl := sameLifecycle_updateCloser w c' (f := fun x =>
      { x with timer := none, timedOut := true, drained := true }) ⟨rfl, rfl, rfl, rfl⟩
    exact hsame rfl (hl.closer c).2.2.2
  | resumeDrain _ hp _ => exact hsame rfl ((sameLifecycle_resumeDrain hp).closer c).2.2.2
  | @closeCallback c' n =>
    refine hsame rfl ?_
    simp only [World.closedServer, World.updateCloser, Function.update_apply]
    split_ifs with hcc
    · rw [hcc]
      rfl
    · rfl
  | @resumeClose c' hlt hp hcl =>
    obtain ⟨result, hr, he⟩ := resumeClose_cases hcl
    by_cases hcc : c = c'
    · subst hcc
      have hopen : (w.closers c).isFinished = false := by simp [Closer.isFinished, hp]
      refine .resumed hlt hopen ?_
      rw [he] at hphase
      simp only [World.updateCloser, Function.update_self, CloserPhase.finished.injEq] at hphase
      rw [hr, hphase]
    · refine hsame (by rw [he]; rfl) ?_
      rw [he]
      simp only [World.updateCloser, Function.update_apply, if_neg hcc]
  | _ => exact hsame rfl rfl

theorem Sound.resumed (h : w.Sound) {c : CloseId} (hs : (w.resumeClose c).Sound)
    (hlt : c < w.nextCloser) (hf : (w.closers c).isFinished = false)
    (hcl : (w.closers c).closed = some (.ok ())) : (w.resumeClose c).Down := by
  have hnone : w.server = none := by
    cases hserver : w.server with
    | none => rfl
    | some n =>
      rw [h.servers.finished hserver hlt] at hf
      cases hf
  obtain ⟨result, hr, he⟩ := resumeClose_cases (by rw [hcl]; rfl)
  obtain rfl := Option.some.inj (hcl.symm.trans hr)
  refine hs.down ?_ ?_
  · rw [he]
    cases hg : (w.closers c).graceful with
    | true => simp [Except.toOption]
    | false => simpa using h.forced c hlt hf hg
  · rw [he]
    intro n hn
    obtain ⟨hst, hl⟩ := h.not_current hnone hn
    refine ⟨hst, hl, fun hclosing => ?_⟩
    obtain ⟨c', hc', hf', -, -, hnot⟩ := h.servers.closing n hn hclosing
    obtain rfl := h.servers.single c' hc' c hlt hf' hf
    rw [hcl] at hnot
    cases hnot

/-- A `close` that finds no server is fulfilled at once. -/
theorem down_of_waits {o : RpcServerCloseOptions} (h : Waits w (.close o))
    (hnone : w.server = none) : (w.close o).Down := by
  have he : w.close o = w.addCloser
      ⟨none, false, o.graceful, none, false, false, none, .finished (.ok ())⟩ := by
    rw [World.close, hnone]
  refine h.fulfils _ ⟨trivial, rfl⟩ w.nextCloser ?_ ?_ fun hlt => absurd hlt (Nat.lt_irrefl _)
  · rw [he]
    exact Nat.lt_succ_self _
  · rw [he]
    simp only [addCloser, Function.update_self]

/-- A `close` waits for the shutdown exactly when it is not one that comes early and finds no
server. -/
theorem Sound.waits_iff (h : w.Sound) (hs : (machine.guard Exclusive).Step w e w') :
    Waits w e ↔ Late w e := by
  obtain ⟨hex, hplain⟩ := Machine.guard_step.mp hs
  constructor
  · intro hwaits
    cases e with
    | close o =>
      intro hnone
      have hdown := down_of_waits hwaits hnone
      rw [World.close, hnone] at hdown
      refine ⟨hdown.state, fun n hn hclosing => ?_⟩
      rcases hdown.servers n hn with hfailed | hclosed
      · cases hclosing.symm.trans hfailed
      · cases hclosing.symm.trans hclosed
    | _ => trivial
  · intro hlate
    have hidle : ∀ o, e = .close o → w.server = none → w.Down := by
      rintro o rfl hnone
      obtain ⟨hstate, hclosing⟩ := hlate hnone
      exact h.down hstate fun n hn =>
        ⟨(h.not_current hnone hn).1, (h.not_current hnone hn).2, hclosing n hn⟩
    refine ⟨?_, ?_⟩
    · intro v hv c hc hphase hnew
      obtain rfl := Except.ok.inj (hplain.2.symm.trans hv.2)
      cases fulfils_of_step h.servers (answer_of_step hplain) hc hphase hnew with
      | close o hnone =>
        have hdown := hidle o rfl hnone
        rw [World.close, hnone]
        exact ⟨hdown.state, hdown.servers, hdown.sockets⟩
      | resumed hlt hf hcl => exact h.resumed (h.step hs) hlt hf hcl
    · rintro v o hv rfl hforce k hk
      obtain rfl := Except.ok.inj (hplain.2.symm.trans hv.2)
      obtain rfl := Except.ok.inj hplain.2
      rw [nextSocket_close] at hk
      rcases close_cases w o with ⟨hnone, he⟩ | ⟨n, -, ⟨hg, -⟩ | ⟨hg, -⟩ | ⟨-, he⟩⟩
      · rw [he]
        exact (hidle o rfl hnone).sockets k hk
      · rw [hforce] at hg
        cases hg
      · rw [hforce] at hg
        cases hg
      · rw [he]
        exact destroyed_beginClose h.kept n hk

end World

/-- All promises of a run are fulfilled behind the shutdown, and forced closes destroy the
sockets, exactly when no `close` of it comes early. -/
theorem closes_wait_iff (serializer : Serializer) (es : List Event) (w : World) :
    ((machine.guard Exclusive).guard Waits).Run (World.init serializer) es w ↔
      ((machine.guard Exclusive).guard Late).Run (World.init serializer) es w :=
  Machine.Run.guard_congr (I := World.Sound) (fun _ _ _ h hs => h.step hs)
    (fun _ _ _ h hs => h.waits_iff hs) (World.sound_init serializer)

/-- A forced `close` during a drain is fulfilled at once and leaves the sockets open. -/
theorem forced_close_returns_early : ¬ ∀ (serializer : Serializer) (w w' : World) (e : Event),
    (machine.guard Exclusive).Reachable (World.init serializer) w →
      (machine.guard Exclusive).Step w e w' → Waits w e := by
  intro h
  have hserving : (machine.guard Exclusive).Reachable (World.init (.ofTable sampleTable))
      (sampleServing.get sampleServing_isSome) := ⟨_, Machine.run_exec_get sampleServing_isSome⟩
  have hdrain : (machine.guard Exclusive).Step (sampleServing.get sampleServing_isSome)
      (.close ⟨true, none⟩) sampleClosing :=
    Machine.guard_step.mpr ⟨by decide +kernel, trivial, rfl⟩
  have hforce : (machine.guard Exclusive).Step sampleClosing (.close ⟨false, none⟩)
      (sampleClosing.close ⟨false, none⟩) :=
    Machine.guard_step.mpr ⟨by decide +kernel, trivial, rfl⟩
  have hdown := World.down_of_waits (h _ _ _ _ (hserving.snoc hdrain) hforce) (by decide +kernel)
  have hdestroyed := hdown.sockets 0 (by decide +kernel)
  have hopen : ((sampleClosing.close ⟨false, none⟩).conns 0).destroyed = false := by
    decide +kernel
  rw [hopen] at hdestroyed
  cases hdestroyed

end WeisleyRpc.Server
