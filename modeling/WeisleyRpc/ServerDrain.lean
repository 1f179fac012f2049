import Mathlib.Algebra.BigOperators.Group.Finset.Basic
import Mathlib.Algebra.Order.BigOperators.Group.Finset
import WeisleyRpc.ServerLifecycle
import WeisleyRpc.ServerRecords

/-!
# Graceful close

`activeRequests` counts the handlers inside a request. A draining server starts none,
so the count can only fall, and whoever waits for it goes on at zero or when its timer
has fired.
-/

namespace WeisleyRpc.Server

def ServerSocket.activeHandlers (s : ServerSocket) : ℕ := s.handlers.countP Handler.active

theorem countP_modify {α : Type} (p : α → Bool) (f : α → α) {l : List α} {n : ℕ} {x : α}
    (hn : l[n]? = some x) :
    (l.modify n f).countP p + (if p x then 1 else 0) = l.countP p + (if p (f x) then 1 else 0) := by
  induction l generalizing n with
  | nil => simp at hn
  | cons y l ih =>
    cases n with
    | zero =>
      obtain rfl : y = x := by simpa using hn
      simp only [List.modify_zero_cons, List.countP_cons]
      omega
    | succ n =>
      have := ih (n := n) (by simpa using hn)
      simp only [List.modify_succ_cons, List.countP_cons]
      omega

namespace ServerSocket

theorem activeHandlers_setPhase {s : ServerSocket} {n : ℕ} {x : Handler} (phase : Phase)
    (hn : s.handlers[n]? = some x) :
    (s.setPhase n phase).activeHandlers + (if x.active then 1 else 0) =
      s.activeHandlers + (if Handler.active { x with phase := phase } then 1 else 0) :=
  countP_modify Handler.active _ hn

theorem activeHandlers_advance {s : ServerSocket} {n : ℕ} {x : Handler}
    (hn : s.handlers[n]? = some x) :
    (s.advance n).activeHandlers + (if x.active then 1 else 0) = s.activeHandlers :=
  countP_modify Handler.active _ hn

theorem activeHandlers_receive (s : ServerSocket) (chunk : Buffer) :
    (s.receive chunk).activeHandlers = s.activeHandlers := by
  simp [receive, activeHandlers, Handler.active]

theorem activeHandlers_congr {s s' : ServerSocket} (h : s'.handlers = s.handlers) :
    s'.activeHandlers = s.activeHandlers := by
  unfold activeHandlers
  rw [h]

theorem activeHandlers_eq_zero_iff {s : ServerSocket} :
    s.activeHandlers = 0 ↔
      ∀ (n : ℕ) (x : Handler), s.handlers[n]? = some x → x.active = false := by
  simp only [activeHandlers, List.countP_eq_zero, Bool.not_eq_true]
  constructor
  · intro h n x hx
    exact h x (List.mem_of_getElem? hx)
  · intro h x hx
    obtain ⟨n, hn⟩ := List.getElem?_of_mem hx
    exact h n x hn

end ServerSocket

namespace World

/-- The handlers between their increment of `activeRequests` and their `finally`. -/
def activeHandlers (w : World) : ℕ :=
  ∑ k ∈ Finset.range w.nextSocket, (w.conns k).activeHandlers

def Counted (w : World) : Prop := w.activeRequests = w.activeHandlers

theorem activeHandlers_same {w v : World} (hn : v.nextSocket = w.nextSocket)
    (hc : ∀ k, (v.conns k).activeHandlers = (w.conns k).activeHandlers) :
    v.activeHandlers = w.activeHandlers := by
  unfold activeHandlers
  rw [hn]
  exact Finset.sum_congr rfl fun k _ => hc k

theorem activeHandlers_change {w v : World} {k : SocketId} (hk : k < w.nextSocket)
    (hn : v.nextSocket = w.nextSocket) (hc : ∀ k', k' ≠ k → v.conns k' = w.conns k') :
    v.activeHandlers + (w.conns k).activeHandlers =
      w.activeHandlers + (v.conns k).activeHandlers := by
  have hmem : k ∈ Finset.range w.nextSocket := Finset.mem_range.mpr hk
  have hsplit : ∀ u : World, (u.conns k).activeHandlers +
      ∑ k' ∈ (Finset.range w.nextSocket).erase k, (u.conns k').activeHandlers =
        ∑ k' ∈ Finset.range w.nextSocket, (u.conns k').activeHandlers :=
    fun u => Finset.add_sum_erase _ (fun k' => (u.conns k').activeHandlers) hmem
  have hv := hsplit v
  have hw := hsplit w
  have hrest : ∑ k' ∈ (Finset.range w.nextSocket).erase k, (v.conns k').activeHandlers =
      ∑ k' ∈ (Finset.range w.nextSocket).erase k, (w.conns k').activeHandlers :=
    Finset.sum_congr rfl fun k' hk' => by rw [hc k' (Finset.ne_of_mem_erase hk')]
  unfold activeHandlers
  rw [hn]
  omega

theorem le_activeHandlers {w : World} {k : SocketId} (hk : k < w.nextSocket) :
    (w.conns k).activeHandlers ≤ w.activeHandlers :=
  Finset.single_le_sum (f := fun k => (w.conns k).activeHandlers) (fun _ _ => Nat.zero_le _)
    (Finset.mem_range.mpr hk)

theorem activeRequests_finishRequest (w : World) (k : SocketId) (f : ServerSocket → ServerSocket) :
    (w.finishRequest k f).activeRequests = w.activeRequests - 1 := by
  rcases finishRequest_cases w k f with ⟨-, he⟩ | ⟨-, he⟩ <;> rw [he]

/-- A micro step changes the count by what it changes in its own socket. -/
theorem micro_count {k : SocketId} {w w' : World} (h : Micro k w w') :
    w'.activeRequests + (w.conns k).activeHandlers =
      w.activeRequests + (w'.conns k).activeHandlers := by
  have hself : ∀ f : ServerSocket → ServerSocket,
      (f (w.conns k)).activeHandlers = (w.conns k).activeHandlers →
      (w.updateSocket k f).activeRequests + (w.conns k).activeHandlers =
        w.activeRequests + ((w.updateSocket k f).conns k).activeHandlers := by
    intro f hf
    rw [conns_updateSocket_self, hf]
    rfl
  have hwrite : ∀ wr : Write, ((w.conns k).write wr).activeHandlers = (w.conns k).activeHandlers :=
    fun wr => ServerSocket.activeHandlers_congr (ServerSocket.handlers_write _ _)
  cases h with
  | receive =>
    refine hself _ ?_
    exact ServerSocket.activeHandlers_receive _ _
  | @reject chunk =>
    refine hself (fun s => ((s.receive chunk).setPhase s.handlers.length .failed).destroy) ?_
    have := ServerSocket.activeHandlers_setPhase .failed
      ((w.conns k).handlers_receive_last chunk)
    rw [ServerSocket.activeHandlers_receive] at this
    exact this
  | skip turn _ _ =>
    refine hself _ ?_
    have := ServerSocket.activeHandlers_advance turn.handler
    simpa [Handler.active, turn.running] using this
  | @pong n x m now payload turn _ _ _ =>
    refine hself (fun s => (s.write _).advance n) ?_
    have := ServerSocket.activeHandlers_advance (s := (w.conns k).write
      ⟨n, x.next, pongMessage (m.prop "id") now, payload, .pong⟩) (by simpa using turn.handler)
    simpa [Handler.active, turn.running, hwrite] using this
  | @refuse n x m payload turn _ _ _ =>
    refine hself (fun s => (s.write _).setPhase n (.refusing s.doomed)) ?_
    have := ServerSocket.activeHandlers_setPhase (s := (w.conns k).write
      ⟨n, x.next, drainingResponse m, payload, .refusal⟩) (.refusing (w.conns k).doomed)
      (by simpa using turn.handler)
    simpa [Handler.active, turn.running, hwrite] using this
  | @start n x m now turn _ _ =>
    have := ServerSocket.activeHandlers_setPhase (s := (w.conns k).invoke
      ⟨n, x.next, m, MethodInvoker.call w.registry m⟩)
      (.invoking now (MethodInvoker.call w.registry m)) turn.handler
    have hi : ((w.conns k).invoke ⟨n, x.next, m, MethodInvoker.call w.registry m⟩).activeHandlers =
      (w.conns k).activeHandlers := rfl
    simp only [Handler.active, turn.running, hi, Bool.false_eq_true, if_false, if_true] at this
    simp only [World.start, conns_updateSocket_self]
    omega
  | done hn hrun _ =>
    refine hself _ ?_
    have := ServerSocket.activeHandlers_setPhase .done hn
    simpa [Handler.active, hrun] using this
  | @fail n x hn hin =>
    refine hself (fun s => (s.setPhase n .failed).destroy) ?_
    have := ServerSocket.activeHandlers_setPhase .failed hn
    have hf : Handler.active { x with phase := .failed } = false := rfl
    rw [hin, hf] at this
    exact this
  | @respond n x m startedAt called response payload returned hn hinv _ _ _ =>
    refine hself (fun s => (s.write _).setPhase n (.responding s.doomed)) ?_
    have := ServerSocket.activeHandlers_setPhase (s := (w.conns k).write
      ⟨n, x.next, response, payload, .response (MethodInvoker.outcome called returned)⟩)
      (.responding (w.conns k).doomed) (by simpa using hn)
    simpa [Handler.active, hinv, hwrite] using this
  | @abort n x hn hact =>
    rw [activeRequests_finishRequest, conns_finishRequest, conns_updateSocket_self]
    have := ServerSocket.activeHandlers_setPhase .failed hn
    have hf : Handler.active { x with phase := .failed } = false := rfl
    simp only [hact, hf, if_true, Bool.false_eq_true, if_false] at this
    omega
  | @finish n x hn hp =>
    rw [activeRequests_finishRequest, conns_finishRequest, conns_updateSocket_self]
    have := ServerSocket.activeHandlers_advance hn
    simp only [Handler.active, hp, if_true] at this
    omega
  | resume hn hp =>
    refine hself _ ?_
    have := ServerSocket.activeHandlers_advance hn
    simpa [Handler.active, hp] using this

theorem Counted.micro {k : SocketId} {w w' : World} (h : w.Counted) (hk : k < w.nextSocket)
    (hm : Micro k w w') : w'.Counted := by
  have hchange := activeHandlers_change hk hm.same.nextSocket fun k' => hm.conns_ne
  have hcount := micro_count hm
  unfold Counted at h ⊢
  omega

theorem Counted.micros {k : SocketId} {w w' : World} (h : w.Counted) (hk : k < w.nextSocket)
    (hm : Micros k w w') : w'.Counted :=
  (hm.invariant (I := fun v => v.Counted ∧ v.nextSocket = w.nextSocket)
    (fun _ _ hs hi => ⟨hi.1.micro (hi.2 ▸ hk) hs, hs.same.nextSocket.trans hi.2⟩) ⟨h, rfl⟩).1

theorem Counted.same {w v : World} (h : w.Counted) (ha : v.activeRequests = w.activeRequests)
    (hn : v.nextSocket = w.nextSocket) (hc : ∀ k, (v.conns k).handlers = (w.conns k).handlers) :
    v.Counted := by
  unfold Counted at *
  rw [ha, h, activeHandlers_same hn fun k => ServerSocket.activeHandlers_congr (hc k)]

theorem counted_init (serializer : Serializer) : (World.init serializer).Counted := rfl

theorem handlers_updateSocket (w : World) (k : SocketId) {f : ServerSocket → ServerSocket}
    (hf : ∀ s, (f s).handlers = s.handlers) (k' : SocketId) :
    ((w.updateSocket k f).conns k').handlers = (w.conns k').handlers := by
  rw [conns_updateSocket]
  split_ifs with hk
  · rw [hf, hk]
  · rfl

theorem handlers_closeConnections (w : World) (k : SocketId) :
    (w.closeConnections.conns k).handlers = (w.conns k).handlers := by
  rw [conns_closeConnections]
  split_ifs <;> rfl

theorem Counted.step {w w' : World} {e : Event} (h : w.Counted) (hs : machine.Step w e w') :
    w'.Counted := by
  cases answer_of_step hs with
  | turn _ hlt hrun => exact h.micros hlt hrun
  | registerService => exact h
  | listen => exact h
  | listening => exact h
  | listenError => exact h
  | @connection n codec _ _ _ =>
    have hsum : ∑ k ∈ Finset.range w.nextSocket,
        (Function.update w.conns w.nextSocket (.new n codec) k).activeHandlers =
          w.activeHandlers :=
      Finset.sum_congr rfl fun k hk => by
        rw [Function.update_apply, if_neg (Nat.ne_of_lt (Finset.mem_range.mp hk))]
    unfold Counted at *
    rw [h]
    simp only [activeHandlers, Finset.sum_range_succ, Function.update_self]
    rw [hsum]
    simp [ServerSocket.new, ServerSocket.activeHandlers, activeHandlers]
  | peerEnd => exact h.same rfl rfl (w.handlers_updateSocket _ fun _ => rfl)
  | finished => exact h.same rfl rfl (w.handlers_updateSocket _ fun _ => rfl)
  | @socketClose k =>
    exact h.same rfl rfl (w.handlers_updateSocket k (f := fun s => { s with closed := true })
      fun _ => rfl)
  | close o =>
    have hclose := w.close_closesTo o
    refine h.same hclose.activeRequests hclose.nextSocket fun k => ?_
    rcases conns_close w o k with he | he <;> rw [he]
    rfl
  | drainTimeout => exact h
  | resumeDrain => exact h.same rfl rfl w.handlers_closeConnections
  | closeCallback => exact h
  | resumeClose _ _ hc =>
    obtain ⟨result, -, he⟩ := resumeClose_cases hc
    rw [he]
    exact h

end World

theorem Reachable.counted {w : World} (h : Reachable w) : w.Counted := by
  obtain ⟨serializer, hr⟩ := h
  exact hr.invariant (fun _ _ _ hi hs => hi.step hs) (World.counted_init serializer)

namespace World

/-- Who waits for the active requests does so in a draining server, and has been woken by
its timer or because there were none. -/
structure DrainsWf (w : World) : Prop where
  waiting : ∀ c < w.nextCloser, (w.closers c).phase = .draining → w.state = .draining
  drained : ∀ c < w.nextCloser, (w.closers c).phase = .draining → (w.closers c).drained = true →
    (w.closers c).timedOut = true ∨ w.activeRequests = 0

theorem drainsWf_init (serializer : Serializer) : (World.init serializer).DrainsWf :=
  ⟨fun c hc => absurd hc (Nat.not_lt_zero c), fun c hc => absurd hc (Nat.not_lt_zero c)⟩

/-- A closer is woken only when no request is active. -/
theorem micro_closers {k : SocketId} {w w' : World} (h : Micro k w w') :
    w'.closers = w.closers ∨
      (w'.activeRequests = 0 ∧ w'.closers = wake w.drainResolvers w.closers) := by
  have hfinish : ∀ f : ServerSocket → ServerSocket, (w.finishRequest k f).closers = w.closers ∨
      ((w.finishRequest k f).activeRequests = 0 ∧
        (w.finishRequest k f).closers = wake w.drainResolvers w.closers) := by
    intro f
    rcases finishRequest_cases w k f with ⟨-, he⟩ | ⟨hz, he⟩ <;> rw [he]
    · exact Or.inl rfl
    · exact Or.inr ⟨hz, rfl⟩
  cases h with
  | abort => exact hfinish _
  | finish => exact hfinish _
  | _ => exact Or.inl rfl

/-- Without active requests a draining server gets none. -/
theorem micro_idle {k : SocketId} {w w' : World} (h : Micro k w w') (hc : w.Counted)
    (hk : k < w.nextSocket) (hd : w.state = .draining) (hz : w.activeRequests = 0) :
    w'.activeRequests = 0 := by
  have hnone : ∀ {n : ℕ} {x : Handler}, (w.conns k).handlers[n]? = some x → x.active = false := by
    intro n x hx
    have hle := le_activeHandlers hk
    unfold Counted at hc
    exact ServerSocket.activeHandlers_eq_zero_iff.mp (by omega) n x hx
  cases h with
  | start _ _ _ hnd => exact absurd hd hnd
  | abort hn ha => exact absurd ha (by simp [hnone hn])
  | finish hn hp => exact absurd (hnone hn) (by simp [Handler.active, hp])
  | _ => exact hz

theorem DrainsWf.micro {k : SocketId} {w w' : World} (h : w.DrainsWf) (hc : w.Counted)
    (hk : k < w.nextSocket) (hm : Micro k w w') : w'.DrainsWf := by
  have hsame := hm.same
  rcases micro_closers hm with he | ⟨hz, he⟩
  · refine ⟨fun c hcl hp => ?_, fun c hcl hp hd => ?_⟩
    · rw [hsame.state]
      exact h.waiting c (hsame.nextCloser ▸ hcl) (he ▸ hp)
    · rw [he] at hp hd ⊢
      rw [hsame.nextCloser] at hcl
      exact (h.drained c hcl hp hd).imp id fun hz => micro_idle hm hc hk (h.waiting c hcl hp) hz
  · refine ⟨fun c hcl hp => ?_, fun c _ _ _ => Or.inr hz⟩
    rw [hsame.state]
    rw [he, (wake_closer w.drainResolvers w.closers c).2.2.2.1] at hp
    exact h.waiting c (hsame.nextCloser ▸ hcl) hp

theorem DrainsWf.micros {k : SocketId} {w w' : World} (h : w.DrainsWf) (hc : w.Counted)
    (hk : k < w.nextSocket) (hm : Micros k w w') : w'.DrainsWf :=
  (hm.invariant (I := fun v => v.DrainsWf ∧ v.Counted ∧ k < v.nextSocket)
    (fun _ _ hs hi => ⟨hi.1.micro hi.2.1 hi.2.2 hs, hi.2.1.micro hi.2.2 hs,
      hs.same.nextSocket ▸ hi.2.2⟩) ⟨h, hc, hk⟩).1

theorem DrainsWf.close {w : World} (h : w.DrainsWf) (hw : w.ServersWf)
    (o : RpcServerCloseOptions) : (w.close o).DrainsWf := by
  have hcases : ∀ c, c < w.nextCloser + 1 → c < w.nextCloser ∨ c = w.nextCloser :=
    fun c hc => Nat.lt_or_eq_of_le (Nat.le_of_lt_succ hc)
  have hold : ∀ x : Closer, ∀ c, c < w.nextCloser →
      Function.update w.closers w.nextCloser x c = w.closers c := fun x c hc => by
    rw [Function.update_apply, if_neg (Nat.ne_of_lt hc)]
  -- with a current server nobody else waits
  have hfirst : ∀ n, w.server = some n → ∀ c < w.nextCloser, (w.closers c).phase ≠ .draining := by
    intro n hn c hc hp
    have := (hw.idle n hn).2.2.2 c hc
    simp [Closer.isFinished, hp] at this
  have hbegin : ∀ (v : World) (x : Closer) n, w.server = some n →
      v.closers = Function.update w.closers w.nextCloser x → v.nextCloser = w.nextCloser + 1 →
      (x.phase = .draining → v.state = .draining ∧ (x.drained = true → v.activeRequests = 0)) →
      v.DrainsWf := by
    intro v x n hn hcl hnext hx
    refine ⟨fun c hc hp => ?_, fun c hc hp hd => ?_⟩
    · rw [hnext] at hc
      rw [hcl] at hp
      rcases hcases c hc with hlt | rfl
      · rw [hold x c hlt] at hp
        exact absurd hp (hfirst n hn c hlt)
      · rw [Function.update_self] at hp
        exact (hx hp).1
    · rw [hnext] at hc
      rw [hcl] at hp hd
      rcases hcases c hc with hlt | rfl
      · rw [hold x c hlt] at hp
        exact absurd hp (hfirst n hn c hlt)
      · rw [Function.update_self] at hp hd
        exact Or.inr ((hx hp).2 hd)
  rcases close_cases w o with ⟨hs, he⟩ | ⟨n, hn, ⟨-, hz, he⟩ | ⟨-, -, he⟩ | ⟨-, he⟩⟩ <;> rw [he]
  · refine ⟨fun c hc hp => ?_, fun c hc hp hd => ?_⟩
    · simp only [addCloser] at hp
      rcases hcases c hc with hlt | rfl
      · rw [hold _ c hlt] at hp
        exact h.waiting c hlt hp
      · rw [Function.update_self] at hp
        cases hp
    · simp only [addCloser] at hp hd ⊢
      rcases hcases c hc with hlt | rfl
      · rw [hold _ c hlt] at hp hd ⊢
        exact h.drained c hlt hp hd
      · rw [Function.update_self] at hp
        cases hp
  · rw [beginDrain, closeServer_eq]
    exact hbegin _ _ n hn rfl rfl fun _ => ⟨rfl, fun _ => hz⟩
  · rw [beginDrain, closeServer_eq]
    exact hbegin _ _ n hn rfl rfl fun _ => ⟨rfl, (by simp)⟩
  · rw [beginClose, closeServer_eq]
    exact hbegin _ _ n hn rfl rfl (by simp)

theorem DrainsWf.step {w w' : World} {e : Event} (h : w.DrainsWf) (hc : w.Counted)
    (hw : w.ServersWf) (hs : (machine.guard Exclusive).Step w e w') : w'.DrainsWf := by
  have hcloser : ∀ c (f : Closer → Closer) c', (w.updateCloser c f).closers c' =
      if c' = c then f (w.closers c) else w.closers c' := fun c f c' => by
    simp only [updateCloser, Function.update_apply]
  cases answer_of_step (Machine.guard_step.mp hs).2 with
  | turn _ hlt hrun => exact h.micros hc hlt hrun
  | registerService => exact ⟨h.waiting, h.drained⟩
  | listen => exact ⟨h.waiting, h.drained⟩
  | @listening n hlt hst =>
    refine ⟨fun c hcl hp => ?_, h.drained⟩
    have := (hw.idle n (hw.current n hlt (Or.inl hst))).2.2.2 c hcl
    simp [Closer.isFinished, show (w.closers c).phase = .draining from hp] at this
  | listenError => exact ⟨h.waiting, h.drained⟩
  | connection => exact ⟨h.waiting, h.drained⟩
  | peerEnd => exact ⟨h.waiting, h.drained⟩
  | finished => exact ⟨h.waiting, h.drained⟩
  | socketClose => exact ⟨h.waiting, h.drained⟩
  | close o => exact h.close hw o
  | @drainTimeout c =>
    refine ⟨fun c' hcl hp => ?_, fun c' hcl hp hd => ?_⟩
    · simp only [World.drainTimeout, removeDrainResolver, updateCloser, Function.update_apply] at hp
      split_ifs at hp with hcc
      · subst hcc
        exact h.waiting c' hcl hp
      · exact h.waiting c' hcl hp
    · simp only [World.drainTimeout, removeDrainResolver, updateCloser, Function.update_apply]
        at hp hd ⊢
      split_ifs at hp hd ⊢ with hcc
      · exact Or.inl rfl
      · exact h.drained c' hcl hp hd
  | @resumeDrain c =>
    refine ⟨fun c' hcl hp => ?_, fun c' hcl hp hd => ?_⟩
    · unfold World.resumeDrain at hp
      simp only [updateCloser, Function.update_apply] at hp
      split_ifs at hp
      exact h.waiting c' hcl hp
    · unfold World.resumeDrain at hp hd ⊢
      simp only [updateCloser, Function.update_apply] at hp hd ⊢
      split_ifs at hp hd ⊢
      exact h.drained c' hcl hp hd
  | @closeCallback c =>
    refine ⟨fun c' hcl hp => ?_, fun c' hcl hp hd => ?_⟩
    · simp only [World.closedServer, updateCloser, Function.update_apply] at hp
      split_ifs at hp with hcc
      · subst hcc
        exact h.waiting c' hcl hp
      · exact h.waiting c' hcl hp
    · simp only [World.closedServer, updateCloser, Function.update_apply] at hp hd ⊢
      split_ifs at hp hd ⊢ with hcc
      · subst hcc
        exact h.drained c' hcl hp hd
      · exact h.drained c' hcl hp hd
  | @resumeClose c hlt hph hcl =>
    obtain ⟨result, -, he⟩ := resumeClose_cases hcl
    rw [he]
    have hopen : (w.closers c).isFinished = false := by simp [Closer.isFinished, hph]
    have hother : ∀ c', c' < w.nextCloser → ((w.updateCloser c fun x =>
        { x with phase := .finished result }).closers c').phase = .draining → False := by
      intro c' hc' hp
      rw [hcloser] at hp
      split_ifs at hp with hcc
      exact hcc (hw.single c' hc' c hlt (by simp [Closer.isFinished, hp]) hopen)
    exact ⟨fun c' hc' hp => (hother c' hc' hp).elim, fun c' hc' hp _ => (hother c' hc' hp).elim⟩

end World

end WeisleyRpc.Server
