import WeisleyRpc.ServerOps

/-!
# Faults of one socket

Data handlers share the registry, the options and the state, which they only read, and
the counter of active requests, which they only write. So what happens on one socket
does not show on another. An `error` event has no listener and ends the process.
-/

namespace WeisleyRpc.Server

/-- The logger takes the warning about a socket that is closed for its bad data. -/
def RpcServerOptions.Logs (o : RpcServerOptions) : Prop :=
  ∀ logger ∈ o.logger, ∀ message, logger ⟨.warn, "rpc server closing invalid socket",
    [("errorMessage", .string message)]⟩ = .ok ()

/-- Two states that agree outside socket `k` in all that a data handler reads. -/
structure Apart (k : SocketId) (w v : World) : Prop where
  registry : v.registry = w.registry
  options : v.options = w.options
  state : v.state = w.state
  nextSocket : v.nextSocket = w.nextSocket
  servers : v.servers = w.servers
  nextServer : v.nextServer = w.nextServer
  conns : ∀ k' ≠ k, v.conns k' = w.conns k'

/-- Both are answered, with states that agree outside socket `k`. -/
def Agree (k : SocketId) (a b : Except JsError World) : Prop :=
  ∃ w v, a = .ok w ∧ b = .ok v ∧ Apart k w v

namespace Apart
variable {k j : SocketId} {w v : World}

theorem refl (k : SocketId) (w : World) : Apart k w w :=
  ⟨rfl, rfl, rfl, rfl, rfl, rfl, fun _ _ => rfl⟩

theorem agree (h : Apart k w v) : Agree k (.ok w) (.ok v) := ⟨w, v, rfl, rfl, h⟩

theorem same {w' v' : World} (h : Apart k w v) (hw : SameServer w w') (hv : SameServer v v')
    (hc : ∀ k' ≠ k, v'.conns k' = w'.conns k') : Apart k w' v' where
  registry := hv.registry.trans (h.registry.trans hw.registry.symm)
  options := hv.options.trans (h.options.trans hw.options.symm)
  state := hv.state.trans (h.state.trans hw.state.symm)
  nextSocket := hv.nextSocket.trans (h.nextSocket.trans hw.nextSocket.symm)
  servers := hv.servers.trans (h.servers.trans hw.servers.symm)
  nextServer := hv.nextServer.trans (h.nextServer.trans hw.nextServer.symm)
  conns := hc

theorem conns_update (h : Apart k w v) (hj : j ≠ k) (f : ServerSocket → ServerSocket) :
    ∀ k' ≠ k, (v.updateSocket j f).conns k' = (w.updateSocket j f).conns k' := by
  intro k' hk'
  rw [World.conns_updateSocket, World.conns_updateSocket, h.conns j hj, h.conns k' hk']

theorem update (h : Apart k w v) (hj : j ≠ k) (f : ServerSocket → ServerSocket) :
    Apart k (w.updateSocket j f) (v.updateSocket j f) :=
  h.same (sameServer_updateSocket w j f) (sameServer_updateSocket v j f) (h.conns_update hj f)

theorem finish (h : Apart k w v) (hj : j ≠ k) (f : ServerSocket → ServerSocket) :
    Apart k (w.finishRequest j f) (v.finishRequest j f) := by
  refine h.same (sameServer_finishRequest w j f) (sameServer_finishRequest v j f) ?_
  rw [World.conns_finishRequest, World.conns_finishRequest]
  exact h.conns_update hj f

theorem start (h : Apart k w v) (hj : j ≠ k) (now : ℚ) (n i : ℕ) (message : JsValue) :
    Apart k (w.start now j n i message) (v.start now j n i message) := by
  unfold World.start
  rw [h.registry]
  have hu := h.update hj fun s =>
    (s.invoke ⟨n, i, message, MethodInvoker.call w.registry message⟩).setPhase n
      (.invoking now (MethodInvoker.call w.registry message))
  exact ⟨hu.registry, hu.options, hu.state, hu.nextSocket, hu.servers, hu.nextServer, hu.conns⟩

theorem fail (h : Apart k w v) (hlog : w.options.Logs) (hj : j ≠ k) (n : ℕ) (e : JsError) :
    Agree k (w.fail j n e) (v.fail j n e) := by
  have hok : w.log .warn "rpc server closing invalid socket" [("errorMessage", .string e.message)] =
      .ok () := by
    unfold World.log
    cases hl : w.options.logger with
    | none => rfl
    | some logger => exact hlog logger hl e.message
  have hok' : v.log .warn "rpc server closing invalid socket"
      [("errorMessage", .string e.message)] = .ok () := by
    rw [← hok]
    unfold World.log
    rw [h.options]
  refine ⟨_, _, ?_, ?_, h.update hj fun s => (s.setPhase n .failed).destroy⟩
  · rw [World.fail, hok]
    rfl
  · rw [World.fail, hok']
    rfl

theorem handleMessages (h : Apart k w v) (hlog : w.options.Logs) (hj : j ≠ k) (now : ℚ) (n : ℕ)
    (messages : List JsValue) (i : ℕ) :
    Agree k (World.handleMessages now j n messages i w)
      (World.handleMessages now j n messages i v) := by
  induction messages generalizing i w v with
  | nil => exact (h.update hj _).agree
  | cons message messages ih =>
    simp only [World.handleMessages, World.refuse]
    rw [h.state, h.conns j hj]
    split_ifs
    · cases (w.conns j).codec.encode (drainingResponse message) with
      | error e => exact h.fail hlog hj n e
      | ok payload => exact (h.update hj _).agree
    · exact (h.start hj now n i message).agree
    · cases (w.conns j).codec.encode (pongMessage (message.prop "id") now) with
      | error e => exact h.fail hlog hj n e
      | ok payload => exact ih (h.update hj _) hlog (i + 1)
    · exact ih (h.update hj _) hlog (i + 1)

theorem handleData (h : Apart k w v) (hlog : w.options.Logs) (hj : j ≠ k) (chunk : Buffer)
    (now : ℚ) : Agree k (w.handleData j chunk now) (v.handleData j chunk now) := by
  have hu := h.update hj fun s => s.receive chunk
  unfold World.handleData
  rw [h.conns j hj]
  cases ((w.conns j).codec.push chunk).1 with
  | error e => exact hu.fail hlog hj _ e
  | ok messages => exact hu.handleMessages hlog hj now _ messages 0

theorem settle (h : Apart k w v) (hlog : w.options.Logs) (hj : j ≠ k) (n : ℕ)
    (returned : Except Thrown JsValue) (now : ℚ) :
    Agree k (w.settle j n returned now) (v.settle j n returned now) := by
  unfold World.settle
  rw [h.conns j hj]
  cases (w.conns j).handlers[n]? with
  | none => exact h.agree
  | some x =>
    dsimp only
    split
    · rename_i startedAt called message _ _
      have hencode : v.encodeResponse j message (MethodInvoker.outcome called returned)
          (now - startedAt) = w.encodeResponse j message (MethodInvoker.outcome called returned)
            (now - startedAt) := by
        simp only [World.encodeResponse, World.logResponse, World.log, h.options, h.conns j hj]
      unfold World.respond
      rw [hencode]
      cases w.encodeResponse j message (MethodInvoker.outcome called returned) (now - startedAt) with
      | error e =>
        have hoptions := (sameServer_finishRequest w j fun s => s.setPhase n .failed).options
        exact (h.finish hj _).fail (hoptions ▸ hlog) hj n e
      | ok response => exact (h.update hj _).agree
    · exact h.agree

theorem wrote (h : Apart k w v) (hlog : w.options.Logs) (hj : j ≠ k) (n : ℕ)
    (result : Except JsError Unit) (now : ℚ) :
    Agree k (w.wrote j n result now) (v.wrote j n result now) := by
  have hfinish : ∀ f : ServerSocket → ServerSocket, (w.finishRequest j f).options.Logs := fun f =>
    (sameServer_finishRequest w j f).options ▸ hlog
  unfold World.wrote
  rw [h.conns j hj]
  cases (w.conns j).handlers[n]? with
  | none => exact h.agree
  | some x =>
    dsimp only
    split
    · exact (h.finish hj _).handleMessages (hfinish _) hj now n _ _
    · exact (h.finish hj _).fail (hfinish _) hj n _
    · exact (h.update hj _).handleMessages hlog hj now n _ _
    · exact h.fail hlog hj n _
    · exact h.agree

end Apart

/-- Sockets and methods go on and services are registered, but no socket reports an error. -/
def Undisturbed (_ : World) : Event → Prop
  | .registerService _ _ | .connection _ | .data _ _ _ | .settle _ _ _ _ | .wrote _ _ _ _
  | .peerEnd _ | .finished _ | .socketClose _ => True
  | .listen _ | .listening _ | .listenError _ | .socketError _ _ | .close _ | .drainTimeout _
  | .resumeDrain _ | .closeCallback _ | .resumeClose _ => False

instance (w : World) (e : Event) : Decidable (Undisturbed w e) :=
  match e with
  | .registerService _ _ | .connection _ | .data _ _ _ | .settle _ _ _ _ | .wrote _ _ _ _
  | .peerEnd _ | .finished _ | .socketClose _ => isTrue trivial
  | .listen _ | .listening _ | .listenError _ | .socketError _ _ | .close _ | .drainTimeout _
  | .resumeDrain _ | .closeCallback _ | .resumeClose _ => isFalse id

namespace Apart
variable {k : SocketId} {w v : World}

/-- The events of other sockets are answered alike. -/
theorem apply {j : SocketId} {e : Event} (h : Apart k w v) (hlog : w.options.Logs)
    (hsocket : e.socket = some j) (hj : j ≠ k) (hu : Undisturbed w e) :
    Agree k (Server.apply w e) (Server.apply v e) := by
  cases e with
  | data =>
    obtain rfl := Option.some.inj hsocket
    exact h.handleData hlog hj _ _
  | settle =>
    obtain rfl := Option.some.inj hsocket
    exact h.settle hlog hj _ _ _
  | wrote =>
    obtain rfl := Option.some.inj hsocket
    exact h.wrote hlog hj _ _ _
  | peerEnd =>
    obtain rfl := Option.some.inj hsocket
    exact (h.update hj _).agree
  | finished =>
    obtain rfl := Option.some.inj hsocket
    exact (h.update hj _).agree
  | socketError => exact hu.elim
  | socketClose =>
    obtain rfl := Option.some.inj hsocket
    have hu := h.update hj fun s => { s with closed := true }
    exact agree ⟨hu.registry, hu.options, hu.state, hu.nextSocket, hu.servers, hu.nextServer,
      hu.conns⟩
  | _ => cases hsocket

theorem enabled {e : Event} (h : Apart k w v) (hk : e.socket ≠ some k) (hu : Undisturbed w e)
    (he : Enabled w e) : Enabled v e := by
  have hconns : ∀ j, e.socket = some j → v.conns j = w.conns j := by
    intro j hj
    refine h.conns j ?_
    rintro rfl
    exact hk hj
  cases e with
  | registerService => trivial
  | connection =>
    simp only [Enabled] at he ⊢
    rwa [h.nextServer, h.servers]
  | data j =>
    simp only [Enabled] at he ⊢
    rwa [h.nextSocket, hconns j rfl]
  | settle j =>
    simp only [Enabled] at he ⊢
    rwa [h.nextSocket, hconns j rfl]
  | wrote j =>
    simp only [Enabled] at he ⊢
    rwa [h.nextSocket, hconns j rfl]
  | peerEnd j =>
    simp only [Enabled] at he ⊢
    rwa [h.nextSocket, hconns j rfl]
  | finished j =>
    simp only [Enabled] at he ⊢
    rwa [h.nextSocket, hconns j rfl]
  | socketClose j =>
    simp only [Enabled] at he ⊢
    rwa [h.nextSocket, hconns j rfl]
  | _ => exact hu.elim

/-- The events of socket `k` itself stay hidden. -/
theorem skip {w' : World} {e : Event} (h : Apart k w v) (hs : machine.Step w e w')
    (hk : e.socket = some k) : Apart k w' v := by
  have hupdate : ∀ f : ServerSocket → ServerSocket, Apart k (w.updateSocket k f) v := by
    intro f
    refine h.same (sameServer_updateSocket w k f) (.refl v) fun k' hk' => ?_
    rw [World.conns_updateSocket, if_neg hk', h.conns k' hk']
  cases answer_of_step hs with
  | turn ht _ hrun =>
    obtain rfl := Option.some.inj ((Event.socket_of_turn ht).symm.trans hk)
    exact h.same hrun.same (.refl v) fun k' hk' => (h.conns k' hk').trans (hrun.conns_ne hk').symm
  | peerEnd =>
    obtain rfl := Option.some.inj hk
    exact hupdate _
  | finished =>
    obtain rfl := Option.some.inj hk
    exact hupdate _
  | socketClose =>
    obtain rfl := Option.some.inj hk
    have hu := hupdate fun s => { s with closed := true }
    exact ⟨hu.registry, hu.options, hu.state, hu.nextSocket, hu.servers, hu.nextServer, hu.conns⟩
  | _ => cases hk

/-- Every other step has its counterpart. -/
theorem keep {w' : World} {e : Event} (h : Apart k w v) (hlog : w.options.Logs)
    (hs : machine.Step w e w') (hu : Undisturbed w e) (hk : e.socket ≠ some k) :
    ∃ v', machine.Step v e v' ∧ Apart k w' v' := by
  have he := h.enabled hk hu hs.1
  cases hsocket : e.socket with
  | some j =>
    have hj : j ≠ k := by
      rintro rfl
      exact hk hsocket
    obtain ⟨u, v', hw, hv, happ⟩ := h.apply hlog hsocket hj hu
    obtain rfl := Except.ok.inj (hw.symm.trans hs.2)
    exact ⟨v', ⟨he, hv⟩, happ⟩
  | none =>
    cases answer_of_step hs with
    | registerService name implementation =>
      refine ⟨_, ⟨he, rfl⟩, ?_, h.options, h.state, h.nextSocket, h.servers, h.nextServer, h.conns⟩
      rw [h.registry]
    | connection _ _ hnew =>
      rw [← h.options] at hnew
      refine ⟨_, ⟨he, Except.bind_eq_ok_iff.mpr ⟨_, hnew, rfl⟩⟩, h.registry, h.options, h.state, ?_,
        h.servers, h.nextServer, fun k' hk' => ?_⟩
      · rw [h.nextSocket]
      · simp only [Function.update_apply]
        rw [h.nextSocket, h.conns k' hk']
    | turn ht => exact absurd (Event.socket_of_turn ht) (by simp [hsocket])
    | peerEnd => cases hsocket
    | finished => cases hsocket
    | socketClose => cases hsocket
    | _ => exact hu.elim

end Apart

theorem options_of_undisturbed {w w' : World} {e : Event} (hs : machine.Step w e w')
    (hu : Undisturbed w e) : w'.options = w.options := by
  rcases (answer_of_step hs).options with ⟨ho, -⟩ | ⟨options, rfl, -⟩
  · exact ho
  · exact hu.elim

/-- Nothing that happens on a socket, an error event apart, ends the process or shows on
another socket: without its events the others are where they are. -/
theorem sockets_isolated (w₀ w : World) (es : List Event) (hlog : w₀.options.Logs)
    (hrun : (machine.guard Undisturbed).Run w₀ es w) :
    (∀ e k, e.socket = some k → Undisturbed w e → Enabled w e →
      ∃ w', machine.Step w e w' ∧ ∀ k' ≠ k, w'.conns k' = w.conns k') ∧
    ∀ k, ∃ v, machine.Run w₀ (es.filter fun e => ¬ e.socket = some k) v ∧
      ∀ k' ≠ k, v.conns k' = w.conns k' := by
  have hoptions : w.options = w₀.options :=
    hrun.invariant (I := fun v => v.options = w₀.options) (fun _ _ _ hi hs => by
      obtain ⟨hu, hs⟩ := Machine.guard_step.mp hs
      exact (options_of_undisturbed hs hu).trans hi) rfl
  refine ⟨fun e k hk hu he => ?_, fun k => ?_⟩
  · have hself := Apart.refl (k + 1) w
    obtain ⟨w', -, hw', -, -⟩ := hself.apply (hoptions ▸ hlog) hk (Nat.ne_of_lt (Nat.lt_succ_self k)) hu
    exact ⟨w', ⟨he, hw'⟩, fun k' hk' =>
      (((Apart.refl k w).skip ⟨he, hw'⟩ hk).conns k' hk').symm⟩
  · obtain ⟨v, hv, happ, -⟩ := hrun.purge (R := fun u v => Apart k u v ∧ u.options = w₀.options)
      (fun e => e.socket = some k)
      (fun u v e u' ⟨happ, ho⟩ hk hs => by
        obtain ⟨hu, hs⟩ := Machine.guard_step.mp hs
        exact ⟨happ.skip hs hk, (options_of_undisturbed hs hu).trans ho⟩)
      (fun u v e u' ⟨happ, ho⟩ hk hs => by
        obtain ⟨hu, hs⟩ := Machine.guard_step.mp hs
        obtain ⟨v', hv', happ'⟩ := happ.keep (ho ▸ hlog) hs hu hk
        exact ⟨v', Machine.guard_step.mpr ⟨hu, hv'⟩, happ', (options_of_undisturbed hs hu).trans ho⟩)
      ⟨Apart.refl k w₀, rfl⟩
    exact ⟨v, hv.unguard, happ.conns⟩

/-- A server with two sockets. -/
def sampleSockets : Option World :=
  machine.exec (World.init (.ofTable sampleTable))
    [.registerService "s" ⟨[("m", true)], []⟩, .listen sampleServerOptions, .listening 0,
      .connection 0, .connection 0]

theorem sampleSockets_isSome : sampleSockets.isSome := by decide +kernel

/-- A request comes on each socket, and then bad data on the first. -/
def sampleFault : Option World :=
  (machine.guard Undisturbed).exec (sampleSockets.get sampleSockets_isSome)
    [.data 0 (samplePacket sampleRequest) 5, .data 1 (samplePacket sampleRequest) 5,
      .data 0 (List.replicate 10 0) 6, .settle 1 0 (.ok (.number (.ofNat 7))) 7, .socketClose 0,
      .wrote 1 0 (.ok ()) 8]

theorem sampleFault_isSome : sampleFault.isSome := by decide +kernel

theorem logs_sampleSockets : (sampleSockets.get sampleSockets_isSome).options.Logs := by
  have hnone : (sampleSockets.get sampleSockets_isSome).options.logger.isNone = true := by
    decide +kernel
  intro logger hl
  simp [Option.mem_def.mp hl] at hnone

theorem sockets_isolated_sample :
    ∃ v, machine.Run (sampleSockets.get sampleSockets_isSome)
      [.data 1 (samplePacket sampleRequest) 5, .settle 1 0 (.ok (.number (.ofNat 7))) 7,
        .wrote 1 0 (.ok ()) 8] v ∧
      ∀ k' ≠ 0, v.conns k' = (sampleFault.get sampleFault_isSome).conns k' :=
  (sockets_isolated _ _ _ logs_sampleSockets (Machine.run_exec_get sampleFault_isSome)).2 0

theorem socket_error_escapes : ¬ ∀ serializer w e k,
    machine.Reachable (World.init serializer) w → e.socket = some k → Enabled w e →
      ∃ w', machine.Step w e w' := by
  intro h
  obtain ⟨w', -, hw'⟩ := h _ _
    (.socketError 0 (.native "Error" "read ECONNRESET" none (some "ECONNRESET"))) 0
    ⟨_, Machine.run_exec_get sampleSockets_isSome⟩ rfl (by decide +kernel)
  cases hw'

end WeisleyRpc.Server
