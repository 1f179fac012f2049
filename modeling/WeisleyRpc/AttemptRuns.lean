import WeisleyRpc.AttemptSteps
import WeisleyRpc.ConnectionRecords

/-!
# No attempt of a call is lost

Over all connections of a client the pending entries are those of the calls that await `send`.
As a call has one attempt at a time, it never sends under an id that is pending, so every
connection keeps its table of pending calls, and whatever an attempt awaits is still to come.
-/

namespace WeisleyRpc.Client

/-- The connection has made a step of its own, or none. -/
def World.Moves (o : RpcConnectionOptions) (v v' : World) : Prop :=
  v' = v ∨ ∃ e, ((Client.machine o).guard FreshId).Step v e v'

namespace World
variable {o : RpcConnectionOptions} {v v' : World}

theorem Moves.extends (h : v.Moves o v') : Extends v v' := by
  rcases h with rfl | ⟨e, hs⟩
  · exact .refl v'
  · exact .step (Machine.guard_step.mp hs).2

theorem Moves.reachable {codec : RpcCodec} (h : v.Moves o v')
    (hr : ((Client.machine o).guard FreshId).Reachable (World.init codec) v) :
    ((Client.machine o).guard FreshId).Reachable (World.init codec) v' := by
  rcases h with rfl | ⟨e, hs⟩
  · exact hr
  · exact hr.snoc hs

theorem Moves.waits {n : ℕ} (h : v.Moves o v') (ht : v.TimersWf) (ha : v.AttemptWf)
    (hw : v.Awaits (.user n) ∨ v.Told n) : v'.Awaits (.user n) ∨ v'.Told n := by
  rcases hw with hw | hw
  · rcases h with rfl | ⟨e, hs⟩
    · exact Or.inl hw
    · exact hw.step ht ha (Machine.guard_step.mp hs).2
  · exact Or.inr (hw.extends h.extends)

theorem accepted_of_step {e : Event} (hs : (Client.machine o).Step v e v')
    (hsend : ∀ id payload, e ≠ .send id payload) : v'.accepted = v.accepted := by
  rcases step_calls hs with hk | ⟨id, payload, s, he, -⟩ | ⟨s, chunk, now, -, ha, -⟩
  · exact hk.accepted
  · exact absurd he (hsend id payload)
  · exact ha

/-- What is pending behind a step other than `send` was pending before it. -/
theorem pending_of_step {e : Event} {id : String} {p : PendingRequest} (ht : v.TimersWf)
    (hc : v.CallsWf) (hs : ((Client.machine o).guard FreshId).Step v e v')
    (hsend : ∀ id payload, e ≠ .send id payload) (hp : v'.pending.get id = some p) :
    v.pending.get id = some p := by
  have hstep := (Machine.guard_step.mp hs).2
  obtain ⟨⟨s, hs'⟩, hopen⟩ := (hc.step hs).outstanding id p hp
  have hold : ⟨p.call, id, s⟩ ∈ v.accepted := accepted_of_step hstep hsend ▸ hs'
  have hunsettled : p.call ∉ v.settled.map Settlement.call := fun hmem =>
    hopen (((Extends.step hstep).settled.map Settlement.call).subset hmem)
  obtain ⟨t, hget⟩ := hc.unsettled _ hold hunsettled
  rcases pending_step ht hc hs hget with ⟨hkept, -⟩ | ⟨hnone, -⟩
  · rwa [← hkept.symm.trans hp]
  · rw [hnone] at hp
    cases hp

end World

/-- What an attempt was begun for. -/
def CallAttempt.target (a : CallAttempt) : RpcRequest × String × ℕ := (a.request, a.host, a.port)

namespace ClientNetwork
variable {o : CommonRpcClientOptions} {codec : RpcCodec} {u v w w' : ClientNetwork}

/-- The attempts, the connections they use and the tables of these belong together. -/
structure NetworkWf (o : CommonRpcClientOptions) (codec : RpcCodec) (w : ClientNetwork) :
    Prop where
  fresh : ∀ c, ((Client.machine o.connectionOptions).guard FreshId).Reachable (World.init codec)
    (w.connections c)
  unused : ∀ c, ¬ w.InUse c → w.connections c = World.init codec
  named : ∀ id attempt, w.attempts.get id = some attempt → attempt.request.id = id
  connecting : ∀ id attempt c n, w.attempts.get id = some attempt →
    attempt.phase = .connecting c n →
      w.InUse c ∧ ((w.connections c).Awaits (.user n) ∨ (w.connections c).Told n)
  sending : ∀ id attempt c call, w.attempts.get id = some attempt →
    attempt.phase = .sending c call → ∃ s, ⟨call, id, s⟩ ∈ (w.connections c).accepted
  pending : ∀ c id p, (w.connections c).pending.get id = some p →
    ∃ attempt, w.attempts.get id = some attempt ∧ attempt.phase = .sending c p.call

theorem networkWf_init (o : CommonRpcClientOptions) (codec : RpcCodec) :
    NetworkWf o codec (init codec) where
  fresh _ := .refl _ _
  unused _ _ := rfl
  named _ _ h := by cases h
  connecting _ _ _ _ h := by cases h
  sending _ _ _ _ h := by cases h
  pending _ _ _ h := by cases h

namespace NetworkWf

section Connections
variable (h : NetworkWf o codec w) (c : ConnectionId)
include h

theorem callsWf : (w.connections c).CallsWf :=
  (h.fresh c).invariant (fun _ _ _ hi hs => hi.step hs) (World.callsWf_init codec)

theorem timersWf : (w.connections c).TimersWf :=
  (h.fresh c).unguard.invariant (fun _ _ _ hi hs => hi.step hs) (World.timersWf_init codec)

theorem attemptWf : (w.connections c).AttemptWf :=
  ((h.fresh c).unguard.invariant (fun _ _ _ hi hs => World.ConnectWf.step hi hs)
    ⟨World.attemptWf_init codec, World.resultWf_init codec⟩).1

/-- A call that does not await `send` has no pending entry. -/
theorem not_pending {id : String}
    (hno : ∀ attempt, w.attempts.get id = some attempt → ∀ call, attempt.phase ≠ .sending c call) :
    (w.connections c).pending.get id = none := by
  refine Option.eq_none_iff_forall_ne_some.mpr fun p hp => ?_
  obtain ⟨attempt, hget, hphase⟩ := h.pending c id p hp
  exact hno attempt hget p.call hphase

theorem not_pending_of_idle {id : String} (hidle : w.Idle id) :
    (w.connections c).pending.get id = none := by
  refine h.not_pending c fun attempt hget call hphase => ?_
  have hover := hidle attempt hget
  simp [CallAttempt.over, hphase] at hover

theorem not_pending_of_phase {id : String} {attempt : CallAttempt}
    (hget : w.attempts.get id = some attempt) (hphase : ∀ call, attempt.phase ≠ .sending c call) :
    (w.connections c).pending.get id = none := by
  refine h.not_pending c fun attempt' hget' => ?_
  obtain rfl := Option.some.inj (hget.symm.trans hget')
  exact hphase

end Connections

theorem pooled (h : NetworkWf o codec w) (hp : Pooled w v) : NetworkWf o codec v := by
  obtain ⟨hconnections, -, hattempts, -, -, hinUse⟩ := hp
  refine ⟨?_, fun c hc => ?_, ?_, ?_, ?_, ?_⟩
  · rw [hconnections]
    exact h.fresh
  · rw [hconnections]
    exact h.unused c fun hin => hc (hinUse c hin)
  · rw [hattempts]
    exact h.named
  · rw [hattempts, hconnections]
    exact fun id attempt c n hget hphase =>
      (h.connecting id attempt c n hget hphase).imp (hinUse c) fun hwaits => hwaits
  · rw [hattempts, hconnections]
    exact h.sending
  · rw [hattempts, hconnections]
    exact h.pending

/-- The connections move while the attempts stand still. -/
theorem move (h : NetworkWf o codec w) (hattempts : u.attempts = w.attempts)
    (hinUse : ∀ c, w.InUse c ↔ u.InUse c)
    (hmoves : ∀ c, (w.connections c).Moves o.connectionOptions (u.connections c))
    (hunused : ∀ c, ¬ w.InUse c → u.connections c = w.connections c)
    (hpending : ∀ c id p, (u.connections c).pending.get id = some p →
      (w.connections c).pending.get id = some p) : NetworkWf o codec u := by
  refine ⟨fun c => (hmoves c).reachable (h.fresh c), fun c hc => ?_, ?_, ?_, ?_, ?_⟩
  · have hc' : ¬ w.InUse c := fun hin => hc ((hinUse c).mp hin)
    rw [hunused c hc', h.unused c hc']
  · rw [hattempts]
    exact h.named
  · rw [hattempts]
    intro id attempt c n hget hphase
    obtain ⟨hin, hwaits⟩ := h.connecting id attempt c n hget hphase
    exact ⟨(hinUse c).mp hin, (hmoves c).waits (h.timersWf c) (h.attemptWf c) hwaits⟩
  · rw [hattempts]
    intro id attempt c call hget hphase
    obtain ⟨s, hs⟩ := h.sending id attempt c call hget hphase
    exact ⟨s, (hmoves c).extends.accepted.subset hs⟩
  · rw [hattempts]
    exact fun c id p hp => h.pending c id p (hpending c id p hp)

/-- The attempt of a call that has no pending entry goes into another phase. -/
theorem put (h : NetworkWf o codec w) {id : String} {attempt : CallAttempt}
    (hid : attempt.request.id = id) (hnone : ∀ c, (w.connections c).pending.get id = none)
    (hconnecting : ∀ c n, attempt.phase = .connecting c n →
      w.InUse c ∧ ((w.connections c).Awaits (.user n) ∨ (w.connections c).Told n))
    (hsending : ∀ c call, attempt.phase ≠ .sending c call) : NetworkWf o codec (w.put id attempt) := by
  have hcases : ∀ id' attempt', (w.put id attempt).attempts.get id' = some attempt' →
      id' = id ∧ attempt' = attempt ∨ id' ≠ id ∧ w.attempts.get id' = some attempt' := by
    intro id' attempt' hget
    simp only [ClientNetwork.put, OrderedMap.get_set] at hget
    split_ifs at hget with hne
    · exact Or.inl ⟨hne, (Option.some.inj hget).symm⟩
    · exact Or.inr ⟨hne, hget⟩
  refine ⟨h.fresh, h.unused, fun id' attempt' hget => ?_, fun id' attempt' c n hget hphase => ?_,
    fun id' attempt' c call hget hphase => ?_, fun c id' p hp => ?_⟩
  · rcases hcases id' attempt' hget with ⟨rfl, rfl⟩ | ⟨-, hget⟩
    · exact hid
    · exact h.named id' attempt' hget
  · rcases hcases id' attempt' hget with ⟨rfl, rfl⟩ | ⟨-, hget⟩
    · exact hconnecting c n hphase
    · exact h.connecting id' attempt' c n hget hphase
  · rcases hcases id' attempt' hget with ⟨rfl, rfl⟩ | ⟨-, hget⟩
    · exact absurd hphase (hsending c call)
    · exact h.sending id' attempt' c call hget hphase
  · obtain ⟨attempt', hget, hphase⟩ := h.pending c id' p hp
    have hne : id' ≠ id := by
      rintro rfl
      have hp' : (w.connections c).pending.get id' = some p := hp
      rw [hnone c] at hp'
      cases hp'
    exact ⟨attempt', by simp only [ClientNetwork.put, OrderedMap.get_set, if_neg hne, hget],
      hphase⟩

end NetworkWf

theorem connections_updateConnection (w : ClientNetwork) (c c' : ConnectionId)
    (f : World → World) : (w.updateConnection c f).connections c' =
      if c' = c then f (w.connections c) else w.connections c' := by
  simp only [updateConnection, Function.update_apply]

section Connection
variable {c : ConnectionId} {f : World → World}

theorem moves_updateConnection
    (hmove : (w.connections c).Moves o.connectionOptions (f (w.connections c))) (c' : ConnectionId) :
    (w.connections c').Moves o.connectionOptions ((w.updateConnection c f).connections c') := by
  rw [connections_updateConnection]
  split_ifs with hc
  · rw [hc]
    exact hmove
  · exact Or.inl rfl

/-- One connection makes a step in which nothing becomes pending. -/
theorem NetworkWf.updateConnection (h : NetworkWf o codec w) (hin : w.InUse c)
    (hmove : (w.connections c).Moves o.connectionOptions (f (w.connections c)))
    (hpending : ∀ id p, (f (w.connections c)).pending.get id = some p →
      (w.connections c).pending.get id = some p) :
    NetworkWf o codec (w.updateConnection c f) := by
  refine h.move rfl (fun _ => Iff.rfl) (moves_updateConnection hmove) (fun c' hc' => ?_)
    fun c' id p hp => ?_
  · rw [connections_updateConnection, if_neg fun hc : c' = c => hc' (hc ▸ hin)]
  · rw [connections_updateConnection] at hp
    split_ifs at hp with hc
    · rw [hc]
      exact hpending id p hp
    · exact hp

end Connection

theorem moves_connect (o : RpcConnectionOptions) (v : World) (n : ℕ) :
    v.Moves o (v.connect (.user n)) :=
  Or.inr ⟨.connect n, Machine.guard_step.mpr ⟨trivial, trivial, rfl⟩⟩

theorem NetworkWf.startConnect {c : ConnectionId} (h : NetworkWf o codec w) (hin : w.InUse c) :
    NetworkWf o codec (w.startConnect c) := by
  have hsame := World.sameTables_connect (w.connections c) (.user w.nextConnect)
  have hupdated := h.updateConnection (f := fun v => v.connect (.user w.nextConnect)) hin
    (moves_connect o.connectionOptions (w.connections c) w.nextConnect)
    fun id p hp => hsame.pending ▸ hp
  exact ⟨hupdated.fresh, hupdated.unused, hupdated.named, hupdated.connecting, hupdated.sending,
    hupdated.pending⟩

/-- A call without a pending entry sends: its id is fresh on the connection. -/
theorem NetworkWf.sendTurn {attempt : CallAttempt} {c : ConnectionId} (h : NetworkWf o codec w)
    (hin : w.InUse c) (hnone : ∀ c', (w.connections c').pending.get attempt.request.id = none)
    (turn : SendTurn codec w attempt c u) : NetworkWf o codec u := by
  cases turn with
  | unencoded threw => exact h.put rfl hnone (fun _ _ hp => by cases hp) fun _ _ hp => by cases hp
  | @refused payload e encoded refusal =>
    have hsend := World.send_of_refusal refusal attempt.request.id payload
    have hupdated := h.updateConnection (f := fun v => v.send attempt.request.id payload) hin
      (Or.inr ⟨.send attempt.request.id payload,
        Machine.guard_step.mpr ⟨hnone c, trivial, rfl⟩⟩) fun id p hp => by
        rw [hsend] at hp
        exact hp
    refine hupdated.put rfl (fun c' => ?_) (fun _ _ hp => by cases hp) fun _ _ hp => by cases hp
    rw [connections_updateConnection]
    split_ifs with hc
    · rw [hsend]
      exact hnone c
    · exact hnone c'
  | @accepted payload s encoded accepts =>
    obtain ⟨-, -, hsent⟩ := World.send_of_socket accepts attempt.request.id payload
    set id := attempt.request.id
    have hmoves := moves_updateConnection (w := w) (c := c) (o := o)
      (f := fun v => v.send id payload)
      (Or.inr ⟨.send id payload, Machine.guard_step.mpr ⟨hnone c, trivial, rfl⟩⟩)
    have hother : ∀ id' attempt', id' ≠ id → w.attempts.get id' = some attempt' →
        (w.attempts.set id { attempt with phase := .sending c (w.connections c).nextCall }).get id' =
          some attempt' := fun id' attempt' hne hget => by
      rw [OrderedMap.get_set, if_neg hne, hget]
    have hcases : ∀ id' attempt', (w.attempts.set id { attempt with
        phase := .sending c (w.connections c).nextCall }).get id' = some attempt' →
        id' = id ∧ attempt' = { attempt with phase := .sending c (w.connections c).nextCall } ∨
          w.attempts.get id' = some attempt' := by
      intro id' attempt' hget
      rw [OrderedMap.get_set] at hget
      split_ifs at hget with hne
      · exact Or.inl ⟨hne, (Option.some.inj hget).symm⟩
      · exact Or.inr hget
    refine ⟨fun c' => (hmoves c').reachable (h.fresh c'), fun c' hc' => ?_,
      fun id' attempt' hget => ?_, fun id' attempt' c' n hget hphase => ?_,
      fun id' attempt' c' call hget hphase => ?_, fun c' id' p hp => ?_⟩
    · change (w.updateConnection c fun v => v.send id payload).connections c' = _
      rw [connections_updateConnection, if_neg fun he : c' = c => hc' (he ▸ hin)]
      exact h.unused c' hc'
    · rcases hcases id' attempt' hget with ⟨rfl, rfl⟩ | hget
      · rfl
      · exact h.named id' attempt' hget
    · rcases hcases id' attempt' hget with ⟨rfl, rfl⟩ | hget
      · cases hphase
      · obtain ⟨hin', hwaits⟩ := h.connecting id' attempt' c' n hget hphase
        exact ⟨hin', (hmoves c').waits (h.timersWf c') (h.attemptWf c') hwaits⟩
    · rcases hcases id' attempt' hget with ⟨rfl, rfl⟩ | hget
      · obtain ⟨rfl, rfl⟩ := AttemptPhase.sending.inj hphase
        refine ⟨s, ?_⟩
        change _ ∈ ((w.updateConnection c fun v => v.send id payload).connections c).accepted
        rw [connections_updateConnection, if_pos rfl, hsent]
        exact List.mem_append_right _ List.mem_cons_self
      · obtain ⟨s', hs'⟩ := h.sending id' attempt' c' call hget hphase
        exact ⟨s', (hmoves c').extends.accepted.subset hs'⟩
    · have hp' : ((w.updateConnection c fun v => v.send id payload).connections c').pending.get id' =
        some p := hp
      rw [connections_updateConnection] at hp'
      by_cases hid : id' = id
      · split_ifs at hp' with hc
        · rw [hsent] at hp'
          simp only [World.sent, OrderedMap.get_set, if_pos hid] at hp'
          obtain rfl := Option.some.inj hp'
          refine ⟨{ attempt with phase := .sending c (w.connections c).nextCall }, ?_, ?_⟩
          · change (w.attempts.set id _).get id' = _
            rw [OrderedMap.get_set, if_pos hid]
          · rw [hc]
        · rw [hid, hnone c'] at hp'
          cases hp'
      · have hold : (w.connections c').pending.get id' = some p := by
          split_ifs at hp' with hc
          · rw [hsent] at hp'
            simp only [World.sent, OrderedMap.get_set, if_neg hid] at hp'
            rw [hc]
            exact hp'
          · exact hp'
        obtain ⟨attempt', hget, hphase⟩ := h.pending c' id' p hold
        exact ⟨attempt', hother id' attempt' hid hget, hphase⟩

theorem pending_close (v : World) (id : String) : v.close.pending.get id = none := by
  rw [(World.close_tables v).1]
  rfl

/-- The settlement that an attempt reads is that of its own call. -/
theorem settlement_eq_some {c : ConnectionId} {call : CallId} {x : Settlement}
    (h : w.settlement c call = some x) : x ∈ (w.connections c).settled ∧ x.call = call :=
  ⟨List.mem_of_find?_eq_some h, by simpa using List.find?_some h⟩

theorem NetworkWf.answered {id : String} {attempt : CallAttempt} {c : ConnectionId} {call : CallId}
    {x : Settlement} (h : NetworkWf o codec w) (hget : w.attempts.get id = some attempt)
    (hphase : attempt.phase = .sending c call) (hx : w.settlement c call = some x) :
    NetworkWf o codec (w.put id { attempt with phase := .ended x.outcome }) := by
  refine h.put (h.named id attempt hget) (fun c' => ?_) (fun _ _ hp => by cases hp)
    fun _ _ hp => by cases hp
  refine Option.eq_none_iff_forall_ne_some.mpr fun p hp => ?_
  obtain ⟨attempt', hget', hphase'⟩ := h.pending c' id p hp
  obtain rfl := Option.some.inj (hget.symm.trans hget')
  obtain ⟨rfl, rfl⟩ := AttemptPhase.sending.inj (hphase.symm.trans hphase')
  obtain ⟨hmem, hcall⟩ := settlement_eq_some hx
  exact ((h.callsWf c).outstanding id p hp).2 (List.mem_map.mpr ⟨x, hmem, hcall⟩)

theorem NetworkWf.close (h : NetworkWf o codec w) : NetworkWf o codec w.close := by
  refine h.move rfl (fun _ => Iff.rfl) (fun c => ?_) (fun c hc => ?_) fun c id p hp => ?_
  · simp only [ClientNetwork.close]
    split_ifs
    · exact Or.inr ⟨.close, Machine.guard_step.mpr ⟨trivial, trivial, rfl⟩⟩
    · exact Or.inl rfl
  · simp only [ClientNetwork.close, if_neg hc]
  · simp only [ClientNetwork.close] at hp
    split_ifs at hp
    · rw [pending_close] at hp
      cases hp
    · exact hp

theorem NetworkWf.begunWith (h : NetworkWf o codec w) (attempt : CallAttempt) :
    NetworkWf o codec (w.begunWith attempt) :=
  ⟨h.fresh, h.unused, h.named, h.connecting, h.sending, h.pending⟩

theorem Idle.pooled {id : String} (h : w.Idle id) (hp : Pooled w v) : v.Idle id := by
  unfold Idle
  rw [hp.attempts]
  exact h

theorem NetworkWf.connection {c : ConnectionId} {e : Event} {k : World} (h : NetworkWf o codec w)
    (hin : w.InUse c) (hexternal : e.external = true)
    (hs : (Client.machine o.connectionOptions).Step (w.connections c) e k) :
    NetworkWf o codec (w.updateConnection c fun _ => k) := by
  have hsend : ∀ id payload, e ≠ .send id payload := by
    rintro id payload rfl
    cases hexternal
  have hfresh : FreshId (w.connections c) e := by
    cases e with
    | send id payload => exact absurd rfl (hsend id payload)
    | _ => trivial
  have hguarded := Machine.guard_step.mpr ⟨hfresh, hs⟩
  exact h.updateConnection hin (Or.inr ⟨e, hguarded⟩) fun id p hp =>
    World.pending_of_step (h.timersWf c) (h.callsWf c) hguarded hsend hp

theorem NetworkWf.step {e : NetworkEvent} (h : NetworkWf o codec w)
    (hs : (machine o codec).Step w e w') : NetworkWf o codec w' := by
  cases networkStep_of_step hs with
  | @unconnected request host port v e idle pooled threw =>
    have hv := (h.pooled pooled).begunWith ⟨request, host, port, .unconnected e⟩
    have hidle : v.Idle request.id := idle.pooled pooled
    exact hv.put rfl (fun c => hv.not_pending_of_idle c hidle) (fun _ _ hp => by cases hp)
      fun _ _ hp => by cases hp
  | @connecting request host port v c idle pooled endpoint inUse =>
    have hv := (h.pooled pooled).begunWith ⟨request, host, port, .connecting c v.nextConnect⟩
    have hstarted := hv.startConnect (c := c) inUse
    have hidle : v.Idle request.id := idle.pooled pooled
    refine hstarted.put rfl (fun c' => hstarted.not_pending_of_idle c' hidle)
      (fun c' n hp => ?_) fun _ _ hp => by cases hp
    obtain ⟨rfl, rfl⟩ := AttemptPhase.connecting.inj hp
    refine ⟨inUse, Or.inl ?_⟩
    change ((v.updateConnection c fun k => k.connect (.user v.nextConnect)).connections c).Awaits _
    rw [connections_updateConnection, if_pos rfl]
    exact World.awaits_connect _ _
  | @sending request host port v u c idle pooled endpoint inUse turn =>
    have hv := (h.pooled pooled).begunWith ⟨request, host, port, .connecting c v.nextConnect⟩
    have hidle : v.Idle request.id := idle.pooled pooled
    refine hv.sendTurn inUse (fun c' => ?_) turn
    exact hv.not_pending_of_idle c' hidle
  | @unreached id attempt c n e current phase told =>
    refine h.put (h.named id attempt current) (fun c' => ?_) (fun _ _ hp => by cases hp)
      fun _ _ hp => by cases hp
    refine h.not_pending_of_phase c' current fun call hp => ?_
    rw [phase] at hp
    cases hp
  | @connected id attempt c n u current phase told turn =>
    refine h.sendTurn (h.connecting id attempt c n current phase).1 (fun c' => ?_) turn
    rw [h.named id attempt current]
    refine h.not_pending_of_phase c' current fun call hp => ?_
    rw [phase] at hp
    cases hp
  | answered current phase settled => exact h.answered current phase settled
  | connection inUse external step => exact h.connection inUse external step
  | unpooled pooled => exact h.pooled pooled
  | connect pooled inUse => exact (h.pooled pooled).startConnect inUse
  | close => exact h.close

theorem NetworkWf.of_reachable (h : (machine o codec).Reachable (init codec) w) :
    NetworkWf o codec w :=
  h.invariant (fun _ _ _ hi hs => hi.step hs) (networkWf_init o codec)

/-- Whatever an attempt awaits is there or still to come, with a timer of its own while it awaits
`send`; and nothing is pending, and no call timer is armed, on any connection but for an attempt
that awaits it. -/
structure AttemptsKept (o : CommonRpcClientOptions) (w : ClientNetwork) : Prop where
  fresh : ∀ c, ReachableWhen o.connectionOptions FreshId (w.connections c)
  connecting : ∀ id attempt c n, w.attempts.get id = some attempt →
    attempt.phase = .connecting c n →
      w.Ready id ∨ (w.connections c).Awaits (.user n)
  sending : ∀ id attempt c call, w.attempts.get id = some attempt →
    attempt.phase = .sending c call → w.Ready id ∨
      ∃ t, (w.connections c).pending.get id = some ⟨call, t⟩ ∧
        (w.connections c).timers.get t = some (.callTimeout id call)
  pending : ∀ c id p, (w.connections c).pending.get id = some p →
    ∃ attempt, w.attempts.get id = some attempt ∧ attempt.phase = .sending c p.call
  armed : ∀ c t id call, (w.connections c).timers.get t = some (.callTimeout id call) →
    ∃ attempt, w.attempts.get id = some attempt ∧ attempt.phase = .sending c call

theorem told_of_mem {c : ConnectionId} {n : ℕ} {result : Result}
    (h : (n, result) ∈ (w.connections c).connects) : (w.told c n).isSome = true :=
  List.lookup_isSome_iff.mpr ⟨(n, result), h, beq_self_eq_true n⟩

theorem settlement_of_mem {c : ConnectionId} {call : CallId}
    (h : call ∈ (w.connections c).settled.map Settlement.call) :
    (w.settlement c call).isSome = true := by
  obtain ⟨x, hx, hcall⟩ := List.mem_map.mp h
  exact List.find?_isSome.mpr ⟨x, hx, decide_eq_true hcall⟩

def begunOf (w : ClientNetwork) (id : String) : List CallAttempt :=
  w.begun.filter fun a => a.request.id = id

theorem SendTurn.attempts {attempt : CallAttempt} {c : ConnectionId}
    (turn : SendTurn codec w attempt c u) : u.begun = w.begun ∧ ∃ phase,
      (∀ e, phase ≠ .unconnected e) ∧
        u.attempts = w.attempts.set attempt.request.id { attempt with phase := phase } := by
  cases turn with
  | unencoded threw => exact ⟨rfl, _, (fun _ he => by cases he), rfl⟩
  | refused encoded refusal => exact ⟨rfl, _, (fun _ he => by cases he), rfl⟩
  | accepted encoded accepts => exact ⟨rfl, _, (fun _ he => by cases he), rfl⟩

/-- A new attempt is recorded, and it is the current one of its call. -/
theorem begin_attempts (o : CommonRpcClientOptions) (codec : RpcCodec) {request : RpcRequest}
    (host : String) (port : ℕ) (hidle : w.Idle request.id) :
    (∃ a : CallAttempt, a.target = (request, host, port) ∧
      (w.begin o codec request host port).begun = w.begun ++ [a]) ∧
    ∃ a : CallAttempt, a.target = (request, host, port) ∧
      (w.begin o codec request host port).attempts = w.attempts.set request.id a := by
  have hstep : NetworkStep o codec w (.begin request host port)
      (w.begin o codec request host port) := networkStep_begin hidle
  generalize w.begin o codec request host port = u at hstep ⊢
  cases hstep with
  | @unconnected _ _ _ v e idle pooled threw =>
    refine ⟨⟨⟨request, host, port, .unconnected e⟩, rfl, ?_⟩,
      ⟨request, host, port, .unconnected e⟩, rfl, ?_⟩
    · change v.begun ++ _ = _
      rw [pooled.begun]
    · change v.attempts.set _ _ = _
      rw [pooled.attempts]
  | @connecting _ _ _ v c idle pooled endpoint inUse =>
    refine ⟨⟨⟨request, host, port, .connecting c v.nextConnect⟩, rfl, ?_⟩,
      ⟨request, host, port, .connecting c v.nextConnect⟩, rfl, ?_⟩
    · change v.begun ++ _ = _
      rw [pooled.begun]
    · change v.attempts.set _ _ = _
      rw [pooled.attempts]
  | @sending _ _ _ v _ c idle pooled endpoint inUse turn =>
    obtain ⟨hbegun, phase, -, hattempts⟩ := turn.attempts
    refine ⟨⟨⟨request, host, port, .connecting c v.nextConnect⟩, rfl, ?_⟩,
      ⟨request, host, port, phase⟩, rfl, ?_⟩
    · rw [hbegun, ← pooled.begun]
      rfl
    · rw [hattempts, ← pooled.attempts]
      rfl

theorem begunOf_begin (o : CommonRpcClientOptions) (codec : RpcCodec) {request : RpcRequest}
    (host : String) (port : ℕ) (hidle : w.Idle request.id) :
    (∃ a a' : CallAttempt, a.target = (request, host, port) ∧ a'.target = (request, host, port) ∧
      (w.begin o codec request host port).begunOf request.id = w.begunOf request.id ++ [a] ∧
      (w.begin o codec request host port).attempts.get request.id = some a') ∧
    ∀ id, id ≠ request.id →
      (w.begin o codec request host port).begunOf id = w.begunOf id ∧
      (w.begin o codec request host port).attempts.get id = w.attempts.get id := by
  obtain ⟨⟨a, ha, hbegun⟩, a', ha', hattempts⟩ := begin_attempts o codec host port hidle
  have hrequest : a.request = request := congrArg Prod.fst ha
  refine ⟨⟨a, a', ha, ha', ?_, ?_⟩, fun id hid => ⟨?_, ?_⟩⟩
  · simp [begunOf, hbegun, hrequest]
  · rw [hattempts, OrderedMap.get_set, if_pos rfl]
  · simp [begunOf, hbegun, hrequest, Ne.symm hid]
  · rw [hattempts, OrderedMap.get_set, if_neg hid]

/-- Between the beginnings an attempt under way may go on, and nothing else changes. -/
theorem attempts_step (hw : NetworkWf o codec w) {e : NetworkEvent}
    (hs : (machine o codec).Step w e w') (hno : ∀ request host port, e ≠ .begin request host port) :
    w'.begun = w.begun ∧ ∀ id, w'.attempts.get id = w.attempts.get id ∨
      ∃ a phase, w.attempts.get id = some a ∧ a.over = false ∧
        w'.attempts.get id = some { a with phase := phase } := by
  have hset : ∀ {id : String} {a : CallAttempt} {phase : AttemptPhase},
      w.attempts.get id = some a → a.over = false →
      w'.attempts = w.attempts.set id { a with phase := phase } → ∀ id',
        w'.attempts.get id' = w.attempts.get id' ∨ ∃ a phase, w.attempts.get id' = some a ∧
          a.over = false ∧ w'.attempts.get id' = some { a with phase := phase } := by
    intro id a phase hget hover he id'
    by_cases hid : id' = id
    · subst hid
      exact Or.inr ⟨a, phase, hget, hover, by rw [he, OrderedMap.get_set, if_pos rfl]⟩
    · exact Or.inl (by rw [he, OrderedMap.get_set, if_neg hid])
  cases networkStep_of_step hs with
  | @unconnected request host port => exact absurd rfl (hno request host port)
  | @connecting request host port => exact absurd rfl (hno request host port)
  | @sending request host port => exact absurd rfl (hno request host port)
  | unreached current phase told =>
    exact ⟨rfl, hset current (by simp [CallAttempt.over, phase]) rfl⟩
  | connected current phase told turn =>
    obtain ⟨hbegun, phase', -, hattempts⟩ := turn.attempts
    rw [hw.named _ _ current] at hattempts
    exact ⟨hbegun, hset current (by simp [CallAttempt.over, phase]) hattempts⟩
  | answered current phase settled =>
    exact ⟨rfl, hset current (by simp [CallAttempt.over, phase]) rfl⟩
  | connection inUse external step => exact ⟨rfl, fun _ => Or.inl rfl⟩
  | unpooled pooled => exact ⟨pooled.begun, fun _ => Or.inl (by rw [pooled.attempts])⟩
  | connect pooled inUse =>
    refine ⟨pooled.begun, fun id => Or.inl ?_⟩
    rw [← pooled.attempts]
    rfl
  | close => exact ⟨rfl, fun _ => Or.inl rfl⟩

/-- Where an attempt stands, with what it waits for. -/
inductive Stands (w : ClientNetwork) (id : String) (a : CallAttempt) : Prop
  | ended (ended : a.over = true) : Stands w id a
  | ready (ready : w.Ready id) : Stands w id a
  | connects {c : ConnectionId} {n : ℕ} (phase : a.phase = .connecting c n)
      (awaits : (w.connections c).Awaits (.user n)) : Stands w id a
  | answers {c : ConnectionId} {call : CallId} {t : TimerId} (phase : a.phase = .sending c call)
      (pending : (w.connections c).pending.get id = some ⟨call, t⟩)
      (timer : (w.connections c).timers.get t = some (.callTimeout id call)) : Stands w id a

theorem NetworkWf.stands (hw : NetworkWf o codec w) {id : String} {a : CallAttempt}
    (hget : w.attempts.get id = some a) : w.Stands id a := by
  cases hphase : a.phase with
  | unconnected e => exact .ended (by simp only [CallAttempt.over, hphase])
  | ended outcome => exact .ended (by simp only [CallAttempt.over, hphase])
  | connecting c n =>
    rcases (hw.connecting id a c n hget hphase).2 with hwaits | ⟨result, hmem⟩
    · exact .connects hphase hwaits
    · refine .ready ⟨a, hget, ?_⟩
      simpa only [awaited, hphase] using told_of_mem hmem
  | sending c call =>
    obtain ⟨s, hs⟩ := hw.sending id a c call hget hphase
    by_cases hsettled : call ∈ (w.connections c).settled.map Settlement.call
    · refine .ready ⟨a, hget, ?_⟩
      simpa only [awaited, hphase] using settlement_of_mem hsettled
    · obtain ⟨t, hp⟩ := (hw.callsWf c).unsettled _ hs hsettled
      exact .answers hphase hp ((hw.timersWf c).call id _ hp)

theorem attempts_kept (hnew : RpcCodec.new o.connectionOptions.codecOptions = .ok codec)
    (h : (machine o codec).Reachable (init codec) w) : AttemptsKept o w := by
  have hw := NetworkWf.of_reachable h
  refine ⟨fun c => ⟨codec, hnew, hw.fresh c⟩, fun id attempt c n hget hphase => ?_,
    fun id attempt c call hget hphase => ?_, hw.pending, fun c t id call ht => ?_⟩
  · cases hw.stands hget with
    | ended ended => simp [CallAttempt.over, hphase] at ended
    | ready ready => exact Or.inl ready
    | connects phase awaits =>
      obtain ⟨rfl, rfl⟩ := AttemptPhase.connecting.inj (hphase.symm.trans phase)
      exact Or.inr awaits
    | answers phase _ _ => cases hphase.symm.trans phase
  · cases hw.stands hget with
    | ended ended => simp [CallAttempt.over, hphase] at ended
    | ready ready => exact Or.inl ready
    | connects phase _ => cases hphase.symm.trans phase
    | @answers _ _ t phase pending timer =>
      obtain ⟨rfl, rfl⟩ := AttemptPhase.sending.inj (hphase.symm.trans phase)
      exact Or.inr ⟨t, pending, timer⟩
  · exact hw.pending c id _ ((hw.callsWf c).armed t id call ht)

/-- The options of a client that is given a serializer and a call timeout. -/
def sampleClientOptions : CommonRpcClientOptions :=
  ⟨some (.ofNat 1000), none, none, none, none, none, none, .ofTable sampleTable, none, none, none⟩

/-- The first connection of the first endpoint. -/
def sampleConnection : ConnectionId := ⟨getEndpointKey "127.0.0.1" 4000, 0⟩

/-- The connection is made, and the attempt of the call goes on to `send`. -/
def sampleConnected : List NetworkEvent :=
  [.begin ⟨"1", "s", "m", [], none⟩ "127.0.0.1" 4000,
    .connection sampleConnection (.socketConnect 0), .connection sampleConnection (.microtask 0),
    .connection sampleConnection (.microtask 0), .connection sampleConnection (.microtask 0),
    .resume "1"]

def sampleSent : Option ClientNetwork :=
  (machine sampleClientOptions sampleCodec).exec (init sampleCodec) sampleConnected

theorem sampleSent_isSome : sampleSent.isSome := by decide +kernel

theorem attempts_kept_sampleSent :
    AttemptsKept sampleClientOptions (sampleSent.get sampleSent_isSome) :=
  attempts_kept rfl ⟨_, Machine.run_exec_get sampleSent_isSome⟩

end ClientNetwork

end WeisleyRpc.Client
