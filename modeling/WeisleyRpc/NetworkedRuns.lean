import WeisleyRpc.NetworkedClient

/-!
# The loop of a call and its attempts

The attempts that were begun for a call are the rounds of its loop, in order, and the last one
stands where the loop awaits it. A value that the loop returns is the outcome of that attempt.
-/

namespace WeisleyRpc.Discovery
open Client (ClientNetwork NetworkEvent CommonRpcClientOptions CallAttempt)

/-- The attempts of a call are the rounds of its loop. -/
structure DiscoveryCall.Tracks (request : RpcRequest) (call : DiscoveryCall)
    (begun : List CallAttempt) (attempt : Option CallAttempt) : Prop where
  service : call.serviceName = request.service
  method : call.method = request.method
  rounds : begun.map CallAttempt.target =
    call.attempted.map fun endpoint => (request, endpoint.host, endpoint.port)
  current : ∀ a, attempt = some a → a.target ∈ begun.map CallAttempt.target
  rested : (∀ endpoint, call.phase ≠ .attempting endpoint) → ∀ a, attempt = some a → a.over = true
  attempting : ∀ endpoint, call.phase = .attempting endpoint →
    ∃ a, attempt = some a ∧ a.target = (request, endpoint.host, endpoint.port)
  returned : ∀ value, call.phase = .returned value →
    ∃ a, attempt = some a ∧ a.phase = .ended (.ok value)

namespace NetworkedClient
variable {o : CommonRpcClientOptions} {codec : RpcCodec} {options : RetryOptions}
  {w w' : NetworkedClient} {id : String}

def loopOf (w : NetworkedClient) (id : String) : Option DiscoveryCall :=
  w.failover.discovery.calls.get id

/-- Only a call that has entered the loop has attempts. -/
def CoupledAt (w : NetworkedClient) (id : String) : Prop :=
  match w.loopOf id with
  | none => w.network.begunOf id = [] ∧ w.network.attempts.get id = none
  | some call => ∃ request, w.requests.get id = some request ∧
      call.Tracks request (w.network.begunOf id) (w.network.attempts.get id)

structure Coupled (w : NetworkedClient) : Prop where
  named : ∀ id request, w.requests.get id = some request → request.id = id
  calls : ∀ id, w.CoupledAt id

theorem coupled_start (options : RpcClientOptions) (now : ℤ) (loadBalancer : LoadBalancer)
    (codec : RpcCodec) : (start options now loadBalancer codec).Coupled where
  named _ _ h := by cases h
  calls _ := ⟨rfl, rfl⟩

theorem CoupledAt.of_eq (h : w.CoupledAt id) (hloop : w'.loopOf id = w.loopOf id)
    (hrequests : w'.requests.get id = w.requests.get id)
    (hbegun : w'.network.begunOf id = w.network.begunOf id)
    (hattempt : w'.network.attempts.get id = w.network.attempts.get id) : w'.CoupledAt id := by
  unfold CoupledAt at h ⊢
  rw [hloop, hrequests, hbegun, hattempt]
  exact h

end NetworkedClient

section CallSteps
variable {options : RetryOptions} {id : String} {e : ClientEvent} {before after : Option DiscoveryCall}

theorem CallStep.other_eq (hs : CallStep options id e before after) (hne : e.callId ≠ some id) :
    after = before := by
  cases hs with
  | other call _ => rfl
  | started | succeeded | failed | woken => exact absurd rfl hne

theorem CallStep.succeeded_eq {call : DiscoveryCall} {value : JsValue}
    (hs : CallStep options id (.succeeded id value) (some call) after) :
    after = some { call with phase := .returned value } := by
  cases hs with
  | other _ hne => exact absurd rfl hne
  | succeeded value _ => rfl

theorem CallStep.woken_spec {call : DiscoveryCall} {random : Draw}
    (hs : CallStep options id (.woken id random) (some call) after) :
    ∃ call', after = some call' ∧ call.Iterated call' := by
  cases hs with
  | other _ hne => exact absurd rfl hne
  | woken random _ hiterated => exact ⟨_, rfl, hiterated⟩

theorem CallStep.started_spec {serviceName method : String} {endpoints : List Endpoint}
    {random : Draw} (hs : CallStep options id (.call id serviceName method endpoints random) none
      after) : ∃ call', (DiscoveryCall.new options serviceName method endpoints).Iterated call' ∧
        after = some call' := by
  cases hs with
  | other _ hne => exact absurd rfl hne
  | started random hiterated => exact ⟨_, hiterated, rfl⟩

/-- A failed attempt ends the loop without a value, or the loop goes to sleep. -/
theorem CallStep.failed_spec {call : DiscoveryCall} {error : Thrown} {retry : Bool}
    (hs : CallStep options id (.failed id error retry) (some call) after) :
    ∃ call', after = some call' ∧ call'.serviceName = call.serviceName ∧
      call'.method = call.method ∧ call'.attempted = call.attempted ∧
      (∀ endpoint, call'.phase ≠ .attempting endpoint) ∧
      ∀ value, call'.phase ≠ .returned value := by
  cases hs with
  | other _ hne => exact absurd rfl hne
  | failed _ hfailed =>
    refine ⟨_, rfl, ?_⟩
    cases hfailed with
    | unread | refused | sleeps | exhausted =>
      exact ⟨rfl, rfl, rfl, (by intro endpoint hp; cases hp), by intro value hp; cases hp⟩

end CallSteps

section Tracks
variable {request : RpcRequest} {call call' : DiscoveryCall} {begun : List CallAttempt}
  {attempt attempt' : Option CallAttempt}

/-- While the loop stands still, its attempt may go on. -/
theorem DiscoveryCall.Tracks.go_on (h : call.Tracks request begun attempt)
    (hattempt : attempt' = attempt ∨ ∃ a phase, attempt = some a ∧ a.over = false ∧
      attempt' = some { a with phase := phase }) : call.Tracks request begun attempt' := by
  rcases hattempt with rfl | ⟨a, phase, ha, hover, ha'⟩
  · exact h
  refine ⟨h.service, h.method, h.rounds, fun b hb => ?_, fun hno b hb => ?_,
    fun endpoint hphase => ?_, fun value hphase => ?_⟩
  · obtain rfl := Option.some.inj (ha'.symm.trans hb)
    exact h.current a ha
  · rw [h.rested hno a ha] at hover
    cases hover
  · obtain ⟨b, hb, htarget⟩ := h.attempting endpoint hphase
    obtain rfl := Option.some.inj (ha.symm.trans hb)
    exact ⟨_, ha', htarget⟩
  · obtain ⟨b, hb, hended⟩ := h.returned value hphase
    obtain rfl := Option.some.inj (ha.symm.trans hb)
    simp [CallAttempt.over, hended] at hover

/-- A call between two rounds, or before its first. -/
structure DiscoveryCall.Between (request : RpcRequest) (call : DiscoveryCall)
    (begun : List CallAttempt) (attempt : Option CallAttempt) : Prop where
  service : call.serviceName = request.service
  method : call.method = request.method
  rounds : begun.map CallAttempt.target =
    call.attempted.map fun endpoint => (request, endpoint.host, endpoint.port)
  current : ∀ a, attempt = some a → a.target ∈ begun.map CallAttempt.target
  rested : ∀ a, attempt = some a → a.over = true

theorem DiscoveryCall.Tracks.between (h : call.Tracks request begun attempt)
    (hover : ∀ a, attempt = some a → a.over = true) : call.Between request begun attempt :=
  ⟨h.service, h.method, h.rounds, h.current, hover⟩

/-- The loop has ended without a value, or goes to sleep. -/
theorem DiscoveryCall.Between.rest (h : call.Between request begun attempt)
    (hservice : call'.serviceName = call.serviceName) (hmethod : call'.method = call.method)
    (hattempted : call'.attempted = call.attempted)
    (hphase : ∀ endpoint, call'.phase ≠ .attempting endpoint)
    (hvalue : ∀ value, call'.phase ≠ .returned value) : call'.Tracks request begun attempt where
  service := hservice.trans h.service
  method := hmethod.trans h.method
  rounds := hattempted ▸ h.rounds
  current := h.current
  rested _ := h.rested
  attempting endpoint he := absurd he (hphase endpoint)
  returned value hv := absurd hv (hvalue value)

/-- The loop returns the value of its attempt. -/
theorem DiscoveryCall.Between.value (h : call.Between request begun attempt) {a : CallAttempt}
    {value : JsValue} (ha : attempt = some a) (hended : a.phase = .ended (.ok value)) :
    { call with phase := .returned value : DiscoveryCall}.Tracks request begun attempt where
  service := h.service
  method := h.method
  rounds := h.rounds
  current := h.current
  rested _ := h.rested
  attempting endpoint he := by cases he
  returned value' hv := by
    obtain rfl := CallPhase.returned.inj hv
    exact ⟨a, ha, hended⟩

/-- The next round makes its attempt. -/
theorem DiscoveryCall.Between.round (h : call.Between request begun attempt) {endpoint : Endpoint}
    {a a' : CallAttempt} (ha : a.target = (request, endpoint.host, endpoint.port))
    (ha' : a'.target = (request, endpoint.host, endpoint.port)) :
    { call with
      phase := .attempting endpoint
      attempted := call.attempted ++ [endpoint] : DiscoveryCall}.Tracks request (begun ++ [a])
        (some a') where
  service := h.service
  method := h.method
  rounds := by
    rw [List.map_append, List.map_append, h.rounds]
    exact congrArg (_ ++ [·]) ha
  current b hb := by
    obtain rfl := Option.some.inj hb
    rw [List.map_append, ha', ← ha]
    exact List.mem_append_right _ List.mem_cons_self
  rested hno := absurd rfl (hno endpoint)
  attempting endpoint' he := by
    obtain rfl := CallPhase.attempting.inj he
    exact ⟨a', rfl, ha'⟩
  returned value hv := by cases hv

end Tracks

namespace NetworkedClient
variable {o : CommonRpcClientOptions} {codec : RpcCodec} {options : RetryOptions}
  {w w' : NetworkedClient} {id : String}

theorem attemptingAt_of_phase {call : DiscoveryCall} {endpoint : Endpoint}
    (hget : w.loopOf id = some call) (hphase : call.phase = .attempting endpoint) :
    w.failover.discovery.attemptingAt id = some (call, endpoint) := by
  unfold loopOf at hget
  simp only [DiscoveryClient.attemptingAt, hget, hphase]

theorem startAttempt_eq {call : DiscoveryCall} {endpoint : Endpoint} {request : RpcRequest}
    (hget : w.loopOf id = some call) (hphase : call.phase = .attempting endpoint)
    (hrequest : w.requests.get id = some request) : w.startAttempt o codec id =
      { w with network := w.network.begin o codec request endpoint.host endpoint.port } := by
  simp only [startAttempt, attemptingAt_of_phase hget hphase, hrequest]

theorem startAttempt_of_rest
    (hno : ∀ call, w.loopOf id = some call → ∀ endpoint, call.phase ≠ .attempting endpoint) :
    w.startAttempt o codec id = w := by
  unfold startAttempt
  cases hat : w.failover.discovery.attemptingAt id with
  | none => rfl
  | some found =>
    obtain ⟨call, endpoint⟩ := found
    obtain ⟨hget, hphase⟩ := DiscoveryClient.attemptingAt_eq_some hat
    exact absurd hphase (hno call hget endpoint)

/-- The next round of a call, behind the selection. -/
theorem coupled_startAttempt (request : RpcRequest) {v : NetworkedClient}
    (hnamed : ∀ id request, v.requests.get id = some request → request.id = id)
    (hother : ∀ id', id' ≠ id → v.CoupledAt id') {call call' : DiscoveryCall}
    (hrequest : v.requests.get id = some request) (hget : v.loopOf id = some call')
    (hiterated : call.Iterated call') (hbetween : call.Between request (v.network.begunOf id)
      (v.network.attempts.get id)) : (v.startAttempt o codec id).Coupled := by
  have hid := hnamed id request hrequest
  have hrest : call'.Tracks request (v.network.begunOf id) (v.network.attempts.get id) →
      v.Coupled := by
    refine fun htracks => ⟨hnamed, fun id' => ?_⟩
    by_cases hne : id' = id
    · subst hne
      unfold CoupledAt
      rw [hget]
      exact ⟨request, hrequest, htracks⟩
    · exact hother id' hne
  cases hiterated with
  | attempts endpoint _ _ =>
    have hidle : v.network.Idle request.id := hid ▸ hbetween.rested
    rw [startAttempt_eq hget rfl hrequest]
    obtain ⟨⟨a, a', ha, ha', hbegun, hattempt⟩, hkept⟩ :=
      ClientNetwork.begunOf_begin o codec endpoint.host endpoint.port hidle
    refine ⟨hnamed, fun id' => ?_⟩
    by_cases hne : id' = id
    · subst hne
      unfold CoupledAt
      change (match v.loopOf id' with | none => _ | some call => _)
      rw [hget]
      refine ⟨request, hrequest, ?_⟩
      rw [← hid, hbegun, hattempt, hid]
      exact hbetween.round ha ha'
    · obtain ⟨hbegun', hattempt'⟩ := hkept id' (hid ▸ hne)
      exact (hother id' hne).of_eq rfl rfl hbegun' hattempt'
  | nothing _ _ =>
    rw [startAttempt_of_rest fun call hcall endpoint hphase => ?_]
    · exact hrest (hbetween.rest rfl rfl rfl (fun _ hp => by cases hp) fun _ hp => by cases hp)
    · obtain rfl := Option.some.inj (hget.symm.trans hcall)
      cases hphase
  | exhausted _ =>
    rw [startAttempt_of_rest fun call hcall endpoint hphase => ?_]
    · exact hrest (hbetween.rest rfl rfl rfl (fun _ hp => by cases hp) fun _ hp => by cases hp)
    · obtain rfl := Option.some.inj (hget.symm.trans hcall)
      cases hphase

/-- The loop of a call has changed, with its attempt at its end. -/
theorem Coupled.loop (h : w.Coupled) {v : NetworkedClient} (hrequests : v.requests = w.requests)
    (hnetwork : v.network = w.network) (hother : ∀ id', id' ≠ id → v.loopOf id' = w.loopOf id')
    (call' : DiscoveryCall) {call : DiscoveryCall} (hget : w.loopOf id = some call)
    (hget' : v.loopOf id = some call') (hidle : w.network.Idle id)
    (htracks : ∀ request, call.Between request (w.network.begunOf id)
      (w.network.attempts.get id) → call'.Tracks request (w.network.begunOf id)
        (w.network.attempts.get id)) : v.Coupled := by
  refine ⟨hrequests ▸ h.named, fun id' => ?_⟩
  by_cases hne : id' = id
  · subst hne
    have hcall := h.calls id'
    unfold CoupledAt at hcall ⊢
    rw [hget] at hcall
    obtain ⟨request, hrequest, hold⟩ := hcall
    rw [hget', hrequests, hnetwork]
    exact ⟨request, hrequest, htracks request (hold.between hidle)⟩
  · exact (h.calls id').of_eq (hother id' hne) (by rw [hrequests]) (by rw [hnetwork])
      (by rw [hnetwork])

theorem attempt_step (options : RetryOptions) {e : ClientEvent}
    (henabled : w.failover.discovery.Enabled e) (id : String) :
    CallStep options id e (w.loopOf id)
      (loopOf { w with failover := w.failover.apply options (.attempt e) } id) := by
  have hstep : (DiscoveryClient.machine options).Step w.failover.discovery e
      (w.failover.discovery.apply options e) := ⟨henabled, rfl⟩
  exact DiscoveryClient.call_step hstep id

theorem Coupled.finished (h : w.Coupled) {retry : Bool}
    (hat : w.failover.discovery.attemptingAt id ≠ none) (hidle : w.network.Idle id) :
    (w.finished options id retry).Coupled := by
  obtain ⟨call, endpoint, hattempting, hget, hphase⟩ := DiscoveryClient.attemptingAt_ne_none hat
  have hloop : w.loopOf id = some call := hget
  have hcoupled := h.calls id
  unfold CoupledAt at hcoupled
  rw [hloop] at hcoupled
  obtain ⟨request, hrequest, htracks⟩ := hcoupled
  obtain ⟨a, ha, -⟩ := htracks.attempting endpoint hphase
  unfold NetworkedClient.finished attemptEvent
  rw [ha]
  cases hend : a.phase with
  | connecting c n =>
    simp only [Option.map_some, hend]
    exact h
  | sending c n =>
    simp only [Option.map_some, hend]
    exact h
  | unconnected e =>
    simp only [Option.map_some, hend]
    refine h.loop rfl rfl (fun id' hne => ?_) { call with phase := .thrown (.error e) } hloop ?_
      hidle fun request hbetween => ?_
    · unfold loopOf
      simp only [DiscoveryClient.uncaught, hattempting, DiscoveryClient.get_put, if_neg hne]
    · unfold loopOf
      simp only [DiscoveryClient.uncaught, hattempting, DiscoveryClient.get_put, if_true]
    · exact hbetween.rest rfl rfl rfl (fun _ hp => by cases hp) fun _ hp => by cases hp
  | ended outcome =>
    cases outcome with
    | ok value =>
      simp only [Option.map_some, hend]
      have hstep := fun id' => attempt_step options (w := w) (e := .succeeded id value) hat id'
      refine h.loop rfl rfl (fun id' hne => (hstep id').other_eq fun he => hne ?_) _ hloop
        ((hloop ▸ hstep id).succeeded_eq) hidle fun request hbetween => ?_
      · exact (Option.some.inj he).symm
      · exact hbetween.value ha hend
    | error e =>
      simp only [Option.map_some, hend]
      have hstep := fun id' => attempt_step options (w := w) (e := .failed id (.error e) retry) hat
        id'
      obtain ⟨call', hget', hservice, hmethod, hattempted, hrest, hvalue⟩ :=
        (hloop ▸ hstep id).failed_spec
      refine h.loop rfl rfl (fun id' hne => (hstep id').other_eq fun he => hne ?_) call' hloop
        hget' hidle
        fun request hbetween => hbetween.rest hservice hmethod hattempted hrest hvalue
      exact (Option.some.inj he).symm

theorem Coupled.same (h : w.Coupled) (hrequests : w'.requests = w.requests)
    (hnetwork : w'.network = w.network)
    (hcalls : w'.failover.discovery.calls = w.failover.discovery.calls) : w'.Coupled := by
  refine ⟨hrequests ▸ h.named, fun id => (h.calls id).of_eq ?_ ?_ ?_ ?_⟩
  · unfold loopOf
    rw [hcalls]
  · rw [hrequests]
  · rw [hnetwork]
  · rw [hnetwork]

theorem Coupled.woken (h : w.Coupled) {random : Draw}
    (henabled : w.failover.Enabled (.attempt (.woken id random))) :
    (startAttempt o codec { w with
      failover := w.failover.apply options (.attempt (.woken id random)) } id).Coupled := by
  have hstep := fun id' => attempt_step options (w := w) (e := .woken id random) henabled id'
  obtain ⟨call, backoffMs, -, hget, hphase⟩ := DiscoveryClient.sleepingCall_ne_none henabled
  have hloop : w.loopOf id = some call := hget
  have hcoupled := h.calls id
  unfold CoupledAt at hcoupled
  rw [hloop] at hcoupled
  obtain ⟨request, hrequest, htracks⟩ := hcoupled
  obtain ⟨call', hget', hiterated⟩ := (hloop ▸ hstep id).woken_spec
  have hover := htracks.rested fun endpoint hp => by rw [hphase] at hp; cases hp
  refine coupled_startAttempt request h.named (fun id' hne => ?_) hrequest hget' hiterated
    (htracks.between hover)
  refine (h.calls id').of_eq ((hstep id').other_eq fun he => hne ?_) rfl rfl rfl
  exact (Option.some.inj he).symm

/-- A call that is admitted enters the loop, and any other leaves the loops alone. -/
theorem loopOf_call (options : RetryOptions) {request : RpcRequest} (times : CallTimes)
    (warn : Option Thrown) (endpoints : List Endpoint) (random : Draw)
    (hfresh : w.loopOf request.id = none) :
    (∀ id, (w.failover.call options request.id request.service request.method times warn endpoints
      random).discovery.calls.get id = w.loopOf id) ∨
    (∃ call', (DiscoveryCall.new options request.service request.method endpoints).Iterated call' ∧
      (w.failover.call options request.id request.service request.method times warn endpoints
        random).discovery.calls.get request.id = some call') ∧
      ∀ id, id ≠ request.id → (w.failover.call options request.id request.service request.method
        times warn endpoints random).discovery.calls.get id = w.loopOf id := by
  unfold FailoverClient.call
  dsimp only
  split_ifs
  · exact Or.inl fun _ => rfl
  · have hstep : (DiscoveryClient.machine options).Step w.failover.discovery
        (.call request.id request.service request.method endpoints random)
        (w.failover.discovery.callWithDiscoveryFailover options request.id request.service
          request.method endpoints random) := ⟨hfresh, rfl⟩
    have hcall := DiscoveryClient.call_step hstep
    refine Or.inr ⟨?_, fun id hne => (hcall id).other_eq fun he => hne ?_⟩
    · have hentered := hcall request.id
      unfold loopOf at hfresh
      rw [hfresh] at hentered
      exact hentered.started_spec
    · exact (Option.some.inj he).symm

theorem Coupled.call (h : w.Coupled) {request : RpcRequest} {times : CallTimes}
    {warn : Option Thrown} {endpoints : List Endpoint} {random : Draw}
    (hfresh : w.loopOf request.id = none) :
    (startAttempt o codec { w with
      failover := w.failover.call options request.id request.service request.method times warn
        endpoints random
      requests := w.requests.set request.id request } request.id).Coupled := by
  have hcoupled := h.calls request.id
  unfold CoupledAt at hcoupled
  rw [hfresh] at hcoupled
  obtain ⟨hbegun, hattempt⟩ := hcoupled
  have hnamed : ∀ id request', (w.requests.set request.id request).get id = some request' →
      request'.id = id := by
    intro id request' hget
    rw [OrderedMap.get_set] at hget
    split_ifs at hget with hid
    · rw [← Option.some.inj hget, hid]
    · exact h.named id request' hget
  have hkept : ∀ id, id ≠ request.id →
      (w.requests.set request.id request).get id = w.requests.get id := by
    intro id hne
    rw [OrderedMap.get_set, if_neg hne]
  rcases loopOf_call options times warn endpoints random hfresh with
    hsame | ⟨⟨call', hiterated, hget⟩, hother⟩
  · have hrest : ∀ call, loopOf { w with
        failover := w.failover.call options request.id request.service request.method times warn
          endpoints random
        requests := w.requests.set request.id request } request.id = some call →
        ∀ endpoint, call.phase ≠ .attempting endpoint := by
      intro call hcall
      rw [loopOf, hsame, hfresh] at hcall
      cases hcall
    rw [startAttempt_of_rest hrest]
    refine ⟨hnamed, fun id => ?_⟩
    by_cases hne : id = request.id
    · subst hne
      unfold CoupledAt
      rw [loopOf, hsame, hfresh]
      exact ⟨hbegun, hattempt⟩
    · exact (h.calls id).of_eq (hsame id) (hkept id hne) rfl rfl
  · refine coupled_startAttempt request hnamed (fun id hne => ?_) ?_ hget hiterated ?_
    · exact (h.calls id).of_eq (hother id hne) (hkept id hne) rfl rfl
    · rw [OrderedMap.get_set, if_pos rfl]
    · refine ⟨rfl, rfl, ?_, fun a ha => ?_, fun a ha => ?_⟩
      · exact congrArg (List.map CallAttempt.target) hbegun
      · rw [hattempt] at ha
        cases ha
      · rw [hattempt] at ha
        cases ha

theorem Coupled.network (h : w.Coupled) (hw : Client.ClientNetwork.NetworkWf o codec w.network)
    {e : NetworkEvent} {network : ClientNetwork}
    (hs : (ClientNetwork.machine o codec).Step w.network e network)
    (hno : ∀ request host port, e ≠ .begin request host port) :
    NetworkedClient.Coupled { w with network } := by
  obtain ⟨hbegun, hattempts⟩ := ClientNetwork.attempts_step hw hs hno
  refine ⟨h.named, fun id => ?_⟩
  have hcoupled := h.calls id
  have hbegunOf : network.begunOf id = w.network.begunOf id := by
    unfold ClientNetwork.begunOf
    rw [hbegun]
  unfold CoupledAt at hcoupled ⊢
  change (match w.loopOf id with | none => _ | some call => _)
  cases hloop : w.loopOf id with
  | none =>
    rw [hloop] at hcoupled
    refine ⟨hbegunOf.trans hcoupled.1, ?_⟩
    rcases hattempts id with hsame | ⟨a, phase, ha, -⟩
    · exact hsame.trans hcoupled.2
    · rw [hcoupled.2] at ha
      cases ha
  | some call =>
    rw [hloop] at hcoupled
    obtain ⟨request, hrequest, htracks⟩ := hcoupled
    refine ⟨request, hrequest, ?_⟩
    rw [hbegunOf]
    exact htracks.go_on (hattempts id)

end NetworkedClient
end WeisleyRpc.Discovery
