import WeisleyRpc.NetworkedRuns

/-!
# What a call over the network comes to

The parts of the composed client move by steps of their own, so what holds of the connections
and of the failover loop holds of the composition. A value that `call` returns goes back to the
response that brought it, and a call that has not settled waits for something that is on its way.
-/

namespace WeisleyRpc.Discovery
open Client (ClientNetwork NetworkEvent CommonRpcClientOptions CallAttempt)

/-- What a loop has come to. -/
def outcomeOf (loop : Option DiscoveryCall) : Option (Except Thrown JsValue) :=
  match loop.bind fun call => call.phase.result with
  | some (.returned value) => some (.ok value)
  | some (.thrown error) => some (.error error)
  | none => none

/-- How far a call is belongs to how far its loop is. -/
def Matched (call : Option RpcCall) (loop : Option DiscoveryCall) : Prop :=
  match call.map RpcCall.phase with
  | none | some (.refused _) => loop = none
  | some .remote => loop ≠ none
  | some (.settled outcome result) =>
    outcomeOf loop = some outcome ∧ ∀ value, result = .ok value → outcome = .ok value

section Loops
variable {options : RetryOptions} {id : String} {e : ClientEvent}
  {before after : Option DiscoveryCall} {call : Option RpcCall}

theorem outcomeOf_of_phase {loop : DiscoveryCall} {x : Except Thrown JsValue}
    (h : outcomeOf (some loop) = some x) : loop.phase.result ≠ none := by
  intro hnone
  simp only [outcomeOf, Option.bind_some, hnone] at h
  cases h

theorem returned_of_outcome {loop : Option DiscoveryCall} {value : JsValue}
    (h : outcomeOf loop = some (.ok value)) :
    ∃ call, loop = some call ∧ call.phase = .returned value := by
  cases loop with
  | none => cases h
  | some call =>
    refine ⟨call, rfl, ?_⟩
    simp only [outcomeOf, Option.bind_some] at h
    cases hphase : call.phase with
    | returned value' =>
      simp only [hphase, CallPhase.result] at h
      rw [Except.ok.inj (Option.some.inj h)]
    | running | attempting | backingOff | thrown => simp [hphase, CallPhase.result] at h

/-- A loop that has come to its end stands still. -/
theorem CallStep.eq_of_outcome (hs : CallStep options id e before after) {x : Except Thrown JsValue}
    (h : outcomeOf before = some x) : after = before := by
  cases hs with
  | other call _ => rfl
  | started random _ => cases h
  | succeeded value hphase => exact absurd (by rw [hphase]; rfl) (outcomeOf_of_phase h)
  | failed hphase _ => exact absurd (by rw [hphase]; rfl) (outcomeOf_of_phase h)
  | woken random hphase _ => exact absurd (by rw [hphase]; rfl) (outcomeOf_of_phase h)

theorem CallStep.some_of_some (hs : CallStep options id e before after) (h : before ≠ none) :
    after ≠ none := by
  cases hs with
  | other call _ => exact h
  | started random _ => exact absurd rfl h
  | succeeded | failed | woken => exact Option.some_ne_none _

theorem CallStep.none_of_none (hs : CallStep options id e before after)
    (hcall : ∀ service method endpoints random, e ≠ .call id service method endpoints random)
    (h : before = none) : after = none := by
  cases hs with
  | other call _ => exact h
  | started random _ => exact absurd rfl (hcall _ _ _ random)
  | succeeded | failed | woken => cases h

/-- The loops go on without the client. -/
theorem Matched.loop (h : Matched call before) (hs : CallStep options id e before after)
    (hcall : ∀ service method endpoints random, e ≠ .call id service method endpoints random) :
    Matched call after := by
  unfold Matched at h ⊢
  split at h
  · exact hs.none_of_none hcall h
  · exact hs.none_of_none hcall h
  · exact hs.some_of_some h
  · rw [hs.eq_of_outcome h.1]
    exact h

theorem Matched.uncaught {loop : DiscoveryCall} {endpoint : Endpoint} {error : JsError}
    (h : Matched call (some loop)) (hphase : loop.phase = .attempting endpoint) :
    Matched call (some { loop with phase := .thrown (.error error) }) := by
  unfold Matched at h ⊢
  split at h
  · cases h
  · cases h
  · exact Option.some_ne_none _
  · exact absurd (by rw [hphase]; rfl) (outcomeOf_of_phase h.1)

end Loops

/-- The call that an event begins, with the limit of its attempts. -/
def FailoverEvent.limit (options : RetryOptions) : FailoverEvent → Option (String × ℕ)
  | .call id service method _ _ endpoints _ =>
    some (id, options.getMaxAttempts service method endpoints.length)
  | .attempt _ | .sent _ _ | .settled _ _ _ _ | .resetMetrics => none

def NetworkedEvent.limit (options : RetryOptions) : NetworkedEvent → Option (String × ℕ)
  | .call request _ _ endpoints _ =>
    some (request.id, options.getMaxAttempts request.service request.method endpoints.length)
  | .woken _ _ | .finished _ _ | .settled _ _ _ _ | .setActiveCount _ _ | .resetMetrics
  | .network _ => none

namespace FailoverClient
variable {retry : RetryOptions} {s s' : FailoverClient} {e : FailoverEvent} {id : String}

def MatchedAt (s : FailoverClient) (id : String) : Prop :=
  Matched (s.client.calls.get id) (s.discovery.calls.get id)

theorem matchedAt_start (options : RpcClientOptions) (now : ℤ) (loadBalancer : LoadBalancer)
    (id : String) : (start options now loadBalancer).MatchedAt id := rfl

theorem matchedAt_call {times : CallTimes} {warn : Option Thrown} {endpoints : List Endpoint}
    {random : Draw} {service method : String} (hfresh : s.client.calls.get id = none)
    (hloop : s.discovery.calls.get id = none) (h : ∀ id, s.MatchedAt id) (id' : String) :
    (s.call retry id service method times warn endpoints random).MatchedAt id' := by
  have hcalls := congrArg RpcClient.calls (s.client.call_eq id service method times warn)
  have hstep : (DiscoveryClient.machine retry).Step s.discovery
      (.call id service method endpoints random)
      (s.discovery.callWithDiscoveryFailover retry id service method endpoints random) :=
    ⟨hloop, rfl⟩
  have hcall := DiscoveryClient.call_step hstep id'
  have hget : (s.client.call id service method times warn).calls.get id' =
      if id' = id then some ⟨service, method, times.startedAt,
        s.client.admission (getMethodKey service method) times warn, [], []⟩
      else s.client.calls.get id' := by
    rw [hcalls]
    exact OrderedMap.get_set _ _ _ _
  by_cases hid : id' = id
  · subst hid
    rw [if_pos rfl] at hget
    by_cases hadmitted : (s.client.call id' service method times warn).remoteCall id' = none
    · simp only [call, hadmitted, if_true, MatchedAt, hget, hloop]
      unfold RpcClient.admission at hget ⊢
      split_ifs at hget ⊢ with hallow hadmit
      · rfl
      · rfl
      · rw [RpcClient.remoteCall_of_remote hget rfl] at hadmitted
        cases hadmitted
    · obtain ⟨c, -, hc, hphase⟩ := RpcClient.remoteCall_ne_none hadmitted
      simp only [call, hadmitted, if_false, MatchedAt, hget]
      rw [hget] at hc
      obtain rfl := Option.some.inj hc
      rw [hloop] at hcall
      obtain ⟨call', -, hstarted⟩ := hcall.started_spec
      change s.client.admission (getMethodKey service method) times warn = .remote at hphase
      simp only [Matched, Option.map_some, hphase, hstarted]
      exact Option.some_ne_none call'
  · rw [if_neg hid] at hget
    have hother := hcall.other_eq fun he => hid (Option.some.inj he).symm
    have hold := h id'
    unfold MatchedAt at hold ⊢
    simp only [call]
    split_ifs
    · rw [hget]
      exact hold
    · rw [hget, hother]
      exact hold

theorem enabled_of_attempt {e : ClientEvent} (h : s.Enabled (.attempt e)) :
    s.discovery.Enabled e := by
  cases e with
  | call => exact h.elim
  | succeeded | failed | woken | setActiveCount => exact h

theorem matchedAt_step (hs : (machine retry).Step s e s') (h : ∀ id, s.MatchedAt id)
    (id : String) : s'.MatchedAt id := by
  obtain ⟨henabled, happly⟩ := hs
  obtain rfl := Except.ok.inj happly
  cases e with
  | call id' service method times warn endpoints random =>
    exact matchedAt_call henabled.1 henabled.2 h id
  | attempt e =>
    have hnocall : ∀ service method endpoints random,
        e ≠ .call id service method endpoints random := by
      rintro service method endpoints random rfl
      exact henabled
    have hdiscovery : (DiscoveryClient.machine retry).Step s.discovery e
        (s.discovery.apply retry e) := ⟨enabled_of_attempt henabled, rfl⟩
    exact (h id).loop (DiscoveryClient.call_step hdiscovery id) hnocall
  | sent id' now => exact h id
  | settled id' times info error =>
    obtain ⟨x, hx⟩ := Option.ne_none_iff_exists'.1 henabled.2
    obtain ⟨c, hremote, hget, hphase⟩ := RpcClient.remoteCall_ne_none henabled.1
    simp only [apply, hx, MatchedAt, RpcClient.apply, hremote, RpcClient.settle_eq,
      RpcClient.settledBy, OrderedMap.get_set]
    by_cases hid : id = id'
    · subst hid
      rw [if_pos rfl]
      exact ⟨hx, fun value => result_of_settlement⟩
    · rw [if_neg hid]
      exact h id
  | resetMetrics => exact h id

theorem loop_step (hs : (machine retry).Step s e s') (id : String) :
    ∃ e', CallStep retry id e' (s.discovery.calls.get id) (s'.discovery.calls.get id) ∧
      ∀ service method endpoints random, e' = .call id service method endpoints random →
        e.limit retry = some (id, retry.getMaxAttempts service method endpoints.length) := by
  obtain ⟨henabled, happly⟩ := hs
  obtain rfl := Except.ok.inj happly
  have hsame : ∃ e', CallStep retry id e' (s.discovery.calls.get id)
      (s.discovery.calls.get id) ∧
        ∀ service method endpoints random, e' = .call id service method endpoints random →
          e.limit retry = some (id, retry.getMaxAttempts service method endpoints.length) :=
    ⟨.setActiveCount ⟨"", 0, none⟩ .nan, .other _ fun h => (by cases h), fun _ _ _ _ h =>
      (by cases h)⟩
  cases e with
  | call id' service method times warn endpoints random =>
    have hstep : (DiscoveryClient.machine retry).Step s.discovery
        (.call id' service method endpoints random)
        (s.discovery.callWithDiscoveryFailover retry id' service method endpoints random) :=
      ⟨henabled.2, rfl⟩
    simp only [apply, call]
    split_ifs
    · exact hsame
    · refine ⟨_, DiscoveryClient.call_step hstep id, fun _ _ _ _ hcall => ?_⟩
      obtain ⟨rfl, rfl, rfl, rfl, rfl⟩ := ClientEvent.call.inj hcall
      rfl
  | attempt e =>
    have hstep : (DiscoveryClient.machine retry).Step s.discovery e
        (s.discovery.apply retry e) := ⟨enabled_of_attempt henabled, rfl⟩
    refine ⟨e, DiscoveryClient.call_step hstep id, ?_⟩
    rintro service method endpoints random rfl
    exact henabled.elim
  | sent id' now => exact hsame
  | settled id' times info error =>
    simp only [apply]
    split <;> exact hsame
  | resetMetrics => exact hsame

end FailoverClient

/-- How many attempts a loop has made where it stands. -/
def DiscoveryCall.Counts (call : DiscoveryCall) : Prop :=
  match call.phase with
  | .running => False
  | .attempting _ => call.attempted.length = call.attempt + 1 ∧ call.attempt < call.maxAttempts
  | .backingOff _ => call.attempted.length = call.attempt ∧ call.attempt < call.maxAttempts
  | .returned _ | .thrown _ => call.attempted.length ≤ call.maxAttempts

/-- A loop attempts endpoints of its list, and not more often than the options allow. -/
structure DiscoveryCall.Bounded (options : RetryOptions) (call : DiscoveryCall) : Prop where
  limit : call.maxAttempts =
    options.getMaxAttempts call.serviceName call.method call.endpoints.length
  listed : call.attempted ⊆ call.endpoints
  counts : call.Counts

section Bounds
variable {options : RetryOptions} {id : String} {e : ClientEvent} {call call' : DiscoveryCall}
  {before after : Option DiscoveryCall}

theorem DiscoveryCall.Bounded.length_le (h : call.Bounded options) :
    call.attempted.length ≤ call.maxAttempts := by
  have hcounts := h.counts
  unfold DiscoveryCall.Counts at hcounts
  split at hcounts
  · exact hcounts.elim
  · omega
  · omega
  · exact hcounts
  · exact hcounts

theorem DiscoveryCall.Iterated.bounded (h : call.Iterated call')
    (hlimit : call.maxAttempts =
      options.getMaxAttempts call.serviceName call.method call.endpoints.length)
    (hlisted : call.attempted ⊆ call.endpoints) (hlength : call.attempted.length = call.attempt)
    (hle : call.attempt ≤ call.maxAttempts) : call'.Bounded options := by
  cases h with
  | attempts endpoint hlt hmem =>
    refine ⟨hlimit, ?_, ?_, hlt⟩
    · exact List.append_subset.mpr ⟨hlisted, List.cons_subset.mpr ⟨hmem, List.nil_subset _⟩⟩
    · simp [hlength]
  | nothing _ _ => exact ⟨hlimit, hlisted, hlength ▸ hle⟩
  | exhausted _ => exact ⟨hlimit, hlisted, hlength ▸ hle⟩

theorem DiscoveryClient.FailedStep.bounded {endpoint : Endpoint} {error : Thrown} {retry : Bool}
    (h : FailedStep options call endpoint error retry call') (hcall : call.Bounded options)
    (hphase : call.phase = .attempting endpoint) : call'.Bounded options := by
  have hcounts := hcall.counts
  simp only [DiscoveryCall.Counts, hphase] at hcounts
  cases h with
  | unread _ _ => exact ⟨hcall.limit, hcall.listed, hcall.length_le⟩
  | refused => exact ⟨hcall.limit, hcall.listed, hcall.length_le⟩
  | sleeps hlt => exact ⟨hcall.limit, hcall.listed, hcounts.1, hlt⟩
  | exhausted _ => exact ⟨hcall.limit, hcall.listed, hcall.length_le⟩

theorem CallStep.bounded (hs : CallStep options id e before after)
    (h : ∀ call, before = some call → call.Bounded options) :
    ∀ call, after = some call → call.Bounded options := by
  intro call' hafter
  cases hs with
  | other _ _ => exact h call' hafter
  | started random hiterated =>
    obtain rfl := Option.some.inj hafter
    exact hiterated.bounded rfl (List.nil_subset _) rfl (Nat.zero_le _)
  | succeeded value _ =>
    obtain rfl := Option.some.inj hafter
    have hcall := h _ rfl
    exact ⟨hcall.limit, hcall.listed, hcall.length_le⟩
  | failed hphase hfailed =>
    obtain rfl := Option.some.inj hafter
    exact hfailed.bounded (h _ rfl) hphase
  | woken random hphase hiterated =>
    obtain rfl := Option.some.inj hafter
    have hcall := h _ rfl
    have hcounts := hcall.counts
    simp only [DiscoveryCall.Counts, hphase] at hcounts
    exact hiterated.bounded hcall.limit hcall.listed hcounts.1 hcounts.2.le

theorem DiscoveryCall.Iterated.maxAttempts (h : call.Iterated call') :
    call'.maxAttempts = call.maxAttempts := by
  cases h <;> rfl

theorem DiscoveryClient.FailedStep.maxAttempts {endpoint : Endpoint} {error : Thrown}
    {retry : Bool} (h : FailedStep options call endpoint error retry call') :
    call'.maxAttempts = call.maxAttempts := by
  cases h <;> rfl

theorem CallStep.limit (hs : CallStep options id e before (some call)) {limit : Option (String × ℕ)}
    (hcall : ∀ service method endpoints random, e = .call id service method endpoints random →
      limit = some (id, options.getMaxAttempts service method endpoints.length)) :
    limit = some (id, call.maxAttempts) ∨
      ∃ call₀, before = some call₀ ∧ call.maxAttempts = call₀.maxAttempts := by
  cases hs with
  | other _ _ => exact Or.inr ⟨call, rfl, rfl⟩
  | started random hiterated =>
    refine Or.inl ?_
    rw [hiterated.maxAttempts]
    exact hcall _ _ _ random rfl
  | succeeded value _ => exact Or.inr ⟨_, rfl, rfl⟩
  | failed _ hfailed => exact Or.inr ⟨_, rfl, hfailed.maxAttempts⟩
  | woken random _ hiterated => exact Or.inr ⟨_, rfl, hiterated.maxAttempts⟩

end Bounds

namespace NetworkedClient
open Client.ClientNetwork (sampleClientOptions sampleConnection sampleConnected)
open DiscoveryClient (sampleOptions sampleDraw)
variable {o : CommonRpcClientOptions} {codec : RpcCodec} {options : RetryOptions}
  {v w w' : NetworkedClient} {e : NetworkedEvent} {id : String}

theorem startAttempt_failover (o : CommonRpcClientOptions) (codec : RpcCodec)
    (w : NetworkedClient) (id : String) : (w.startAttempt o codec id).failover = w.failover := by
  unfold startAttempt
  split <;> rfl

/-- The attempt that the loop of a call begins. -/
def beginEvents (w : NetworkedClient) (id : String) : List NetworkEvent :=
  match w.failover.discovery.attemptingAt id, w.requests.get id with
  | some (_, endpoint), some request => [.begin request endpoint.host endpoint.port]
  | _, _ => []

/-- What an event is for the connections. -/
def networkEvents (options : RetryOptions) (w : NetworkedClient) :
    NetworkedEvent → List NetworkEvent
  | .call request times warn endpoints random =>
    { w with
      failover := w.failover.apply options
        (.call request.id request.service request.method times warn endpoints random)
      requests := w.requests.set request.id request }.beginEvents request.id
  | .woken id random =>
    { w with failover := w.failover.apply options (.attempt (.woken id random)) }.beginEvents id
  | .network e => [e]
  | .finished _ _ | .settled _ _ _ _ | .setActiveCount _ _ | .resetMetrics => []

/-- What an event is for the failover loop. -/
def failoverEvents (w : NetworkedClient) : NetworkedEvent → List FailoverEvent
  | .call request times warn endpoints random =>
    [.call request.id request.service request.method times warn endpoints random]
  | .woken id random => [.attempt (.woken id random)]
  | .finished id retry => (w.attemptEvent id retry).toList.map .attempt
  | .settled id times info error => [.settled id times info error]
  | .setActiveCount endpoint count => [.attempt (.setActiveCount endpoint count)]
  | .resetMetrics => [.resetMetrics]
  | .network _ => []

/-- The event of the network belongs to that of the client: it is the same, or an attempt begins. -/
def Carries (e : NetworkedEvent) (e' : NetworkEvent) : Prop :=
  e = .network e' ∨ ∃ request host port, e' = .begin request host port

/-- The beginning of an attempt is a step of the network. -/
theorem startAttempt_network (o : CommonRpcClientOptions) (codec : RpcCodec) (e : NetworkedEvent)
    (hidle : ∀ request, v.requests.get id = some request → v.network.Idle request.id) :
    (v.beginEvents id = [] ∧ (v.startAttempt o codec id).network = v.network) ∨
      ∃ e', v.beginEvents id = [e'] ∧ Carries e e' ∧
        (ClientNetwork.machine o codec).Step v.network e' (v.startAttempt o codec id).network := by
  unfold startAttempt beginEvents
  cases hat : v.failover.discovery.attemptingAt id with
  | none => exact Or.inl ⟨rfl, rfl⟩
  | some target =>
    obtain ⟨call, endpoint⟩ := target
    cases hrequest : v.requests.get id with
    | none => exact Or.inl ⟨rfl, rfl⟩
    | some request =>
      exact Or.inr ⟨.begin request endpoint.host endpoint.port, rfl, Or.inr ⟨_, _, _, rfl⟩,
        hidle request hrequest, rfl⟩

theorem Coupled.idle_of_none (h : w.Coupled) (hnone : w.loopOf id = none) :
    w.network.Idle id := by
  have hcoupled := h.calls id
  unfold CoupledAt at hcoupled
  rw [hnone] at hcoupled
  exact ClientNetwork.idle_of_none hcoupled.2

theorem Coupled.idle_of_rest (h : w.Coupled) {call : DiscoveryCall}
    (hget : w.loopOf id = some call) (hphase : ∀ endpoint, call.phase ≠ .attempting endpoint) :
    w.network.Idle id := by
  have hcoupled := h.calls id
  unfold CoupledAt at hcoupled
  rw [hget] at hcoupled
  obtain ⟨request, -, htracks⟩ := hcoupled
  exact htracks.rested hphase

theorem apply_network {e : NetworkEvent}
    (h : (machine o codec options).apply w (.network e) = .ok w') : ∃ network,
      w.network.apply o codec e = .ok network ∧ w' = { w with network } := by
  change (w.network.apply o codec e).map _ = _ at h
  cases happly : w.network.apply o codec e with
  | error x =>
    rw [happly] at h
    cases h
  | ok network =>
    rw [happly] at h
    exact ⟨network, rfl, (Except.ok.inj h).symm⟩

theorem network_step (h : w.Coupled) (hs : (machine o codec options).Step w e w') :
    (networkEvents options w e = [] ∧ w'.network = w.network) ∨
      ∃ e', networkEvents options w e = [e'] ∧ Carries e e' ∧
        (ClientNetwork.machine o codec).Step w.network e' w'.network := by
  obtain ⟨henabled, happly⟩ := hs
  cases e with
  | call request times warn endpoints random =>
    obtain rfl := Except.ok.inj happly
    refine startAttempt_network o codec _ fun request' hget => ?_
    have hrequest : request' = request := by
      rw [OrderedMap.get_set, if_pos rfl] at hget
      exact (Option.some.inj hget).symm
    rw [hrequest]
    exact h.idle_of_none henabled.2
  | woken id random =>
    obtain rfl := Except.ok.inj happly
    refine startAttempt_network o codec _ fun request hget => ?_
    obtain ⟨call, backoffMs, -, hloop, hphase⟩ := DiscoveryClient.sleepingCall_ne_none henabled
    rw [h.named id request hget]
    refine h.idle_of_rest hloop fun endpoint hp => ?_
    rw [hphase] at hp
    cases hp
  | finished id retry =>
    obtain rfl := Except.ok.inj happly
    refine Or.inl ⟨rfl, ?_⟩
    unfold NetworkedClient.finished
    repeat' split
    all_goals rfl
  | settled id times info error =>
    obtain rfl := Except.ok.inj happly
    exact Or.inl ⟨rfl, rfl⟩
  | setActiveCount endpoint count =>
    obtain rfl := Except.ok.inj happly
    exact Or.inl ⟨rfl, rfl⟩
  | resetMetrics =>
    obtain rfl := Except.ok.inj happly
    exact Or.inl ⟨rfl, rfl⟩
  | network e =>
    obtain ⟨network, hnetwork, rfl⟩ := apply_network happly
    refine Or.inr ⟨e, rfl, Or.inl rfl, ?_, hnetwork⟩
    cases e with
    | begin | connect => exact henabled.elim
    | resume | connection | close => exact henabled

/-- What an event makes of the failover part; an attempt that could not get a connection ends
the loop from outside. -/
inductive FailoverPart (options : RetryOptions) (w : NetworkedClient) (e : NetworkedEvent) :
    FailoverClient → Prop
  | same (quiet : failoverEvents w e = []) : FailoverPart options w e w.failover
  | step {e' : FailoverEvent} {s : FailoverClient}
      (moves : (FailoverClient.machine options).Step w.failover e' s)
      (limited : e'.limit options = e.limit options) (event : failoverEvents w e = [e']) :
      FailoverPart options w e s
  | uncaught {id : String} {a : CallAttempt} {error : JsError}
      (attempting : w.failover.discovery.attemptingAt id ≠ none)
      (current : w.network.attempts.get id = some a) (phase : a.phase = .unconnected error) :
      FailoverPart options w e
        { w.failover with discovery := w.failover.discovery.uncaught id error }

theorem FailoverPart.of_enabled (e' : FailoverEvent) (h : w.failover.Enabled e')
    (hlimit : e'.limit options = e.limit options) (hevent : failoverEvents w e = [e']) :
    FailoverPart options w e (w.failover.apply options e') := .step ⟨h, rfl⟩ hlimit hevent

theorem attemptEvent_some {retry : Bool} {e' : ClientEvent}
    (h : w.attemptEvent id retry = some e') :
    (∃ value, e' = .succeeded id value) ∨ ∃ error, e' = .failed id error retry := by
  unfold attemptEvent at h
  split at h
  · exact Or.inl ⟨_, (Option.some.inj h).symm⟩
  · exact Or.inr ⟨_, (Option.some.inj h).symm⟩
  · cases h

theorem failover_step (hs : (machine o codec options).Step w e w') :
    FailoverPart options w e w'.failover := by
  obtain ⟨henabled, happly⟩ := hs
  cases e with
  | call request times warn endpoints random =>
    obtain rfl := Except.ok.inj happly
    rw [startAttempt_failover]
    exact .of_enabled (.call request.id request.service request.method times warn endpoints random)
      henabled rfl rfl
  | woken id random =>
    obtain rfl := Except.ok.inj happly
    rw [startAttempt_failover]
    exact .of_enabled (.attempt (.woken id random)) henabled rfl rfl
  | finished id retry =>
    obtain rfl := Except.ok.inj happly
    unfold NetworkedClient.finished
    cases hevent : w.attemptEvent id retry with
    | some e' =>
      refine .of_enabled (.attempt e') ?_ rfl (by simp [failoverEvents, hevent])
      obtain ⟨value, rfl⟩ | ⟨error, rfl⟩ := attemptEvent_some hevent
      · exact henabled.1
      · exact henabled.1
    | none =>
      have hquiet : failoverEvents w (.finished id retry) = [] := by simp [failoverEvents, hevent]
      cases ha : w.network.attempts.get id with
      | none => exact .same hquiet
      | some a =>
        cases hphase : a.phase with
        | connecting c n => simpa only [ha, Option.map_some, hphase] using .same hquiet
        | sending c call => simpa only [ha, Option.map_some, hphase] using .same hquiet
        | ended outcome => simpa only [ha, Option.map_some, hphase] using .same hquiet
        | unconnected e =>
          simpa only [ha, Option.map_some, hphase] using .uncaught henabled.1 ha hphase
  | settled id times info error =>
    obtain rfl := Except.ok.inj happly
    exact .of_enabled (.settled id times info error) henabled rfl rfl
  | setActiveCount endpoint count =>
    obtain rfl := Except.ok.inj happly
    exact .of_enabled (.attempt (.setActiveCount endpoint count)) trivial rfl rfl
  | resetMetrics =>
    obtain rfl := Except.ok.inj happly
    exact .of_enabled .resetMetrics trivial rfl rfl
  | network e =>
    obtain ⟨network, -, rfl⟩ := apply_network happly
    exact .same rfl

theorem get_uncaught {client : DiscoveryClient} {e : JsError} {call : DiscoveryCall}
    {endpoint : Endpoint} (hat : client.attemptingAt id = some (call, endpoint)) (id' : String) :
    (client.uncaught id e).calls.get id' =
      if id' = id then some { call with phase := .thrown (.error e) }
      else client.calls.get id' := by
  simp only [DiscoveryClient.uncaught, hat, DiscoveryClient.get_put]

/-- What holds of every reachable state. -/
structure Wf (o : CommonRpcClientOptions) (codec : RpcCodec) (options : RetryOptions)
    (w : NetworkedClient) : Prop where
  network : (ClientNetwork.machine o codec).Reachable (.init codec) w.network
  coupled : w.Coupled
  matched : ∀ id, w.failover.MatchedAt id
  bounded : ∀ id call, w.loopOf id = some call → call.Bounded options

theorem wf_start (clientOptions : RpcClientOptions) (now : ℤ) (loadBalancer : LoadBalancer) :
    Wf o codec options (start clientOptions now loadBalancer codec) where
  network := .refl _ _
  coupled := coupled_start clientOptions now loadBalancer codec
  matched := FailoverClient.matchedAt_start clientOptions now loadBalancer
  bounded _ _ h := by cases h

theorem Coupled.step (h : w.Coupled) (hw : Client.ClientNetwork.NetworkWf o codec w.network)
    (hs : (machine o codec options).Step w e w') : w'.Coupled := by
  obtain ⟨henabled, happly⟩ := hs
  cases e with
  | call request times warn endpoints random =>
    obtain rfl := Except.ok.inj happly
    exact h.call henabled.2
  | woken id random =>
    obtain rfl := Except.ok.inj happly
    exact h.woken henabled
  | finished id retry =>
    obtain rfl := Except.ok.inj happly
    exact h.finished henabled.1 henabled.2
  | settled id times info error =>
    obtain rfl := Except.ok.inj happly
    refine h.same rfl rfl ?_
    simp only [FailoverClient.apply]
    split <;> rfl
  | setActiveCount endpoint count =>
    obtain rfl := Except.ok.inj happly
    exact h.same rfl rfl rfl
  | resetMetrics =>
    obtain rfl := Except.ok.inj happly
    exact h.same rfl rfl rfl
  | network e =>
    obtain ⟨network, hnetwork, rfl⟩ := apply_network happly
    refine h.network hw (e := e) ⟨?_, hnetwork⟩ ?_
    · cases e with
      | begin | connect => exact henabled.elim
      | resume | connection | close => exact henabled
    · rintro request host port rfl
      exact henabled

theorem Wf.matched_of_part (h : Wf o codec options w) {s : FailoverClient}
    (hpart : FailoverPart options w e s) (id : String) : s.MatchedAt id := by
  cases hpart with
  | same => exact h.matched id
  | step hs => exact FailoverClient.matchedAt_step hs h.matched id
  | @uncaught id' a e attempting _ _ =>
    obtain ⟨call, endpoint, hat, hget, hphase⟩ := DiscoveryClient.attemptingAt_ne_none attempting
    have hold := h.matched id
    unfold FailoverClient.MatchedAt at hold ⊢
    rw [get_uncaught hat]
    split_ifs with hid
    · rw [hid, hget] at hold
      rw [hid]
      exact hold.uncaught hphase
    · exact hold

theorem Wf.bounded_of_part (h : Wf o codec options w) {s : FailoverClient}
    (hpart : FailoverPart options w e s) (id : String) (call : DiscoveryCall)
    (hget : s.discovery.calls.get id = some call) : call.Bounded options := by
  cases hpart with
  | same => exact h.bounded id call hget
  | step hs =>
    obtain ⟨e', hstep, -⟩ := FailoverClient.loop_step hs id
    exact hstep.bounded (fun call => h.bounded id call) call hget
  | @uncaught id' a e attempting _ _ =>
    obtain ⟨call', endpoint, hat, hget', -⟩ := DiscoveryClient.attemptingAt_ne_none attempting
    rw [get_uncaught hat] at hget
    split_ifs at hget with hid
    · obtain rfl := Option.some.inj hget
      have hcall := h.bounded id' call' hget'
      exact ⟨hcall.limit, hcall.listed, hcall.length_le⟩
    · exact h.bounded id call hget

/-- A loop keeps the limit that the event of its call gave it. -/
theorem limit_of_part {s : FailoverClient} (hpart : FailoverPart options w e s)
    {loop : DiscoveryCall} (hget : s.discovery.calls.get id = some loop) :
    e.limit options = some (id, loop.maxAttempts) ∨
      ∃ before, w.loopOf id = some before ∧ loop.maxAttempts = before.maxAttempts := by
  cases hpart with
  | same => exact Or.inr ⟨loop, hget, rfl⟩
  | step hs hlimit =>
    obtain ⟨e', hstep, hcall⟩ := FailoverClient.loop_step hs id
    rw [hget] at hstep
    rw [← hlimit]
    exact hstep.limit hcall
  | @uncaught id' a error attempting _ _ =>
    obtain ⟨call, endpoint, hat, hbefore, -⟩ := DiscoveryClient.attemptingAt_ne_none attempting
    rw [get_uncaught hat] at hget
    split_ifs at hget with hid
    · obtain rfl := Option.some.inj hget
      exact Or.inr ⟨call, hid ▸ hbefore, rfl⟩
    · exact Or.inr ⟨loop, hget, rfl⟩

theorem Wf.step (h : Wf o codec options w) (hs : (machine o codec options).Step w e w') :
    Wf o codec options w' where
  network := by
    rcases network_step h.coupled hs with ⟨-, hsame⟩ | ⟨e', -, -, hstep⟩
    · rw [hsame]
      exact h.network
    · exact h.network.snoc hstep
  coupled := h.coupled.step (.of_reachable h.network) hs
  matched := h.matched_of_part (failover_step hs)
  bounded := h.bounded_of_part (failover_step hs)

theorem Wf.of_reachable {clientOptions : RpcClientOptions} {now : ℤ} {loadBalancer : LoadBalancer}
    (h : (machine o codec options).Reachable (start clientOptions now loadBalancer codec) w) :
    Wf o codec options w :=
  h.invariant (fun _ _ _ hi hs => hi.step hs) (wf_start clientOptions now loadBalancer)

/-- A response on a connection to an endpoint that was attempted for the request brought the
value; the connection had accepted the request. -/
structure AnsweredBy (w : NetworkedClient) (request : RpcRequest) (loop : DiscoveryCall)
    (value : JsValue) (endpoint : Endpoint) (c : Client.ConnectionId) (m : JsValue) : Prop where
  attempted : endpoint ∈ loop.attempted ∧ endpoint ∈ loop.endpoints
  pooled : w.network.PooledFor c endpoint.host endpoint.port
  sent : ∃ s n, ⟨request, c, s, n⟩ ∈ w.network.transmissions
  received : ∃ s, m ∈ ((w.network.connections c).sockets s).handled
  responds : Client.Responds m request.id
  result : (m.prop "ok").truthy = true ∧ value = m.prop "result"

theorem Wf.answeredBy (h : Wf o codec options w) {loop : DiscoveryCall} {value : JsValue}
    (hget : w.loopOf id = some loop) (hphase : loop.phase = .returned value) :
    ∃ request endpoint c m, w.requests.get id = some request ∧
      w.AnsweredBy request loop value endpoint c m := by
  have hw := Client.ClientNetwork.NetworkWf.of_reachable h.network
  have hrecords := Client.ClientNetwork.Records.of_reachable h.network
  have hpools := Client.ClientNetwork.PoolsWf.of_reachable h.network
  have hcoupled := h.coupled.calls id
  unfold CoupledAt at hcoupled
  rw [hget] at hcoupled
  obtain ⟨request, hrequest, htracks⟩ := hcoupled
  obtain ⟨a, ha, hended⟩ := htracks.returned value hphase
  have htarget := htracks.current a ha
  rw [htracks.rounds] at htarget
  obtain ⟨endpoint, hattempted, htarget⟩ := List.mem_map.mp htarget
  obtain ⟨hrequest', hhost, hport⟩ : request = a.request ∧ endpoint.host = a.host ∧
      endpoint.port = a.port := by
    simpa only [CallAttempt.target, Prod.mk.injEq] using htarget
  have hbecause := hrecords.because hw ha hended
  cases hbecause with
  | @answered c x s m outcome hkey sent settlement received responds cause response brought =>
    obtain ⟨s', hs'⟩ := sent
    refine ⟨request, endpoint, c, m, hrequest, ⟨hattempted, (h.bounded id loop hget).listed
      hattempted⟩, ?_, ⟨s', x.call, hrequest' ▸ hs'⟩, ⟨s, received⟩, hrequest' ▸ responds,
      Client.World.result_of_responseOutcome response⟩
    rw [hhost, hport]
    exact hrecords.pooledFor hw hpools hs' hkey

theorem Wf.value_answered (h : Wf o codec options w) {call : RpcCall}
    {outcome : Except Thrown JsValue} {value : JsValue}
    (hcall : w.failover.client.calls.get id = some call)
    (hsettled : call.phase = .settled outcome (.ok value)) :
    ∃ request loop endpoint c m, w.requests.get id = some request ∧ w.loopOf id = some loop ∧
      w.AnsweredBy request loop value endpoint c m := by
  have hmatched := h.matched id
  unfold FailoverClient.MatchedAt at hmatched
  simp only [Matched, hcall, Option.map_some, hsettled] at hmatched
  obtain ⟨houtcome, hvalue⟩ := hmatched
  rw [hvalue value rfl] at houtcome
  obtain ⟨loop, hget, hphase⟩ := returned_of_outcome houtcome
  obtain ⟨request, endpoint, c, m, hrequest, hanswered⟩ := h.answeredBy hget hphase
  exact ⟨request, loop, endpoint, c, m, hrequest, hget, hanswered⟩

/-- A value that `call` returns is the result of a response with the id of the call, and it came
over a connection to one of the call's own endpoints, which had accepted the call's request. -/
theorem call_value_answered {clientOptions : RpcClientOptions} {now : ℤ}
    {loadBalancer : LoadBalancer}
    (h : (machine o codec options).Reachable (start clientOptions now loadBalancer codec) w)
    {call : RpcCall} {outcome : Except Thrown JsValue} {value : JsValue}
    (hcall : w.failover.client.calls.get id = some call)
    (hsettled : call.phase = .settled outcome (.ok value)) :
    ∃ request loop endpoint c m, w.requests.get id = some request ∧ w.loopOf id = some loop ∧
      w.AnsweredBy request loop value endpoint c m :=
  (Wf.of_reachable h).value_answered hcall hsettled

def sampleStart : NetworkedClient := start ⟨none, none⟩ 0 (.roundRobin ⟨.empty⟩) sampleCodec

/-- A call in discovery mode, up to its `send`. -/
def sampleCall : List NetworkedEvent :=
  .call ⟨"1", "s", "m", [], none⟩ ⟨0, 0, 0⟩ none [⟨"127.0.0.1", 4000, none⟩] sampleDraw ::
    sampleConnected.tail.map .network

def sampleSent : Option NetworkedClient :=
  (machine sampleClientOptions sampleCodec sampleOptions).exec sampleStart sampleCall

theorem sampleSent_isSome : sampleSent.isSome := by decide +kernel

/-- The response arrives, and the call returns. -/
def sampleAnswered : List NetworkedEvent :=
  sampleCall ++
    [.network (.connection sampleConnection (.socketData 0 (samplePacket sampleResponse) 3)),
      .network (.resume "1"), .finished "1" false, .settled "1" ⟨5, 5, 5⟩ none none]

def sampleReturned : Option NetworkedClient :=
  (machine sampleClientOptions sampleCodec sampleOptions).exec sampleStart sampleAnswered

theorem sampleReturned_isSome : sampleReturned.isSome := by decide +kernel

theorem call_value_answered_sampleReturned : ∃ request loop endpoint c m,
    (sampleReturned.get sampleReturned_isSome).requests.get "1" = some request ∧
      (sampleReturned.get sampleReturned_isSome).loopOf "1" = some loop ∧
        (sampleReturned.get sampleReturned_isSome).AnsweredBy request loop (.number (.ofNat 7))
          endpoint c m := by
  have hcall : (sampleReturned.get sampleReturned_isSome).failover.client.calls.get "1" =
      some ⟨"s", "m", 0, .settled (.ok (.number (.ofNat 7))) (.ok (.number (.ofNat 7))), [],
        [true]⟩ := by
    decide +kernel
  exact call_value_answered ⟨_, Machine.run_exec_get sampleReturned_isSome⟩ hcall rfl

/-- A send belongs to a loop, and went to the pool of an endpoint that the loop has attempted. -/
structure OwnedBy (w : NetworkedClient) (x : Client.Transmission) (loop : DiscoveryCall)
    (endpoint : Endpoint) : Prop where
  request : w.requests.get x.request.id = some x.request
  service : loop.serviceName = x.request.service
  method : loop.method = x.request.method
  attempted : endpoint ∈ loop.attempted ∧ endpoint ∈ loop.endpoints
  pooled : w.network.PooledFor x.connection endpoint.host endpoint.port

theorem Wf.ownedBy (h : Wf o codec options w) {x : Client.Transmission}
    (hx : x ∈ w.network.transmissions) :
    ∃ loop endpoint, w.loopOf x.request.id = some loop ∧ w.OwnedBy x loop endpoint := by
  have hw := Client.ClientNetwork.NetworkWf.of_reachable h.network
  have hrecords := Client.ClientNetwork.Records.of_reachable h.network
  have hpools := Client.ClientNetwork.PoolsWf.of_reachable h.network
  obtain ⟨host, port, ⟨a, ha, hrequest, hhost, hport⟩, hkey⟩ := hrecords.sent x hx
  have hbegun : a ∈ w.network.begunOf x.request.id :=
    List.mem_filter.mpr ⟨ha, decide_eq_true (congrArg RpcRequest.id hrequest)⟩
  have hcoupled := h.coupled.calls x.request.id
  unfold CoupledAt at hcoupled
  cases hget : w.loopOf x.request.id with
  | none =>
    rw [hget] at hcoupled
    rw [hcoupled.1] at hbegun
    cases hbegun
  | some loop =>
    rw [hget] at hcoupled
    obtain ⟨request, hstored, htracks⟩ := hcoupled
    have htarget := List.mem_map_of_mem (f := CallAttempt.target) hbegun
    rw [htracks.rounds] at htarget
    obtain ⟨endpoint, hattempted, htarget⟩ := List.mem_map.mp htarget
    obtain ⟨hrequest', hhost', hport'⟩ : request = a.request ∧ endpoint.host = a.host ∧
        endpoint.port = a.port := by
      simpa only [CallAttempt.target, Prod.mk.injEq] using htarget
    have hsame : request = x.request := hrequest'.trans hrequest
    refine ⟨loop, endpoint, rfl, hsame ▸ hstored, hsame ▸ htracks.service,
      hsame ▸ htracks.method, ⟨hattempted, (h.bounded _ loop hget).listed hattempted⟩, ?_⟩
    rw [hhost', hport', hhost, hport]
    exact hrecords.pooledFor hw hpools hx hkey

/-- The accepted sends of a call are no more than its attempts, and these no more than the
options allow; each goes to a pool of an endpoint that was attempted for it. A call that was
refused has none. -/
structure SendsBounded (options : RetryOptions) (w : NetworkedClient) : Prop where
  owned : ∀ x ∈ w.network.transmissions, ∃ loop endpoint, w.loopOf x.request.id = some loop ∧
    w.OwnedBy x loop endpoint
  bounded : ∀ id loop, w.loopOf id = some loop → ∃ request, w.requests.get id = some request ∧
    w.network.transmissions.countP (fun x => x.request.id = id) ≤ loop.attempted.length ∧
      loop.attempted.length ≤
        options.getMaxAttempts request.service request.method loop.endpoints.length
  refused : ∀ id call error, w.failover.client.calls.get id = some call →
    call.phase = .refused error → ∀ x ∈ w.network.transmissions, x.request.id ≠ id

theorem Wf.sendsBounded (h : Wf o codec options w) : SendsBounded options w := by
  refine ⟨fun x hx => h.ownedBy hx, fun id loop hget => ?_,
    fun id call error hcall hphase x hx hid => ?_⟩
  · have hcoupled := h.coupled.calls id
    unfold CoupledAt at hcoupled
    rw [hget] at hcoupled
    obtain ⟨request, hrequest, htracks⟩ := hcoupled
    have hbounded := h.bounded id loop hget
    have hrounds := congrArg List.length htracks.rounds
    rw [List.length_map, List.length_map] at hrounds
    refine ⟨request, hrequest, ?_, ?_⟩
    · have hcounted := (Client.ClientNetwork.Records.of_reachable h.network).counted id
      rw [List.countP_eq_length_filter (p := fun a : CallAttempt => a.request.id = id)] at hcounted
      change _ ≤ (w.network.begunOf id).length at hcounted
      omega
    · rw [← htracks.service, ← htracks.method, ← hbounded.limit]
      exact hbounded.length_le
  · obtain ⟨loop, -, hget, -⟩ := h.ownedBy hx
    have hmatched := h.matched id
    unfold FailoverClient.MatchedAt at hmatched
    simp only [Matched, hcall, Option.map_some, hphase] at hmatched
    rw [loopOf, hid, hmatched] at hget
    cases hget

theorem call_sends_bounded {clientOptions : RpcClientOptions} {now : ℤ}
    {loadBalancer : LoadBalancer}
    (h : (machine o codec options).Reachable (start clientOptions now loadBalancer codec) w) :
    SendsBounded options w :=
  (Wf.of_reachable h).sendsBounded

theorem call_sends_bounded_sampleSent :
    SendsBounded sampleOptions (sampleSent.get sampleSent_isSome) :=
  call_sends_bounded ⟨_, Machine.run_exec_get sampleSent_isSome⟩

/-- What a call that has not settled waits for. -/
inductive Waits (w : NetworkedClient) (id : String) : Prop
  | settles (enabled : ∀ times info error, w.Enabled (.settled id times info error)) : Waits w id
  | wakes (enabled : ∀ random, w.Enabled (.woken id random)) : Waits w id
  | finishes (enabled : ∀ retry, w.Enabled (.finished id retry)) : Waits w id
  | resumes (enabled : w.Enabled (.network (.resume id))) : Waits w id
  | connects {a : CallAttempt} {c : Client.ConnectionId} {n : ℕ}
      (current : w.network.attempts.get id = some a) (phase : a.phase = .connecting c n)
      (awaits : (w.network.connections c).Awaits (.user n)) : Waits w id
  | answers {a : CallAttempt} {c : Client.ConnectionId} {call : Client.CallId}
      {t : Client.TimerId} (current : w.network.attempts.get id = some a)
      (phase : a.phase = .sending c call)
      (pending : (w.network.connections c).pending.get id = some ⟨call, t⟩)
      (timer : (w.network.connections c).timers.get t = some (.callTimeout id call)) : Waits w id

theorem waits_of_attempt (hw : Client.ClientNetwork.NetworkWf o codec w.network)
    {a : CallAttempt} (hget : w.network.attempts.get id = some a)
    (hat : w.failover.discovery.attemptingAt id ≠ none) : w.Waits id := by
  cases hw.stands hget with
  | ended ended =>
    refine .finishes fun retry => ⟨hat, fun a' ha' => ?_⟩
    obtain rfl := Option.some.inj (hget.symm.trans ha')
    exact ended
  | ready ready => exact .resumes ready
  | connects phase awaits => exact .connects hget phase awaits
  | answers phase pending timer => exact .answers hget phase pending timer

/-- No call is lost: whatever it is that a call under way waits for is there, or is armed. -/
theorem call_never_lost {clientOptions : RpcClientOptions} {now : ℤ} {loadBalancer : LoadBalancer}
    (h : (machine o codec options).Reachable (start clientOptions now loadBalancer codec) w)
    (hremote : w.failover.client.remoteCall id ≠ none) : w.Waits id := by
  have hwf := Wf.of_reachable h
  have hw := Client.ClientNetwork.NetworkWf.of_reachable hwf.network
  obtain ⟨call, -, hcall, hphase⟩ := RpcClient.remoteCall_ne_none hremote
  have hmatched := hwf.matched id
  unfold FailoverClient.MatchedAt at hmatched
  simp only [Matched, hcall, Option.map_some, hphase] at hmatched
  obtain ⟨loop, hget⟩ := Option.ne_none_iff_exists'.mp hmatched
  have hbounded := (hwf.bounded id loop hget).counts
  unfold DiscoveryCall.Counts at hbounded
  cases hloop : loop.phase with
  | running =>
    rw [hloop] at hbounded
    exact hbounded.elim
  | attempting endpoint =>
    have hcoupled := hwf.coupled.calls id
    unfold CoupledAt loopOf at hcoupled
    rw [hget] at hcoupled
    obtain ⟨request, -, htracks⟩ := hcoupled
    obtain ⟨a, ha, -⟩ := htracks.attempting endpoint hloop
    refine waits_of_attempt hw ha ?_
    rw [attemptingAt_of_phase hget hloop]
    exact Option.some_ne_none _
  | backingOff backoffMs =>
    refine .wakes fun random => ?_
    change w.failover.discovery.sleepingCall id ≠ none
    simp only [DiscoveryClient.sleepingCall, hget, hloop]
    exact Option.some_ne_none _
  | returned value =>
    refine .settles fun times info error => ⟨hremote, ?_⟩
    simp only [FailoverClient.outcome, hget, Option.bind_some, hloop, CallPhase.result]
    exact Option.some_ne_none _
  | thrown e =>
    refine .settles fun times info error => ⟨hremote, ?_⟩
    simp only [FailoverClient.outcome, hget, Option.bind_some, hloop, CallPhase.result]
    exact Option.some_ne_none _

theorem call_never_lost_sampleSent : (sampleSent.get sampleSent_isSome).Waits "1" :=
  call_never_lost ⟨_, Machine.run_exec_get sampleSent_isSome⟩ (by decide +kernel)

end NetworkedClient

end WeisleyRpc.Discovery
