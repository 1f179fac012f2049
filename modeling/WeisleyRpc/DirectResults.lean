import WeisleyRpc.DirectClient
import WeisleyRpc.EndpointPools
import WeisleyRpc.ListCounts

/-!
# What a call in direct mode comes to

An admitted call has one attempt, and what has become of it settles the call. So a call sends its
request at most once, its outcome is what the connections recorded for the attempt, and the client
runs as the calls beside the connections.
-/

namespace WeisleyRpc.Client

/-- The attempt is the one that was begun for the call. -/
structure CallAttempt.Own (o : DirectRpcClientOptions) (call : RpcCall)
    (begun attempt : CallAttempt) : Prop where
  target : attempt.target = begun.target
  address : attempt.host = o.host ∧ attempt.port = o.port
  service : attempt.request.service = call.service
  method : attempt.request.method = call.method

/-- How far a call is belongs to how far its attempt is. -/
structure Tracks (o : DirectRpcClientOptions) (call : RpcCall) (begun : List CallAttempt)
    (attempt : Option CallAttempt) : Prop where
  refused : ∀ error, call.phase = .refused error → begun = [] ∧ attempt = none
  admitted : (∀ error, call.phase ≠ .refused error) →
    ∃ a b, attempt = some a ∧ begun = [b] ∧ b.Own o call a
  settled : ∀ outcome result, call.phase = .settled outcome result →
    attempt.bind CallAttempt.outcome = some outcome ∧
      ∀ value, result = .ok value → outcome = .ok value

theorem CallAttempt.outcome_ne_none {a : CallAttempt} (h : a.over = true) : a.outcome ≠ none := by
  cases hphase : a.phase with
  | connecting | sending => simp [CallAttempt.over, hphase] at h
  | unconnected | ended => simp [CallAttempt.outcome, hphase]

theorem CallAttempt.outcome_of_under_way {a : CallAttempt} (h : a.over = false) :
    a.outcome = none := by
  cases hphase : a.phase with
  | connecting | sending => simp only [CallAttempt.outcome, hphase]
  | unconnected | ended => simp [CallAttempt.over, hphase] at h

/-- The attempt goes on. -/
theorem Tracks.move {o : DirectRpcClientOptions} {call : RpcCall} {begun : List CallAttempt}
    {attempt attempt' : Option CallAttempt} (h : Tracks o call begun attempt)
    (hmove : attempt' = attempt ∨ ∃ a phase, attempt = some a ∧ a.over = false ∧
      attempt' = some { a with phase := phase }) : Tracks o call begun attempt' := by
  rcases hmove with rfl | ⟨a, phase, rfl, hover, rfl⟩
  · exact h
  · refine ⟨fun error hphase => ?_, fun hadmitted => ?_, fun outcome result hphase => ?_⟩
    · cases (h.refused error hphase).2
    · obtain ⟨a', b, ha, hb, hown⟩ := h.admitted hadmitted
      obtain rfl := Option.some.inj ha
      exact ⟨_, b, rfl, hb, hown.target, hown.address, hown.service, hown.method⟩
    · have hended := (h.settled outcome result hphase).1
      rw [Option.bind_some, CallAttempt.outcome_of_under_way hover] at hended
      cases hended

namespace DirectClient
open ClientNetwork (sampleClientOptions sampleConnection sampleConnected)
variable {o : DirectRpcClientOptions} {codec : RpcCodec} {w w' : DirectClient} {e : DirectEvent}
  {id : String}

def TracksAt (o : DirectRpcClientOptions) (w : DirectClient) (id : String) : Prop :=
  match w.client.calls.get id with
  | none => w.network.begunOf id = [] ∧ w.network.attempts.get id = none
  | some call => Tracks o call (w.network.begunOf id) (w.network.attempts.get id)

structure Wf (o : DirectRpcClientOptions) (codec : RpcCodec) (w : DirectClient) : Prop where
  network : (ClientNetwork.machine o.common codec).Reachable (.init codec) w.network
  calls : ∀ id, TracksAt o w id

theorem wf_start (options : RpcClientOptions) (now : ℤ) : Wf o codec (start options now codec) where
  network := .refl _ _
  calls _ := ⟨rfl, rfl⟩

theorem TracksAt.move (h : TracksAt o w id)
    (hcalls : w'.client.calls.get id = w.client.calls.get id)
    (hbegun : w'.network.begunOf id = w.network.begunOf id)
    (hmove : w'.network.attempts.get id = w.network.attempts.get id ∨ ∃ a phase,
      w.network.attempts.get id = some a ∧ a.over = false ∧
        w'.network.attempts.get id = some { a with phase := phase }) : TracksAt o w' id := by
  unfold TracksAt at h ⊢
  rw [hcalls]
  cases hget : w.client.calls.get id with
  | none =>
    rw [hget] at h
    rcases hmove with hsame | ⟨a, phase, ha, -⟩
    · rw [hbegun, hsame]
      exact h
    · rw [h.2] at ha
      cases ha
  | some call =>
    rw [hget] at h
    rw [hbegun]
    exact h.move hmove

/-- A step of the network that begins no attempt. -/
theorem Wf.network_step (h : Wf o codec w) {e : NetworkEvent} {network : ClientNetwork}
    (hs : (ClientNetwork.machine o.common codec).Step w.network e network)
    (hno : ∀ request host port, e ≠ .begin request host port) :
    Wf o codec { w with network } := by
  refine ⟨h.network.snoc hs, fun id => ?_⟩
  obtain ⟨hbegun, hattempts⟩ := ClientNetwork.attempts_step (.of_reachable h.network) hs hno
  refine (h.calls id).move rfl ?_ (hattempts id)
  simp only [ClientNetwork.begunOf, hbegun]

theorem Wf.idle (h : Wf o codec w) (hfresh : w.client.calls.get id = none) : w.network.Idle id := by
  have hcall := h.calls id
  unfold TracksAt at hcall
  rw [hfresh] at hcall
  exact ClientNetwork.idle_of_none hcall.2

theorem get_call (client : RpcClient) (request : RpcRequest) (times : CallTimes)
    (warn : Option Thrown) (id : String) :
    (client.call request.id request.service request.method times warn).calls.get id =
      if id = request.id then some ⟨request.service, request.method, times.startedAt,
        client.admission (Discovery.getMethodKey request.service request.method) times warn, [], []⟩
      else client.calls.get id := by
  rw [RpcClient.call_eq]
  exact OrderedMap.get_set _ _ _ _

theorem admission_cases (client : RpcClient) (methodKey : String) (times : CallTimes)
    (warn : Option Thrown) : (∃ error, client.admission methodKey times warn = .refused error) ∨
      client.admission methodKey times warn = .remote := by
  unfold RpcClient.admission
  split_ifs
  · exact Or.inl ⟨_, rfl⟩
  · exact Or.inl ⟨_, rfl⟩
  · exact Or.inr rfl

theorem Wf.call (h : Wf o codec w) {request : RpcRequest} (times : CallTimes)
    (warn : Option Thrown) (hfresh : w.client.calls.get request.id = none) :
    Wf o codec (w.call o codec request times warn) := by
  have hidle := h.idle hfresh
  have hget := get_call w.client request times warn
  have hnew := h.calls request.id
  unfold TracksAt at hnew
  rw [hfresh] at hnew
  unfold DirectClient.call
  by_cases hremote : (w.client.call request.id request.service request.method times
      warn).remoteCall request.id = none
  · simp only [hremote, if_true]
    refine ⟨h.network, fun id => ?_⟩
    by_cases hid : id = request.id
    · subst hid
      unfold TracksAt
      simp only [hget, if_true]
      rcases admission_cases w.client (Discovery.getMethodKey request.service request.method) times
        warn with ⟨error, hphase⟩ | hphase
      · refine ⟨fun _ _ => hnew, fun hadmitted => absurd hphase (hadmitted error), fun _ _ hs => ?_⟩
        rw [hphase] at hs
        cases hs
      · rw [RpcClient.remoteCall_of_remote ((hget request.id).trans (if_pos rfl)) hphase] at hremote
        cases hremote
    · refine (h.calls id).move ?_ rfl (Or.inl rfl)
      simp only [hget, if_neg hid]
  · simp only [hremote, if_false]
    have hstep : (ClientNetwork.machine o.common codec).Step w.network
        (.begin request o.host o.port) (w.network.begin o.common codec request o.host o.port) :=
      ⟨hidle, rfl⟩
    obtain ⟨⟨b, a, hb, ha, hbegun, hattempt⟩, hother⟩ :=
      ClientNetwork.begunOf_begin o.common codec o.host o.port hidle
    refine ⟨h.network.snoc hstep, fun id => ?_⟩
    by_cases hid : id = request.id
    · subst hid
      obtain ⟨call, -, hcall, hphase⟩ := RpcClient.remoteCall_ne_none hremote
      have hstarted := (hget request.id).trans (if_pos rfl)
      rw [hcall] at hstarted
      unfold TracksAt
      simp only [hcall]
      refine ⟨fun _ hr => ?_, fun _ => ⟨a, b, hattempt, ?_, ?_⟩, fun _ _ hs => ?_⟩
      · rw [hphase] at hr
        cases hr
      · rw [hbegun, hnew.1, List.nil_append]
      · obtain rfl := Option.some.inj hstarted
        obtain ⟨hrequest, hhost, hport⟩ : a.request = request ∧ a.host = o.host ∧
            a.port = o.port := by
          simpa only [CallAttempt.target, Prod.mk.injEq] using ha
        exact ⟨ha.trans hb.symm, ⟨hhost, hport⟩, congrArg RpcRequest.service hrequest,
          congrArg RpcRequest.method hrequest⟩
      · rw [hphase] at hs
        cases hs
    · obtain ⟨hbegun', hattempt'⟩ := hother id hid
      refine (h.calls id).move ?_ hbegun' (Or.inl hattempt')
      simp only [hget, if_neg hid]

theorem apply_network {e : NetworkEvent} (h : apply o codec w (.network e) = .ok w') : ∃ network,
    w.network.apply o.common codec e = .ok network ∧ w' = { w with network } := by
  change (w.network.apply o.common codec e).map _ = _ at h
  cases happly : w.network.apply o.common codec e with
  | error x =>
    rw [happly] at h
    cases h
  | ok network =>
    rw [happly] at h
    exact ⟨network, rfl, (Except.ok.inj h).symm⟩

theorem Wf.settle (h : Wf o codec w) {outcome : Except Thrown JsValue} (times : SettleTimes)
    (info error : Option Thrown) (hremote : w.client.remoteCall id ≠ none)
    (houtcome : w.outcome id = some outcome) :
    Wf o codec { w with client := w.client.apply (.settled id outcome times info error) } := by
  obtain ⟨call, hcall, hget, hphase⟩ := RpcClient.remoteCall_ne_none hremote
  refine ⟨h.network, fun id' => ?_⟩
  have hcalls : (w.client.apply (.settled id outcome times info error)).calls.get id' =
      if id' = id then some { call with
        phase := .settled outcome (settlement call.startedAt outcome times info error).result
        outcomes := call.outcomes ++ if w.client.circuitBreaker.isSome then
          (settlement call.startedAt outcome times info error).outcomes else []
        entries := call.entries ++ (settlement call.startedAt outcome times info
          error).entries.map MetricsEntry.success } else w.client.calls.get id' := by
    simp only [RpcClient.apply, hcall, RpcClient.settle_eq, RpcClient.settledBy,
      OrderedMap.get_set]
  by_cases hid : id' = id
  · subst hid
    have hold := h.calls id'
    unfold TracksAt at hold ⊢
    rw [hget] at hold
    simp only [hcalls, if_true]
    refine ⟨fun _ hr => (by cases hr), fun _ => ?_, fun outcome' result hs => ?_⟩
    · obtain ⟨a, b, ha, hb, hown⟩ := hold.admitted fun _ hr => (by rw [hphase] at hr; cases hr)
      exact ⟨a, b, ha, hb, hown.target, hown.address, hown.service, hown.method⟩
    · obtain ⟨rfl, rfl⟩ := RpcCallPhase.settled.inj hs
      exact ⟨houtcome, fun value => result_of_settlement⟩
  · refine (h.calls id').move ?_ rfl (Or.inl rfl)
    simp only [hcalls, if_neg hid]

theorem connect_step (o : DirectRpcClientOptions) (codec : RpcCodec) (w : ClientNetwork) :
    (ClientNetwork.machine o.common codec).Step w (.connect o.host o.port)
      (w.connect o.common o.host o.port) := ⟨trivial, rfl⟩

theorem Wf.step (h : Wf o codec w) (hs : (machine o codec).Step w e w') : Wf o codec w' := by
  obtain ⟨henabled, happly⟩ := hs
  cases e with
  | call request times warn =>
    obtain rfl := Except.ok.inj happly
    exact h.call times warn henabled
  | settled id times info error =>
    obtain ⟨outcome, houtcome⟩ := Option.ne_none_iff_exists'.1 henabled.2
    simp only [machine, apply, houtcome] at happly
    obtain rfl := Except.ok.inj happly
    exact h.settle times info error henabled.1 houtcome
  | connect =>
    obtain rfl := Except.ok.inj happly
    exact h.network_step (connect_step o codec w.network) fun _ _ _ he => (by cases he)
  | resetMetrics =>
    obtain rfl := Except.ok.inj happly
    exact ⟨h.network, fun id => (h.calls id).move rfl rfl (Or.inl rfl)⟩
  | network e =>
    obtain ⟨network, hnetwork, rfl⟩ := apply_network happly
    refine h.network_step (e := e) ⟨?_, hnetwork⟩ ?_
    · cases e with
      | begin | connect => exact henabled.elim
      | resume | connection | close => exact henabled
    · rintro request host port rfl
      exact henabled

theorem Wf.of_reachable {options : RpcClientOptions} {now : ℤ}
    (h : (machine o codec).Reachable (start options now codec) w) : Wf o codec w :=
  h.invariant (fun _ _ _ hi hs => hi.step hs) (wf_start options now)

/-- The attempt of an admitted call. -/
theorem Wf.admitted (h : Wf o codec w) {call : RpcCall} (hcall : w.client.calls.get id = some call)
    (hphase : ∀ error, call.phase ≠ .refused error) : ∃ a b,
      w.network.attempts.get id = some a ∧ w.network.begunOf id = [b] ∧ b.Own o call a := by
  have hat := h.calls id
  unfold TracksAt at hat
  rw [hcall] at hat
  exact hat.admitted hphase

/-- Only an admitted call has begun an attempt. -/
theorem Wf.of_begun (h : Wf o codec w) {b : CallAttempt} (hb : b ∈ w.network.begunOf id) :
    ∃ call a, w.client.calls.get id = some call ∧ (∀ error, call.phase ≠ .refused error) ∧
      w.network.attempts.get id = some a ∧ w.network.begunOf id = [b] ∧ b.Own o call a := by
  have hat := h.calls id
  unfold TracksAt at hat
  cases hcall : w.client.calls.get id with
  | none =>
    rw [hcall] at hat
    rw [hat.1] at hb
    cases hb
  | some call =>
    rw [hcall] at hat
    have hphase : ∀ error, call.phase ≠ .refused error := by
      intro error hrefused
      rw [(hat.refused error hrefused).1] at hb
      cases hb
    obtain ⟨a, b', ha, hbegun, hown⟩ := hat.admitted hphase
    rw [hbegun] at hb
    obtain rfl := List.mem_singleton.mp hb
    exact ⟨call, a, rfl, hphase, ha, hbegun, hown⟩

/-- A call has at most one accepted send, and none if it was refused. Each is on a connection to
the address of the options. -/
structure SentOnce (o : DirectRpcClientOptions) (w : DirectClient) : Prop where
  owned : ∀ x ∈ w.network.transmissions, ∃ call, w.client.calls.get x.request.id = some call ∧
    (∀ error, call.phase ≠ .refused error) ∧ call.service = x.request.service ∧
      call.method = x.request.method ∧ w.network.PooledFor x.connection o.host o.port
  once : ∀ id, w.network.transmissions.countP (fun x => x.request.id = id) ≤ 1

theorem Wf.sentOnce (h : Wf o codec w) : SentOnce o w := by
  have hrecords := ClientNetwork.Records.of_reachable h.network
  refine ⟨fun x hx => ?_, fun id => ?_⟩
  · obtain ⟨host, port, ⟨b, hb, hrequest, hhost, hport⟩, hkey⟩ := hrecords.sent x hx
    have hbegun : b ∈ w.network.begunOf x.request.id :=
      List.mem_filter.mpr ⟨hb, decide_eq_true (congrArg RpcRequest.id hrequest)⟩
    obtain ⟨call, a, hcall, hphase, -, -, hown⟩ := h.of_begun hbegun
    have htarget := hown.target
    simp only [CallAttempt.target, Prod.mk.injEq] at htarget
    obtain ⟨hrequest', hhost', hport'⟩ := htarget
    have hsame : a.request = x.request := hrequest'.trans hrequest
    refine ⟨call, hcall, hphase, ?_, ?_, ?_⟩
    · rw [← hown.service, hsame]
    · rw [← hown.method, hsame]
    · rw [← hown.address.1, ← hown.address.2, hhost', hport', hhost, hport]
      exact hrecords.pooledFor (.of_reachable h.network) (.of_reachable h.network) hx hkey
  · have hcounted := hrecords.counted id
    rw [List.countP_eq_length_filter (p := fun a : CallAttempt => a.request.id = id)] at hcounted
    have hlength : (w.network.begunOf id).length ≤ 1 := by
      cases hbegun : w.network.begunOf id with
      | nil => exact Nat.zero_le 1
      | cons b rest =>
        obtain ⟨_, _, -, -, -, hsingle, -⟩ := h.of_begun (hbegun ▸ List.mem_cons_self)
        rw [← hbegun, hsingle, List.length_singleton]
    change _ ≤ (w.network.begunOf id).length at hcounted
    omega

/-- An admitted call has begun one attempt. -/
theorem Wf.countP_begun (h : Wf o codec w) {call : RpcCall}
    (hcall : w.client.calls.get id = some call) (hphase : ∀ error, call.phase ≠ .refused error) :
    (w.network.begun.countP fun a => a.request.id = id) = 1 := by
  obtain ⟨_, b, -, hbegun, -⟩ := h.admitted hcall hphase
  rw [List.countP_eq_length_filter]
  change (w.network.begunOf id).length = 1
  rw [hbegun, List.length_singleton]

theorem Wf.sent_unique (h : Wf o codec w) {x y : Transmission} (hx : x ∈ w.network.transmissions)
    (hy : y ∈ w.network.transmissions) (hsame : x.request.id = y.request.id) : x = y :=
  ListCounts.eq_of_countP_le_one (h.sentOnce.once y.request.id) hx (decide_eq_true hsame) hy
    (decide_eq_true rfl)

theorem direct_sends_once {options : RpcClientOptions} {now : ℤ}
    (h : (machine o codec).Reachable (start options now codec) w) : SentOnce o w :=
  (Wf.of_reachable h).sentOnce

def sampleDirectOptions : DirectRpcClientOptions := ⟨sampleClientOptions, "127.0.0.1", 4000⟩

/-- A call in direct mode, up to its `send`. -/
def sampleCall : List DirectEvent :=
  .call ⟨"1", "s", "m", [], none⟩ ⟨0, 0, 0⟩ none :: sampleConnected.tail.map .network

def sampleSent : Option DirectClient :=
  (machine sampleDirectOptions sampleCodec).exec (start ⟨none, none⟩ 0 sampleCodec) sampleCall

theorem sampleSent_isSome : sampleSent.isSome := by decide +kernel

/-- The response arrives, and the call returns. -/
def sampleAnswered : List DirectEvent :=
  sampleCall ++
    [.network (.connection sampleConnection (.socketData 0 (samplePacket sampleResponse) 3)),
      .network (.resume "1"), .settled "1" ⟨5, 5, 5⟩ none none]

def sampleReturned : Option DirectClient :=
  (machine sampleDirectOptions sampleCodec).exec (start ⟨none, none⟩ 0 sampleCodec) sampleAnswered

theorem sampleReturned_isSome : sampleReturned.isSome := by decide +kernel

theorem direct_sends_once_sampleSent :
    SentOnce sampleDirectOptions (sampleSent.get sampleSent_isSome) :=
  direct_sends_once ⟨_, Machine.run_exec_get sampleSent_isSome⟩

/-- The outcome of a call is that of its only attempt, for a reason that the connections
recorded. -/
structure SettledBy (o : DirectRpcClientOptions) (codec : RpcCodec) (w : DirectClient) (id : String)
    (call : RpcCall) (outcome : Except Thrown JsValue) (a : CallAttempt) : Prop where
  current : w.network.attempts.get id = some a
  named : a.request.id = id
  address : a.host = o.host ∧ a.port = o.port
  service : a.request.service = call.service
  method : a.request.method = call.method
  only : ∃ b, w.network.begunOf id = [b] ∧ a.target = b.target
  because : (∃ e, a.phase = .unconnected e ∧ outcome = .error (.error e)) ∨
    ∃ ended, a.phase = .ended ended ∧ outcome = ended.mapError .error ∧
      ClientNetwork.Because o.common codec w.network a ended

theorem Wf.settledBy (h : Wf o codec w) {call : RpcCall} {outcome result : Except Thrown JsValue}
    (hcall : w.client.calls.get id = some call) (hphase : call.phase = .settled outcome result) :
    (∃ a, w.SettledBy o codec id call outcome a) ∧
      ∀ value, result = .ok value → outcome = .ok value := by
  have hw := ClientNetwork.NetworkWf.of_reachable h.network
  have hat := h.calls id
  unfold TracksAt at hat
  rw [hcall] at hat
  obtain ⟨hended, hvalue⟩ := hat.settled outcome result hphase
  obtain ⟨a, b, ha, hbegun, hown⟩ := hat.admitted fun _ hr => (by rw [hphase] at hr; cases hr)
  refine ⟨⟨a, ha, hw.named _ _ ha, hown.address, hown.service, hown.method,
    ⟨b, hbegun, hown.target⟩, ?_⟩, hvalue⟩
  rw [ha, Option.bind_some] at hended
  cases hattempt : a.phase with
  | connecting c n => simp [CallAttempt.outcome, hattempt] at hended
  | sending c n => simp [CallAttempt.outcome, hattempt] at hended
  | unconnected e =>
    simp only [CallAttempt.outcome, hattempt, Option.some.injEq] at hended
    exact Or.inl ⟨e, rfl, hended.symm⟩
  | ended r =>
    simp only [CallAttempt.outcome, hattempt, Option.some.injEq] at hended
    exact Or.inr ⟨r, rfl, hended.symm,
      (ClientNetwork.Records.of_reachable h.network).because hw ha hattempt⟩

/-- A call in direct mode settles with what became of its only attempt. -/
theorem direct_call_because {options : RpcClientOptions} {now : ℤ}
    (h : (machine o codec).Reachable (start options now codec) w) {call : RpcCall}
    {outcome result : Except Thrown JsValue} (hcall : w.client.calls.get id = some call)
    (hphase : call.phase = .settled outcome result) :
    (∃ a, w.SettledBy o codec id call outcome a) ∧
      ∀ value, result = .ok value → outcome = .ok value :=
  (Wf.of_reachable h).settledBy hcall hphase

def sampleRpcCall : RpcCall :=
  ⟨"s", "m", 0, .settled (.ok (.number (.ofNat 7))) (.ok (.number (.ofNat 7))), [], [true]⟩

theorem get_sampleReturned :
    (sampleReturned.get sampleReturned_isSome).client.calls.get "1" = some sampleRpcCall := by
  decide +kernel

theorem direct_call_because_sampleReturned :
    (∃ a, (sampleReturned.get sampleReturned_isSome).SettledBy sampleDirectOptions sampleCodec "1"
      sampleRpcCall (.ok (.number (.ofNat 7))) a) ∧ ∀ value,
        Except.ok (JsValue.number (.ofNat 7)) = (.ok value : Except Thrown JsValue) →
          Except.ok (JsValue.number (.ofNat 7)) = (.ok value : Except Thrown JsValue) :=
  direct_call_because ⟨_, Machine.run_exec_get sampleReturned_isSome⟩ get_sampleReturned rfl

/-- What a call that has not settled waits for. -/
inductive Waits (w : DirectClient) (id : String) : Prop
  | settles (enabled : ∀ times info error, w.Enabled (.settled id times info error)) : Waits w id
  | resumes (enabled : w.Enabled (.network (.resume id))) : Waits w id
  | connects {a : CallAttempt} {c : ConnectionId} {n : ℕ}
      (current : w.network.attempts.get id = some a) (phase : a.phase = .connecting c n)
      (awaits : (w.network.connections c).Awaits (.user n)) : Waits w id
  | answers {a : CallAttempt} {c : ConnectionId} {call : CallId} {t : TimerId}
      (current : w.network.attempts.get id = some a) (phase : a.phase = .sending c call)
      (pending : (w.network.connections c).pending.get id = some ⟨call, t⟩)
      (timer : (w.network.connections c).timers.get t = some (.callTimeout id call)) : Waits w id

theorem Wf.waits (h : Wf o codec w) (hremote : w.client.remoteCall id ≠ none) : w.Waits id := by
  obtain ⟨call, -, hcall, hphase⟩ := RpcClient.remoteCall_ne_none hremote
  obtain ⟨a, b, ha, -, -⟩ :=
    h.admitted hcall fun _ hr => (by rw [hphase] at hr; cases hr)
  cases (ClientNetwork.NetworkWf.of_reachable h.network).stands ha with
  | ended ended =>
    refine .settles fun times info error => ⟨hremote, ?_⟩
    rw [outcome, ha, Option.bind_some]
    exact CallAttempt.outcome_ne_none ended
  | ready ready => exact .resumes ready
  | connects phase awaits => exact .connects ha phase awaits
  | answers phase pending timer => exact .answers ha phase pending timer

/-- No call is lost: what it waits for is there, or a connection will bring it. -/
theorem direct_call_never_lost {options : RpcClientOptions} {now : ℤ}
    (h : (machine o codec).Reachable (start options now codec) w)
    (hremote : w.client.remoteCall id ≠ none) : w.Waits id :=
  (Wf.of_reachable h).waits hremote

theorem direct_call_never_lost_sampleSent : (sampleSent.get sampleSent_isSome).Waits "1" :=
  direct_call_never_lost ⟨_, Machine.run_exec_get sampleSent_isSome⟩ (by decide +kernel)

/-- What an event is for the calls. -/
def clientEvents (w : DirectClient) : DirectEvent → List RpcClientEvent
  | .call request times warn => [.call request.id request.service request.method times warn]
  | .settled id times info error =>
    (w.outcome id).toList.map fun outcome => .settled id outcome times info error
  | .resetMetrics => [.resetMetrics]
  | .connect | .network _ => []

/-- What an event is for the connections. -/
def networkEvents (o : DirectRpcClientOptions) (w : DirectClient) :
    DirectEvent → List NetworkEvent
  | .call request times warn =>
    if (w.client.call request.id request.service request.method times warn).remoteCall
      request.id = none then [] else [.begin request o.host o.port]
  | .connect => [.connect o.host o.port]
  | .network e => [e]
  | .settled _ _ _ _ | .resetMetrics => []

theorem client_run (hs : (machine o codec).Step w e w') :
    RpcClient.machine.Run w.client (clientEvents w e) w'.client := by
  obtain ⟨henabled, happly⟩ := hs
  cases e with
  | call request times warn =>
    obtain rfl := Except.ok.inj happly
    refine .single ⟨henabled, ?_⟩
    simp only [DirectClient.call]
    split_ifs <;> rfl
  | settled id times info error =>
    obtain ⟨outcome, houtcome⟩ := Option.ne_none_iff_exists'.1 henabled.2
    simp only [machine, apply, houtcome] at happly
    obtain rfl := Except.ok.inj happly
    rw [clientEvents, houtcome]
    exact .single ⟨henabled.1, rfl⟩
  | connect =>
    obtain rfl := Except.ok.inj happly
    exact .nil _
  | resetMetrics =>
    obtain rfl := Except.ok.inj happly
    exact .single ⟨trivial, rfl⟩
  | network e =>
    obtain ⟨network, -, rfl⟩ := apply_network happly
    exact .nil _

theorem Wf.network_run (h : Wf o codec w) (hs : (machine o codec).Step w e w') :
    (ClientNetwork.machine o.common codec).Run w.network (networkEvents o w e) w'.network := by
  obtain ⟨henabled, happly⟩ := hs
  cases e with
  | call request times warn =>
    obtain rfl := Except.ok.inj happly
    simp only [networkEvents, DirectClient.call]
    split_ifs
    · exact .nil _
    · exact .single ⟨h.idle henabled, rfl⟩
  | settled id times info error =>
    obtain ⟨outcome, houtcome⟩ := Option.ne_none_iff_exists'.1 henabled.2
    simp only [machine, apply, houtcome] at happly
    obtain rfl := Except.ok.inj happly
    exact .nil _
  | connect =>
    obtain rfl := Except.ok.inj happly
    exact .single (connect_step o codec w.network)
  | resetMetrics =>
    obtain rfl := Except.ok.inj happly
    exact .nil _
  | network e =>
    obtain ⟨network, hnetwork, rfl⟩ := apply_network happly
    refine .single ⟨?_, hnetwork⟩
    cases e with
    | begin | connect => exact henabled.elim
    | resume | connection | close => exact henabled

/-- A run of the client is, event by event, a run of its calls beside a run of its
connections. -/
structure Refines (o : DirectRpcClientOptions) (codec : RpcCodec) (options : RpcClientOptions)
    (now : ℤ) (es : List DirectEvent) (w : DirectClient) : Prop where
  client : RpcClient.machine.Run (.new options now)
    ((machine o codec).project clientEvents (start options now codec) es) w.client
  network : (ClientNetwork.machine o.common codec).Run (.init codec)
    ((machine o codec).project (networkEvents o) (start options now codec) es) w.network
  connections : ∀ c, ReachableWhen o.common.connectionOptions FreshId (w.network.connections c)

theorem direct_refines {options : RpcClientOptions} {now : ℤ} {es : List DirectEvent}
    (hnew : RpcCodec.new o.common.connectionOptions.codecOptions = .ok codec)
    (hrun : (machine o codec).Run (start options now codec) es w) :
    Refines o codec options now es w := by
  have hnetwork := (Wf.of_reachable ⟨es, hrun⟩).network
  refine ⟨?_, ?_, fun c =>
    ⟨codec, hnew, (ClientNetwork.NetworkWf.of_reachable hnetwork).fresh c⟩⟩
  · exact hrun.project DirectClient.client (I := fun _ => True) (fun _ _ _ _ _ => trivial)
      (fun _ _ _ _ hs => client_run hs) trivial
  · exact hrun.project DirectClient.network (I := Wf o codec) (fun _ _ _ h hs => h.step hs)
      (fun _ _ _ h hs => h.network_run hs) (wf_start options now)

theorem direct_refines_sampleReturned : Refines sampleDirectOptions sampleCodec ⟨none, none⟩ 0
    sampleAnswered (sampleReturned.get sampleReturned_isSome) :=
  direct_refines rfl (Machine.run_exec_get sampleReturned_isSome)

end DirectClient

end WeisleyRpc.Client
