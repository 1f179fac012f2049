import WeisleyRpc.FailoverResults
import WeisleyRpc.OpenBreaker

/-!
# The breaker and the failover loop

A client in discovery mode: `call` asks the breaker once and then awaits the loop of attempts,
whose outcome settles it. An attempt writes its request packet at some time before it ends.
-/

namespace WeisleyRpc.Discovery

structure FailoverClient where
  client : RpcClient
  discovery : DiscoveryClient

inductive FailoverEvent
  | call (id service method : String) (times : CallTimes) (warn : Option Thrown)
    (endpoints : List Endpoint) (random : Draw)
  | attempt (e : ClientEvent)
  | sent (id : String) (now : ℤ)
  | settled (id : String) (times : SettleTimes) (info error : Option Thrown)
  | resetMetrics

namespace FailoverClient
open DiscoveryClient (sampleEndpoints sampleOptions sampleDraw sampleError)

def start (options : RpcClientOptions) (now : ℤ) (loadBalancer : LoadBalancer) : FailoverClient :=
  ⟨.new options now, .start loadBalancer⟩

/-- What the loop of a call has come to. -/
def outcome (s : FailoverClient) (id : String) : Option (Except Thrown JsValue) :=
  match (s.discovery.calls.get id).bind fun call => call.phase.result with
  | some (.returned value) => some (.ok value)
  | some (.thrown error) => some (.error error)
  | none => none

def Enabled (s : FailoverClient) : FailoverEvent → Prop
  | .call id .. => s.client.calls.get id = none ∧ s.discovery.calls.get id = none
  | .attempt (.call ..) => False
  | .attempt e => s.discovery.Enabled e
  | .sent id _ => s.discovery.attemptingAt id ≠ none
  | .settled id .. => s.client.remoteCall id ≠ none ∧ s.outcome id ≠ none
  | .resetMetrics => True

instance (s : FailoverClient) (e : FailoverEvent) : Decidable (s.Enabled e) :=
  match e with
  | .call .. => inferInstanceAs (Decidable (_ ∧ _))
  | .attempt (.call ..) => inferInstanceAs (Decidable False)
  | .attempt (.succeeded id value) =>
    inferInstanceAs (Decidable (s.discovery.Enabled (.succeeded id value)))
  | .attempt (.failed id error retry) =>
    inferInstanceAs (Decidable (s.discovery.Enabled (.failed id error retry)))
  | .attempt (.woken id random) =>
    inferInstanceAs (Decidable (s.discovery.Enabled (.woken id random)))
  | .attempt (.setActiveCount ..) => inferInstanceAs (Decidable True)
  | .sent id _ => inferInstanceAs (Decidable (s.discovery.attemptingAt id ≠ none))
  | .settled .. => inferInstanceAs (Decidable (_ ∧ _))
  | .resetMetrics => inferInstanceAs (Decidable True)

/-- An admitted call enters the loop. -/
def call (retry : RetryOptions) (s : FailoverClient) (id service method : String)
    (times : CallTimes) (warn : Option Thrown) (endpoints : List Endpoint) (random : Draw) :
    FailoverClient :=
  let client := s.client.call id service method times warn
  if client.remoteCall id = none then { s with client }
  else
    { client
      discovery := s.discovery.callWithDiscoveryFailover retry id service method endpoints random }

def apply (retry : RetryOptions) (s : FailoverClient) : FailoverEvent → FailoverClient
  | .call id service method times warn endpoints random =>
    s.call retry id service method times warn endpoints random
  | .attempt e => { s with discovery := s.discovery.apply retry e }
  | .sent _ _ => s
  | .settled id times info error =>
    match s.outcome id with
    | some outcome => { s with client := s.client.apply (.settled id outcome times info error) }
    | none => s
  | .resetMetrics => { s with client := s.client.apply .resetMetrics }

def machine (retry : RetryOptions) : Machine FailoverClient FailoverEvent Empty where
  Enabled := Enabled
  apply s e := .ok (s.apply retry e)

instance (retry : RetryOptions) (s : FailoverClient) (e : FailoverEvent) :
    Decidable ((machine retry).Enabled s e) :=
  inferInstanceAs (Decidable (s.Enabled e))

/-- What the client is told by an event. -/
def clientEvent (s : FailoverClient) : FailoverEvent → Option RpcClientEvent
  | .call id service method times warn .. => some (.call id service method times warn)
  | .settled id times info error =>
    (s.outcome id).map fun outcome => .settled id outcome times info error
  | .resetMetrics => some .resetMetrics
  | .attempt _ | .sent .. => none

/-- No call under the key comes after the reset time of a breaker that opened at `t`, and no
success is recorded under the key. -/
def Quiet (key : String) (t : ℤ) (s : FailoverClient) (e : FailoverEvent) : Prop :=
  ∀ e', s.clientEvent e = some e' → s.client.Quiet key t e'

/-- The call `id` may write a request packet under the key. -/
def Sends (s : FailoverClient) (id key : String) : Prop :=
  ∃ call endpoint, s.discovery.attemptingAt id = some (call, endpoint) ∧
    getMethodKey call.serviceName call.method = key

variable {retry : RetryOptions} {s s' : FailoverClient} {e : FailoverEvent} {id key : String}
  {t : ℤ}

theorem client_step (hs : (machine retry).Step s e s') :
    s'.client = s.client ∨
      ∃ e', s.clientEvent e = some e' ∧ RpcClient.Effect s.client e' s'.client := by
  obtain ⟨henabled, happly⟩ := hs
  obtain rfl := Except.ok.inj happly
  cases e with
  | call id service method times warn endpoints random =>
    refine .inr ⟨_, rfl, ?_⟩
    have heffect : RpcClient.Effect s.client (.call id service method times warn)
        (s.client.call id service method times warn) :=
      RpcClient.step_effect ⟨henabled.1, rfl⟩
    simp only [apply, call]
    split_ifs
    · exact heffect
    · exact heffect
  | attempt e => exact .inl rfl
  | sent id now => exact .inl rfl
  | settled id times info error =>
    obtain ⟨outcome, houtcome⟩ := Option.ne_none_iff_exists'.1 henabled.2
    refine .inr ⟨.settled id outcome times info error, by rw [clientEvent, houtcome]; rfl, ?_⟩
    simp only [apply, houtcome]
    exact RpcClient.step_effect ⟨henabled.1, rfl⟩
  | resetMetrics => exact .inr ⟨_, rfl, .resetMetrics⟩

/-- A loop that has not ended belongs to a call whose remote call is under way. -/
def Linked (s : FailoverClient) : Prop :=
  ∀ id call, s.discovery.calls.get id = some call → call.phase.result = none →
    ∃ call', s.client.remoteCall id = some call' ∧
      call'.methodKey = getMethodKey call.serviceName call.method

theorem linked_start (options : RpcClientOptions) (now : ℤ) (loadBalancer : LoadBalancer) :
    (start options now loadBalancer).Linked := by
  intro id call hget
  cases hget

/-- An event of the loops opens no loop, and what it leaves unfinished was unfinished. -/
theorem unfinished_before {before : Option DiscoveryCall} {call' : DiscoveryCall}
    {e : ClientEvent} (hs : CallStep retry id e before (some call'))
    (hcall : ∀ service method endpoints random, e ≠ .call id service method endpoints random)
    (hresult : call'.phase.result = none) :
    ∃ call, before = some call ∧ call.phase.result = none ∧ call.Fixed call' := by
  cases hs with
  | other _ _ => exact ⟨call', rfl, hresult, rfl, rfl, rfl, rfl⟩
  | started random _ => exact absurd rfl (hcall _ _ _ random)
  | succeeded value _ => cases hresult
  | failed hphase hfailed => exact ⟨_, rfl, by rw [hphase]; rfl, hfailed.fixed⟩
  | woken random hphase hiterated => exact ⟨_, rfl, by rw [hphase]; rfl, hiterated.fixed⟩

theorem Linked.attempt (h : s.Linked) {e : ClientEvent}
    (hs : (machine retry).Step s (.attempt e) s') : s'.Linked := by
  obtain ⟨henabled, happly⟩ := hs
  obtain rfl := Except.ok.inj happly
  have hdiscovery : (DiscoveryClient.machine retry).Step s.discovery e
      (s.discovery.apply retry e) := by
    refine ⟨?_, rfl⟩
    cases e with
    | call => exact henabled.elim
    | succeeded | failed | woken | setActiveCount => exact henabled
  intro id call' hget hresult
  have hcall := DiscoveryClient.call_step hdiscovery id
  simp only [apply] at hget
  rw [hget] at hcall
  obtain ⟨call, hbefore, hunfinished, hfixed⟩ := unfinished_before hcall (by
    rintro service method endpoints random rfl
    exact henabled) hresult
  rw [hfixed.serviceName, hfixed.method]
  exact h id call hbefore hunfinished

theorem Linked.call (h : s.Linked) {id service method : String} {times : CallTimes}
    {warn : Option Thrown} {endpoints : List Endpoint} {random : Draw}
    (hs : (machine retry).Step s (.call id service method times warn endpoints random) s') :
    s'.Linked := by
  obtain ⟨⟨hnone, hnone'⟩, happly⟩ := hs
  obtain rfl := Except.ok.inj happly
  have heffect : RpcClient.Effect s.client (.call id service method times warn)
      (s.client.call id service method times warn) := RpcClient.step_effect ⟨hnone, rfl⟩
  have hother : ∀ id' call', s.client.remoteCall id' = some call' →
      (s.client.call id service method times warn).remoteCall id' = some call' :=
    fun id' call' hremote => RpcClient.remoteCall_step hremote heffect (by
      rintro outcome times info error h
      cases h)
  intro id' call' hget hresult
  simp only [apply, FailoverClient.call] at hget ⊢
  split_ifs at hget ⊢ with hadmitted
  · obtain ⟨call, hremote, hkey⟩ := h id' call' hget hresult
    exact ⟨call, hother id' call hremote, hkey⟩
  · have hdiscovery : (DiscoveryClient.machine retry).Step s.discovery
        (.call id service method endpoints random)
        (s.discovery.callWithDiscoveryFailover retry id service method endpoints random) :=
      ⟨hnone', rfl⟩
    have hcall := DiscoveryClient.call_step hdiscovery id'
    rw [hget] at hcall
    by_cases hid : id' = id
    · subst hid
      rw [hnone'] at hcall
      cases hcall with
      | started random hiterated =>
        obtain ⟨call, hremote⟩ := Option.ne_none_iff_exists'.1 hadmitted
        refine ⟨call, hremote, ?_⟩
        rw [hiterated.fixed.serviceName, hiterated.fixed.method]
        rw [RpcClient.call_eq] at hremote
        rcases RpcClient.remoteCall_begunBy hremote with hbefore | ⟨hkey, -⟩
        · rw [(RpcClient.remoteCall_eq_some_iff.1 hbefore).1] at hnone
          cases hnone
        · exact hkey
    · obtain ⟨call, hbefore, hunfinished, hfixed⟩ := unfinished_before hcall (by
        rintro service method endpoints random h
        exact hid (ClientEvent.call.inj h).1.symm) hresult
      rw [hfixed.serviceName, hfixed.method]
      obtain ⟨call, hremote, hkey⟩ := h id' call hbefore hunfinished
      exact ⟨call, hother id' call hremote, hkey⟩

theorem Linked.settled (h : s.Linked) {times : SettleTimes} {info error : Option Thrown}
    (hs : (machine retry).Step s (.settled id times info error) s') : s'.Linked := by
  have heffect := client_step hs
  obtain ⟨⟨-, houtcome⟩, happly⟩ := hs
  obtain rfl := Except.ok.inj happly
  obtain ⟨outcome, houtcome⟩ := Option.ne_none_iff_exists'.1 houtcome
  intro id' call hget hresult
  simp only [apply, houtcome] at hget heffect ⊢
  obtain ⟨call', hremote, hkey⟩ := h id' call hget hresult
  refine ⟨call', ?_, hkey⟩
  have hne : id' ≠ id := by
    rintro rfl
    rw [FailoverClient.outcome, hget, Option.bind_some, hresult] at houtcome
    cases houtcome
  rcases heffect with hsame | ⟨e', he', heffect⟩
  · rw [hsame]
    exact hremote
  · rw [clientEvent, houtcome] at he'
    obtain rfl := Option.some.inj he'
    refine RpcClient.remoteCall_step hremote heffect ?_
    rintro outcome' times' info' error' heq
    exact hne (RpcClientEvent.settled.inj heq).1.symm

theorem Linked.step (h : s.Linked) (hs : (machine retry).Step s e s') : s'.Linked := by
  cases e with
  | call id service method times warn endpoints random => exact h.call hs
  | attempt e => exact h.attempt hs
  | sent id now =>
    obtain rfl := Except.ok.inj hs.2
    exact h
  | settled id times info error => exact h.settled hs
  | resetMetrics =>
    obtain rfl := Except.ok.inj hs.2
    exact h

variable {options : RpcClientOptions} {now : ℤ} {loadBalancer : LoadBalancer}
  {events : List FailoverEvent}

theorem run_linked (hrun : (machine retry).Run (start options now loadBalancer) events s) :
    s.Linked :=
  hrun.invariant (fun _ _ _ h hs => h.step hs) (linked_start options now loadBalancer)

/-- What a quiet run after the opening keeps: the key is open, and what is under way under it
was under way before. -/
structure Held (key : String) (t : ℤ) (s₁ s₂ s : FailoverClient) : Prop where
  opened : s.client.OpenedAt key t
  earlier : ∀ id call, s.client.remoteCall id = some call → call.methodKey = key →
    s₁.client.remoteCall id = some call ∧ s₂.client.remoteCall id = some call

theorem Held.step {s₁ s₂ : FailoverClient} (h : Held key t s₁ s₂ s) (hquiet : Quiet key t s e)
    (hs : (machine retry).Step s e s') : Held key t s₁ s₂ s' := by
  rcases client_step hs with hsame | ⟨e', he', heffect⟩
  · refine ⟨?_, ?_⟩
    · rw [hsame]
      exact h.opened
    · rw [hsame]
      exact h.earlier
  · have hquiet' := hquiet e' he'
    refine ⟨h.opened.step heffect hquiet', ?_⟩
    intro id call hremote hkey
    exact h.earlier id call (h.opened.remote_step heffect hquiet' hremote hkey) hkey

/-- The step that opens a key leaves under way what was under way before. -/
theorem held_opening (hs : (machine retry).Step s e s') (hbefore : ¬ s.client.IsOpen key)
    (hafter : s'.client.OpenedAt key t) : Held key t s s' s' := by
  refine ⟨hafter, ?_⟩
  intro id call hremote _
  refine ⟨?_, hremote⟩
  rcases client_step hs with hsame | ⟨e', -, heffect⟩
  · rw [hsame] at hremote
    exact hremote
  · obtain ⟨b, hb, hopen, -⟩ := hafter
    exact RpcClient.remote_of_opens hbefore heffect ⟨b, hb, hopen⟩ hremote

/-- From the opening of a key on, until the reset time has passed or a success is recorded, no
new call is admitted, and only a call that is under way since before the opening sends. -/
theorem open_breaker_admits_nothing {s₁ s₂ : FailoverClient} {events' : List FailoverEvent}
    (hrun : (machine retry).Run (start options now loadBalancer) events s₁)
    (hopens : (machine retry).Step s₁ e s₂) (hbefore : ¬ s₁.client.IsOpen key)
    (hafter : s₂.client.OpenedAt key t)
    (hquiet : ((machine retry).guard (Quiet key t)).Run s₂ events' s) :
    (∀ askedAt, (∀ b, s.client.circuitBreaker = some b → askedAt - t < b.resetTimeoutMs) →
      (s.client.canRequest key askedAt).1 = false) ∧
    (∀ id, s.Sends id key → ∃ call, call.methodKey = key ∧
      s₁.client.remoteCall id = some call ∧ s₂.client.remoteCall id = some call) ∧
    ((∀ id call, s₂.client.remoteCall id = some call → call.methodKey ≠ key) →
      ∀ id, ¬ s.Sends id key) := by
  have hheld : Held key t s₁ s₂ s := by
    refine hquiet.invariant ?_ (held_opening hopens hbefore hafter)
    intro s e s' h hs
    obtain ⟨hquiet, hs⟩ := Machine.guard_step.1 hs
    exact h.step hquiet hs
  have hlinked : s.Linked :=
    hquiet.unguard.invariant (fun _ _ _ h hs => h.step hs) ((run_linked hrun).step hopens)
  have hsends : ∀ id, s.Sends id key → ∃ call, call.methodKey = key ∧
      s₁.client.remoteCall id = some call ∧ s₂.client.remoteCall id = some call := by
    rintro id ⟨call, endpoint, hat, hkey⟩
    obtain ⟨hget, hphase⟩ := DiscoveryClient.attemptingAt_eq_some hat
    obtain ⟨call', hremote, hkey'⟩ := hlinked id call hget (by rw [hphase]; rfl)
    exact ⟨call', hkey'.trans hkey, hheld.earlier id call' hremote (hkey'.trans hkey)⟩
  refine ⟨fun askedAt => hheld.opened.canRequest, hsends, ?_⟩
  intro hnone id hsend
  obtain ⟨call, hkey, -, hremote⟩ := hsends id hsend
  exact hnone id call hremote hkey

def entryOf (s : FailoverClient) (key : String) : Option (CircuitBreakerState × Option ℤ) :=
  s.client.circuitBreaker.map fun b => ((b.entry key).state, (b.entry key).openedAt)

theorem openedAt_of_entryOf (h : s.entryOf key = some (.opened, some t)) :
    s.client.OpenedAt key t := by
  obtain ⟨b, hb, hparts⟩ := Option.map_eq_some_iff.1 h
  obtain ⟨hopen, hat⟩ := Prod.mk.inj hparts
  exact ⟨b, hb, hopen, hat⟩

theorem not_isOpen_of_entryOf (h : s.entryOf key = some (.closed, none)) :
    ¬ s.client.IsOpen key := by
  rintro ⟨b, hb, hopen⟩
  rw [entryOf, hb] at h
  obtain ⟨hclosed, -⟩ := Prod.mk.inj (Option.some.inj h)
  rw [hopen] at hclosed
  cases hclosed

def sampleClient : FailoverClient := start ⟨some ⟨1, 100⟩, none⟩ 0 (.roundRobin ⟨.empty⟩)

def sampleKey : String := getMethodKey "UserService" "getUser"

/-- Two calls of one method, one of which fails. -/
def sampleCalls : List FailoverEvent :=
  [.call "1" "UserService" "getUser" ⟨0, 0, 0⟩ none sampleEndpoints sampleDraw,
    .call "2" "UserService" "getUser" ⟨1, 1, 1⟩ none sampleEndpoints sampleDraw,
    .attempt (.failed "2" sampleError false)]

/-- The other call goes on to its next attempt. -/
def sampleFailover : List ClientEvent := [.failed "1" sampleError true, .woken "1" sampleDraw]

def sampleSettled : FailoverEvent := .settled "2" ⟨5, 5, 5⟩ none none

/-- What the sample run shows before the opening, behind it, and when the other call is at its
next attempt. -/
structure Opening where
  enabled : Bool
  before : Option (CircuitBreakerState × Option ℤ)
  after : Option (CircuitBreakerState × Option ℤ)
  attempting : Option (Option String)
  resetTimeoutMs : Option (Option ℤ)
  deriving DecidableEq

def opening (s : FailoverClient) : Opening :=
  let opened := s.apply sampleOptions sampleSettled
  let next := (machine sampleOptions).exec opened (sampleFailover.map FailoverEvent.attempt)
  { enabled := decide (s.Enabled sampleSettled)
    before := s.entryOf sampleKey
    after := opened.entryOf sampleKey
    attempting := next.map fun s => (s.discovery.attemptingAt "1").map fun sent =>
      getMethodKey sent.1.serviceName sent.1.method
    resetTimeoutMs := next.map fun s => s.client.circuitBreaker.map CircuitBreaker.resetTimeoutMs }

/-- The breaker opens at `5` and is still open when the second attempt of the call `1` is sent. -/
theorem sample_opening : ∃ s₁ s₂ s : FailoverClient,
    (machine sampleOptions).Run sampleClient sampleCalls s₁ ∧
    (machine sampleOptions).Step s₁ sampleSettled s₂ ∧
    ¬ s₁.client.IsOpen sampleKey ∧ s₂.client.OpenedAt sampleKey 5 ∧
    ((machine sampleOptions).guard (Quiet sampleKey 5)).Run s₂
      (sampleFailover.map FailoverEvent.attempt) s ∧
    s.Sends "1" sampleKey ∧
    s.client.circuitBreaker.map CircuitBreaker.resetTimeoutMs = some 100 := by
  have hsample : ((machine sampleOptions).exec sampleClient sampleCalls).map opening =
      some ⟨true, some (.closed, none), some (.opened, some 5), some (some sampleKey),
        some (some 100)⟩ := by
    decide +kernel
  obtain ⟨s₁, hexec, hparts⟩ := Option.map_eq_some_iff.1 hsample
  simp only [opening, Opening.mk.injEq, decide_eq_true_eq] at hparts
  obtain ⟨henabled, hbefore, hafter, hattempting, hreset⟩ := hparts
  obtain ⟨s, hexec', hsent⟩ := Option.map_eq_some_iff.1 hattempting
  obtain ⟨⟨call, endpoint⟩, hat, hkey⟩ := Option.map_eq_some_iff.1 hsent
  rw [hexec'] at hreset
  have hquiet : ∀ e ∈ sampleFailover.map FailoverEvent.attempt,
      ∀ s, Quiet sampleKey 5 s e := by
    intro e he s e' he'
    obtain ⟨attempt, -, rfl⟩ := List.mem_map.1 he
    cases he'
  exact ⟨s₁, _, s, Machine.run_of_exec hexec, ⟨henabled, rfl⟩, not_isOpen_of_entryOf hbefore,
    openedAt_of_entryOf hafter,
    ((Machine.run_of_exec hexec').guard_of_mem hquiet).guard_mono fun s e h => h s,
    ⟨call, endpoint, hat, hkey⟩, Option.some.inj hreset⟩

theorem sample_call_is_earlier : ∃ s₁ s : FailoverClient, s.Sends "1" sampleKey ∧
    (s.client.canRequest sampleKey 6).1 = false ∧ s₁.client.remoteCall "1" ≠ none := by
  obtain ⟨s₁, s₂, s, hrun, hopens, hbefore, hafter, hquiet, hsends, hreset⟩ := sample_opening
  obtain ⟨hrefused, hearlier, -⟩ :=
    open_breaker_admits_nothing hrun hopens hbefore hafter hquiet
  obtain ⟨call, -, hremote, -⟩ := hearlier "1" hsends
  refine ⟨s₁, s, hsends, hrefused 6 ?_, by rw [hremote]; exact Option.some_ne_none call⟩
  intro b hb
  rw [hb] at hreset
  rw [Option.some.inj hreset]
  decide

/-- The breaker is open, and a call that was admitted before sends its next attempt. -/
theorem attempt_sent_while_open : ¬ ∀ (retry : RetryOptions) (options : RpcClientOptions)
    (now t : ℤ) (loadBalancer : LoadBalancer) (key id : String) (sentAt : ℤ)
    (events events' : List FailoverEvent) (e : FailoverEvent) (s₁ s₂ s s' : FailoverClient),
    (machine retry).Run (start options now loadBalancer) events s₁ →
      (machine retry).Step s₁ e s₂ → ¬ s₁.client.IsOpen key → s₂.client.OpenedAt key t →
      ((machine retry).guard (Quiet key t)).Run s₂ events' s →
      t ≤ sentAt → (∀ b, s.client.circuitBreaker = some b → sentAt - t < b.resetTimeoutMs) →
      (machine retry).Step s (.sent id sentAt) s' → ¬ s.Sends id key := by
  intro h
  obtain ⟨s₁, s₂, s, hrun, hopens, hbefore, hafter, hquiet, hsends, hreset⟩ := sample_opening
  refine h _ _ _ _ _ _ "1" 6 _ _ _ _ _ _ s hrun hopens hbefore hafter hquiet (by decide) ?_ ?_
    hsends
  · intro b hb
    rw [hb] at hreset
    rw [Option.some.inj hreset]
    decide
  · obtain ⟨call, endpoint, hat, -⟩ := hsends
    refine ⟨?_, rfl⟩
    change s.discovery.attemptingAt "1" ≠ none
    rw [hat]
    exact Option.some_ne_none (call, endpoint)

end FailoverClient

end WeisleyRpc.Discovery
