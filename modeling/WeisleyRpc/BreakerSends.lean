import WeisleyRpc.NetworkedResults

/-!
# The breaker over the network

An attempt sends while its loop awaits it, and such a loop belongs to a call that is under way.
So behind the opening of a key the packets under this key are those of the calls that were under
way before.
-/

namespace WeisleyRpc.Client.ClientNetwork
variable {o : CommonRpcClientOptions} {codec : RpcCodec} {u w w' : ClientNetwork}

theorem SendTurn.transmissions {attempt : CallAttempt} {c : ConnectionId}
    (turn : SendTurn codec w attempt c u) {x : Transmission} (hx : x ∈ u.transmissions) :
    x ∈ w.transmissions ∨ x.request = attempt.request := by
  cases turn with
  | unencoded threw => exact Or.inl hx
  | refused encoded refusal => exact Or.inl hx
  | accepted encoded accepts =>
    refine (List.mem_append.mp hx).imp_right fun hnew => ?_
    rw [List.mem_singleton.mp hnew]

/-- A send is new behind the beginning of its attempt, or when the attempt has been connected. -/
theorem transmissions_step {e : NetworkEvent} (hs : (machine o codec).Step w e w')
    (hw : NetworkWf o codec w) {x : Transmission} (hx : x ∈ w'.transmissions) :
    x ∈ w.transmissions ∨ (∃ host port, e = .begin x.request host port) ∨
      e = .resume x.request.id ∧ ∃ a, w.attempts.get x.request.id = some a ∧ a.over = false := by
  cases networkStep_of_step hs with
  | unconnected _ pooled _ => exact Or.inl (pooled.transmissions ▸ hx)
  | connecting _ pooled _ _ => exact Or.inl (pooled.transmissions ▸ hx)
  | @sending request host port v u c _ pooled _ _ turn =>
    rcases turn.transmissions hx with hold | hnew
    · exact Or.inl (pooled.transmissions ▸ hold)
    · exact Or.inr (Or.inl ⟨host, port, by rw [hnew]⟩)
  | unreached _ _ _ => exact Or.inl hx
  | @connected id attempt c n u current phase _ turn =>
    rcases turn.transmissions hx with hold | hnew
    · exact Or.inl hold
    · have hid : x.request.id = id := by rw [hnew, hw.named id attempt current]
      refine Or.inr (Or.inr ⟨by rw [hid], attempt, by rw [hid, current], ?_⟩)
      simp only [CallAttempt.over, phase]
  | answered _ _ _ => exact Or.inl hx
  | connection _ _ _ => exact Or.inl hx
  | unpooled pooled => exact Or.inl (pooled.transmissions ▸ hx)
  | connect pooled _ => exact Or.inl (pooled.transmissions ▸ hx)
  | close => exact Or.inl hx

end WeisleyRpc.Client.ClientNetwork

namespace WeisleyRpc.Discovery
open Client (ClientNetwork NetworkEvent CommonRpcClientOptions CallAttempt Transmission
  getEndpointKey)

namespace FailoverClient
variable {s s' : FailoverClient} {id : String}

theorem Linked.uncaught (h : s.Linked) {e : JsError} {call : DiscoveryCall} {endpoint : Endpoint}
    (hat : s.discovery.attemptingAt id = some (call, endpoint)) :
    Linked { s with discovery := s.discovery.uncaught id e } := by
  intro id' call' hget hresult
  simp only [NetworkedClient.get_uncaught hat] at hget
  split_ifs at hget with hid
  · obtain rfl := Option.some.inj hget
    cases hresult
  · exact h id' call' hget hresult

end FailoverClient

namespace NetworkedClient
open Client.ClientNetwork (sampleClientOptions sampleConnection sampleConnected)
open DiscoveryClient (sampleOptions sampleDraw)
variable {o : CommonRpcClientOptions} {codec : RpcCodec} {options : RetryOptions}
  {v w w' : NetworkedClient} {e : NetworkedEvent} {id key : String} {t : ℤ} {x : Transmission}

theorem linked_of_part (h : w.failover.Linked) {s : FailoverClient}
    (hpart : FailoverPart options w e s) : s.Linked := by
  cases hpart with
  | same => exact h
  | step hs _ => exact h.step hs
  | uncaught attempting _ _ =>
    obtain ⟨call, endpoint, hat, -, -⟩ := DiscoveryClient.attemptingAt_ne_none attempting
    exact h.uncaught hat

theorem startAttempt_transmissions (hx : x ∈ (v.startAttempt o codec id).network.transmissions)
    (hw : Client.ClientNetwork.NetworkWf o codec v.network)
    (hidle : ∀ request, v.requests.get id = some request →
      request.id = id ∧ v.network.Idle request.id) :
    x ∈ v.network.transmissions ∨
      x.request.id = id ∧ v.failover.discovery.attemptingAt id ≠ none := by
  unfold startAttempt at hx
  split at hx
  · rename_i call endpoint request hat hrequest
    obtain ⟨hid, hidle⟩ := hidle request hrequest
    have hstep : (ClientNetwork.machine o codec).Step v.network
        (.begin request endpoint.host endpoint.port)
        (v.network.begin o codec request endpoint.host endpoint.port) := ⟨hidle, rfl⟩
    rcases ClientNetwork.transmissions_step hstep hw hx with hold | ⟨host, port, hbegin⟩ | ⟨he, -⟩
    · exact Or.inl hold
    · obtain ⟨hrequest', -, -⟩ := NetworkEvent.begin.inj hbegin
      refine Or.inr ⟨hrequest' ▸ hid, ?_⟩
      rw [hat]
      exact Option.some_ne_none _
    · cases he
  · exact Or.inl hx

/-- What is sent is sent while the loop of the call awaits its attempt. -/
theorem Wf.sends_attempting (h : Wf o codec options w)
    (hs : (machine o codec options).Step w e w') (hx : x ∈ w'.network.transmissions) :
    x ∈ w.network.transmissions ∨ w'.failover.discovery.attemptingAt x.request.id ≠ none := by
  have hw := Client.ClientNetwork.NetworkWf.of_reachable h.network
  have hwf := h.step hs
  obtain ⟨henabled, happly⟩ := hs
  cases e with
  | call request times warn endpoints random =>
    obtain rfl := Except.ok.inj happly
    rw [startAttempt_failover]
    refine (startAttempt_transmissions hx hw fun request' hget => ?_).imp_right ?_
    · rw [OrderedMap.get_set, if_pos rfl] at hget
      obtain rfl := Option.some.inj hget
      exact ⟨rfl, h.coupled.idle_of_none henabled.2⟩
    · rintro ⟨hid, hat⟩
      exact hid ▸ hat
  | woken id random =>
    obtain rfl := Except.ok.inj happly
    rw [startAttempt_failover]
    obtain ⟨call, backoffMs, -, hloop, hphase⟩ := DiscoveryClient.sleepingCall_ne_none henabled
    refine (startAttempt_transmissions hx hw fun request hget => ?_).imp_right ?_
    · have hid := h.coupled.named id request hget
      rw [hid]
      refine ⟨rfl, h.coupled.idle_of_rest hloop fun endpoint hp => ?_⟩
      rw [hphase] at hp
      cases hp
    · rintro ⟨hid, hat⟩
      exact hid ▸ hat
  | finished id retry =>
    obtain rfl := Except.ok.inj happly
    refine Or.inl ?_
    unfold NetworkedClient.finished at hx
    repeat' split at hx
    all_goals exact hx
  | settled id times info error =>
    obtain rfl := Except.ok.inj happly
    exact Or.inl hx
  | setActiveCount endpoint count =>
    obtain rfl := Except.ok.inj happly
    exact Or.inl hx
  | resetMetrics =>
    obtain rfl := Except.ok.inj happly
    exact Or.inl hx
  | network e =>
    obtain ⟨network, hnetwork, rfl⟩ := apply_network happly
    have hstep : (ClientNetwork.machine o codec).Step w.network e network := by
      refine ⟨?_, hnetwork⟩
      cases e with
      | begin | connect => exact henabled.elim
      | resume | connection | close => exact henabled
    rcases ClientNetwork.transmissions_step hstep hw hx with hold | ⟨host, port, rfl⟩ |
      ⟨-, a, ha, hover⟩
    · exact Or.inl hold
    · exact henabled.elim
    · refine Or.inr ?_
      cases hget : w.loopOf x.request.id with
      | none =>
        have hidle := h.coupled.idle_of_none hget a ha
        rw [hidle] at hover
        cases hover
      | some loop =>
        by_contra hno
        have hidle := h.coupled.idle_of_rest hget (fun endpoint hphase => ?_) a ha
        · rw [hidle] at hover
          cases hover
        · rw [attemptingAt_of_phase hget hphase] at hno
          cases hno

/-- What the failover part is told by an event, if it is the client that answers it. -/
def clientEvent (w : NetworkedClient) : NetworkedEvent → Option RpcClientEvent
  | .call request times warn _ _ =>
    some (.call request.id request.service request.method times warn)
  | .settled id times info error =>
    (w.failover.outcome id).map fun outcome => .settled id outcome times info error
  | .resetMetrics => some .resetMetrics
  | .woken _ _ | .finished _ _ | .setActiveCount _ _ | .network _ => none

/-- No call under the key comes after the reset time of a breaker that opened at `t`, and no
success is recorded under the key. -/
def Quiet (key : String) (t : ℤ) (w : NetworkedClient) (e : NetworkedEvent) : Prop :=
  ∀ e', w.clientEvent e = some e' → w.failover.client.Quiet key t e'

theorem client_step (hs : (machine o codec options).Step w e w') :
    w'.failover.client = w.failover.client ∨ ∃ e', w.clientEvent e = some e' ∧
      RpcClient.Effect w.failover.client e' w'.failover.client := by
  obtain ⟨henabled, happly⟩ := hs
  cases e with
  | call request times warn endpoints random =>
    obtain rfl := Except.ok.inj happly
    rw [startAttempt_failover]
    have hstep : (FailoverClient.machine options).Step w.failover
        (.call request.id request.service request.method times warn endpoints random)
        (w.failover.apply options
          (.call request.id request.service request.method times warn endpoints random)) :=
      ⟨henabled, rfl⟩
    exact FailoverClient.client_step hstep
  | woken id random =>
    obtain rfl := Except.ok.inj happly
    rw [startAttempt_failover]
    exact Or.inl rfl
  | finished id retry =>
    obtain rfl := Except.ok.inj happly
    refine Or.inl ?_
    unfold NetworkedClient.finished
    repeat' split
    all_goals rfl
  | settled id times info error =>
    obtain rfl := Except.ok.inj happly
    have hstep : (FailoverClient.machine options).Step w.failover (.settled id times info error)
        (w.failover.apply options (.settled id times info error)) := ⟨henabled, rfl⟩
    exact FailoverClient.client_step hstep
  | setActiveCount endpoint count =>
    obtain rfl := Except.ok.inj happly
    exact Or.inl rfl
  | resetMetrics =>
    obtain rfl := Except.ok.inj happly
    exact Or.inr ⟨_, rfl, .resetMetrics⟩
  | network e =>
    obtain ⟨network, -, rfl⟩ := apply_network happly
    exact Or.inl rfl

/-- What a quiet run after the opening keeps: the key is open, what is under way under it was
under way before, and so was the call of whatever has been sent under it. -/
structure Held (o : CommonRpcClientOptions) (codec : RpcCodec) (options : RetryOptions)
    (key : String) (t : ℤ) (w₁ w₂ w : NetworkedClient) : Prop where
  wf : Wf o codec options w
  linked : w.failover.Linked
  held : FailoverClient.Held key t w₁.failover w₂.failover w.failover
  earlier : ∀ x ∈ w.network.transmissions,
    getMethodKey x.request.service x.request.method = key → x ∈ w₂.network.transmissions ∨
      ∃ call, call.methodKey = key ∧ w₁.failover.client.remoteCall x.request.id = some call ∧
        w₂.failover.client.remoteCall x.request.id = some call

theorem held_client {s₁ s₂ s : FailoverClient} (h : FailoverClient.Held key t s₁ s₂ w.failover)
    (hquiet : Quiet key t w e)
    (hs : s.client = w.failover.client ∨ ∃ e', w.clientEvent e = some e' ∧
      RpcClient.Effect w.failover.client e' s.client) : FailoverClient.Held key t s₁ s₂ s := by
  rcases hs with hsame | ⟨e', he', heffect⟩
  · exact ⟨hsame ▸ h.opened, hsame ▸ h.earlier⟩
  · have hquiet' := hquiet e' he'
    refine ⟨h.opened.step heffect hquiet', fun id call hremote hkey => ?_⟩
    exact h.earlier id call (h.opened.remote_step heffect hquiet' hremote hkey) hkey

theorem Held.step {w₁ w₂ : NetworkedClient} (h : Held o codec options key t w₁ w₂ w)
    (hquiet : Quiet key t w e) (hs : (machine o codec options).Step w e w') :
    Held o codec options key t w₁ w₂ w' := by
  have hwf := h.wf.step hs
  have hlinked := linked_of_part h.linked (failover_step hs)
  have hheld := held_client h.held hquiet (client_step hs)
  refine ⟨hwf, hlinked, hheld, fun x hx hkey => ?_⟩
  rcases h.wf.sends_attempting hs hx with hold | hat
  · exact h.earlier x hold hkey
  · obtain ⟨loop, endpoint, -, hget, hphase⟩ := DiscoveryClient.attemptingAt_ne_none hat
    obtain ⟨loop', endpoint', hget', howned⟩ := hwf.ownedBy hx
    obtain rfl := Option.some.inj (hget.symm.trans hget')
    obtain ⟨call, hremote, hcall⟩ := hlinked x.request.id loop hget (by rw [hphase]; rfl)
    rw [howned.service, howned.method, hkey] at hcall
    obtain ⟨hbefore, hafter⟩ := hheld.earlier x.request.id call hremote hcall
    exact Or.inr ⟨call, hcall, hbefore, hafter⟩

theorem held_opening {w₁ w₂ : NetworkedClient} (hwf : Wf o codec options w₂)
    (hlinked : w₂.failover.Linked) (hs : (machine o codec options).Step w₁ e w₂)
    (hbefore : ¬ w₁.failover.client.IsOpen key) (hafter : w₂.failover.client.OpenedAt key t) :
    Held o codec options key t w₁ w₂ w₂ := by
  refine ⟨hwf, hlinked, ⟨hafter, fun id call hremote _ => ⟨?_, hremote⟩⟩,
    fun x hx _ => Or.inl hx⟩
  rcases client_step hs with hsame | ⟨e', -, heffect⟩
  · rwa [hsame] at hremote
  · obtain ⟨b, hb, hopen, -⟩ := hafter
    exact RpcClient.remote_of_opens hbefore heffect ⟨b, hb, hopen⟩ hremote

/-- From the opening of a key on, until the reset time has passed or a success is recorded, every
send that a connection accepts under the key is of a call that was under way at the opening. -/
theorem open_breaker_stops_sends {clientOptions : RpcClientOptions} {now : ℤ}
    {loadBalancer : LoadBalancer} {w₁ w₂ : NetworkedClient} {events : List NetworkedEvent}
    (hrun : (machine o codec options).Reachable (start clientOptions now loadBalancer codec) w₁)
    (hopens : (machine o codec options).Step w₁ e w₂)
    (hbefore : ¬ w₁.failover.client.IsOpen key) (hafter : w₂.failover.client.OpenedAt key t)
    (hquiet : ((machine o codec options).guard (Quiet key t)).Run w₂ events w)
    (hx : x ∈ w.network.transmissions)
    (hkey : getMethodKey x.request.service x.request.method = key) :
    x ∈ w₂.network.transmissions ∨
      ∃ call, call.methodKey = key ∧ w₁.failover.client.remoteCall x.request.id = some call ∧
        w₂.failover.client.remoteCall x.request.id = some call := by
  have hlinked : w₂.failover.Linked :=
    (hrun.snoc hopens).invariant (fun _ _ _ h hs => linked_of_part h (failover_step hs))
      (FailoverClient.linked_start clientOptions now loadBalancer)
  have hheld : Held o codec options key t w₁ w₂ w := by
    refine hquiet.invariant (fun s e s' h hs => ?_)
      (held_opening (Wf.of_reachable (hrun.snoc hopens)) hlinked hopens hbefore hafter)
    obtain ⟨hquiet, hs⟩ := Machine.guard_step.mp hs
    exact h.step hquiet hs
  exact hheld.earlier x hx hkey

/-- The connection of the second call. -/
def sampleRefused : Client.ConnectionId := ⟨getEndpointKey "127.0.0.1" 4001, 0⟩

/-- Two calls of one method, one of which finds nobody at its address. -/
def sampleFailing : List NetworkedEvent :=
  [.call ⟨"1", "s", "m", [], none⟩ ⟨0, 0, 0⟩ none [⟨"127.0.0.1", 4000, none⟩] sampleDraw,
    .call ⟨"2", "s", "m", [], none⟩ ⟨1, 1, 1⟩ none [⟨"127.0.0.1", 4001, none⟩] sampleDraw] ++
  ([.connection sampleRefused (.socketError 0 (.platform "Error" "refused")),
    .connection sampleRefused (.microtask 0), .connection sampleRefused (.microtask 0),
    .connection sampleRefused (.microtask 0), .resume "2"] : List NetworkEvent).map .network ++
  [.finished "2" false]

def sampleFailed : Option NetworkedClient :=
  (machine sampleClientOptions sampleCodec sampleOptions).exec
    (start ⟨some ⟨1, 100⟩, none⟩ 0 (.roundRobin ⟨.empty⟩) sampleCodec) sampleFailing

theorem sampleFailed_isSome : sampleFailed.isSome := by decide +kernel

/-- The settlement of the second call opens the breaker. -/
def sampleOpened : NetworkedClient :=
  { sampleFailed.get sampleFailed_isSome with
    failover := (sampleFailed.get sampleFailed_isSome).failover.apply sampleOptions
      (.settled "2" ⟨5, 5, 5⟩ none none) }

/-- The first call is connected, and sends. -/
def sampleLate : Option NetworkedClient :=
  (machine sampleClientOptions sampleCodec sampleOptions).exec sampleOpened
    (sampleConnected.tail.map .network)

theorem sampleLate_isSome : sampleLate.isSome := by decide +kernel

theorem open_breaker_stops_sends_sampleLate : ∃ call, call.methodKey = getMethodKey "s" "m" ∧
    (sampleFailed.get sampleFailed_isSome).failover.client.remoteCall "1" = some call ∧
      sampleOpened.failover.client.remoteCall "1" = some call := by
  have hopens : (machine sampleClientOptions sampleCodec sampleOptions).Step
      (sampleFailed.get sampleFailed_isSome) (.settled "2" ⟨5, 5, 5⟩ none none) sampleOpened :=
    ⟨by decide +kernel, rfl⟩
  have hquiet : ∀ e ∈ sampleConnected.tail.map NetworkedEvent.network,
      ∀ w, Quiet (getMethodKey "s" "m") 5 w e := by
    intro e he w e' he'
    obtain ⟨_, -, rfl⟩ := List.mem_map.mp he
    cases he'
  have hsent := open_breaker_stops_sends (x := ⟨⟨"1", "s", "m", [], none⟩, sampleConnection, 0, 0⟩)
    ⟨_, Machine.run_exec_get sampleFailed_isSome⟩ hopens
    (FailoverClient.not_isOpen_of_entryOf (by decide +kernel))
    (FailoverClient.openedAt_of_entryOf (by decide +kernel))
    (((Machine.run_exec_get sampleLate_isSome).guard_of_mem hquiet).guard_mono fun s e h => h s)
    (by decide +kernel) rfl
  exact hsent.resolve_left (by decide +kernel)

end NetworkedClient

end WeisleyRpc.Discovery
