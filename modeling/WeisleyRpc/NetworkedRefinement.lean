import WeisleyRpc.NetworkedResults

/-!
# The failover loop over its connections

With a limit that allows a connection, and a codec that can be made, every attempt gets one.
Then nothing leaves a loop from outside, and a run of the composed client is a run of the
failover loop beside a run of the connections.
-/

namespace WeisleyRpc.Client.ClientNetwork
variable {o : CommonRpcClientOptions} {codec : RpcCodec} {w w' : ClientNetwork}

/-- Every attempt has got a connection. -/
def Provided (w : ClientNetwork) : Prop :=
  ∀ id attempt e, w.attempts.get id = some attempt → attempt.phase ≠ .unconnected e

theorem Provided.set (h : w.Provided) (id : String) (attempt : CallAttempt)
    (hphase : ∀ e, attempt.phase ≠ .unconnected e)
    (hattempts : w'.attempts = w.attempts.set id attempt) : w'.Provided := by
  intro id' attempt' e hget
  rw [hattempts, OrderedMap.get_set] at hget
  split_ifs at hget with hid
  · obtain rfl := Option.some.inj hget
    exact hphase e
  · exact h id' attempt' e hget

theorem Provided.step (h : w.Provided) (hpools : PoolsWf o w)
    (hlimit : o.poolOptions.maxConnections.exceeds 0 = true)
    (hnew : RpcCodec.new o.connectionOptions.codecOptions = .ok codec) {e : NetworkEvent}
    (hs : (machine o codec).Step w e w') : w'.Provided := by
  cases networkStep_of_step hs with
  | unconnected _ _ threw =>
    obtain ⟨c, hc⟩ := hpools.getConnection_ok hlimit hnew _ _
    rw [hc] at threw
    cases threw
  | @connecting request host port v c _ pooled _ _ =>
    refine h.set request.id ⟨request, host, port, .connecting c v.nextConnect⟩
      (fun _ he => by cases he) ?_
    rw [← pooled.attempts]
    rfl
  | @sending request host port v u c _ pooled _ _ turn =>
    obtain ⟨-, phase, hphase, hattempts⟩ := turn.attempts
    refine h.set request.id ⟨request, host, port, phase⟩ hphase (hattempts.trans ?_)
    rw [← pooled.attempts]
    rfl
  | unreached _ _ _ => exact h.set _ _ (fun _ he => by cases he) rfl
  | @connected id attempt c n u _ _ _ turn =>
    obtain ⟨-, phase, hphase, hattempts⟩ := turn.attempts
    exact h.set attempt.request.id { attempt with phase := phase } hphase hattempts
  | answered _ _ _ => exact h.set _ _ (fun _ he => by cases he) rfl
  | connection _ _ _ => exact h
  | unpooled pooled =>
    intro id attempt e hget
    exact h id attempt e (pooled.attempts ▸ hget)
  | connect pooled _ =>
    intro id attempt e hget
    refine h id attempt e ?_
    rw [← pooled.attempts]
    exact hget
  | close => exact h

end WeisleyRpc.Client.ClientNetwork

namespace WeisleyRpc.Discovery
open Client (ClientNetwork NetworkEvent CommonRpcClientOptions CallAttempt)

namespace NetworkedClient
open Client.ClientNetwork (sampleClientOptions)
open DiscoveryClient (sampleOptions)
variable {o : CommonRpcClientOptions} {codec : RpcCodec} {options : RetryOptions}
  {w w' : NetworkedClient} {e : NetworkedEvent} {id : String}

/-- The network part stays provided. -/
structure Supplied (o : CommonRpcClientOptions) (codec : RpcCodec) (options : RetryOptions)
    (w : NetworkedClient) : Prop where
  wf : Wf o codec options w
  provided : w.network.Provided

theorem Supplied.step (h : Supplied o codec options w)
    (hlimit : o.poolOptions.maxConnections.exceeds 0 = true)
    (hnew : RpcCodec.new o.connectionOptions.codecOptions = .ok codec)
    (hs : (machine o codec options).Step w e w') : Supplied o codec options w' := by
  refine ⟨h.wf.step hs, ?_⟩
  rcases network_step h.wf.coupled hs with ⟨-, hsame⟩ | ⟨e', -, -, hstep⟩
  · rw [hsame]
    exact h.provided
  · exact h.provided.step (.of_reachable h.wf.network) hlimit hnew hstep

theorem Supplied.failover_run (h : Supplied o codec options w)
    (hs : (machine o codec options).Step w e w') :
    (FailoverClient.machine options).Run w.failover (failoverEvents w e) w'.failover := by
  have hpart := failover_step hs
  generalize w'.failover = s at hpart
  cases hpart with
  | same quiet =>
    rw [quiet]
    exact .nil _
  | step moves _ event =>
    rw [event]
    exact .single moves
  | uncaught _ current phase => exact absurd phase (h.provided _ _ _ current)

theorem Supplied.network_run (h : Supplied o codec options w)
    (hs : (machine o codec options).Step w e w') :
    (ClientNetwork.machine o codec).Run w.network (networkEvents options w e) w'.network := by
  rcases network_step h.wf.coupled hs with ⟨hquiet, hsame⟩ | ⟨e', hevent, -, hstep⟩
  · rw [hquiet, hsame]
    exact .nil _
  · rw [hevent]
    exact .single hstep

/-- A run of the composed client is, event by event, a run of the failover loop beside a run of
the connections, each of which runs as a connection whose ids are fresh. -/
structure Refines (o : CommonRpcClientOptions) (codec : RpcCodec) (options : RetryOptions)
    (clientOptions : RpcClientOptions) (now : ℤ) (loadBalancer : LoadBalancer)
    (es : List NetworkedEvent) (w : NetworkedClient) : Prop where
  failover : (FailoverClient.machine options).Run (.start clientOptions now loadBalancer)
    ((machine o codec options).project failoverEvents (start clientOptions now loadBalancer codec)
      es) w.failover
  network : (ClientNetwork.machine o codec).Run (.init codec)
    ((machine o codec options).project (networkEvents options)
      (start clientOptions now loadBalancer codec) es) w.network
  connections : ∀ c, Client.ReachableWhen o.connectionOptions Client.FreshId
    (w.network.connections c)

theorem networked_refines {clientOptions : RpcClientOptions} {now : ℤ}
    {loadBalancer : LoadBalancer} {es : List NetworkedEvent}
    (hlimit : o.poolOptions.maxConnections.exceeds 0 = true)
    (hnew : RpcCodec.new o.connectionOptions.codecOptions = .ok codec)
    (hrun : (machine o codec options).Run (start clientOptions now loadBalancer codec) es w) :
    Refines o codec options clientOptions now loadBalancer es w := by
  have hsupplied : Supplied o codec options (start clientOptions now loadBalancer codec) := by
    refine ⟨wf_start clientOptions now loadBalancer, fun id attempt e hget => ?_⟩
    cases hget
  have hinv : ∀ s e t, Supplied o codec options s → (machine o codec options).Step s e t →
      Supplied o codec options t := fun s e t hi hs => hi.step hlimit hnew hs
  refine ⟨?_, ?_, fun c => ?_⟩
  · exact hrun.project NetworkedClient.failover hinv (fun _ _ _ h hs => h.failover_run hs)
      hsupplied
  · exact hrun.project NetworkedClient.network hinv (fun _ _ _ h hs => h.network_run hs) hsupplied
  · have hnetwork := (hrun.invariant hinv hsupplied).wf.network
    exact ⟨codec, hnew, (Client.ClientNetwork.NetworkWf.of_reachable hnetwork).fresh c⟩

theorem networked_refines_sampleReturned : Refines sampleClientOptions sampleCodec sampleOptions
    ⟨none, none⟩ 0 (.roundRobin ⟨.empty⟩) sampleAnswered
    (sampleReturned.get sampleReturned_isSome) :=
  networked_refines (by decide) rfl (Machine.run_exec_get sampleReturned_isSome)

end NetworkedClient

end WeisleyRpc.Discovery
