import WeisleyRpc.CallSettlements

/-!
# Accounting of calls

Which calls have been settled, and with what, can be read off the run. The breaker and the
metrics are compared with that.
-/

namespace WeisleyRpc
open Discovery (getMethodKey getErrorCode)

def RpcClientEvent.isReset : RpcClientEvent → Bool
  | .resetMetrics => true
  | _ => false

def RpcClientEvent.settledId : RpcClientEvent → Option String
  | .settled id .. => some id
  | _ => none

/-- The part of a run behind its last reset. -/
def sinceReset (events : List RpcClientEvent) : List RpcClientEvent :=
  (events.reverse.takeWhile fun e => !e.isReset).reverse

theorem sinceReset_snoc (events : List RpcClientEvent) (e : RpcClientEvent) :
    sinceReset (events ++ [e]) = if e.isReset then [] else sinceReset events ++ [e] := by
  rw [sinceReset, List.reverse_append, List.reverse_singleton, List.singleton_append,
    List.takeWhile_cons]
  cases e.isReset <;> simp [sinceReset]

theorem mem_of_mem_sinceReset {events : List RpcClientEvent} {e : RpcClientEvent}
    (h : e ∈ sinceReset events) : e ∈ events :=
  List.mem_reverse.1 ((List.takeWhile_sublist _).mem (List.mem_reverse.1 h))

/-- The outcome and the duration of a settled call. -/
abbrev Settled := Bool × ℤ

def totalDuration : List Settled → ℤ
  | [] => 0
  | (_, durationMs) :: settled => durationMs + totalDuration settled

theorem totalDuration_snoc (settled : List Settled) (s : Settled) :
    totalDuration (settled ++ [s]) = totalDuration settled + s.2 := by
  induction settled with
  | nil => simp [totalDuration]
  | cons s' settled ih => simp only [List.cons_append, totalDuration, ih, Int.add_assoc]

/-- The numbers of a method's settled calls. -/
structure RpcMethodMetrics.Sums (m : RpcMethodMetrics) (settled : List Settled) : Prop where
  totalCalls : m.totalCalls = settled.length
  successCalls : m.successCalls = settled.countP fun s => s.1
  failedCalls : m.failedCalls = settled.countP fun s => !s.1
  split : m.totalCalls = m.successCalls + m.failedCalls
  totalDurationMs : m.totalDurationMs = totalDuration settled
  averageDurationMs : m.averageDurationMs * m.totalCalls = m.totalDurationMs

theorem RpcMethodMetrics.zero_sums : RpcMethodMetrics.zero.Sums [] :=
  ⟨rfl, rfl, rfl, rfl, rfl, by simp [zero]⟩

namespace RpcMethodMetrics
variable (m : RpcMethodMetrics) (durationMs : ℤ) (success : Bool) (errorCode : Option String)

theorem totalCalls_record :
    (m.record durationMs success errorCode).totalCalls = m.totalCalls + 1 := by
  cases success <;> rfl

theorem successCalls_record :
    (m.record durationMs success errorCode).successCalls = m.successCalls + success.toNat := by
  cases success <;> rfl

theorem failedCalls_record :
    (m.record durationMs success errorCode).failedCalls = m.failedCalls + (!success).toNat := by
  cases success <;> rfl

theorem totalDurationMs_record :
    (m.record durationMs success errorCode).totalDurationMs = m.totalDurationMs + durationMs := by
  cases success <;> rfl

theorem averageDurationMs_record : (m.record durationMs success errorCode).averageDurationMs =
    (m.totalDurationMs + durationMs : ℤ) / (m.totalCalls + 1 : ℕ) := by
  cases success <;> rfl

end RpcMethodMetrics

theorem RpcMethodMetrics.Sums.record {m : RpcMethodMetrics} {settled : List Settled}
    (h : m.Sums settled) (durationMs : ℤ) (success : Bool) (errorCode : Option String) :
    (m.record durationMs success errorCode).Sums (settled ++ [(success, durationMs)]) := by
  have hsuccess : (m.record durationMs success errorCode).successCalls =
      (settled ++ [(success, durationMs)]).countP fun s => s.1 := by
    rw [successCalls_record, h.successCalls, List.countP_append]
    cases success <;> rfl
  have hfailed : (m.record durationMs success errorCode).failedCalls =
      (settled ++ [(success, durationMs)]).countP fun s => !s.1 := by
    rw [failedCalls_record, h.failedCalls, List.countP_append]
    cases success <;> rfl
  refine ⟨?_, hsuccess, hfailed, ?_, ?_, ?_⟩
  · rw [totalCalls_record, h.totalCalls, List.length_append, List.length_singleton]
  · rw [totalCalls_record, successCalls_record, failedCalls_record, h.split]
    cases success with
    | true => exact Nat.add_right_comm _ _ _
    | false => exact Nat.add_assoc _ _ _
  · rw [totalDurationMs_record, totalDuration_snoc, h.totalDurationMs]
  · rw [averageDurationMs_record, totalCalls_record, totalDurationMs_record]
    exact div_mul_cancel₀ _ (Nat.cast_ne_zero.2 (Nat.succ_ne_zero m.totalCalls))

/-- The metrics of a method, which has none until one of its calls is settled. -/
def MetricsOf (settled : List Settled) : Option RpcMethodMetrics → Prop
  | none => settled = []
  | some m => settled ≠ [] ∧ m.Sums settled

theorem MetricsOf.record {settled : List Settled} {m : Option RpcMethodMetrics}
    (h : MetricsOf settled m) (durationMs : ℤ) (success : Bool) (errorCode : Option String) :
    MetricsOf (settled ++ [(success, durationMs)])
      (some ((m.getD .zero).record durationMs success errorCode)) := by
  refine ⟨by simp, ?_⟩
  cases m with
  | none =>
    obtain rfl : settled = [] := h
    exact RpcMethodMetrics.zero_sums.record durationMs success errorCode
  | some m => exact h.2.record durationMs success errorCode

/-- One outcome for the breaker if there is one, one entry in the metrics, and a success of the
remote call is what the caller gets. -/
def RpcCall.Accounted (breaker : Bool) (call : RpcCall) : Prop :=
  match call.phase with
  | .refused _ => call.outcomes = [] ∧ call.entries = []
  | .remote => call.outcomes = [] ∧ call.entries = []
  | .settled outcome result =>
    call.outcomes = (if breaker then
      [if outcome.isOk then .recordSuccess else .recordFailure] else []) ∧
    call.entries = [outcome.isOk] ∧ ∀ value, outcome = .ok value → result = .ok value

namespace RpcClient

/-- The settlement that an event is for the calls of a method. -/
def settledFor (client : RpcClient) (key : String) : RpcClientEvent → Option Settled
  | .settled id outcome times _ _ =>
    match client.startOf id with
    | some (methodKey, startedAt) =>
      if methodKey = key then
        some (outcome.isOk,
          (if outcome.isOk then times.endedAt else times.failedEndedAt) - startedAt)
      else none
    | none => none
  | _ => none

/-- The calls of a method that have been settled since the last reset. -/
def settledCalls (client : RpcClient) (key : String) (events : List RpcClientEvent) :
    List Settled := (sinceReset events).filterMap (client.settledFor key)

/-- Every call is accounted, and the metrics are those of the calls settled since the last
reset. -/
structure Accounts (events : List RpcClientEvent) (client : RpcClient) : Prop where
  calls : ∀ id call, client.calls.get id = some call →
    call.Accounted client.circuitBreaker.isSome
  metrics : ∀ key, MetricsOf (client.settledCalls key events) (client.metrics.get key)

/-- A logger that does not throw at a success, and an error whose code has a text if it has
one. -/
def Accountable : RpcClientEvent → Prop
  | .settled _ (.ok _) _ info _ => info = none
  | .settled _ (.error e) _ _ _ => ∃ code, getErrorCode e = .ok code
  | _ => True

variable {client client' : RpcClient} {events : List RpcClientEvent} {e : RpcClientEvent}
  {id : String} {call : RpcCall}

/-- The settlements of a run so far are read the same in the next state. -/
theorem settledFor_step (h : Effect client e client') (key : String) {f : RpcClientEvent}
    (hknown : ∀ id, f.settledId = some id → client.calls.get id ≠ none) :
    client'.settledFor key f = client.settledFor key f := by
  cases f with
  | settled id outcome times info error =>
    simp only [settledFor, startOf_step h (hknown id rfl)]
  | call id service method times warn => rfl
  | resetMetrics => rfl

theorem settledCalls_step (h : Effect client e client') (key : String)
    (hknown : ∀ f ∈ events, ∀ id, f.settledId = some id → client.calls.get id ≠ none) :
    client'.settledCalls key (events ++ [e]) =
      if e.isReset then []
      else client.settledCalls key events ++ (client'.settledFor key e).toList := by
  rw [settledCalls, sinceReset_snoc]
  split_ifs
  · rfl
  · have hsame : (sinceReset events).filterMap (client'.settledFor key) =
        (sinceReset events).filterMap (client.settledFor key) :=
      List.filterMap_congr fun f hf =>
        settledFor_step h key (hknown f (mem_of_mem_sinceReset hf))
    rw [List.filterMap_append, hsame, settledCalls]
    cases hlast : client'.settledFor key e with
    | none => simp [hlast]
    | some settled => simp [hlast]

/-- An accountable settlement has one outcome and one entry. -/
theorem settlement_accountable {startedAt : ℤ} {outcome : Except Thrown JsValue}
    {times : SettleTimes} {info error : Option Thrown}
    (h : Accountable (.settled id outcome times info error)) :
    ∃ errorCode, settlement startedAt outcome times info error =
      ⟨[if outcome.isOk then .recordSuccess else .recordFailure],
        [⟨(if outcome.isOk then times.endedAt else times.failedEndedAt) - startedAt,
          outcome.isOk, errorCode⟩],
        match outcome with
        | .ok value => .ok value
        | .error e => .error (failureThrown e error)⟩ := by
  cases outcome with
  | ok value =>
    obtain rfl : info = none := h
    exact ⟨none, rfl⟩
  | error e =>
    obtain ⟨errorCode, hcode⟩ := h
    refine ⟨errorCode, ?_⟩
    simp only [settlement, failureEntries, hcode]
    rfl

/-- The accounts are kept, and only known calls have been settled. -/
structure Books (events : List RpcClientEvent) (client : RpcClient) : Prop where
  accounts : Accounts events client
  known : ∀ e ∈ events, ∀ id, e.settledId = some id → client.calls.get id ≠ none

theorem Books.known_snoc (h : Books events client) (he : Effect client e client') :
    ∀ f ∈ events ++ [e], ∀ id, f.settledId = some id → client'.calls.get id ≠ none := by
  intro f hf id hid
  rcases List.mem_append.1 hf with hf | hf
  · exact known_step he (h.known f hf id hid)
  · rw [List.mem_singleton.1 hf] at hid
    cases he with
    | call | resetMetrics => cases hid
    | settled id' call outcome times info error hget _ =>
      obtain rfl := Option.some.inj hid
      rw [settledBy, OrderedMap.get_set, if_pos rfl]
      exact Option.some_ne_none _

/-- A call that has just begun is accounted for nothing. -/
theorem begun_accounted (client : RpcClient) (service method methodKey : String)
    (times : CallTimes) (warn : Option Thrown) (breaker : Bool) :
    RpcCall.Accounted breaker ⟨service, method, times.startedAt,
      client.admission methodKey times warn, [], []⟩ := by
  have hphase : (∃ error, client.admission methodKey times warn = .refused error) ∨
      client.admission methodKey times warn = .remote := by
    unfold admission
    split_ifs
    · exact .inl ⟨_, rfl⟩
    · exact .inl ⟨_, rfl⟩
    · exact .inr rfl
  rcases hphase with ⟨error, hphase⟩ | hphase
  · rw [hphase]
    exact ⟨rfl, rfl⟩
  · rw [hphase]
    exact ⟨rfl, rfl⟩

theorem settled_accounted (h : call.Accounted client.circuitBreaker.isSome)
    (hphase : call.phase = .remote) {outcome : Except Thrown JsValue} {times : SettleTimes}
    {info error : Option Thrown} (haccountable : Accountable (.settled id outcome times info error))
    {call' : RpcCall}
    (hcall' : (client.settledBy id call outcome times.failedAt
      (settlement call.startedAt outcome times info error)).calls.get id = some call') :
    call'.Accounted client.circuitBreaker.isSome := by
  obtain ⟨errorCode, hsettlement⟩ : ∃ errorCode,
    settlement call.startedAt outcome times info error = _ := settlement_accountable haccountable
  rw [RpcCall.Accounted, hphase] at h
  rw [hsettlement, settledBy, OrderedMap.get_set, if_pos rfl] at hcall'
  obtain rfl := Option.some.inj hcall'
  simp only [RpcCall.Accounted, h.1, h.2, List.nil_append]
  refine ⟨trivial, rfl, ?_⟩
  rintro value rfl
  rfl

/-- The entries of an accountable settlement are those of the settled call. -/
theorem settled_metrics {settled : List Settled} {key : String}
    (h : MetricsOf settled (client.metrics.get key)) (hget : client.calls.get id = some call)
    {outcome : Except Thrown JsValue} {times : SettleTimes} {info error : Option Thrown}
    (haccountable : Accountable (.settled id outcome times info error)) :
    MetricsOf
      (settled ++ (client.settledFor key (.settled id outcome times info error)).toList)
      ((client.settledBy id call outcome times.failedAt
        (settlement call.startedAt outcome times info error)).metrics.get key) := by
  obtain ⟨errorCode, hsettlement⟩ : ∃ errorCode,
    settlement call.startedAt outcome times info error = _ := settlement_accountable haccountable
  have hstart : client.startOf id = some (call.methodKey, call.startedAt) := by
    rw [startOf, hget]
    rfl
  simp only [hsettlement, settledBy, List.foldl_cons, List.foldl_nil, enterMetrics,
    OrderedMap.get_set, settledFor, hstart]
  by_cases hkey : call.methodKey = key
  · subst hkey
    rw [if_pos rfl, if_pos rfl]
    exact h.record _ _ _
  · rw [if_neg hkey, if_neg (Ne.symm hkey)]
    simpa using h

theorem Books.step (h : Books events client) (hs : machine.Step client e client')
    (haccountable : Accountable e) : Books (events ++ [e]) client' := by
  have he := step_effect hs
  refine ⟨⟨?_, ?_⟩, h.known_snoc he⟩
  · intro id call hget
    rw [isSome_step he]
    cases he with
    | call id' service method times warn _ =>
      by_cases hid : id = id'
      · rw [begunBy, OrderedMap.get_set, if_pos hid] at hget
        obtain rfl := Option.some.inj hget
        exact begun_accounted client service method _ times warn _
      · rw [begunBy, OrderedMap.get_set, if_neg hid] at hget
        exact h.accounts.calls id call hget
    | settled id' call' outcome times info error hget' hphase =>
      by_cases hid : id = id'
      · rw [hid] at hget
        exact settled_accounted (h.accounts.calls id' call' hget') hphase haccountable hget
      · rw [settledBy, OrderedMap.get_set, if_neg hid] at hget
        exact h.accounts.calls id call hget
    | resetMetrics => exact h.accounts.calls id call hget
  · intro key
    rw [settledCalls_step he key h.known]
    have hbefore := h.accounts.metrics key
    cases he with
    | call id' service method times warn _ =>
      simpa [RpcClientEvent.isReset, settledFor, begunBy] using hbefore
    | settled id' call' outcome times info error hget' hphase =>
      have hstart : (client.settledBy id' call' outcome times.failedAt
          (settlement call'.startedAt outcome times info error)).settledFor key
            (.settled id' outcome times info error) =
          client.settledFor key (.settled id' outcome times info error) := by
        refine settledFor_step (step_effect hs) key ?_
        intro id hid
        obtain rfl := Option.some.inj hid
        rw [hget']
        exact Option.some_ne_none call'
      rw [hstart]
      exact settled_metrics hbefore hget' haccountable
    | resetMetrics => rfl

variable {options : RpcClientOptions} {now : ℤ}

theorem new_books : Books [] (new options now) := by
  refine ⟨⟨?_, fun _ => rfl⟩, ?_⟩
  · intro id call hget
    cases hget
  · intro e he
    cases he

theorem run_books (hrun : machine.Run (new options now) events client)
    (haccountable : ∀ e ∈ events, Accountable e) : Books events client := by
  refine hrun.invariant_history
    (I := fun events client => (∀ e ∈ events, Accountable e) → Books events client) ?_
    (fun _ => new_books) haccountable
  intro pre s e t h hs hall
  exact (h fun e he => hall e (List.mem_append_left _ he)).step hs
    (hall e (List.mem_append_right _ List.mem_cons_self))

/-- Nothing is recorded for a call before it is settled. -/
def Unrecorded (client : RpcClient) : Prop :=
  ∀ id call, client.calls.get id = some call → call.phase = .remote → call.entries = []

theorem Unrecorded.step (h : client.Unrecorded) (he : Effect client e client') :
    client'.Unrecorded := by
  intro id call hget hphase
  cases he with
  | call id' service method times warn _ =>
    by_cases hid : id = id'
    · rw [begunBy, OrderedMap.get_set, if_pos hid] at hget
      obtain rfl := Option.some.inj hget
      rfl
    · rw [begunBy, OrderedMap.get_set, if_neg hid] at hget
      exact h id call hget hphase
  | settled id' call' outcome times info error _ _ =>
    by_cases hid : id = id'
    · rw [settledBy, OrderedMap.get_set, if_pos hid] at hget
      obtain rfl := Option.some.inj hget
      cases hphase
    · rw [settledBy, OrderedMap.get_set, if_neg hid] at hget
      exact h id call hget hphase
  | resetMetrics => exact h id call hget hphase

/-- A call that is settled stays as it is. -/
theorem settled_kept (he : Effect client e client') (hget : client.calls.get id = some call)
    (hphase : call.phase ≠ .remote) : client'.calls.get id = some call := by
  cases he with
  | call id' service method times warn hnone =>
    have hid : id ≠ id' := by
      rintro rfl
      rw [hnone] at hget
      cases hget
    rw [begunBy, OrderedMap.get_set, if_neg hid]
    exact hget
  | settled id' call' outcome times info error hget' hphase' =>
    have hid : id ≠ id' := by
      rintro rfl
      rw [hget'] at hget
      obtain rfl := Option.some.inj hget
      exact hphase hphase'
    rw [settledBy, OrderedMap.get_set, if_neg hid]
    exact hget
  | resetMetrics => exact hget

/-- A settled call whose accounts are wrong. -/
def Misrecorded (client : RpcClient) : Prop :=
  ∃ id call, client.calls.get id = some call ∧ call.phase ≠ .remote ∧
    ¬ call.Accounted client.circuitBreaker.isSome

theorem Misrecorded.step (h : client.Misrecorded) (he : Effect client e client') :
    client'.Misrecorded := by
  obtain ⟨id, call, hget, hphase, hwrong⟩ := h
  refine ⟨id, call, settled_kept he hget hphase, hphase, ?_⟩
  rw [isSome_step he]
  exact hwrong

theorem misrecorded_of_not_accountable (h : client.Unrecorded) (he : Effect client e client')
    (hnot : ¬ Accountable e) : client'.Misrecorded := by
  have hsome := isSome_step he
  cases he with
  | call | resetMetrics => exact absurd trivial hnot
  | settled id call outcome times info error hget hphase =>
    have hentries := h id call hget hphase
    refine ⟨id, _, by rw [settledBy, OrderedMap.get_set, if_pos rfl], ?_, ?_⟩
    · intro hremote
      cases hremote
    · rw [hsome]
      rintro ⟨-, hrecorded, hresult⟩
      cases outcome with
      | ok value =>
        cases info with
        | none => exact hnot rfl
        | some e => cases hresult value rfl
      | error e =>
        simp only [settlement, failureEntries, hentries] at hrecorded
        cases hcode : getErrorCode e with
        | error e' => simp [hcode] at hrecorded
        | ok errorCode => exact hnot ⟨errorCode, hcode⟩

theorem run_misrecorded (hrun : machine.Run (new options now) events client) :
    client.Unrecorded ∧ ((∃ e ∈ events, ¬ Accountable e) → client.Misrecorded) := by
  refine hrun.invariant_history (I := fun (events : List RpcClientEvent) (client : RpcClient) =>
    client.Unrecorded ∧ ((∃ e ∈ events, ¬ Accountable e) → client.Misrecorded)) ?_ ⟨?_, ?_⟩
  · rintro pre s e t ⟨hunrecorded, hwrong⟩ hs
    have he := step_effect hs
    refine ⟨hunrecorded.step he, ?_⟩
    rintro ⟨f, hf, hnot⟩
    rcases List.mem_append.1 hf with hf | hf
    · exact (hwrong ⟨f, hf, hnot⟩).step he
    · rw [List.mem_singleton.1 hf] at hnot
      exact misrecorded_of_not_accountable hunrecorded he hnot
  · intro id call hget
    cases hget
  · rintro ⟨e, he, -⟩
    cases he

/-- The accounts of a run are right exactly when all its settlements are accountable. -/
theorem accounts_iff (hrun : machine.Run (new options now) events client) :
    Accounts events client ↔ ∀ e ∈ events, Accountable e := by
  constructor
  · intro haccounts e he
    by_contra hnot
    obtain ⟨id, call, hget, -, hwrong⟩ := (run_misrecorded hrun).2 ⟨e, he, hnot⟩
    exact hwrong (haccounts.calls id call hget)
  · intro haccountable
    exact (run_books hrun haccountable).accounts

def sampleClient : RpcClient := new ⟨some ⟨1, 10⟩, none⟩ 0

/-- A call whose remote call returns. -/
def sampleSuccess (info : Option Thrown) : List RpcClientEvent :=
  [.call "1" "UserService" "getUser" ⟨0, 0, 0⟩ none,
    .settled "1" (.ok .null) ⟨5, 5, 5⟩ info none]

theorem accounts_iff_success : ∃ client, machine.Run sampleClient (sampleSuccess none) client ∧
    Accounts (sampleSuccess none) client := by
  have hsome : (machine.exec sampleClient (sampleSuccess none)).isSome := by decide +kernel
  have hrun := Machine.run_exec_get hsome
  refine ⟨_, hrun, (accounts_iff hrun).2 ?_⟩
  intro e he
  rcases List.mem_pair.1 he with rfl | rfl
  · trivial
  · rfl

theorem entries_of_accounted {breaker : Bool} (h : call.Accounted breaker) :
    call.entries.length ≤ 1 := by
  unfold RpcCall.Accounted at h
  split at h
  · rw [h.2]
    exact Nat.zero_le 1
  · rw [h.2]
    exact Nat.zero_le 1
  · rw [h.2.1]
    exact le_rfl

/-- A logger that throws at the success makes a failure of it as well. -/
theorem success_recorded_twice : ¬ ∀ (options : RpcClientOptions) (now : ℤ)
    (events : List RpcClientEvent) (client : RpcClient),
    machine.Run (new options now) events client → Accounts events client := by
  intro h
  have hsample : ((machine.exec sampleClient
      (sampleSuccess (some (.error (.platform "Error" "disk full"))))).bind
      fun client => client.calls.get "1").map (fun call => call.entries) =
        some [true, false] := by decide +kernel
  obtain ⟨call, hcall, hentries⟩ := Option.map_eq_some_iff.1 hsample
  obtain ⟨client, hexec, hget⟩ := Option.bind_eq_some_iff.1 hcall
  have haccounts := h _ _ _ _ (Machine.run_of_exec hexec)
  have hle := entries_of_accounted (haccounts.calls "1" call hget)
  rw [hentries] at hle
  exact absurd hle (by decide)

end RpcClient

end WeisleyRpc
