import WeisleyRpc.CallSettlements

/-!
# Calls while the breaker is open

Until the reset time has passed or a success is recorded, an open key stays open and admits no
call. What is under way then was admitted before.
-/

namespace WeisleyRpc
open Discovery (getMethodKey)

namespace RpcClient
variable {c c' : RpcClient} {e : RpcClientEvent} {id id' key : String} {call call' : RpcCall}
  {t : ℤ}

def IsOpen (c : RpcClient) (key : String) : Prop :=
  ∃ b, c.circuitBreaker = some b ∧ (b.entry key).state = .opened

def OpenedAt (c : RpcClient) (key : String) (t : ℤ) : Prop :=
  ∃ b, c.circuitBreaker = some b ∧ (b.entry key).state = .opened ∧
    (b.entry key).openedAt = some t

/-- No request under the key comes after the reset time, and no success is recorded for it. -/
def Quiet (c : RpcClient) (key : String) (t : ℤ) : RpcClientEvent → Prop
  | .call _ service method times _ => getMethodKey service method = key →
      ∀ b, c.circuitBreaker = some b → times.breakerAt - t < b.resetTimeoutMs
  | .settled id outcome _ _ _ => ∀ call, c.calls.get id = some call → call.methodKey = key →
      ∀ value, outcome ≠ .ok value
  | .resetMetrics => True

theorem remoteCall_begunBy {service method : String} {times : CallTimes} {warn : Option Thrown}
    (h : (c.begunBy id service method times warn).remoteCall id' = some call) :
    c.remoteCall id' = some call ∨ call.methodKey = getMethodKey service method ∧
      c.admission (getMethodKey service method) times warn = .remote := by
  obtain ⟨hget, hphase⟩ := remoteCall_eq_some_iff.1 h
  rw [begunBy, OrderedMap.get_set] at hget
  by_cases hid : id' = id
  · rw [if_pos hid] at hget
    obtain rfl := Option.some.inj hget
    exact .inr ⟨rfl, hphase⟩
  · rw [if_neg hid] at hget
    exact .inl (remoteCall_eq_some_iff.2 ⟨hget, hphase⟩)

theorem remoteCall_settledBy {outcome : Except Thrown JsValue} {now : ℤ} {r : Settlement}
    (h : (c.settledBy id call' outcome now r).remoteCall id' = some call) :
    id' ≠ id ∧ c.remoteCall id' = some call := by
  obtain ⟨hget, hphase⟩ := remoteCall_eq_some_iff.1 h
  rw [settledBy, OrderedMap.get_set] at hget
  by_cases hid : id' = id
  · rw [if_pos hid] at hget
    obtain rfl := Option.some.inj hget
    cases hphase
  · rw [if_neg hid] at hget
    exact ⟨hid, remoteCall_eq_some_iff.2 ⟨hget, hphase⟩⟩

/-- What is under way stays under way until it settles. -/
theorem remoteCall_step (h : c.remoteCall id = some call) (he : Effect c e c')
    (hsettled : ∀ outcome times info error, e ≠ .settled id outcome times info error) :
    c'.remoteCall id = some call := by
  obtain ⟨hget, hphase⟩ := remoteCall_eq_some_iff.1 h
  refine remoteCall_eq_some_iff.2 ⟨?_, hphase⟩
  cases he with
  | call id' service method times warn hnone =>
    have hne : id ≠ id' := by
      rintro rfl
      rw [hnone] at hget
      cases hget
    rw [begunBy, OrderedMap.get_set, if_neg hne]
    exact hget
  | settled id' call' outcome times info error _ _ =>
    have hne : id ≠ id' := by
      rintro rfl
      exact hsettled outcome times info error rfl
    rw [settledBy, OrderedMap.get_set, if_neg hne]
    exact hget
  | resetMetrics => exact hget

theorem OpenedAt.canRequest (h : c.OpenedAt key t) {now : ℤ}
    (hnow : ∀ b, c.circuitBreaker = some b → now - t < b.resetTimeoutMs) :
    (c.canRequest key now).1 = false := by
  obtain ⟨b, hb, hopen, hat⟩ := h
  simp only [RpcClient.canRequest, hb]
  rw [CircuitBreaker.canRequest_eq_false_iff, hat]
  exact ⟨hopen, hnow b hb⟩

/-- An open entry is left as it is by refused requests and by failures. -/
theorem entry_apply_open {b : CircuitBreaker} {e : BreakerEvent}
    (hopen : (b.entry key).state = .opened)
    (hrefused : e.key = key → e.call = .canRequest →
      e.now - (b.entry key).openedAt.getD 0 < b.resetTimeoutMs)
    (hsuccess : e.key = key → e.call ≠ .recordSuccess) :
    (b.apply e).entry key = b.entry key := by
  have hs := b.apply_step key e
  generalize (b.apply e).entry key = entry' at hs
  cases hs with
  | other | admitted | refused | ignored => rfl
  | probe hk hcall _ hle => exact absurd (hrefused hk hcall) (not_lt.2 hle)
  | succeeded hk hcall => exact absurd hcall (hsuccess hk)
  | reopened _ _ hs | counted _ _ hs | tripped _ _ hs =>
    rw [hopen] at hs
    cases hs

/-- Asking opens no entry. -/
theorem opened_of_canRequest {b : CircuitBreaker} {e : BreakerEvent} (hcall : e.call = .canRequest)
    (hopen : ((b.apply e).entry key).state = .opened) : (b.entry key).state = .opened := by
  have hs := b.apply_step key e
  generalize (b.apply e).entry key = entry' at hs hopen
  cases hs with
  | other | admitted | refused | ignored => exact hopen
  | probe => cases hopen
  | succeeded _ hsuccess =>
    rw [hcall] at hsuccess
    cases hsuccess
  | reopened _ hfailure | counted _ hfailure | tripped _ hfailure =>
    rw [hcall] at hfailure
    cases hfailure

theorem entry_foldl_open {outcomes : List BreakerCall} {methodKey : String} {now : ℤ}
    {b : CircuitBreaker} (hopen : (b.entry key).state = .opened)
    (hfails : methodKey = key → ∀ o ∈ outcomes, o = .recordFailure) :
    (outcomes.foldl (fun b o => b.apply ⟨o, methodKey, now⟩) b).entry key = b.entry key := by
  induction outcomes generalizing b with
  | nil => rfl
  | cons o outcomes ih =>
    have hkept : (b.apply ⟨o, methodKey, now⟩).entry key = b.entry key := by
      refine entry_apply_open hopen ?_ ?_
      · rintro hk rfl
        cases hfails hk _ List.mem_cons_self
      · rintro hk rfl
        cases hfails hk _ List.mem_cons_self
    rw [List.foldl_cons, ih (by rw [hkept, hopen])
      (fun hk o ho => hfails hk o (List.mem_cons_of_mem _ ho)), hkept]

theorem settlement_fails {startedAt : ℤ} {outcome : Except Thrown JsValue} {times : SettleTimes}
    {info error : Option Thrown} (h : ∀ value, outcome ≠ .ok value) :
    ∀ o ∈ (settlement startedAt outcome times info error).outcomes, o = .recordFailure := by
  cases outcome with
  | ok value => exact absurd rfl (h value)
  | error e =>
    intro o ho
    exact List.mem_singleton.1 ho

theorem OpenedAt.step (h : c.OpenedAt key t) (he : Effect c e c') (hquiet : c.Quiet key t e) :
    c'.OpenedAt key t := by
  obtain ⟨b, hb, hopen, hat⟩ := h
  cases he with
  | call id service method times warn _ =>
    simp only [OpenedAt, begunBy, hb, Option.map_some]
    split_ifs
    · exact ⟨b, rfl, hopen, hat⟩
    · have hkept := entry_apply_open (e := ⟨.canRequest, getMethodKey service method,
        times.breakerAt⟩) hopen (fun hk _ => by rw [hat]; exact hquiet hk b hb)
        (fun _ hcall => by cases hcall)
      exact ⟨_, rfl, by rw [hkept, hopen], by rw [hkept, hat]⟩
  | settled id call outcome times info error hget _ =>
    have hkept : ((settlement call.startedAt outcome times info error).outcomes.foldl
        (fun b o => b.apply ⟨o, call.methodKey, times.failedAt⟩) b).entry key = b.entry key :=
      entry_foldl_open hopen fun hk => settlement_fails (hquiet call hget hk)
    refine ⟨_, by rw [settledBy, hb]; rfl, ?_, ?_⟩
    · rw [hkept, hopen]
    · rw [hkept, hat]
  | resetMetrics => exact ⟨b, hb, hopen, hat⟩

/-- While the key is open no call under it is admitted. -/
theorem OpenedAt.remote_step (h : c.OpenedAt key t) (he : Effect c e c')
    (hquiet : c.Quiet key t e) (hcall : c'.remoteCall id = some call)
    (hkey : call.methodKey = key) : c.remoteCall id = some call := by
  cases he with
  | call id' service method times warn _ =>
    rcases remoteCall_begunBy hcall with hbefore | ⟨hmethod, hremote⟩
    · exact hbefore
    · have hclosed := h.canRequest (hquiet (hmethod.symm.trans hkey))
      rw [← hkey, hmethod] at hclosed
      simp only [admission, hclosed, if_true] at hremote
      split_ifs at hremote
  | settled id' call' outcome times info error _ _ => exact (remoteCall_settledBy hcall).2
  | resetMetrics => exact hcall

/-- The step that opens a key admits no call. -/
theorem remote_of_opens (hbefore : ¬ c.IsOpen key) (he : Effect c e c') (hafter : c'.IsOpen key)
    (hcall : c'.remoteCall id = some call) : c.remoteCall id = some call := by
  obtain ⟨b', hb', hopen⟩ := hafter
  cases he with
  | call id' service method times warn _ =>
    cases hb : c.circuitBreaker with
    | none =>
      simp only [begunBy, hb, Option.map_none, ite_self] at hb'
      cases hb'
    | some b =>
      simp only [begunBy, hb, Option.map_some] at hb'
      refine absurd ⟨b, hb, ?_⟩ hbefore
      split_ifs at hb' with hallow
      · obtain rfl := Option.some.inj hb'
        exact hopen
      · obtain rfl := Option.some.inj hb'
        exact opened_of_canRequest rfl hopen
  | settled id' call' outcome times info error _ _ => exact (remoteCall_settledBy hcall).2
  | resetMetrics => exact hcall

end RpcClient

end WeisleyRpc
