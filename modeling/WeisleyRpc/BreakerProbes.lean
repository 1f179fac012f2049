import WeisleyRpc.BreakerHistories

/-!
# Probes of a half-open key

A half-open key admits every request. So a reset period has one probe just when no further
request comes before the outcome of the first.
-/

namespace WeisleyRpc
namespace CircuitBreaker

def IsHalfOpen (options : CircuitBreakerOptions) (key : String) (history : List BreakerEvent) :
    Prop :=
  (after options history).getState key = .halfOpen

def Unrecorded (key : String) (e : BreakerEvent) : Prop :=
  e.isSuccess key = false ∧ e.isFailure key = false

/-- Between the request that makes a key half-open and the next outcome recorded for it,
every other request is refused. -/
def SingleProbe (options : CircuitBreakerOptions) (key : String) (history : List BreakerEvent) :
    Prop :=
  ∀ pre probe mid e post, history = pre ++ probe :: mid ++ e :: post →
    ¬ IsHalfOpen options key pre → IsHalfOpen options key (pre ++ [probe]) →
    (∀ x ∈ mid, Unrecorded key x) → e.isRequest key = true →
    ((after options (pre ++ probe :: mid)).canRequest key e.now).1 = false

/-- No request finds the key half-open. -/
def ProbesAlone (options : CircuitBreakerOptions) (key : String) (history : List BreakerEvent) :
    Prop :=
  ∀ pre e post, history = pre ++ e :: post → e.isRequest key = true → ¬ IsHalfOpen options key pre

variable {options : CircuitBreakerOptions} {key : String} {history : List BreakerEvent}
  {b : CircuitBreaker} {e : BreakerEvent} {entry entry' : CircuitBreakerEntry}

theorem halfOpen_kept (h : EntryStep b key e entry entry') (hhalf : entry.state = .halfOpen)
    (hx : Unrecorded key e) : entry'.state = .halfOpen := by
  obtain ⟨hsuccess, hfailure⟩ := hx
  cases h with
  | other => exact hhalf
  | admitted => exact hhalf
  | probe => rfl
  | refused => exact hhalf
  | succeeded hk hcall => simp [BreakerEvent.isSuccess, hk, hcall] at hsuccess
  | reopened hk hcall => simp [BreakerEvent.isFailure, hk, hcall] at hfailure
  | ignored => exact hhalf
  | counted hk hcall => simp [BreakerEvent.isFailure, hk, hcall] at hfailure
  | tripped hk hcall => simp [BreakerEvent.isFailure, hk, hcall] at hfailure

theorem unrecorded_of_kept (h : EntryStep b key e entry entry') (hhalf : entry.state = .halfOpen)
    (hhalf' : entry'.state = .halfOpen) : Unrecorded key e := by
  cases h with
  | other hk => simp [Unrecorded, BreakerEvent.isSuccess, BreakerEvent.isFailure, hk]
  | admitted hk hcall => simp [Unrecorded, BreakerEvent.isSuccess, BreakerEvent.isFailure, hcall]
  | probe hk hcall => simp [Unrecorded, BreakerEvent.isSuccess, BreakerEvent.isFailure, hcall]
  | refused hk hcall => simp [Unrecorded, BreakerEvent.isSuccess, BreakerEvent.isFailure, hcall]
  | succeeded => cases hhalf'
  | reopened => cases hhalf'
  | ignored _ _ ho => simp [hhalf] at ho
  | counted _ _ hc => simp [hhalf] at hc
  | tripped => cases hhalf'

theorem isHalfOpen_window {pre mid : List BreakerEvent} {probe : BreakerEvent}
    (h : IsHalfOpen options key (pre ++ [probe])) (hmid : ∀ x ∈ mid, Unrecorded key x) :
    IsHalfOpen options key (pre ++ probe :: mid) := by
  induction mid using List.reverseRecOn with
  | nil => exact h
  | append_singleton mid x ih =>
    have hbefore := ih fun y hy => hmid y (List.mem_append_left _ hy)
    have hs := entry_snoc key x options (pre ++ probe :: mid)
    rw [← List.cons_append, ← List.append_assoc]
    exact halfOpen_kept hs hbefore (hmid x (by simp))

theorem admitted_of_halfOpen {pre : List BreakerEvent} (h : IsHalfOpen options key pre) (now : ℤ) :
    ((after options pre).canRequest key now).1 = true := by
  rw [← Bool.not_eq_false, canRequest_eq_false_iff]
  rintro ⟨ho, -⟩
  rw [IsHalfOpen, getState_eq, ho] at h
  cases h

/-- A half-open key has been so since its probe, with no outcome recorded behind it. -/
theorem exists_probe (h : IsHalfOpen options key history) :
    ∃ pre probe mid, history = pre ++ probe :: mid ∧ ¬ IsHalfOpen options key pre ∧
      IsHalfOpen options key (pre ++ [probe]) ∧ ∀ x ∈ mid, Unrecorded key x := by
  have hnil : ¬ IsHalfOpen options key [] := by
    intro hnil
    cases hnil
  obtain ⟨pre, probe, mid, hs⟩ := Histories.exists_since h hnil
  refine ⟨pre, probe, mid, hs.split, hs.before, hs.entered, ?_⟩
  intro x hx
  obtain ⟨left, right, rfl⟩ := List.append_of_mem hx
  have hbefore := hs.kept left (List.prefix_append _ _)
  have hafter := hs.kept (left ++ [x]) ⟨right, by simp⟩
  rw [← List.cons_append, ← List.append_assoc] at hafter
  exact unrecorded_of_kept (entry_snoc key x options (pre ++ probe :: left)) hbefore hafter

/-- Every other request is refused exactly when there is none. -/
theorem singleProbe_iff : SingleProbe options key history ↔ ProbesAlone options key history := by
  constructor
  · rintro h pre e post rfl hrequest hhalf
    obtain ⟨left, probe, mid, rfl, hnot, hentered, hmid⟩ := exists_probe hhalf
    have hfalse := h left probe mid e post rfl hnot hentered hmid hrequest
    rw [admitted_of_halfOpen hhalf] at hfalse
    cases hfalse
  · intro h pre probe mid e post hsplit _ hentered hmid hrequest
    exact absurd (isHalfOpen_window hentered hmid) (h _ e post hsplit hrequest)

def sampleBreaker : CircuitBreakerOptions := ⟨1, 10⟩

/-- A failure opens the key; after the reset timeout two callers ask for admission. -/
def sampleProbes : List BreakerEvent :=
  [⟨.recordFailure, "S.m", 0⟩, ⟨.canRequest, "S.m", 10⟩, ⟨.canRequest, "S.m", 11⟩]

theorem two_probes_admitted :
    ((after sampleBreaker (sampleProbes.take 1)).canRequest "S.m" 10).1 = true ∧
      ((after sampleBreaker (sampleProbes.take 2)).canRequest "S.m" 11).1 = true ∧
      ¬ SingleProbe sampleBreaker "S.m" sampleProbes := by
  refine ⟨by decide +kernel, by decide +kernel, ?_⟩
  intro h
  have hfalse := h [⟨.recordFailure, "S.m", 0⟩] ⟨.canRequest, "S.m", 10⟩ []
    ⟨.canRequest, "S.m", 11⟩ [] rfl (by unfold IsHalfOpen; decide +kernel)
    (by unfold IsHalfOpen; decide +kernel) (by simp) rfl
  revert hfalse
  decide +kernel

end CircuitBreaker
end WeisleyRpc
