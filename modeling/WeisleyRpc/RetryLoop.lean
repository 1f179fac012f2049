import Mathlib.Data.List.Basic

/-!
# Retry loops

A loop makes one attempt after the other, as many as its limit at most. It ends with the first
success, with the first failure that must not be retried, or with the last failure.
-/

namespace RetryLoop
variable {ν ε : Type*}

inductive Outcome (ν ε : Type*)
  | succeeded (value : ν)
  | failed (error : ε) (retry : Bool)
  deriving DecidableEq

inductive Result (ν ε : Type*)
  | returned (value : ν)
  | thrown (error : ε)
  deriving DecidableEq

/-- What the loop comes to; `last` is what it makes of the failure of its last attempt. -/
def result (last : ε → ε) : ℕ → List (Outcome ν ε) → Option (Result ν ε)
  | _, [] => none
  | _, .succeeded value :: _ => some (.returned value)
  | _, .failed error false :: _ => some (.thrown error)
  | limit, .failed error true :: outcomes =>
    if limit ≤ 1 then some (.thrown (last error)) else result last (limit - 1) outcomes

def Outcome.Retried : Outcome ν ε → Prop
  | .failed _ true => True
  | _ => False

variable {last : ε → ε} {limit : ℕ} {outcomes rest : List (Outcome ν ε)} {error : ε}

/-- While the limit is not reached the loop goes on behind retried failures. -/
theorem result_append (h : ∀ o ∈ outcomes, o.Retried) (hlt : outcomes.length < limit) :
    result last limit (outcomes ++ rest) = result last (limit - outcomes.length) rest := by
  induction outcomes generalizing limit with
  | nil => rfl
  | cons o outcomes ih =>
    have ho := h o List.mem_cons_self
    cases o with
    | succeeded value => cases ho
    | failed error retry =>
      cases retry with
      | false => cases ho
      | true =>
        rw [List.length_cons] at hlt ⊢
        have hrest : result last (limit - 1) (outcomes ++ rest) = _ :=
          ih (fun o' ho' => h o' (List.mem_cons_of_mem _ ho')) (by omega)
        rw [List.cons_append, result, if_neg (by omega), hrest]
        congr 1
        omega

theorem result_retried (h : ∀ o ∈ outcomes, o.Retried) (hlt : outcomes.length < limit) :
    result last limit outcomes = none := by
  have happend : result last limit (outcomes ++ []) = _ := result_append h hlt
  rw [List.append_nil] at happend
  rw [happend]
  rfl

theorem result_succeeded (h : ∀ o ∈ outcomes, o.Retried) (hlt : outcomes.length < limit)
    (value : ν) : result last limit (outcomes ++ [.succeeded value]) = some (.returned value) := by
  rw [result_append h hlt]
  rfl

theorem result_refused (h : ∀ o ∈ outcomes, o.Retried) (hlt : outcomes.length < limit) :
    result last limit (outcomes ++ [.failed error false]) = some (.thrown error) := by
  rw [result_append h hlt]
  rfl

theorem result_exhausted (h : ∀ o ∈ outcomes, o.Retried) (hlt : outcomes.length < limit)
    (hlast : limit ≤ outcomes.length + 1) :
    result last limit (outcomes ++ [.failed error true]) = some (.thrown (last error)) := by
  rw [result_append h hlt, result, if_pos (by omega)]

end RetryLoop
