import Mathlib.Data.List.Infix

/-!
# Two parties joined by a stream each way

Each end has read a prefix of what the other end has written, however the steps of the
two interleave, as long as a step takes only items that are there.
-/

/-- One end of a connection: whether it exists, what it has written and read so far, and
what a step of its party takes from the stream. -/
structure Endpoint (σ ε α : Type*) where
  up : σ → Prop
  sent : σ → List α
  received : σ → List α
  taken : ε → List α

namespace Endpoint
variable {σ τ ε ζ α : Type*} {P : Endpoint σ ε α} {Q : Endpoint τ ζ α}

/-- An end that exists stays, its writes are final, and it reads only what its steps
take, if it is not set up anew. -/
structure Sound (P : Endpoint σ ε α) (Step : σ → ε → σ → Prop) : Prop where
  up : ∀ s e t, Step s e t → P.up s → P.up t
  sent : ∀ s e t, Step s e t → P.up s → P.sent s <+: P.sent t
  received : ∀ s e t, Step s e t → P.received t = P.received s ++ P.taken e ∨ P.received t = []

/-- What the step takes lies ahead of what was read. -/
def Delivers (P : Endpoint σ ε α) (Q : Endpoint τ ζ α) (s : σ) (t : τ) (e : ε) : Prop :=
  P.taken e = [] ∨ (Q.up t ∧ P.received s ++ P.taken e <+: Q.sent t)

structure Linked (P : Endpoint σ ε α) (Q : Endpoint τ ζ α) (s : σ) (t : τ) : Prop where
  left : P.received s <+: Q.sent t
  right : Q.received t <+: P.sent s
  left_down : ¬ Q.up t → P.received s = []
  right_down : ¬ P.up s → Q.received t = []

theorem Linked.symm {s : σ} {t : τ} (h : Linked P Q s t) : Linked Q P t s :=
  ⟨h.right, h.left, h.right_down, h.left_down⟩

theorem Linked.step_left {Step : σ → ε → σ → Prop} (hP : P.Sound Step) {s s' : σ} {t : τ} {e : ε}
    (h : Linked P Q s t) (hs : Step s e s') (hd : P.Delivers Q s t e) : Linked P Q s' t := by
  refine ⟨?_, ?_, fun hdown => ?_, fun hdown => ?_⟩
  · rcases hP.received s e s' hs with hr | hr <;> rw [hr]
    · rcases hd with hnone | ⟨-, hp⟩
      · rw [hnone, List.append_nil]
        exact h.left
      · exact hp
    · exact List.nil_prefix
  · by_cases hup : P.up s
    · exact h.right.trans (hP.sent s e s' hs hup)
    · rw [h.right_down hup]
      exact List.nil_prefix
  · rcases hP.received s e s' hs with hr | hr
    · rcases hd with hnone | ⟨hup, -⟩
      · rw [hr, h.left_down hdown, hnone, List.append_nil]
      · exact absurd hup hdown
    · exact hr
  · exact h.right_down fun hup => hdown (hP.up s e s' hs hup)

theorem Linked.step_right {Step : τ → ζ → τ → Prop} (hQ : Q.Sound Step) {s : σ} {t t' : τ} {e : ζ}
    (h : Linked P Q s t) (hs : Step t e t') (hd : Q.Delivers P t s e) : Linked P Q s t' :=
  (h.symm.step_left hQ hs hd).symm

end Endpoint
