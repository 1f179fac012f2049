import Mathlib.Data.List.Induction
import Mathlib.Data.List.Infix
import Mathlib.Logic.Function.Iterate

/-!
# Histories of a state

A state is what a list of events has made of the first one. A property that holds in the
end and did not hold at first was entered by some event and has been kept ever since.
-/

namespace Histories
variable {σ ε : Type*}

/-- `P` holds since `e`, which stands behind `pre`. -/
structure Since (P : List ε → Prop) (history pre : List ε) (e : ε) (post : List ε) : Prop where
  split : history = pre ++ e :: post
  before : ¬ P pre
  kept : ∀ mid, mid <+: post → P (pre ++ e :: mid)

variable {P : List ε → Prop} {history pre post : List ε} {e x : ε}

theorem Since.entered (h : Since P history pre e post) : P (pre ++ [e]) :=
  h.kept [] List.nil_prefix

theorem since_last (hbefore : ¬ P history) (h : P (history ++ [e])) :
    Since P (history ++ [e]) history e [] := by
  refine ⟨rfl, hbefore, ?_⟩
  intro mid hmid
  rw [List.prefix_nil.1 hmid]
  exact h

theorem Since.snoc (h : Since P history pre e post) (hx : P (history ++ [x])) :
    Since P (history ++ [x]) pre e (post ++ [x]) := by
  refine ⟨by rw [h.split, List.append_assoc, List.cons_append], h.before, ?_⟩
  intro mid hmid
  rcases List.prefix_concat_iff.1 hmid with hend | hmid
  · rw [hend, ← List.cons_append, ← List.append_assoc, ← h.split]
    exact hx
  · exact h.kept mid hmid

theorem Since.congr {Q : List ε → Prop} (h : Since P history pre e post)
    (heq : ∀ mid, mid <+: history → (P mid ↔ Q mid)) : Since Q history pre e post := by
  refine ⟨h.split, ?_, ?_⟩
  · rw [← heq pre ⟨e :: post, h.split.symm⟩]
    exact h.before
  · intro mid hmid
    obtain ⟨rest, rfl⟩ := hmid
    rw [← heq (pre ++ e :: mid) ⟨rest, by rw [h.split, List.append_assoc, List.cons_append]⟩]
    exact h.kept mid ⟨rest, rfl⟩

/-- A property is entered for the last time at one place only. -/
theorem Since.unique {pre' post' : List ε} {e' : ε} (h : Since P history pre e post)
    (h' : Since P history pre' e' post') : e = e' := by
  have hsplit := h.split.symm.trans h'.split
  rcases List.append_eq_append_iff.1 hsplit with ⟨mid, hpre, hrest⟩ | ⟨mid, hpre, hrest⟩
  · cases mid with
    | nil => exact (List.cons.inj hrest).1
    | cons x mid =>
      obtain ⟨rfl, hpost⟩ := List.cons.inj hrest
      exact absurd (hpre ▸ h.kept mid ⟨_, hpost.symm⟩) h'.before
  · cases mid with
    | nil => exact (List.cons.inj hrest).1.symm
    | cons x mid =>
      obtain ⟨rfl, hpost⟩ := List.cons.inj hrest
      exact absurd (hpre ▸ h'.kept mid ⟨_, hpost.symm⟩) h.before

theorem exists_since (h : P history) (hnil : ¬ P []) :
    ∃ pre e post, Since P history pre e post := by
  induction history using List.reverseRecOn with
  | nil => exact absurd h hnil
  | append_singleton history x ih =>
    by_cases hp : P history
    · obtain ⟨pre, e, post, hs⟩ := ih hp
      exact ⟨pre, e, post ++ [x], hs.snoc h⟩
    · exact ⟨history, x, [], since_last hp h⟩

section Outputs
variable {β : Type*} (step : σ → ε → σ) (out : σ → ε → Option β)

/-- What the events put out, each in the state it meets. -/
def outputs (s : σ) : List ε → List β
  | [] => []
  | e :: es => (out s e).toList ++ outputs (step s e) es

theorem outputs_append (s : σ) (es fs : List ε) :
    outputs step out s (es ++ fs) =
      outputs step out s es ++ outputs step out (es.foldl step s) fs := by
  induction es generalizing s with
  | nil => rfl
  | cons e es ih => simp only [List.cons_append, outputs, ih, List.foldl_cons, List.append_assoc]

theorem mem_outputs {s : σ} {es : List ε} {y : β} :
    y ∈ outputs step out s es ↔
      ∃ pre e post, es = pre ++ e :: post ∧ out (pre.foldl step s) e = some y := by
  induction es generalizing s with
  | nil => simp [outputs]
  | cons e es ih =>
    simp only [outputs, List.mem_append, Option.mem_toList, ih]
    constructor
    · rintro (h | ⟨pre, e', post, rfl, h⟩)
      · exact ⟨[], e, es, rfl, h⟩
      · exact ⟨e :: pre, e', post, rfl, h⟩
    · rintro ⟨pre, e', post, hes, h⟩
      cases pre with
      | nil =>
        obtain ⟨rfl, rfl⟩ := List.cons.inj hes
        exact .inl h
      | cons x pre =>
        obtain ⟨rfl, rfl⟩ := List.cons.inj hes
        exact .inr ⟨pre, e', post, rfl, h⟩

/-- No output comes twice when no two events put out the same. -/
theorem nodup_outputs {s : σ} {es : List ε} :
    (outputs step out s es).Nodup ↔ ∀ pre e mid e' post y,
      es = pre ++ e :: (mid ++ e' :: post) → out (pre.foldl step s) e = some y →
        out ((pre ++ e :: mid).foldl step s) e' ≠ some y := by
  induction es generalizing s with
  | nil => simp [outputs]
  | cons x es ih =>
    simp only [outputs, List.nodup_append, ih]
    constructor
    · rintro ⟨-, hrest, hapart⟩ pre e mid e' post y hes hout hout'
      cases pre with
      | nil =>
        obtain ⟨rfl, rfl⟩ := List.cons.inj hes
        exact hapart y (Option.mem_toList.2 hout) y
          ((mem_outputs step out).2 ⟨mid, e', post, rfl, hout'⟩) rfl
      | cons z pre =>
        obtain ⟨rfl, rfl⟩ := List.cons.inj hes
        exact hrest pre e mid e' post y rfl hout hout'
    · intro h
      refine ⟨by cases out s x <;> simp, ?_, ?_⟩
      · intro pre e mid e' post y hes hout
        exact h (x :: pre) e mid e' post y (by rw [hes]; rfl) hout
      · rintro y hy z hz rfl
        obtain ⟨mid, e', post, rfl, hout'⟩ := (mem_outputs step out).1 hz
        exact h [] x mid e' post y rfl (Option.mem_toList.1 hy) hout'

/-- Two states that stay related put out the same. -/
theorem outputs_simulation {τ ε' : Type*} {step' : τ → ε' → τ} {out' : τ → ε' → Option β}
    (view : ε → ε') {R : σ → τ → Prop}
    (hstep : ∀ s t e, R s t → R (step s e) (step' t (view e)) ∧ out s e = out' t (view e))
    {s : σ} {t : τ} (h : R s t) (es : List ε) :
    R (es.foldl step s) ((es.map view).foldl step' t) ∧
      outputs step out s es = outputs step' out' t (es.map view) := by
  induction es generalizing s t with
  | nil => exact ⟨h, rfl⟩
  | cons e es ih =>
    obtain ⟨hnext, hout⟩ := hstep s t e h
    obtain ⟨hlast, houts⟩ := ih hnext
    refine ⟨hlast, ?_⟩
    simp only [List.map_cons, outputs, hout, houts]

end Outputs

section Repeated
variable {f : σ → σ} {I P : σ → Prop}

/-- A step that comes to rest in `P`, or else goes down, has come to rest after some time. -/
theorem eventually_of_measure (μ : σ → ℕ)
    (h : ∀ s, I s → I (f s) ∧ ((P s ∧ f s = s) ∨ μ (f s) < μ s)) {s : σ} (hs : I s) :
    ∃ n, ∀ k, n ≤ k → P (f^[k] s) := by
  induction hm : μ s using Nat.strong_induction_on generalizing s with
  | _ m ih =>
    obtain ⟨hnext, ⟨hp, hrest⟩ | hlt⟩ := h s hs
    · refine ⟨0, fun k _ => ?_⟩
      rwa [Function.iterate_fixed hrest]
    · obtain ⟨n, hn⟩ := ih (μ (f s)) (hm ▸ hlt) hnext rfl
      refine ⟨n + 1, fun k hk => ?_⟩
      obtain ⟨j, rfl⟩ : ∃ j, k = j + 1 := ⟨k - 1, by omega⟩
      rw [Function.iterate_succ_apply]
      exact hn j (by omega)

end Repeated

end Histories
