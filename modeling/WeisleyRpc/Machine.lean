import Mathlib.Data.List.Basic
import Mathlib.Logic.Relation

/-!
# Event-driven machines and their runs

The environment decides which events may happen in a state; the program answers
an event with its next state or with an exception that nobody catches. An
uncaught exception ends the process, so a run consists of the answered events.
Conditions on single steps are part of a guarded machine.
-/

structure Machine (σ ε κ : Type*) where
  Enabled : σ → ε → Prop
  apply : σ → ε → Except κ σ

namespace Machine
variable {σ ε κ : Type*}

def Step (M : Machine σ ε κ) (s : σ) (e : ε) (t : σ) : Prop :=
  M.Enabled s e ∧ M.apply s e = .ok t

/-- The runs of the machine, with the events they answer in order. -/
inductive Run (M : Machine σ ε κ) : σ → List ε → σ → Prop
  | nil (s : σ) : Run M s [] s
  | cons {s t u : σ} {e : ε} {es : List ε} :
      M.Step s e t → Run M t es u → Run M s (e :: es) u

def Reachable (M : Machine σ ε κ) (s t : σ) : Prop := ∃ es, M.Run s es t

/-- The same program under an environment whose steps also satisfy `P`. -/
def guard (M : Machine σ ε κ) (P : σ → ε → Prop) : Machine σ ε κ where
  Enabled s e := P s e ∧ M.Enabled s e
  apply := M.apply

theorem Run.single {M : Machine σ ε κ} {s t : σ} {e : ε} (h : M.Step s e t) : M.Run s [e] t :=
  .cons h (.nil t)

theorem Run.append {M : Machine σ ε κ} {s t u : σ} {es fs : List ε} (h : M.Run s es t)
    (h' : M.Run t fs u) : M.Run s (es ++ fs) u := by
  induction h with
  | nil => exact h'
  | cons hs _ ih => exact .cons hs (ih h')

theorem Run.invariant {M : Machine σ ε κ} {I : σ → Prop}
    (step : ∀ s e t, I s → M.Step s e t → I t)
    {s t : σ} {es : List ε} (h : M.Run s es t) (hs : I s) : I t := by
  induction h with
  | nil => exact hs
  | cons h₁ _ ih => exact ih (step _ _ _ hs h₁)

/-- The same for what a run keeps because of the events it consists of. -/
theorem Run.invariant_mem {M : Machine σ ε κ} {I : σ → Prop} {s t : σ} {es : List ε}
    (h : M.Run s es t) (step : ∀ s e t, e ∈ es → I s → M.Step s e t → I t) (hs : I s) : I t := by
  induction h with
  | nil => exact hs
  | cons h₁ _ ih =>
    exact ih (fun s e t he => step s e t (List.mem_cons_of_mem _ he))
      (step _ _ _ List.mem_cons_self hs h₁)

/-- The same for what a run says about the events it consists of. -/
theorem Run.invariant_history {M : Machine σ ε κ} {I : List ε → σ → Prop} {s t : σ} {es : List ε}
    (h : M.Run s es t) (step : ∀ pre s e t, I pre s → M.Step s e t → I (pre ++ [e]) t)
    (hs : I [] s) : I es t := by
  have hgeneral : ∀ pre, I pre s → I (pre ++ es) t := by
    clear hs
    induction h with
    | nil =>
      intro pre hpre
      rwa [List.append_nil]
    | @cons s u t e es h₁ _ ih =>
      intro pre hpre
      have hrest := ih (pre ++ [e]) (step pre s e u hpre h₁)
      rwa [List.append_assoc] at hrest
  exact hgeneral [] hs

theorem Reachable.refl (M : Machine σ ε κ) (s : σ) : M.Reachable s s := ⟨[], .nil s⟩

theorem Reachable.trans {M : Machine σ ε κ} {s t u : σ} (h : M.Reachable s t)
    (h' : M.Reachable t u) : M.Reachable s u := by
  obtain ⟨es, h⟩ := h
  obtain ⟨fs, h'⟩ := h'
  exact ⟨es ++ fs, h.append h'⟩

theorem Reachable.snoc {M : Machine σ ε κ} {s t u : σ} {e : ε} (h : M.Reachable s t)
    (h' : M.Step t e u) : M.Reachable s u := h.trans ⟨[e], .single h'⟩

theorem Reachable.invariant {M : Machine σ ε κ} {I : σ → Prop}
    (step : ∀ s e t, I s → M.Step s e t → I t)
    {s t : σ} (h : M.Reachable s t) (hs : I s) : I t := by
  obtain ⟨es, h⟩ := h
  exact h.invariant step hs

/-- What the events of a run are for a part of the machine, each in the state it finds. -/
def project {ζ : Type*} (M : Machine σ ε κ) (events : σ → ε → List ζ) : σ → List ε → List ζ
  | _, [] => []
  | s, e :: es =>
    match M.apply s e with
    | .ok t => events s e ++ M.project events t es
    | .error _ => events s e

/-- A part of a machine that makes a run of each event makes a run of all of them. -/
theorem Run.project {τ ζ μ : Type*} {M : Machine σ ε κ} {N : Machine τ ζ μ} (part : σ → τ)
    {events : σ → ε → List ζ} {I : σ → Prop} (inv : ∀ s e t, I s → M.Step s e t → I t)
    (step : ∀ s e t, I s → M.Step s e t → N.Run (part s) (events s e) (part t)) {s t : σ}
    {es : List ε} (h : M.Run s es t) (hs : I s) :
    N.Run (part s) (M.project events s es) (part t) := by
  induction h with
  | nil s => exact .nil (part s)
  | @cons s u t e es h₁ _ ih =>
    rw [Machine.project, h₁.2]
    exact (step s e u hs h₁).append (ih (inv s e u hs h₁))

/-- The run that a part makes, with what its events say of themselves. -/
theorem Run.part_traced {τ ζ μ ω : Type*} {M : Machine σ ε κ} {N : Machine τ ζ μ} (part : σ → τ)
    {said : ε → List ω} {heard : ζ → List ω} {I : σ → Prop}
    (inv : ∀ s e t, I s → M.Step s e t → I t)
    (step : ∀ s e t, I s → M.Step s e t → (part t = part s ∧ said e = []) ∨
      ∃ z, N.Step (part s) z (part t) ∧ heard z = said e)
    {s t : σ} {es : List ε} (h : M.Run s es t) (hs : I s) :
    ∃ zs, N.Run (part s) zs (part t) ∧ zs.flatMap heard = es.flatMap said := by
  induction h with
  | nil s => exact ⟨[], .nil (part s), rfl⟩
  | @cons s u t e es h₁ _ ih =>
    obtain ⟨zs, hrun, htrace⟩ := ih (inv s e u hs h₁)
    rcases step s e u hs h₁ with ⟨hsame, hquiet⟩ | ⟨z, hz, hheard⟩
    · rw [hsame] at hrun
      exact ⟨zs, hrun, by rw [htrace, List.flatMap_cons, hquiet, List.nil_append]⟩
    · exact ⟨z :: zs, .cons hz hrun, by rw [List.flatMap_cons, List.flatMap_cons, hheard, htrace]⟩

theorem guard_step {M : Machine σ ε κ} {P : σ → ε → Prop} {s t : σ} {e : ε} :
    (M.guard P).Step s e t ↔ P s e ∧ M.Step s e t := and_assoc

theorem Run.unguard {M : Machine σ ε κ} {P : σ → ε → Prop} {s t : σ} {es : List ε}
    (h : (M.guard P).Run s es t) : M.Run s es t := by
  induction h with
  | nil => exact .nil _
  | cons hs _ ih => exact .cons (guard_step.mp hs).2 ih

theorem Reachable.unguard {M : Machine σ ε κ} {P : σ → ε → Prop} {s t : σ}
    (h : (M.guard P).Reachable s t) : M.Reachable s t := by
  obtain ⟨es, h⟩ := h
  exact ⟨es, h.unguard⟩

theorem Run.deterministic {M : Machine σ ε κ} {s t t' : σ} {es : List ε} (h : M.Run s es t)
    (h' : M.Run s es t') : t = t' := by
  induction h with
  | nil =>
    cases h'
    rfl
  | @cons s u t e es hs _ ih =>
    cases h' with
    | @cons _ u' _ _ _ hs' hrest =>
      obtain rfl := Except.ok.inj (hs.2.symm.trans hs'.2)
      exact ih hrest

/-- A condition that all events of a run meet guards it. -/
theorem Run.guard_of_mem {M : Machine σ ε κ} {P : ε → Prop} {s t : σ} {es : List ε}
    (h : M.Run s es t) (hall : ∀ e ∈ es, P e) : (M.guard fun _ e => P e).Run s es t := by
  induction h with
  | nil => exact .nil _
  | cons hs _ ih =>
    exact .cons (guard_step.mpr ⟨hall _ List.mem_cons_self, hs⟩)
      (ih fun e he => hall e (List.mem_cons_of_mem _ he))

theorem Run.mem_of_guard {M : Machine σ ε κ} {P : ε → Prop} {s t : σ} {es : List ε}
    (h : (M.guard fun _ e => P e).Run s es t) : ∀ e ∈ es, P e := by
  induction h with
  | nil => simp
  | cons hs _ ih =>
    intro e he
    rcases List.mem_cons.mp he with rfl | he
    · exact (guard_step.mp hs).1
    · exact ih e he

theorem Run.guard_mono {M : Machine σ ε κ} {P Q : σ → ε → Prop} (hPQ : ∀ s e, P s e → Q s e)
    {s t : σ} {es : List ε} (h : (M.guard P).Run s es t) : (M.guard Q).Run s es t := by
  induction h with
  | nil => exact .nil _
  | cons hs _ ih =>
    obtain ⟨hP, hs⟩ := guard_step.mp hs
    exact .cons (guard_step.mpr ⟨hPQ _ _ hP, hs⟩) ih

theorem Reachable.guard_mono {M : Machine σ ε κ} {P Q : σ → ε → Prop} {s t : σ}
    (h : (M.guard P).Reachable s t) (hPQ : ∀ s e, P s e → Q s e) : (M.guard Q).Reachable s t := by
  obtain ⟨es, h⟩ := h
  exact ⟨es, h.guard_mono hPQ⟩

/-- Two conditions that agree on the steps that a run can take guard it alike. -/
theorem Run.guard_congr {M : Machine σ ε κ} {P Q : σ → ε → Prop} {I : σ → Prop}
    (step : ∀ s e t, I s → M.Step s e t → I t)
    (hPQ : ∀ s e t, I s → M.Step s e t → (P s e ↔ Q s e)) {s t : σ} {es : List ε} (hs : I s) :
    (M.guard P).Run s es t ↔ (M.guard Q).Run s es t := by
  constructor
  · intro h
    induction h with
    | nil => exact .nil _
    | cons h₁ _ ih =>
      obtain ⟨hP, h₁⟩ := guard_step.mp h₁
      exact .cons (guard_step.mpr ⟨(hPQ _ _ _ hs h₁).1 hP, h₁⟩) (ih (step _ _ _ hs h₁))
  · intro h
    induction h with
    | nil => exact .nil _
    | cons h₁ _ ih =>
      obtain ⟨hQ, h₁⟩ := guard_step.mp h₁
      exact .cons (guard_step.mpr ⟨(hPQ _ _ _ hs h₁).2 hQ, h₁⟩) (ih (step _ _ _ hs h₁))

/-- Every state that the events lead through is good. -/
def Always (M : Machine σ ε κ) (Good : σ → Prop) (s : σ) (es : List ε) : Prop :=
  ∀ pre, pre <+: es → ∀ t, M.Run s pre t → Good t

theorem always_cons {M : Machine σ ε κ} {Good : σ → Prop} {s t : σ} {e : ε} {es : List ε}
    (h : M.Step s e t) : M.Always Good s (e :: es) ↔ Good s ∧ M.Always Good t es := by
  constructor
  · intro hall
    refine ⟨hall [] List.nil_prefix s (.nil s), ?_⟩
    intro pre hpre u hu
    exact hall (e :: pre) (List.cons_prefix_cons.mpr ⟨rfl, hpre⟩) u (.cons h hu)
  · rintro ⟨hs, hall⟩ pre hpre u hu
    cases hu with
    | nil => exact hs
    | @cons _ t' _ e' pre h' hu =>
      obtain ⟨he, hrest⟩ := List.cons_prefix_cons.mp hpre
      obtain rfl := he
      obtain rfl := Except.ok.inj (h.2.symm.trans h'.2)
      exact hall pre hrest u hu

/-- When a step from a good state leads to a good one exactly under a condition, the states
of a run are good exactly when its steps meet the condition. -/
theorem Run.always_iff {M : Machine σ ε κ} {I Good : σ → Prop} {C : σ → ε → Prop}
    (inv : ∀ s e t, I s → M.Step s e t → I t)
    (step : ∀ s e t, I s → Good s → M.Step s e t → (Good t ↔ C s e)) {s t : σ} {es : List ε}
    (h : M.Run s es t) (hs : I s) (hg : Good s) :
    M.Always Good s es ↔ (M.guard C).Run s es t := by
  induction h with
  | nil s =>
    constructor
    · exact fun _ => .nil s
    · intro _ pre hpre u hu
      obtain rfl := List.prefix_nil.mp hpre
      cases hu
      exact hg
  | @cons s u t e es h₁ _ ih =>
    have hiff := step s e u hs hg h₁
    rw [always_cons h₁]
    constructor
    · rintro ⟨-, hall⟩
      have hu : Good u := hall [] List.nil_prefix u (.nil u)
      exact .cons (guard_step.mpr ⟨hiff.1 hu, h₁⟩) ((ih (inv s e u hs h₁) hu).1 hall)
    · intro hrun
      cases hrun with
      | @cons _ u' _ _ _ h₁' hrest =>
        obtain ⟨hC, h₁'⟩ := guard_step.mp h₁'
        obtain rfl := Except.ok.inj (h₁.2.symm.trans h₁'.2)
        have hu := hiff.2 hC
        exact ⟨hg, (ih (inv s e u hs h₁) hu).2 hrest⟩

/-- The machine beside a record of its run: `next` says what a step adds to the record. -/
def record {γ : Type*} (M : Machine σ ε κ) (next : σ → ε → σ → γ → γ) :
    Machine (σ × γ) ε κ where
  Enabled p e := M.Enabled p.1 e
  apply p e := (M.apply p.1 e).map fun t => (t, next p.1 e t p.2)

section Record
variable {γ : Type*} {M : Machine σ ε κ} {next : σ → ε → σ → γ → γ}

theorem record_step {p q : σ × γ} {e : ε} :
    (M.record next).Step p e q ↔ M.Step p.1 e q.1 ∧ q.2 = next p.1 e q.1 p.2 := by
  constructor
  · rintro ⟨henabled, happly⟩
    cases ht : M.apply p.1 e with
    | error error =>
      simp only [record, ht] at happly
      cases happly
    | ok t =>
      simp only [record, ht] at happly
      obtain rfl := Except.ok.inj happly
      exact ⟨⟨henabled, ht⟩, rfl⟩
  · rintro ⟨⟨henabled, happly⟩, hnext⟩
    refine ⟨henabled, ?_⟩
    simp only [record, happly, Except.map]
    rw [← hnext]

theorem Run.unrecord {p q : σ × γ} {es : List ε} (h : (M.record next).Run p es q) :
    M.Run p.1 es q.1 := by
  induction h with
  | nil => exact .nil _
  | cons hs _ ih => exact .cons (record_step.mp hs).1 ih

/-- Every run has a record. -/
theorem Run.recorded {s t : σ} {es : List ε} (h : M.Run s es t) (g : γ) :
    ∃ g', (M.record next).Run (s, g) es (t, g') := by
  induction h generalizing g with
  | nil s => exact ⟨g, .nil (s, g)⟩
  | @cons s t u e es hs _ ih =>
    obtain ⟨g', hg'⟩ := ih (next s e t g)
    exact ⟨g', .cons (record_step.mpr ⟨hs, rfl⟩) hg'⟩

end Record

/-- Unwinding: when hidden steps stay inside `R` and every other step is matched by
the same step on the right, the hidden events can be deleted from a run. -/
theorem Run.purge {M : Machine σ ε κ} {R : σ → σ → Prop} (hidden : ε → Prop) [DecidablePred hidden]
    (skip : ∀ s s' e t, R s s' → hidden e → M.Step s e t → R t s')
    (keep : ∀ s s' e t, R s s' → ¬ hidden e → M.Step s e t → ∃ t', M.Step s' e t' ∧ R t t')
    {s s' t : σ} {es : List ε} (h : M.Run s es t) (hR : R s s') :
    ∃ t', M.Run s' (es.filter (fun e => ¬ hidden e)) t' ∧ R t t' := by
  induction h generalizing s' with
  | nil => exact ⟨s', .nil s', hR⟩
  | @cons s u t e es hs _ ih =>
    by_cases he : hidden e
    · simpa [he] using ih (skip _ _ _ _ hR he hs)
    · obtain ⟨u', hu, hRu⟩ := keep _ _ _ _ hR he hs
      obtain ⟨t', ht, hRt⟩ := ih hRu
      exact ⟨t', by simpa [he] using Run.cons hu ht, hRt⟩

instance {M : Machine σ ε κ} {P : σ → ε → Prop} (s : σ) (e : ε) [Decidable (P s e)]
    [Decidable (M.Enabled s e)] : Decidable ((M.guard P).Enabled s e) :=
  inferInstanceAs (Decidable (_ ∧ _))

/-- Execution of an event list; `none` when some event is not enabled or is not
answered. -/
def exec (M : Machine σ ε κ) [∀ s e, Decidable (M.Enabled s e)] (s : σ) : List ε → Option σ
  | [] => some s
  | e :: es =>
    if M.Enabled s e then
      match M.apply s e with
      | .ok t => exec M t es
      | .error _ => none
    else none

theorem run_of_exec {M : Machine σ ε κ} [∀ s e, Decidable (M.Enabled s e)] {s t : σ} {es : List ε}
    (h : M.exec s es = some t) : M.Run s es t := by
  induction es generalizing s with
  | nil =>
    obtain rfl : s = t := by simpa [exec] using h
    exact .nil s
  | cons e es ih =>
    simp only [exec] at h
    split_ifs at h with he
    split at h
    · exact .cons ⟨he, by assumption⟩ (ih h)
    · cases h

theorem run_exec_get {M : Machine σ ε κ} [∀ s e, Decidable (M.Enabled s e)] {s : σ} {es : List ε}
    (h : (M.exec s es).isSome) : M.Run s es ((M.exec s es).get h) :=
  run_of_exec (Option.some_get h).symm

end Machine

/-- A loop that may throw keeps what each of its rounds keeps. -/
theorem List.foldlM_invariant {σ α κ : Type} {f : σ → α → Except κ σ} {I : σ → Prop}
    (step : ∀ s a t, I s → f s a = .ok t → I t) {l : List α} {s t : σ}
    (h : l.foldlM f s = .ok t) (hs : I s) : I t := by
  induction l generalizing s with
  | nil =>
    obtain rfl := Except.ok.inj h
    exact hs
  | cons a l ih =>
    rw [List.foldlM_cons] at h
    cases ha : f s a with
    | error e => simp [ha, bind, Except.bind] at h
    | ok u =>
      rw [ha] at h
      exact ih h (step s a u hs ha)
