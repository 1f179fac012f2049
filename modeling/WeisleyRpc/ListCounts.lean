import Mathlib.Algebra.Ring.Nat
import Mathlib.Data.List.Count
import Mathlib.Data.List.Forall2
import Mathlib.Data.List.Nodup
import Mathlib.Data.List.Perm.Subperm

/-!
# Counting in a list by position and by key

Different positions in the parts of a list hold at most as many items as the list has. The items
that have one of several different keys are at most all items.
-/

namespace ListCounts
variable {α β κ : Type*}

/-- The items of the parts, each with the number of its part and its place there. -/
def indexed (parts : List (List α)) : List ((ℕ × ℕ) × α) :=
  parts.zipIdx.flatMap fun part => part.1.zipIdx.map fun item => ((part.2, item.2), item.1)

theorem map_indexed (parts : List (List α)) : (indexed parts).map Prod.snd = parts.flatten := by
  have hpart : ∀ part : List α × ℕ, (part.1.zipIdx.map fun item =>
      ((part.2, item.2), item.1)).map Prod.snd = part.1 := by
    intro part
    rw [List.map_map]
    exact List.zipIdx_map_fst 0 part.1
  rw [indexed, List.map_flatMap]
  simp only [hpart]
  rw [List.flatMap_def]
  exact congrArg List.flatten (List.zipIdx_map_fst 0 parts)

theorem mem_indexed {parts : List (List α)} {position : ℕ × ℕ} {part : List α} {a : α}
    (hpart : parts[position.1]? = some part) (ha : part[position.2]? = some a) :
    (position, a) ∈ indexed parts :=
  List.mem_flatMap.mpr ⟨(part, position.1), List.mem_zipIdx_iff_getElem?.mpr hpart,
    List.mem_map.mpr ⟨(a, position.2), List.mem_zipIdx_iff_getElem?.mpr ha, rfl⟩⟩

theorem length_le_countP {parts : List (List α)} {p : α → Bool} {ks : List κ}
    {position : κ → ℕ × ℕ} (hn : (ks.map position).Nodup) (h : ∀ k ∈ ks, ∃ part a,
      parts[(position k).1]? = some part ∧ part[(position k).2]? = some a ∧ p a = true) :
    ks.length ≤ parts.flatten.countP p := by
  have hsub : ks.map position ⊆ ((indexed parts).filter fun x => p x.2).map Prod.fst := by
    intro n hn
    obtain ⟨k, hk, rfl⟩ := List.mem_map.mp hn
    obtain ⟨part, a, hpart, ha, hp⟩ := h k hk
    exact List.mem_map.mpr ⟨(position k, a),
      List.mem_filter.mpr ⟨mem_indexed hpart ha, hp⟩, rfl⟩
  calc ks.length = (ks.map position).length := (List.length_map _).symm
    _ ≤ (((indexed parts).filter fun x => p x.2).map Prod.fst).length :=
      (List.subperm_of_subset hn hsub).length_le
    _ = parts.flatten.countP p := by
      rw [List.length_map, ← List.countP_eq_length_filter, ← map_indexed parts, List.countP_map]
      rfl

theorem eq_of_countP_le_one {p : α → Bool} {l : List α} (h : l.countP p ≤ 1) {a b : α}
    (ha : a ∈ l) (hpa : p a = true) (hb : b ∈ l) (hpb : p b = true) : a = b := by
  rw [List.countP_eq_length_filter] at h
  have ha' : a ∈ l.filter p := List.mem_filter.mpr ⟨ha, hpa⟩
  have hb' : b ∈ l.filter p := List.mem_filter.mpr ⟨hb, hpb⟩
  cases hf : l.filter p with
  | nil =>
    rw [hf] at ha'
    cases ha'
  | cons x rest =>
    rw [hf, List.length_cons] at h
    obtain rfl : rest = [] := List.eq_nil_of_length_eq_zero (by omega)
    rw [hf, List.mem_singleton] at ha' hb'
    rw [ha', hb']

theorem countP_le_of_forall₂ {R : α → β → Prop} {p : α → Bool} {q : β → Bool}
    (hpq : ∀ a b, R a b → q b = true → p a = true) {l : List α} {l' : List β}
    (h : List.Forall₂ R l l') : l'.countP q ≤ l.countP p := by
  induction h with
  | nil => exact Nat.le_refl _
  | @cons a b l l' hab _ ih =>
    rw [List.countP_cons, List.countP_cons]
    by_cases hb : q b = true
    · rw [if_pos hb, if_pos (hpq a b hab hb)]
      exact Nat.add_le_add_right ih 1
    · rw [if_neg hb]
      exact Nat.le_trans ih (Nat.le_add_right _ _)

/-- Counted key by key. -/
theorem sum_countP_le [DecidableEq κ] (key : α → κ) (p : α → Bool) {keys : List κ}
    (hn : keys.Nodup) (l : List α) :
    (keys.map fun k => l.countP fun a => decide (key a = k) && p a).sum ≤ l.countP p := by
  induction keys generalizing l with
  | nil => exact Nat.zero_le _
  | cons k keys ih =>
    obtain ⟨hk, hn⟩ := List.nodup_cons.mp hn
    have hrest : ∀ k' ∈ keys, (l.countP fun a => decide (key a = k') && p a) =
        (l.filter fun a => !decide (key a = k)).countP fun a => decide (key a = k') && p a := by
      intro k' hk'
      rw [List.countP_filter]
      refine List.countP_congr fun a _ => ?_
      have hne : key a = k' → key a ≠ k := fun h h' => hk (h' ▸ h ▸ hk')
      grind
    have hsplit := List.countP_eq_countP_filter_add l p fun a => decide (key a = k)
    have hhead : (l.countP fun a => decide (key a = k) && p a) =
        (l.filter fun a => decide (key a = k)).countP p := by
      rw [List.countP_filter]
      exact List.countP_congr fun a _ => by rw [Bool.and_comm]
    rw [List.map_cons, List.sum_cons, List.map_congr_left hrest, hsplit, hhead]
    exact Nat.add_le_add_left (ih hn _) _

/-- Where each key counts for at most `n`, and for nothing if it fails the test. -/
theorem sum_le_mul_countP (f : κ → ℕ) (p : κ → Bool) (n : ℕ) (keys : List κ)
    (h : ∀ k ∈ keys, f k ≤ if p k then n else 0) : (keys.map f).sum ≤ n * keys.countP p := by
  induction keys with
  | nil => simp
  | cons k keys ih =>
    have hhead := h k List.mem_cons_self
    have htail := ih fun k' hk' => h k' (List.mem_cons_of_mem _ hk')
    rw [List.map_cons, List.sum_cons, List.countP_cons, Nat.mul_add]
    by_cases hp : p k = true
    · rw [if_pos hp] at hhead ⊢
      omega
    · rw [if_neg hp] at hhead ⊢
      omega

/-- The items with one of the keys, counted key by key. -/
theorem countP_mem_le [DecidableEq κ] (key : α → κ) (keys : List κ) (l : List α) :
    (l.countP fun a => key a ∈ keys) ≤ (keys.map fun k => l.countP fun a => key a = k).sum := by
  induction keys with
  | nil => simp
  | cons k keys ih =>
    have hunion : (l.countP fun a => key a ∈ k :: keys) ≤
        (l.countP fun a => key a = k) + l.countP fun a => key a ∈ keys := by
      clear ih
      induction l with
      | nil => exact Nat.le_refl _
      | cons a l ih =>
        simp only [List.countP_cons, List.mem_cons, decide_eq_true_eq] at ih ⊢
        by_cases hk : key a = k
        · simp only [hk, true_or, if_true]
          omega
        · simp only [hk, false_or, if_false]
          omega
    rw [List.map_cons, List.sum_cons]
    omega

end ListCounts
