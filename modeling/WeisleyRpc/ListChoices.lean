import Mathlib.Data.List.Induction
import Mathlib.Order.Basic
import Mathlib.Order.Nat
import Mathlib.Data.List.Count
import Mathlib.Data.List.Nodup
import Mathlib.Data.List.Rotate

/-!
# Choosing an item of a list

Two ways to choose. A weighted cycle repeats every item as often as its weight; the copies
of one item form a block, and a cursor that goes round visits the blocks in their order. A
scan keeps the item that costs least, the first one where several do.
-/

namespace WeightedCycle
variable {α : Type*} (weight : α → ℕ)

def expand (xs : List α) : List α := xs.flatMap fun x => List.replicate (weight x) x

def total : List α → ℕ
  | [] => 0
  | x :: xs => weight x + total xs

/-- The copies of item `k` stand at these positions. -/
def InBlock (xs : List α) (k position : ℕ) : Prop :=
  total weight (xs.take k) ≤ position ∧ position < total weight (xs.take (k + 1))

instance (xs : List α) (k position : ℕ) : Decidable (InBlock weight xs k position) :=
  inferInstanceAs (Decidable (_ ∧ _))

/-- The item whose copies a position lies among. -/
def block : List α → ℕ → ℕ
  | [], _ => 0
  | x :: xs, position =>
    if position < weight x then 0 else block xs (position - weight x) + 1

section
variable {weight} {xs : List α} {position k : ℕ}

@[simp] theorem total_nil : total weight [] = 0 := rfl

@[simp] theorem total_cons (x : α) : total weight (x :: xs) = weight x + total weight xs := rfl

theorem length_expand : (expand weight xs).length = total weight xs := by
  induction xs with
  | nil => rfl
  | cons x xs ih =>
    rw [expand, List.flatMap_cons, List.length_append, List.length_replicate, total_cons]
    exact congrArg (weight x + ·) ih

theorem length_le_total (hw : ∀ x ∈ xs, 0 < weight x) : xs.length ≤ total weight xs := by
  induction xs with
  | nil => exact Nat.zero_le _
  | cons x xs ih =>
    have hx := hw x List.mem_cons_self
    have hxs := ih fun y hy => hw y (List.mem_cons_of_mem _ hy)
    rw [List.length_cons, total_cons]
    omega

theorem getElem?_expand (h : position < total weight xs) :
    (expand weight xs)[position]? = xs[block weight xs position]? := by
  induction xs generalizing position with
  | nil => exact absurd h (Nat.not_lt_zero _)
  | cons x xs ih =>
    rw [expand, List.flatMap_cons, block]
    split_ifs with hx
    · rw [List.getElem?_append_left (by simpa using hx), List.getElem?_replicate, if_pos hx]
      rfl
    · rw [total_cons] at h
      have hle : (List.replicate (weight x) x).length ≤ position := by
        simpa using Nat.le_of_not_lt hx
      rw [List.getElem?_append_right hle, List.length_replicate, List.getElem?_cons_succ]
      exact ih (by omega)

theorem inBlock_zero (x : α) : InBlock weight (x :: xs) 0 position ↔ position < weight x := by
  simp [InBlock]

theorem inBlock_succ (x : α) : InBlock weight (x :: xs) (k + 1) position ↔
    weight x ≤ position ∧ InBlock weight xs k (position - weight x) := by
  simp only [InBlock, List.take_succ_cons, total_cons]
  omega

theorem block_eq_iff (h : position < total weight xs) :
    block weight xs position = k ↔ InBlock weight xs k position := by
  induction xs generalizing position k with
  | nil => exact absurd h (Nat.not_lt_zero _)
  | cons x xs ih =>
    rw [total_cons] at h
    rw [block]
    cases k with
    | zero =>
      rw [inBlock_zero]
      split_ifs with hx
      · simp [hx]
      · simp [hx]
    | succ k =>
      rw [inBlock_succ]
      split_ifs with hx
      · simpa using fun hle => absurd hle (Nat.not_le.2 hx)
      · rw [Nat.succ_inj, ih (by omega), and_iff_right (Nat.le_of_not_lt hx)]

/-- The positions of a whole round, beginning anywhere. -/
theorem range_rotate_perm (n cursor : ℕ) :
    ((List.range n).map fun i => (cursor + i) % n).Perm (List.range n) := by
  have heq : ((List.range n).map fun i => (cursor + i) % n) = (List.range n).rotate cursor := by
    refine List.ext_getElem (by simp) ?_
    intro i hi hi'
    simp [List.getElem_rotate, Nat.add_comm]
  rw [heq]
  exact List.rotate_perm _ _

theorem count_block (h : k < xs.length) :
    ((List.range (total weight xs)).map (block weight xs)).count k = weight xs[k] := by
  induction xs generalizing k with
  | nil => exact absurd h (Nat.not_lt_zero _)
  | cons x xs ih =>
    have hhead : (List.range (weight x)).map (block weight (x :: xs)) =
        List.replicate (weight x) 0 := by
      refine List.eq_replicate_iff.2 ⟨by simp, ?_⟩
      intro j hj
      obtain ⟨i, hi, rfl⟩ := List.mem_map.1 hj
      rw [block, if_pos (List.mem_range.1 hi)]
    have htail : (List.range (total weight xs)).map
        (fun i => block weight (x :: xs) (weight x + i)) =
        ((List.range (total weight xs)).map (block weight xs)).map (· + 1) := by
      rw [List.map_map]
      refine List.map_congr_left ?_
      intro i _
      rw [block, if_neg (by omega), Nat.add_sub_cancel_left]
      rfl
    rw [total_cons, List.range_add, List.map_append, hhead, List.map_map, List.count_append,
      List.count_replicate]
    have hcomp : block weight (x :: xs) ∘ (weight x + ·) =
        fun i => block weight (x :: xs) (weight x + i) := rfl
    rw [hcomp, htail]
    cases k with
    | zero =>
      have hnot : 0 ∉ ((List.range (total weight xs)).map (block weight xs)).map (· + 1) := by simp
      rw [List.count_eq_zero_of_not_mem hnot]
      simp
    | succ k =>
      rw [List.count_map_of_injective _ _ Nat.succ_injective, ih (Nat.lt_of_succ_lt_succ h)]
      simp

/-- A whole round visits every item as often as its weight. -/
theorem count_turns (cursor : ℕ) (h : k < xs.length) :
    ((List.range (total weight xs)).map fun i =>
      block weight xs ((cursor + i) % total weight xs)).count k = weight xs[k] := by
  have hperm := (range_rotate_perm (total weight xs) cursor).map (block weight xs)
  rw [List.map_map] at hperm
  exact (hperm.count_eq k).trans (count_block h)

theorem total_one : total (fun _ => 1) xs = xs.length := by
  induction xs with
  | nil => rfl
  | cons x xs ih => rw [total_cons, ih, List.length_cons, Nat.add_comm]

theorem block_one (h : position < xs.length) : block (fun _ => 1) xs position = position := by
  induction xs generalizing position with
  | nil => exact absurd h (Nat.not_lt_zero _)
  | cons x xs ih =>
    rw [block]
    split_ifs with hlt
    · omega
    · rw [List.length_cons] at h
      rw [ih (by omega)]
      omega

end
end WeightedCycle

/-- `x` at position `k` costs least, and every item before it costs more. -/
structure FirstLeast {α : Type*} (cost : α → ℕ) (xs : List α) (k : ℕ) (x : α) : Prop where
  get : xs[k]? = some x
  least : ∀ y ∈ xs, cost x ≤ cost y
  first : ∀ y ∈ xs.take k, cost x < cost y

namespace FirstLeast
variable {α : Type*} {cost : α → ℕ} {xs : List α} {k j : ℕ} {x y : α}

theorem lt (h : FirstLeast cost xs k x) : k < xs.length := (List.getElem?_eq_some_iff.1 h.get).1

theorem mem (h : FirstLeast cost xs k x) : x ∈ xs := List.mem_of_getElem? h.get

theorem not_before (h : FirstLeast cost xs k x) (h' : FirstLeast cost xs j y) : ¬ k < j := by
  intro hlt
  have hmem : x ∈ xs.take j := by
    refine List.mem_of_getElem? (i := k) ?_
    rw [List.getElem?_take_of_lt hlt]
    exact h.get
  exact absurd (h'.first x hmem) (Nat.not_lt.2 (h.least y h'.mem))

theorem unique (h : FirstLeast cost xs k x) (h' : FirstLeast cost xs j y) : k = j := by
  have hkj := h.not_before h'
  have hjk := h'.not_before h
  omega

/-- One item of the scan, with the best item so far and its cost. -/
def keepLess (cost : α → ℕ) (best : α × ℕ) (x : α) : α × ℕ :=
  if cost x < best.2 then (x, cost x) else best

theorem singleton (cost : α → ℕ) (x : α) : FirstLeast cost [x] 0 x := by
  refine ⟨rfl, ?_, ?_⟩
  · intro y hy
    rw [List.mem_singleton.1 hy]
  · intro y hy
    exact absurd hy (by simp)

theorem kept (h : FirstLeast cost xs k x) (hy : cost x ≤ cost y) :
    FirstLeast cost (xs ++ [y]) k x := by
  refine ⟨?_, ?_, ?_⟩
  · rw [List.getElem?_append_left h.lt]
    exact h.get
  · intro z hz
    rcases List.mem_append.1 hz with hz | hz
    · exact h.least z hz
    · rw [List.mem_singleton.1 hz]
      exact hy
  · rw [List.take_append_of_le_length h.lt.le]
    exact h.first

theorem replaced (h : FirstLeast cost xs k x) (hy : cost y < cost x) :
    FirstLeast cost (xs ++ [y]) xs.length y := by
  refine ⟨List.getElem?_concat_length, ?_, ?_⟩
  · intro z hz
    rcases List.mem_append.1 hz with hz | hz
    · exact hy.le.trans (h.least z hz)
    · rw [List.mem_singleton.1 hz]
  · rw [List.take_left]
    intro z hz
    exact hy.trans_le (h.least z hz)

theorem scan (cost : α → ℕ) (x : α) (xs : List α) :
    ∃ k y, FirstLeast cost (x :: xs) k y ∧
      xs.foldl (keepLess cost) (x, cost x) = (y, cost y) := by
  induction xs using List.reverseRecOn with
  | nil => exact ⟨0, x, singleton cost x, rfl⟩
  | append_singleton xs z ih =>
    obtain ⟨k, y, h, hfold⟩ := ih
    rw [List.foldl_append, hfold, List.foldl_cons, List.foldl_nil, keepLess]
    split_ifs with hz
    · exact ⟨(x :: xs).length, z, h.replaced hz, rfl⟩
    · exact ⟨k, y, h.kept (Nat.le_of_not_lt hz), rfl⟩

end FirstLeast
