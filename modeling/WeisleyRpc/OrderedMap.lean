import Mathlib.Data.List.Nodup

/-!
# Insertion-ordered maps

Finite maps that remember the order in which their keys were first inserted.
Overwriting a key keeps its place; a deleted key that comes back goes to the end.
-/

@[ext]
structure OrderedMap (κ ν : Type*) where
  entries : List (κ × ν)
  nodup : (entries.map Prod.fst).Nodup

namespace OrderedMap
variable {κ ν : Type*} [DecidableEq κ]

def empty : OrderedMap κ ν := ⟨[], List.nodup_nil⟩

def find : List (κ × ν) → κ → Option ν
  | [], _ => none
  | (k', v) :: es, k => if k' = k then some v else find es k

def put (k : κ) (v : ν) : List (κ × ν) → List (κ × ν)
  | [] => [(k, v)]
  | (k', v') :: es => if k' = k then (k, v) :: es else (k', v') :: put k v es

def get (m : OrderedMap κ ν) (k : κ) : Option ν := find m.entries k

theorem map_fst_put (k : κ) (v : ν) (es : List (κ × ν)) :
    (put k v es).map Prod.fst =
      if k ∈ es.map Prod.fst then es.map Prod.fst else es.map Prod.fst ++ [k] := by
  induction es with
  | nil => simp [put]
  | cons e es ih =>
    obtain ⟨k', v'⟩ := e
    by_cases h : k' = k
    · simp [put, h]
    · by_cases hm : k ∈ es.map Prod.fst
      · simp only [put, h, if_false, List.map_cons, ih, List.mem_cons, hm, or_true, if_true]
      · simp only [put, h, if_false, List.map_cons, ih, List.mem_cons, hm,
          or_false, Ne.symm h, List.cons_append]

def set (m : OrderedMap κ ν) (k : κ) (v : ν) : OrderedMap κ ν where
  entries := put k v m.entries
  nodup := by
    rw [map_fst_put]
    split_ifs with h
    · exact m.nodup
    · simpa [List.nodup_append] using ⟨m.nodup, fun a b hab hak => h (by
        subst hak; exact List.mem_map_of_mem hab)⟩

def delete (m : OrderedMap κ ν) (k : κ) : OrderedMap κ ν where
  entries := m.entries.filter (fun e => e.1 ≠ k)
  nodup := m.nodup.sublist (List.filter_sublist.map _)

theorem find_filter (es : List (κ × ν)) (k l : κ) :
    find (es.filter (fun e => e.1 ≠ k)) l = if l = k then none else find es l := by
  induction es with
  | nil => simp [find]
  | cons e es ih =>
    obtain ⟨k', v⟩ := e
    by_cases hk : k' = k
    · subst hk
      by_cases hl : l = k'
      · simpa [find, hl] using ih
      · simpa [find, hl, Ne.symm hl] using ih
    · by_cases hl : l = k'
      · subst hl
        simp [find, hk]
      · simp only [ne_eq, hk, not_false_eq_true, decide_true, List.filter_cons_of_pos, find,
          Ne.symm hl, if_false]
        exact ih

theorem find_put (es : List (κ × ν)) (k l : κ) (v : ν) :
    find (put k v es) l = if l = k then some v else find es l := by
  induction es with
  | nil => simp [put, find, eq_comm]
  | cons e es ih =>
    obtain ⟨k', v'⟩ := e
    by_cases hk : k' = k
    · subst hk
      by_cases hl : l = k' <;> simp [put, find, hl, eq_comm]
    · by_cases hl : k' = l
      · subst hl
        simp [put, find, hk]
      · simp only [put, hk, if_false, find, hl, ih]

@[simp] theorem get_empty (k : κ) : (empty : OrderedMap κ ν).get k = none := rfl

@[simp] theorem get_set (m : OrderedMap κ ν) (k l : κ) (v : ν) :
    (m.set k v).get l = if l = k then some v else m.get l := find_put m.entries k l v

@[simp] theorem get_delete (m : OrderedMap κ ν) (k l : κ) :
    (m.delete k).get l = if l = k then none else m.get l := find_filter m.entries k l

theorem find_eq_some_iff {es : List (κ × ν)} (hn : (es.map Prod.fst).Nodup) {k : κ} {v : ν} :
    find es k = some v ↔ (k, v) ∈ es := by
  induction es with
  | nil => simp [find]
  | cons e es ih =>
    obtain ⟨k', v'⟩ := e
    rw [List.map_cons, List.nodup_cons] at hn
    by_cases hk : k' = k
    · subst hk
      have hne : (k', v) ∉ es := fun h => hn.1 (List.mem_map.mpr ⟨_, h, rfl⟩)
      simp [find, hne, eq_comm]
    · simp [find, hk, Ne.symm hk, ih hn.2]

theorem get_eq_some_iff (m : OrderedMap κ ν) {k : κ} {v : ν} :
    m.get k = some v ↔ (k, v) ∈ m.entries := find_eq_some_iff m.nodup

theorem entries_eq_nil_iff (m : OrderedMap κ ν) : m.entries = [] ↔ ∀ k, m.get k = none := by
  constructor
  · intro h k
    simp [get, h, find]
  · intro h
    cases he : m.entries with
    | nil => rfl
    | cons e es =>
      have hm : m.get e.1 = some e.2 := m.get_eq_some_iff.mpr (by simp [he])
      simp [h e.1] at hm

/-- Deletion of several keys, one after the other. -/
def deleteAll (m : OrderedMap κ ν) (ks : List κ) : OrderedMap κ ν := ks.foldl delete m

@[simp] theorem deleteAll_nil (m : OrderedMap κ ν) : m.deleteAll [] = m := rfl

theorem deleteAll_cons (m : OrderedMap κ ν) (k : κ) (ks : List κ) :
    m.deleteAll (k :: ks) = (m.delete k).deleteAll ks := rfl

theorem deleteAll_append (m : OrderedMap κ ν) (ks ls : List κ) :
    m.deleteAll (ks ++ ls) = (m.deleteAll ks).deleteAll ls := List.foldl_append ..

@[simp] theorem get_deleteAll (m : OrderedMap κ ν) (ks : List κ) (l : κ) :
    (m.deleteAll ks).get l = if l ∈ ks then none else m.get l := by
  induction ks generalizing m with
  | nil => simp
  | cons k ks ih =>
    rw [deleteAll_cons, ih, get_delete]
    by_cases hk : l = k <;> by_cases hl : l ∈ ks <;> simp [hk, hl]

theorem eq_empty_iff (m : OrderedMap κ ν) : m = empty ↔ ∀ k, m.get k = none := by
  rw [OrderedMap.ext_iff]
  exact m.entries_eq_nil_iff

/-- Deleting every key while iterating over the map leaves it empty. -/
theorem deleteAll_keys (m : OrderedMap κ ν) : m.deleteAll (m.entries.map Prod.fst) = empty := by
  rw [eq_empty_iff]
  intro k
  rw [get_deleteAll]
  split_ifs with h
  · rfl
  · cases hg : m.get k with
    | none => rfl
    | some v => exact absurd (List.mem_map_of_mem (m.get_eq_some_iff.mp hg)) h

end OrderedMap
