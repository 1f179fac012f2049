import WeisleyRpc.Framing

/-!
# Framed streams that are rejected

A receiver that takes chunk after chunk hands over what each chunk completes, until a
chunk ends in an error. The items which that chunk had completed before the error are
lost with it, so what is handed over depends on where the stream was cut.
-/

namespace Framer
variable {α β ε : Type*} {F : Framer α β ε}

/-- How much of the input the accepted frames at its front take. -/
def accepted (F : Framer α β ε) (xs : List α) : ℕ :=
  match _h : F.front xs with
  | .frame n (.ok _) => n + accepted F (xs.drop n)
  | _ => 0
termination_by xs.length
decreasing_by
  have hn := F.size_pos ‹_›
  simp only [List.length_drop]
  omega

/-- What is handed over until the first chunk that ends in an error. -/
def collect (F : Framer α β ε) : List α → List (List α) → List β
  | _, [] => []
  | held, c :: cs =>
    match (F.parse (held ++ c)).error with
    | some _ => []
    | none => (F.parse (held ++ c)).items ++ collect F (F.parse (held ++ c)).rest cs

theorem accepted_frame {xs : List α} {n : ℕ} {b : β} (h : F.front xs = .frame n (.ok b)) :
    F.accepted xs = n + F.accepted (xs.drop n) := by
  rw [accepted]
  split
  · rename_i n' b' hf
    cases hf.symm.trans h
    rfl
  · rename_i hno
    exact (hno n b h).elim

theorem accepted_of_ne (xs : List α) (h : ∀ n b, F.front xs ≠ .frame n (.ok b)) :
    F.accepted xs = 0 := by
  rw [accepted]
  split
  · exact absurd ‹_› (h _ _)
  · rfl

theorem accepted_add_rest {xs : List α} (h : (F.parse xs).error = none) :
    F.accepted xs + (F.parse xs).rest.length = xs.length := by
  induction xs using stream_induction F with
  | more xs hx => simp [accepted_of_ne (F := F) xs (by simp [hx]), parse_more hx]
  | fatal xs e hx => simp [parse_fatal hx] at h
  | rejected xs n e hx => simp [parse_rejected hx] at h
  | accepted xs n b hx ih =>
    have hn := F.size_pos hx
    rw [parse_accepted hx] at h ⊢
    have hrest := ih h
    rw [List.length_drop] at hrest
    rw [accepted_frame hx]
    change n + F.accepted (xs.drop n) + (F.parse (xs.drop n)).rest.length = xs.length
    omega

theorem items_eq_nil_iff {xs : List α} : (F.parse xs).items = [] ↔ F.accepted xs = 0 := by
  induction xs using stream_induction F with
  | more xs hx => simp [accepted_of_ne (F := F) xs (by simp [hx]), parse_more hx]
  | fatal xs e hx => simp [accepted_of_ne (F := F) xs (by simp [hx]), parse_fatal hx]
  | rejected xs n e hx => simp [accepted_of_ne (F := F) xs (by simp [hx]), parse_rejected hx]
  | accepted xs n b hx _ =>
    have hn := F.size_pos hx
    rw [parse_accepted hx, accepted_frame hx]
    simp only [reduceCtorEq, false_iff]
    omega

theorem accepted_append {xs : List α} (h : (F.parse xs).error = none) (ys : List α) :
    F.accepted (xs ++ ys) = F.accepted xs + F.accepted ((F.parse xs).rest ++ ys) := by
  induction xs using stream_induction F with
  | more xs hx => simp [accepted_of_ne (F := F) xs (by simp [hx]), parse_more hx]
  | fatal xs e hx => simp [parse_fatal hx] at h
  | rejected xs n e hx => simp [parse_rejected hx] at h
  | accepted xs n b hx ih =>
    have hn := F.size_pos hx
    rw [parse_accepted hx] at h ⊢
    rw [accepted_frame (F.frame_append hx ys), accepted_frame hx,
      List.drop_append_of_le_length hn.2, ih h, Nat.add_assoc]

theorem accepted_append_of_error {xs : List α} {e : ε} (h : (F.parse xs).error = some e)
    (ys : List α) : F.accepted (xs ++ ys) = F.accepted xs := by
  induction xs using stream_induction F with
  | more xs hx => simp [parse_more hx] at h
  | fatal xs e' hx =>
    rw [accepted_of_ne (F := F) xs (by simp [hx]), accepted_of_ne]
    simp [F.fatal_append hx ys]
  | rejected xs n e' hx =>
    rw [accepted_of_ne (F := F) xs (by simp [hx]), accepted_of_ne]
    simp [F.frame_append hx ys]
  | accepted xs n b hx ih =>
    have hn := F.size_pos hx
    rw [parse_accepted hx] at h
    rw [accepted_frame (F.frame_append hx ys), accepted_frame hx,
      List.drop_append_of_le_length hn.2, ih h]

/-- Input that needs more holds no frame, so the first one ends behind it. -/
theorem accepted_held {held : List α} (hh : F.front held = .more)
    (hframe : ∀ {xs n r}, F.front xs = .frame n r → F.front (xs.take n) = .frame n r)
    {c : List α} (h : F.accepted (held ++ c) ≤ held.length) : F.accepted (held ++ c) = 0 := by
  cases hf : F.front (held ++ c) with
  | more => exact accepted_of_ne _ (by simp [hf])
  | fatal e => exact accepted_of_ne _ (by simp [hf])
  | frame n r =>
    cases r with
    | error e => exact accepted_of_ne _ (by simp [hf])
    | ok b =>
      rw [accepted_frame hf] at h
      have hn : n ≤ held.length := by omega
      have ht := hframe hf
      rw [List.take_append_of_le_length hn] at ht
      have hheld := F.frame_append ht (held.drop n)
      rw [List.take_append_drop, hh] at hheld
      cases hheld

/-- Everything accepted is handed over exactly when no chunk that completes the rejection
of the stream completes an accepted frame as well. -/
theorem collect_eq_iff {held : List α} (hh : F.front held = .more)
    (hframe : ∀ {xs n r}, F.front xs = .frame n r → F.front (xs.take n) = .frame n r)
    (cs : List (List α)) :
    F.collect held cs = (F.parse (held ++ cs.flatten)).items ↔
      ∀ k < cs.length, (F.parse (held ++ (cs.take (k + 1)).flatten)).error ≠ none →
        F.accepted (held ++ cs.flatten) ≤ held.length + (cs.take k).flatten.length := by
  induction cs generalizing held with
  | nil => simp [collect, parse_more hh]
  | cons c cs ih =>
    cases he : (F.parse (held ++ c)).error with
    | some e =>
      rw [List.flatten_cons, ← List.append_assoc, parse_append_of_error he,
        accepted_append_of_error he]
      simp only [collect, he]
      rw [eq_comm, items_eq_nil_iff]
      constructor
      · intro hz k _ _
        omega
      · intro hk
        refine accepted_held hh hframe ?_
        simpa [he] using hk 0 (by simp)
    | none =>
      have hrest := accepted_add_rest he
      rw [List.length_append] at hrest
      rw [List.flatten_cons, ← List.append_assoc, parse_append he, accepted_append he]
      simp only [collect, he, List.append_cancel_left_eq]
      rw [ih (front_rest he)]
      constructor
      · intro hk k hlt herr
        cases k with
        | zero => simp [he] at herr
        | succ k =>
          rw [List.take_succ_cons, List.flatten_cons, ← List.append_assoc, parse_append he] at herr
          have hle := hk k (by simpa using hlt) herr
          simp only [List.take_succ_cons, List.flatten_cons, List.length_append]
          omega
      · intro hk k hlt herr
        have hle := hk (k + 1) (by simpa using hlt) (by
          rw [List.take_succ_cons, List.flatten_cons, ← List.append_assoc, parse_append he]
          exact herr)
        simp only [List.take_succ_cons, List.flatten_cons, List.length_append] at hle
        omega

/-- Whole frames end at this place of the input. -/
inductive Boundary (F : Framer α β ε) (xs : List α) : ℕ → Prop
  | zero : Boundary F xs 0
  | frame {i n : ℕ} {r : Except ε β} (before : Boundary F xs i)
      (front : F.front (xs.drop i) = .frame n r) : Boundary F xs (i + n)

/-- From one place of the input to another there are accepted frames with these items. -/
inductive Reads (F : Framer α β ε) (xs : List α) : ℕ → List β → ℕ → Prop
  | nil (i : ℕ) : Reads F xs i [] i
  | cons {i n j : ℕ} {b : β} {bs : List β} (front : F.front (xs.drop i) = .frame n (.ok b))
      (rest : Reads F xs (i + n) bs j) : Reads F xs i (b :: bs) j

/-- How a parse that has come to `i` ends, and where it leaves the input. -/
inductive Ends (F : Framer α β ε) (xs : List α) (i : ℕ) : Option ε → ℕ → Prop
  | more (front : F.front (xs.drop i) = .more) : Ends F xs i none i
  | fatal {e : ε} (front : F.front (xs.drop i) = .fatal e) : Ends F xs i (some e) i
  | rejected {n : ℕ} {e : ε} (front : F.front (xs.drop i) = .frame n (.error e)) :
      Ends F xs i (some e) (i + n)

theorem Boundary.le_length {xs : List α} {i : ℕ} (h : F.Boundary xs i) : i ≤ xs.length := by
  induction h with
  | zero => exact Nat.zero_le _
  | @frame i n r _ hf ih =>
    have hn := (F.size_pos hf).2
    rw [List.length_drop] at hn
    omega

theorem Boundary.append {xs : List α} {i : ℕ} (h : F.Boundary xs i) (ys : List α) :
    F.Boundary (xs ++ ys) i := by
  induction h with
  | zero => exact .zero
  | @frame i n r hi hf ih =>
    refine .frame (r := r) ih ?_
    rw [List.drop_append_of_le_length hi.le_length]
    exact F.frame_append hf ys

theorem Reads.boundary {xs : List α} {i j : ℕ} {bs : List β} (h : F.Reads xs i bs j)
    (hi : F.Boundary xs i) : F.Boundary xs j := by
  induction h with
  | nil => exact hi
  | cons hf _ ih => exact ih (.frame hi hf)

theorem Ends.boundary {xs : List α} {i j : ℕ} {e : Option ε} (h : F.Ends xs i e j)
    (hi : F.Boundary xs i) : F.Boundary xs j := by
  cases h with
  | more => exact hi
  | fatal => exact hi
  | rejected hf => exact .frame hi hf

/-- A parse that begins at a place of the input walks over frames. -/
theorem parse_reads (xs : List α) (i : ℕ) :
    ∃ j k, F.Reads xs i (F.parse (xs.drop i)).items j ∧
      F.Ends xs j (F.parse (xs.drop i)).error k ∧ (F.parse (xs.drop i)).rest = xs.drop k := by
  induction hd : xs.drop i using stream_induction F generalizing i with
  | more ys hx =>
    subst hd
    rw [parse_more hx]
    exact ⟨i, i, .nil i, .more hx, rfl⟩
  | fatal ys e hx =>
    subst hd
    rw [parse_fatal hx]
    exact ⟨i, i, .nil i, .fatal hx, rfl⟩
  | rejected ys n e hx =>
    subst hd
    rw [parse_rejected hx]
    exact ⟨i, i + n, .nil i, .rejected hx, by rw [List.drop_drop]⟩
  | accepted ys n b hx ih =>
    subst hd
    obtain ⟨j, k, hreads, hends, hrest⟩ := ih (i + n) (by rw [List.drop_drop])
    rw [parse_accepted hx]
    exact ⟨j, k, .cons hx hreads, hends, hrest⟩

end Framer
