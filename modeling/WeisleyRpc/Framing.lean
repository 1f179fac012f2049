import Mathlib.Data.List.Basic

/-!
# Framed streams and their chunked arrival

A framer looks at the front of a stream: it needs more input, rejects the front
without consuming it, or finds a frame of known size whose content it accepts or
rejects. What it has decided does not change when more input arrives. Parsing a
whole stream and feeding it in arbitrary chunks then give the same items.
-/

inductive Front (β ε : Type*)
  | more
  | fatal (e : ε)
  | frame (size : ℕ) (content : Except ε β)

structure Framer (α β ε : Type*) where
  front : List α → Front β ε
  front_nil : front [] = .more
  size_pos : ∀ {xs n r}, front xs = .frame n r → 0 < n ∧ n ≤ xs.length
  frame_append : ∀ {xs n r}, front xs = .frame n r → ∀ ys, front (xs ++ ys) = .frame n r
  fatal_append : ∀ {xs e}, front xs = .fatal e → ∀ ys, front (xs ++ ys) = .fatal e

/-- The accepted items at the front of a stream, the error that ended them if any,
and the input that was not consumed. -/
structure Parsed (α β ε : Type*) where
  items : List β
  error : Option ε
  rest : List α

namespace Framer
variable {α β ε : Type*} (F : Framer α β ε)

def parse (xs : List α) : Parsed α β ε :=
  match _h : F.front xs with
  | .more => ⟨[], none, xs⟩
  | .fatal e => ⟨[], some e, xs⟩
  | .frame n (.error e) => ⟨[], some e, xs.drop n⟩
  | .frame n (.ok b) =>
    let p := parse (xs.drop n)
    ⟨b :: p.items, p.error, p.rest⟩
termination_by xs.length
decreasing_by
  have hn := F.size_pos ‹_›
  simp only [List.length_drop]
  omega

variable {F}

theorem parse_more {xs : List α} (h : F.front xs = .more) : F.parse xs = ⟨[], none, xs⟩ := by
  rw [parse]; split <;> simp_all

theorem parse_fatal {xs : List α} {e : ε} (h : F.front xs = .fatal e) :
    F.parse xs = ⟨[], some e, xs⟩ := by
  rw [parse]; split <;> simp_all

theorem parse_rejected {xs : List α} {n : ℕ} {e : ε} (h : F.front xs = .frame n (.error e)) :
    F.parse xs = ⟨[], some e, xs.drop n⟩ := by
  rw [parse]; split <;> simp_all

theorem parse_accepted {xs : List α} {n : ℕ} {b : β} (h : F.front xs = .frame n (.ok b)) :
    F.parse xs = ⟨b :: (F.parse (xs.drop n)).items, (F.parse (xs.drop n)).error,
      (F.parse (xs.drop n)).rest⟩ := by
  rw [parse]; split <;> simp_all

/-- Induction over the frames at the front of a stream. -/
theorem stream_induction (F : Framer α β ε) {motive : List α → Prop}
    (more : ∀ xs, F.front xs = .more → motive xs)
    (fatal : ∀ xs e, F.front xs = .fatal e → motive xs)
    (rejected : ∀ xs n e, F.front xs = .frame n (.error e) → motive xs)
    (accepted : ∀ xs n b, F.front xs = .frame n (.ok b) → motive (xs.drop n) → motive xs)
    (xs : List α) : motive xs := by
  induction hl : xs.length using Nat.strongRecOn generalizing xs with
  | _ l ih =>
    cases h : F.front xs with
    | more => exact more xs h
    | fatal e => exact fatal xs e h
    | frame n r =>
      cases r with
      | error e => exact rejected xs n e h
      | ok b =>
        have hn := F.size_pos h
        exact accepted xs n b h (ih _ (by simp only [List.length_drop]; omega) _ rfl)

theorem front_rest {xs : List α} (h : (F.parse xs).error = none) :
    F.front (F.parse xs).rest = .more := by
  induction xs using stream_induction F with
  | more xs hx => rw [parse_more hx]; exact hx
  | fatal xs e hx => simp [parse_fatal hx] at h
  | rejected xs n e hx => simp [parse_rejected hx] at h
  | accepted xs n b hx ih =>
    rw [parse_accepted hx] at h ⊢
    exact ih h

theorem mem_items {xs : List α} {b : β} (h : b ∈ (F.parse xs).items) :
    ∃ i n, F.front (xs.drop i) = .frame n (.ok b) := by
  induction xs using stream_induction F with
  | more xs hx => simp [parse_more hx] at h
  | fatal xs e hx => simp [parse_fatal hx] at h
  | rejected xs n e hx => simp [parse_rejected hx] at h
  | accepted xs n b' hx ih =>
    rw [parse_accepted hx] at h
    rcases List.mem_cons.mp h with rfl | h
    · exact ⟨0, n, hx⟩
    · obtain ⟨i, n', hi⟩ := ih h
      rw [List.drop_drop] at hi
      exact ⟨n + i, n', hi⟩

theorem parse_append {xs : List α} (h : (F.parse xs).error = none) (ys : List α) :
    F.parse (xs ++ ys) =
      ⟨(F.parse xs).items ++ (F.parse ((F.parse xs).rest ++ ys)).items,
        (F.parse ((F.parse xs).rest ++ ys)).error, (F.parse ((F.parse xs).rest ++ ys)).rest⟩ := by
  induction xs using stream_induction F with
  | more xs hx => simp [parse_more hx]
  | fatal xs e hx => simp [parse_fatal hx] at h
  | rejected xs n e hx => simp [parse_rejected hx] at h
  | accepted xs n b hx ih =>
    have hn := F.size_pos hx
    rw [parse_accepted hx] at h
    rw [parse_accepted (F.frame_append hx ys), parse_accepted hx, List.drop_append_of_le_length hn.2,
      ih h]
    rfl

/-- More input changes nothing about a stream that was already rejected. -/
theorem parse_append_of_error {xs : List α} {e : ε} (h : (F.parse xs).error = some e)
    (ys : List α) :
    F.parse (xs ++ ys) = ⟨(F.parse xs).items, some e, (F.parse xs).rest ++ ys⟩ := by
  induction xs using stream_induction F with
  | more xs hx => simp [parse_more hx] at h
  | fatal xs e' hx =>
    obtain rfl : e' = e := by simpa [parse_fatal hx] using h
    rw [parse_fatal (F.fatal_append hx ys), parse_fatal hx]
  | rejected xs n e' hx =>
    obtain rfl : e' = e := by simpa [parse_rejected hx] using h
    have hn := F.size_pos hx
    rw [parse_rejected (F.frame_append hx ys), parse_rejected hx,
      List.drop_append_of_le_length hn.2]
  | accepted xs n b hx ih =>
    have hn := F.size_pos hx
    rw [parse_accepted hx] at h
    rw [parse_accepted (F.frame_append hx ys), parse_accepted hx, List.drop_append_of_le_length hn.2,
      ih h]

/-- Input that arrives in chunks: each chunk is appended to what is held and the
result is parsed; the first error ends the feeding. -/
def feed (F : Framer α β ε) : List α → List (List α) → Except ε (List (List β) × List α)
  | held, [] => .ok ([], held)
  | held, c :: cs =>
    match (F.parse (held ++ c)).error with
    | some e => .error e
    | none =>
      match feed F (F.parse (held ++ c)).rest cs with
      | .ok (outs, rest) => .ok ((F.parse (held ++ c)).items :: outs, rest)
      | .error e => .error e

theorem feed_cons_ok {held c : List α} {cs : List (List α)} {outs : List (List β)} {rest : List α} :
    F.feed held (c :: cs) = .ok (outs, rest) ↔
      (F.parse (held ++ c)).error = none ∧ ∃ outs',
        F.feed (F.parse (held ++ c)).rest cs = .ok (outs', rest) ∧
          outs = (F.parse (held ++ c)).items :: outs' := by
  cases he : (F.parse (held ++ c)).error with
  | some e => simp [feed, he]
  | none =>
    cases hf : F.feed (F.parse (held ++ c)).rest cs with
    | error e => simp [feed, he, hf]
    | ok r =>
      obtain ⟨outs', rest'⟩ := r
      simp only [feed, he, hf, Except.ok.injEq, Prod.mk.injEq, true_and]
      constructor
      · rintro ⟨h, rfl⟩
        exact ⟨outs', ⟨rfl, rfl⟩, h.symm⟩
      · rintro ⟨outs'', ⟨rfl, rfl⟩, h⟩
        exact ⟨h.symm, rfl⟩

/-- Feeding succeeds exactly when the whole stream is accepted, and then returns its
items in order whatever the chunks were. -/
theorem feed_ok_iff {held : List α} (hh : F.front held = .more) {cs : List (List α)}
    {items : List β} {rest : List α} :
    (∃ outs, F.feed held cs = .ok (outs, rest) ∧ outs.flatten = items) ↔
      F.parse (held ++ cs.flatten) = ⟨items, none, rest⟩ := by
  induction cs generalizing held items with
  | nil =>
    have hp : F.parse held = ⟨[], none, held⟩ := parse_more hh
    simp [feed, hp, and_comm, eq_comm]
  | cons c cs ih =>
    rw [List.flatten_cons, ← List.append_assoc]
    cases he : (F.parse (held ++ c)).error with
    | some e =>
      rw [parse_append_of_error he]
      simp [feed, he]
    | none =>
      rw [parse_append he]
      have hih := fun items => @ih _ (front_rest he) items
      constructor
      · rintro ⟨outs, hf, rfl⟩
        obtain ⟨-, outs', hf', rfl⟩ := feed_cons_ok.mp hf
        simp [(hih outs'.flatten).mp ⟨outs', hf', rfl⟩]
      · intro h
        obtain ⟨hi, hr⟩ := Parsed.mk.inj h
        have hp : F.parse ((F.parse (held ++ c)).rest ++ cs.flatten) =
            ⟨(F.parse ((F.parse (held ++ c)).rest ++ cs.flatten)).items, none, rest⟩ := by
          rw [← hr.1, ← hr.2]
        obtain ⟨outs', hf', ho⟩ := (hih _).mpr hp
        refine ⟨_, feed_cons_ok.mpr ⟨he, outs', hf', rfl⟩, ?_⟩
        rw [List.flatten_cons, ho, hi]

/-- Dropping the last chunks drops their outputs. -/
theorem feed_take {held : List α} {cs : List (List α)} {outs : List (List β)} {rest : List α}
    (h : F.feed held cs = .ok (outs, rest)) (k : ℕ) :
    ∃ rest', F.feed held (cs.take k) = .ok (outs.take k, rest') := by
  induction k generalizing held cs outs with
  | zero => exact ⟨held, by simp [feed]⟩
  | succ k ih =>
    cases cs with
    | nil =>
      obtain ⟨rfl, rfl⟩ : outs = [] ∧ held = rest := by simpa [feed, eq_comm] using h
      exact ⟨held, by simp [feed]⟩
    | cons c cs =>
      obtain ⟨he, outs', hf, rfl⟩ := feed_cons_ok.mp h
      obtain ⟨rest', hr⟩ := ih hf
      exact ⟨rest', feed_cons_ok.mpr ⟨he, outs'.take k, hr, by simp⟩⟩

/-- A stretch of input that is one frame with the given content, whatever follows, and
that needs more input while it is incomplete. -/
structure IsPacket (F : Framer α β ε) (p : List α) (content : Except ε β) : Prop where
  front_append : ∀ ys, F.front (p ++ ys) = .frame p.length content
  front_prefix : ∀ q, q <+: p → q ≠ p → F.front q = .more

/-- A stretch of input that is an error once it is complete, and no frame before. -/
structure Blocks (F : Framer α β ε) (p : List α) : Prop where
  front_append : ∀ ys, ∃ e, F.front (p ++ ys) = .fatal e
  items_prefix : ∀ q, q <+: p → q ≠ p → (F.parse q).items = []

/-- What is written as one: a packet, or a stretch that is never one. -/
inductive Piece (F : Framer α β ε) (p : List α) : Except ε β → Prop
  | packet {content : Except ε β} (h : F.IsPacket p content) : Piece F p content
  | blocked {e : ε} (h : F.Blocks p) : Piece F p (.error e)

theorem Piece.items_prefix {p q : List α} {content : Except ε β} (h : F.Piece p content)
    (hq : q <+: p) (hne : q ≠ p) : (F.parse q).items = [] := by
  cases h with
  | packet h => rw [parse_more (h.front_prefix q hq hne)]
  | blocked h => exact h.items_prefix q hq hne

theorem Piece.parse_error {p : List α} {e : ε} (h : F.Piece p (.error e)) (ys : List α) :
    (F.parse (p ++ ys)).items = [] ∧ (F.parse (p ++ ys)).error ≠ none := by
  cases h with
  | packet h => simp [parse_rejected (h.front_append ys)]
  | blocked h =>
    obtain ⟨e', he⟩ := h.front_append ys
    simp [parse_fatal he]

theorem Piece.parse_ok {p : List α} {b : β} (h : F.Piece p (.ok b)) (ys : List α) :
    F.parse (p ++ ys) = ⟨b :: (F.parse ys).items, (F.parse ys).error, (F.parse ys).rest⟩ := by
  cases h with
  | packet h => rw [parse_accepted (h.front_append ys), List.drop_left]

theorem IsPacket.parse_iff {p : List α} {content : Except ε β} (h : F.IsPacket p content) {b : β} :
    (F.parse p).error = none ∧ (F.parse p).items = [b] ↔ content = .ok b := by
  have hf := h.front_append []
  rw [List.append_nil] at hf
  cases content with
  | error e => simp [parse_rejected hf]
  | ok b' => simp [parse_accepted hf, parse_more F.front_nil]

theorem prefix_append_cases {xs p ys : List α} (h : xs <+: p ++ ys) :
    (xs <+: p ∧ xs ≠ p) ∨ ∃ zs, xs = p ++ zs ∧ zs <+: ys := by
  by_cases hp : p <+: xs
  · obtain ⟨zs, rfl⟩ := hp
    exact Or.inr ⟨zs, rfl, (List.prefix_append_right_inj p).mp h⟩
  · rcases List.prefix_or_prefix_of_prefix h (List.prefix_append p ys) with hx | hx
    · exact Or.inl ⟨hx, fun he => hp (he ▸ List.prefix_rfl)⟩
    · exact absurd hx hp

theorem parse_prefix {ps : List (List α × Except ε β)} (h : ∀ p ∈ ps, F.Piece p.1 p.2)
    {xs : List α} (hx : xs <+: (ps.map Prod.fst).flatten) :
    (F.parse xs).items.map Except.ok <+: ps.map Prod.snd := by
  induction ps generalizing xs with
  | nil =>
    obtain rfl : xs = [] := by simpa using hx
    simp [parse_more F.front_nil]
  | cons p ps ih =>
    have hp := h p (by simp)
    rw [List.map_cons, List.flatten_cons] at hx
    rcases prefix_append_cases hx with ⟨hpre, hne⟩ | ⟨ys, rfl, hys⟩
    · simp [hp.items_prefix hpre hne]
    · cases hc : p.2 with
      | error e =>
        rw [hc] at hp
        simp [(hp.parse_error ys).1]
      | ok b =>
        rw [hc] at hp
        simpa [hp.parse_ok ys, hc] using ih (fun q hq => h q (by simp [hq])) hys

/-- A prefix of a sequence of accepted packets is accepted, and the items it yields are
those of the packets that are complete in it. -/
theorem parse_prefix_accepted {ps : List (List α × β)}
    (h : ∀ p ∈ ps, F.IsPacket p.1 (.ok p.2)) {xs : List α}
    (hx : xs <+: (ps.map Prod.fst).flatten) :
    (F.parse xs).error = none ∧ ∀ j, j ≤ ps.length →
      (j ≤ (F.parse xs).items.length ↔ ((ps.take j).map Prod.fst).flatten.length ≤ xs.length) := by
  induction ps generalizing xs with
  | nil =>
    obtain rfl : xs = [] := by simpa using hx
    simp [parse_more F.front_nil]
  | cons p ps ih =>
    have hp := h p (by simp)
    rw [List.map_cons, List.flatten_cons] at hx
    rcases prefix_append_cases hx with ⟨hpre, hne⟩ | ⟨ys, rfl, hys⟩
    · rw [parse_more (hp.front_prefix xs hpre hne)]
      refine ⟨rfl, fun j _ => ?_⟩
      have hlt : xs.length < p.1.length :=
        Nat.lt_of_le_of_ne hpre.length_le fun he => hne (hpre.eq_of_length he)
      cases j with
      | zero => simp
      | succ j =>
        simp only [List.take_succ_cons, List.map_cons, List.flatten_cons, List.length_append,
          List.length_nil]
        omega
    · obtain ⟨he, hj⟩ := ih (fun q hq => h q (by simp [hq])) hys
      rw [parse_accepted (hp.front_append ys), List.drop_left]
      refine ⟨he, fun j hle => ?_⟩
      cases j with
      | zero => simp
      | succ j =>
        have := hj j (by simpa using hle)
        simp only [List.take_succ_cons, List.map_cons, List.flatten_cons, List.length_append,
          List.length_cons]
        omega

/-- A prefix of a sequence of packets that is not rejected yields an item for each packet that is
complete in it. -/
theorem parse_prefix_complete {ps : List (List α × Except ε β)}
    (h : ∀ p ∈ ps, F.Piece p.1 p.2) {xs : List α} (hx : xs <+: (ps.map Prod.fst).flatten)
    (he : (F.parse xs).error = none) {j : ℕ} (hj : j ≤ ps.length)
    (hl : ((ps.take j).map Prod.fst).flatten.length ≤ xs.length) :
    j ≤ (F.parse xs).items.length := by
  induction ps generalizing xs j with
  | nil => exact Nat.le_trans hj (Nat.zero_le _)
  | cons p ps ih =>
    have hp := h p List.mem_cons_self
    cases j with
    | zero => exact Nat.zero_le _
    | succ j =>
      rw [List.map_cons, List.flatten_cons] at hx
      rw [List.take_succ_cons, List.map_cons, List.flatten_cons, List.length_append] at hl
      rcases prefix_append_cases hx with ⟨hpre, hne⟩ | ⟨ys, rfl, hys⟩
      · have hlt : xs.length < p.1.length :=
          Nat.lt_of_le_of_ne hpre.length_le fun he => hne (hpre.eq_of_length he)
        omega
      · cases hc : p.2 with
        | error e =>
          rw [hc] at hp
          exact absurd he (hp.parse_error ys).2
        | ok b =>
          rw [hc] at hp
          rw [hp.parse_ok ys] at he ⊢
          rw [List.length_append] at hl
          exact Nat.succ_le_succ (ih (fun q hq => h q (List.mem_cons_of_mem p hq)) hys he
            (Nat.le_of_succ_le_succ hj) (Nat.le_of_add_le_add_left hl))

theorem parse_packets {ps : List (List α × β)} (h : ∀ p ∈ ps, F.IsPacket p.1 (.ok p.2)) :
    F.parse (ps.map Prod.fst).flatten = ⟨ps.map Prod.snd, none, []⟩ := by
  induction ps with
  | nil => exact parse_more F.front_nil
  | cons p ps ih =>
    rw [List.map_cons, List.flatten_cons, parse_accepted ((h p (by simp)).front_append _),
      List.drop_left, ih (fun q hq => h q (by simp [hq])), List.map_cons]

end Framer
