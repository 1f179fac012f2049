import Mathlib.Data.List.Basic
import Mathlib.Algebra.BigOperators.Group.List.Basic

/-!
# The FIFO queue of TCP chunks

`buffer-queue.ts` keeps the received chunks in a list beside their total length.
The one copy loop serves `peek`, which walks along the chunks, and `read`, which
always takes the first chunk and cuts it or drops it. A queue in which no chunk is
empty and the length field is the number of bytes behaves as those bytes.
-/

namespace WeisleyRpc

abbrev Buffer := List UInt8

/-- `Buffer.allocUnsafe`: the contents are whatever the memory held; zeros stand for them. -/
def allocUnsafe (length : ℕ) : Buffer := List.replicate length 0

/-- `source.copy(target, offset, 0, n)` with `n = source.length`. -/
def Buffer.copyInto (target : Buffer) (offset : ℕ) (source : Buffer) : Buffer :=
  target.take offset ++ source ++ target.drop (offset + source.length)

/-- The fields of the class. -/
structure Chunks where
  chunks : List Buffer
  totalLength : ℕ

namespace Chunks

def bytes (q : Chunks) : Buffer := q.chunks.flatten

def push (q : Chunks) (chunk : Buffer) : Chunks :=
  if chunk.length = 0 then q
  else ⟨q.chunks ++ [chunk], q.totalLength + chunk.length⟩

/-- The variables of the copy loop. -/
structure CopyState where
  queue : Chunks
  output : Buffer
  offset : ℕ
  remaining : ℕ
  chunkIndex : ℕ

/-- The loop's body for the chunk it looks at. -/
def CopyState.advance (consume : Bool) (chunk : Buffer) (c : CopyState) : CopyState :=
  let bytesToCopy := min chunk.length c.remaining
  let output := c.output.copyInto c.offset (chunk.take bytesToCopy)
  let offset := c.offset + bytesToCopy
  let remaining := c.remaining - bytesToCopy
  if consume then
    let chunks := if bytesToCopy = chunk.length then c.queue.chunks.tail
      else c.queue.chunks.set 0 (chunk.drop bytesToCopy)
    ⟨⟨chunks, c.queue.totalLength - bytesToCopy⟩, output, offset, remaining, c.chunkIndex⟩
  else ⟨c.queue, output, offset, remaining, c.chunkIndex + 1⟩

/-- `while (remaining > 0)`; each round drops a chunk, moves to the next one or copies
the last bytes, so `fuel` rounds suffice when there are that many chunks and bytes. -/
def copyLoop (consume : Bool) : ℕ → CopyState → CopyState
  | 0, c => c
  | fuel + 1, c =>
    if c.remaining > 0 then
      match c.queue.chunks[if consume then 0 else c.chunkIndex]? with
      | none => c
      | some chunk => copyLoop consume fuel (c.advance consume chunk)
    else c

def copyFrom (fresh : Buffer) (q : Chunks) (length : ℕ) (consume : Bool) : Buffer × Chunks :=
  let c := copyLoop consume (q.chunks.length + length) ⟨q, fresh, 0, length, 0⟩
  (c.output, c.queue)

def copy (q : Chunks) (length : ℕ) (consume : Bool) : Buffer × Chunks :=
  q.copyFrom (allocUnsafe length) length consume

def peek (q : Chunks) (length : ℕ) : Option Buffer :=
  if length > q.totalLength then none else some (q.copy length false).1

def read (q : Chunks) (length : ℕ) : Option Buffer × Chunks :=
  if length > q.totalLength then (none, q)
  else (some (q.copy length true).1, (q.copy length true).2)

/-- No stored chunk is empty and the length field counts the stored bytes. -/
structure Valid (q : Chunks) : Prop where
  chunk_ne_nil : ∀ c ∈ q.chunks, c ≠ []
  totalLength_eq : q.totalLength = q.bytes.length

theorem push_valid {q : Chunks} (hq : q.Valid) (chunk : Buffer) : (q.push chunk).Valid := by
  unfold push
  split_ifs with h
  · exact hq
  · refine ⟨?_, ?_⟩
    · intro c hc
      rcases List.mem_append.mp hc with hc | hc
      · exact hq.chunk_ne_nil c hc
      · rw [List.mem_singleton.mp hc]
        exact fun he => h (by simp [he])
    · simp [bytes, hq.totalLength_eq]

theorem push_bytes (q : Chunks) (chunk : Buffer) : (q.push chunk).bytes = q.bytes ++ chunk := by
  unfold push
  split_ifs with h
  · simp [List.eq_nil_of_length_eq_zero h]
  · simp [bytes]

/-- The chunks the loop has not looked at. -/
def CopyState.pending (consume : Bool) (c : CopyState) : List Buffer :=
  if consume then c.queue.chunks else c.queue.chunks.drop c.chunkIndex

/-- Where the loop stands after copying `offset` bytes of `q`: they are written, the rest of
the output is still fresh, and the chunks ahead hold what follows. -/
structure CopyState.Copied (consume : Bool) (q : Chunks) (fresh : Buffer) (length : ℕ)
    (c : CopyState) : Prop where
  offset_add : c.offset + c.remaining = length
  output_eq : c.output = q.bytes.take c.offset ++ fresh.drop c.offset
  ahead : c.remaining > 0 → (c.pending consume).flatten = q.bytes.drop c.offset
  ne_nil : ∀ b ∈ c.queue.chunks, b ≠ []
  kept : consume = false → c.queue = q
  consumed : consume = true → c.queue.bytes = q.bytes.drop c.offset ∧
    c.queue.totalLength = c.queue.bytes.length

theorem CopyState.lookup_eq (consume : Bool) (c : CopyState) :
    c.queue.chunks[if consume then 0 else c.chunkIndex]? = (c.pending consume).head? := by
  cases consume <;> simp [pending, List.head?_eq_getElem?]

theorem copyInto_take {all fresh source : Buffer} {offset : ℕ}
    (hl : offset + source.length ≤ all.length)
    (hs : source = (all.drop offset).take source.length) :
    Buffer.copyInto (all.take offset ++ fresh.drop offset) offset source =
      all.take (offset + source.length) ++ fresh.drop (offset + source.length) := by
  have ho : (all.take offset).length = offset := by
    rw [List.length_take]
    omega
  unfold Buffer.copyInto
  rw [List.take_append_of_le_length (Nat.le_of_eq ho.symm),
    List.take_of_length_le (Nat.le_of_eq ho), List.drop_append, ho,
    List.drop_of_length_le (by omega), List.nil_append, List.drop_drop, List.take_add, ← hs,
    show offset + (offset + source.length - offset) = offset + source.length by omega]

theorem CopyState.copied_advance {consume : Bool} {q : Chunks} {fresh : Buffer} {length : ℕ}
    {c : CopyState} {chunk : Buffer} {rest : List Buffer} (hl : length ≤ q.bytes.length)
    (hc : c.Copied consume q fresh length) (hr : c.remaining > 0)
    (hp : c.pending consume = chunk :: rest) :
    (c.advance consume chunk).Copied consume q fresh length ∧
      (c.advance consume chunk).remaining < c.remaining := by
  have hflat := hc.ahead hr
  rw [hp, List.flatten_cons] at hflat
  have hmem : chunk ∈ c.queue.chunks := by
    have h : chunk ∈ c.pending consume := by simp [hp]
    cases consume
    · exact List.mem_of_mem_drop h
    · exact h
  have hpos : 0 < chunk.length := List.length_pos_of_ne_nil (hc.ne_nil chunk hmem)
  set n := min chunk.length c.remaining with hn
  have hlen : (chunk.take n).length = n := by
    rw [List.length_take]
    omega
  have hsrc : chunk.take n = (q.bytes.drop c.offset).take (chunk.take n).length := by
    rw [hlen, ← hflat, List.take_append_of_le_length (by omega)]
  have hadd := hc.offset_add
  have hout := @copyInto_take _ fresh _ _ (by omega) hsrc
  rw [hlen, ← hc.output_eq] at hout
  -- what follows the copied bytes: the cut chunk, or the chunks after it
  have hnext : chunk.drop n ++ rest.flatten = q.bytes.drop (c.offset + n) := by
    rw [← List.drop_drop, ← hflat, List.drop_append_of_le_length (by omega)]
  cases consume with
  | false =>
    refine ⟨⟨?_, hout, ?_, hc.ne_nil, hc.kept, by simp⟩, ?_⟩
    · simp only [advance, Bool.false_eq_true, if_false]
      omega
    · intro hr'
      simp only [advance, Bool.false_eq_true, if_false] at hr'
      have hfull : n = chunk.length := by omega
      have htail : c.queue.chunks.drop (c.chunkIndex + 1) = rest := by
        rw [← List.tail_drop]
        simpa [pending] using congrArg List.tail hp
      simpa [pending, advance, htail, hfull, ← hn] using hnext
    · simp only [advance, Bool.false_eq_true, if_false]
      omega
  | true =>
    have hq : c.queue.chunks = chunk :: rest := by simpa [pending] using hp
    have hbytes : (c.advance true chunk).queue.bytes = q.bytes.drop (c.offset + n) := by
      by_cases hfull : n = chunk.length
      · simpa [advance, bytes, hq, ← hn, hfull] using hnext
      · simpa [advance, bytes, hq, ← hn, hfull] using hnext
    have htot := (hc.consumed rfl).2
    have hnow := (hc.consumed rfl).1
    refine ⟨⟨?_, hout, ?_, ?_, by simp, ?_⟩, ?_⟩
    · simp only [advance, if_true]
      omega
    · intro _
      exact hbytes
    · intro b hb
      by_cases hfull : n = chunk.length
      · exact hc.ne_nil b (by simpa [advance, hq, ← hn, hfull] using Or.inr (by
          simpa [advance, hq, ← hn, hfull] using hb))
      · have hb' : b = chunk.drop n ∨ b ∈ rest := by
          simpa [advance, hq, ← hn, hfull] using hb
        rcases hb' with rfl | hb'
        · exact List.ne_nil_of_length_pos (by rw [List.length_drop]; omega)
        · exact hc.ne_nil b (by simp [hq, hb'])
    · intro _
      refine ⟨hbytes, ?_⟩
      have : (c.advance true chunk).queue.totalLength = c.queue.totalLength - n := by
        simp [advance, ← hn]
      rw [this, hbytes, htot, hnow, List.length_drop, List.length_drop]
      omega
    · simp only [advance, if_true]
      omega

theorem copyLoop_copied {consume : Bool} {q : Chunks} {fresh : Buffer} {length : ℕ}
    (hl : length ≤ q.bytes.length) (fuel : ℕ) {c : CopyState} (hfuel : c.remaining ≤ fuel)
    (hc : c.Copied consume q fresh length) :
    (copyLoop consume fuel c).Copied consume q fresh length ∧
      (copyLoop consume fuel c).remaining = 0 := by
  induction fuel generalizing c with
  | zero => exact ⟨hc, by simpa [copyLoop] using hfuel⟩
  | succ fuel ih =>
    by_cases hr : c.remaining > 0
    · have hne : c.pending consume ≠ [] := by
        intro he
        have h := congrArg List.length (hc.ahead hr)
        have hadd := hc.offset_add
        rw [he, List.flatten_nil, List.length_nil, List.length_drop] at h
        omega
      obtain ⟨chunk, rest, hp⟩ := List.exists_cons_of_ne_nil hne
      obtain ⟨hadv, hlt⟩ := CopyState.copied_advance hl hc hr hp
      simp only [copyLoop, hr, if_true, CopyState.lookup_eq, hp, List.head?_cons]
      exact ih (by omega) hadv
    · simp only [copyLoop, hr, if_false]
      exact ⟨hc, by omega⟩

theorem copied_start {q : Chunks} (hq : q.Valid) (fresh : Buffer) (length : ℕ) (consume : Bool) :
    CopyState.Copied consume q fresh length ⟨q, fresh, 0, length, 0⟩ where
  offset_add := Nat.zero_add _
  output_eq := by simp
  ahead _ := by cases consume <;> simp [CopyState.pending, bytes]
  ne_nil := hq.chunk_ne_nil
  kept _ := rfl
  consumed _ := ⟨by simp, hq.totalLength_eq⟩

/-- The copy is exactly the first `length` bytes, whatever memory it was written to. -/
theorem copyFrom_output {q : Chunks} (hq : q.Valid) {length : ℕ} (hl : length ≤ q.bytes.length)
    {fresh : Buffer} (hf : fresh.length = length) (consume : Bool) :
    (q.copyFrom fresh length consume).1 = q.bytes.take length := by
  obtain ⟨hc, hr⟩ := copyLoop_copied hl (q.chunks.length + length) (by simp)
    (copied_start hq fresh length consume)
  have ho := hc.offset_add
  rw [hr, Nat.add_zero] at ho
  have hout := hc.output_eq
  rw [ho, List.drop_of_length_le (Nat.le_of_eq hf), List.append_nil] at hout
  exact hout

theorem copyFrom_consumed {q : Chunks} (hq : q.Valid) {length : ℕ} (hl : length ≤ q.bytes.length)
    (fresh : Buffer) :
    (q.copyFrom fresh length true).2.Valid ∧
      (q.copyFrom fresh length true).2.bytes = q.bytes.drop length := by
  obtain ⟨hc, hr⟩ := copyLoop_copied hl (q.chunks.length + length) (by simp)
    (copied_start hq fresh length true)
  have ho := hc.offset_add
  rw [hr, Nat.add_zero] at ho
  obtain ⟨hb, ht⟩ := hc.consumed rfl
  rw [ho] at hb
  exact ⟨⟨hc.ne_nil, ht⟩, hb⟩

theorem length_allocUnsafe (n : ℕ) : (allocUnsafe n).length = n := List.length_replicate

theorem peek_eq {q : Chunks} (hq : q.Valid) (length : ℕ) :
    q.peek length = if length ≤ q.bytes.length then some (q.bytes.take length) else none := by
  unfold peek
  rw [hq.totalLength_eq]
  by_cases hl : length ≤ q.bytes.length
  · rw [if_neg (by omega), if_pos hl]
    exact congrArg some (copyFrom_output hq hl (length_allocUnsafe _) _)
  · rw [if_pos (by omega), if_neg hl]

theorem read_eq {q : Chunks} (hq : q.Valid) (length : ℕ) :
    (q.read length).1 = (if length ≤ q.bytes.length then some (q.bytes.take length) else none) ∧
      (q.read length).2.Valid ∧
      (q.read length).2.bytes = if length ≤ q.bytes.length then q.bytes.drop length else q.bytes := by
  unfold read
  rw [hq.totalLength_eq]
  by_cases hl : length ≤ q.bytes.length
  · simp only [if_neg (show ¬ length > q.bytes.length by omega), if_pos hl]
    exact ⟨congrArg some (copyFrom_output hq hl (length_allocUnsafe _) _),
      (copyFrom_consumed hq hl _).1, (copyFrom_consumed hq hl _).2⟩
  · simp only [if_pos (show length > q.bytes.length by omega), if_neg hl]
    exact ⟨trivial, hq, trivial⟩

end Chunks

/-- The queue, with the invariant that its operations keep. -/
structure BufferQueue where
  raw : Chunks
  valid : raw.Valid

namespace BufferQueue

def empty : BufferQueue := ⟨⟨[], 0⟩, ⟨by simp, rfl⟩⟩

def bytes (q : BufferQueue) : Buffer := q.raw.bytes

def length (q : BufferQueue) : ℕ := q.raw.totalLength

def push (q : BufferQueue) (chunk : Buffer) : BufferQueue :=
  ⟨q.raw.push chunk, Chunks.push_valid q.valid chunk⟩

def peek (q : BufferQueue) (length : ℕ) : Option Buffer := q.raw.peek length

def read (q : BufferQueue) (length : ℕ) : Option Buffer × BufferQueue :=
  ((q.raw.read length).1, ⟨(q.raw.read length).2, (Chunks.read_eq q.valid length).2.1⟩)

@[simp] theorem bytes_empty : empty.bytes = [] := rfl

@[simp] theorem length_eq (q : BufferQueue) : q.length = q.bytes.length := q.valid.totalLength_eq

@[simp] theorem bytes_push (q : BufferQueue) (chunk : Buffer) :
    (q.push chunk).bytes = q.bytes ++ chunk := Chunks.push_bytes q.raw chunk

theorem peek_eq_some {q : BufferQueue} {n : ℕ} (h : n ≤ q.bytes.length) :
    q.peek n = some (q.bytes.take n) := (Chunks.peek_eq q.valid n).trans (if_pos h)

theorem read_eq_some {q : BufferQueue} {n : ℕ} (h : n ≤ q.bytes.length) :
    (q.read n).1 = some (q.bytes.take n) := (Chunks.read_eq q.valid n).1.trans (if_pos h)

theorem bytes_read {q : BufferQueue} {n : ℕ} (h : n ≤ q.bytes.length) :
    (q.read n).2.bytes = q.bytes.drop n := (Chunks.read_eq q.valid n).2.2.trans (if_pos h)

theorem read_read {q : BufferQueue} {m n : ℕ} (h : m + n ≤ q.bytes.length) :
    ((q.read m).2.read n).1 = some ((q.bytes.drop m).take n) ∧
      ((q.read m).2.read n).2.bytes = q.bytes.drop (m + n) := by
  have hm := bytes_read (q := q) (n := m) (by omega)
  have hn : n ≤ (q.read m).2.bytes.length := by
    rw [hm, List.length_drop]
    omega
  rw [read_eq_some hn, bytes_read hn, hm, List.drop_drop]
  exact ⟨rfl, rfl⟩

/-- A header and a body that are read leave a shorter queue. -/
theorem length_read_read {q rest : BufferQueue} {m n : ℕ} {b : Option Buffer}
    (h : ¬ q.length < m + n) (hm : 0 < m) (hr : (q.read m).2.read n = (b, rest)) :
    rest.length < q.length := by
  rw [length_eq] at h
  have hbytes := (read_read (Nat.not_lt.mp h)).2
  rw [hr] at hbytes
  rw [length_eq, length_eq, hbytes, List.length_drop]
  omega

end BufferQueue
end WeisleyRpc
