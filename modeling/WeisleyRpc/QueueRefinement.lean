import Mathlib.Algebra.Ring.Nat
import WeisleyRpc.BufferQueue
import WeisleyRpc.Histories

/-!
# The queue as a byte string

A caller of the queue cannot tell it from the string of the bytes that were pushed and
not yet read, whatever the memory held that a copy is written to.
-/

namespace WeisleyRpc

/-- What `Buffer.allocUnsafe` hands out for each length. -/
structure Memory where
  alloc : ℕ → Buffer
  length_alloc : ∀ length, (alloc length).length = length

inductive QueueOp
  | push (chunk : Buffer)
  | peek (length : ℕ)
  | read (length : ℕ)
  deriving DecidableEq, Repr

/-- What the caller gets back, `null` being `none`. -/
inductive QueueReply
  | undefined
  | buffer (result : Option Buffer)
  deriving DecidableEq, Repr

namespace Chunks

def empty : Chunks := ⟨[], 0⟩

def peekIn (memory : Memory) (q : Chunks) (length : ℕ) : Option Buffer × Chunks :=
  if length > q.totalLength then (none, q)
  else (some (q.copyFrom (memory.alloc length) length false).1,
    (q.copyFrom (memory.alloc length) length false).2)

def readIn (memory : Memory) (q : Chunks) (length : ℕ) : Option Buffer × Chunks :=
  if length > q.totalLength then (none, q)
  else (some (q.copyFrom (memory.alloc length) length true).1,
    (q.copyFrom (memory.alloc length) length true).2)

def step (q : Chunks) : Memory × QueueOp → Chunks
  | (_, .push chunk) => q.push chunk
  | (memory, .peek length) => (q.peekIn memory length).2
  | (memory, .read length) => (q.readIn memory length).2

def reply (q : Chunks) : Memory × QueueOp → Option QueueReply
  | (_, .push _) => some .undefined
  | (memory, .peek length) => some (.buffer (q.peekIn memory length).1)
  | (memory, .read length) => some (.buffer (q.readIn memory length).1)

end Chunks

namespace ByteString

def first (bytes : Buffer) (length : ℕ) : Option Buffer :=
  if length ≤ bytes.length then some (bytes.take length) else none

def step (bytes : Buffer) : QueueOp → Buffer
  | .push chunk => bytes ++ chunk
  | .peek _ => bytes
  | .read length => if length ≤ bytes.length then bytes.drop length else bytes

def reply (bytes : Buffer) : QueueOp → Option QueueReply
  | .push _ => some .undefined
  | .peek length => some (.buffer (first bytes length))
  | .read length => some (.buffer (first bytes length))

/-- The bytes a `push` brings. -/
def pushed (_ : Buffer) : QueueOp → Option Buffer
  | .push chunk => some chunk
  | _ => none

/-- The bytes a `read` takes. -/
def taken (bytes : Buffer) : QueueOp → Option Buffer
  | .read length => first bytes length
  | _ => none

/-- What was pushed is what was read and what is left. -/
theorem taken_append (bytes : Buffer) (ops : List QueueOp) :
    bytes ++ (Histories.outputs step pushed bytes ops).flatten =
      (Histories.outputs step taken bytes ops).flatten ++ ops.foldl step bytes := by
  induction ops generalizing bytes with
  | nil => simp [Histories.outputs]
  | cons op ops ih =>
    have hih := ih (step bytes op)
    cases op with
    | push chunk => simpa [Histories.outputs, pushed, taken, step] using hih
    | peek length => simpa [Histories.outputs, pushed, taken, step] using hih
    | read length =>
      by_cases hl : length ≤ bytes.length
      · have htake := List.take_append_drop length bytes
        simp only [step, hl, if_true] at hih
        simp only [Histories.outputs, pushed, taken, first, step, hl, if_true, Option.toList_none,
          Option.toList_some, List.nil_append, List.flatten_append, List.flatten_cons,
          List.flatten_nil, List.append_nil, List.append_assoc, ← hih, List.foldl_cons]
        rw [← List.append_assoc, htake]
      · simpa [Histories.outputs, pushed, taken, first, step, hl] using hih

end ByteString

namespace Chunks

/-- The queue stores exactly these bytes. -/
def Holds (q : Chunks) (bytes : Buffer) : Prop := q.Valid ∧ q.bytes = bytes

theorem copyFrom_kept {q : Chunks} (hq : q.Valid) {length : ℕ} (hl : length ≤ q.bytes.length)
    (fresh : Buffer) : (q.copyFrom fresh length false).2 = q :=
  (copyLoop_copied hl (q.chunks.length + length) (by simp)
    (copied_start hq fresh length false)).1.kept rfl

/-- The loop is never left by its `break`. -/
theorem copyLoop_remaining {q : Chunks} (hq : q.Valid) {length : ℕ} (hl : length ≤ q.totalLength)
    (fresh : Buffer) (consume : Bool) {fuel : ℕ} (hfuel : length ≤ fuel) :
    (copyLoop consume fuel ⟨q, fresh, 0, length, 0⟩).remaining = 0 :=
  (copyLoop_copied (hq.totalLength_eq ▸ hl) fuel hfuel (copied_start hq fresh length consume)).2

theorem peekIn_spec {q : Chunks} (hq : q.Valid) (memory : Memory) (length : ℕ) :
    q.peekIn memory length = (ByteString.first q.bytes length, q) := by
  unfold peekIn ByteString.first
  rw [hq.totalLength_eq]
  by_cases hl : length ≤ q.bytes.length
  · rw [if_neg (by omega), if_pos hl, copyFrom_kept hq hl,
      copyFrom_output hq hl (memory.length_alloc length)]
  · rw [if_pos (by omega), if_neg hl]

theorem readIn_spec {q : Chunks} (hq : q.Valid) (memory : Memory) (length : ℕ) :
    (q.readIn memory length).1 = ByteString.first q.bytes length ∧
      (q.readIn memory length).2.Holds (ByteString.step q.bytes (.read length)) := by
  unfold readIn ByteString.first ByteString.step
  rw [hq.totalLength_eq]
  by_cases hl : length ≤ q.bytes.length
  · simp only [if_neg (show ¬ length > q.bytes.length by omega), if_pos hl]
    exact ⟨congrArg some (copyFrom_output hq hl (memory.length_alloc length) true),
      copyFrom_consumed hq hl (memory.alloc length)⟩
  · simp only [if_pos (show length > q.bytes.length by omega), if_neg hl]
    exact ⟨trivial, hq, rfl⟩

/-- The model of the operations that the codec uses is the one with zeroed memory. -/
theorem peekIn_zeroed (q : Chunks) (length : ℕ) :
    (q.peekIn ⟨allocUnsafe, length_allocUnsafe⟩ length).1 = q.peek length ∧
      q.readIn ⟨allocUnsafe, length_allocUnsafe⟩ length = q.read length := by
  unfold peekIn readIn peek read copy
  constructor
  · split_ifs <;> rfl
  · split_ifs <;> rfl

theorem step_simulates (q : Chunks) (bytes : Buffer) (op : Memory × QueueOp)
    (h : q.Holds bytes) :
    (q.step op).Holds (ByteString.step bytes op.2) ∧ q.reply op = ByteString.reply bytes op.2 := by
  obtain ⟨hq, rfl⟩ := h
  obtain ⟨memory, op⟩ := op
  cases op with
  | push chunk => exact ⟨⟨push_valid hq chunk, push_bytes q chunk⟩, rfl⟩
  | peek length =>
    simp only [step, reply, peekIn_spec hq memory length]
    exact ⟨⟨hq, rfl⟩, rfl⟩
  | read length =>
    obtain ⟨hreply, hholds⟩ := readIn_spec hq memory length
    simp only [step, reply, hreply]
    exact ⟨hholds, rfl⟩

theorem empty_holds : empty.Holds [] := ⟨⟨by simp [empty], rfl⟩, rfl⟩

/-- To its caller the queue is this string, and its representation is sound. -/
structure Behaves (q : Chunks) (bytes : Buffer) : Prop where
  length_eq : q.totalLength = bytes.length
  stored : q.chunks.flatten = bytes
  chunk_ne_nil : ∀ chunk ∈ q.chunks, chunk ≠ []
  totalLength_sum : q.totalLength = (q.chunks.map List.length).sum
  peek_eq : ∀ memory length, q.peekIn memory length =
    (if length ≤ bytes.length then some (bytes.take length) else none, q)
  read_eq : ∀ memory length, (q.readIn memory length).1 =
    if length ≤ bytes.length then some (bytes.take length) else none
  read_removes : ∀ memory length, length ≤ bytes.length →
    (q.readIn memory length).2.bytes = bytes.drop length
  read_fails : ∀ memory length, bytes.length < length → (q.readIn memory length).2 = q
  loop_ends : ∀ (memory : Memory) length consume fuel, length ≤ bytes.length → length ≤ fuel →
    (copyLoop consume fuel ⟨q, memory.alloc length, 0, length, 0⟩).remaining = 0

theorem Holds.behaves {q : Chunks} {bytes : Buffer} (h : q.Holds bytes) : q.Behaves bytes := by
  obtain ⟨hq, rfl⟩ := h
  have htotal := hq.totalLength_eq
  refine ⟨htotal, rfl, hq.chunk_ne_nil, ?_, fun memory length => peekIn_spec hq memory length,
    fun memory length => (readIn_spec hq memory length).1, ?_, ?_, ?_⟩
  · rw [htotal, bytes, List.length_flatten]
  · intro memory length hl
    rw [(readIn_spec hq memory length).2.2, ByteString.step, if_pos hl]
  · intro memory length hl
    unfold readIn
    rw [if_pos (by omega)]
  · intro memory length consume fuel hl hfuel
    exact copyLoop_remaining hq (by omega) _ consume hfuel

/-- After any operations the queue behaves as the bytes that were pushed less those that
were read, and it has answered as they do. -/
theorem queue_refines_byte_string (history : List (Memory × QueueOp)) :
    Histories.outputs step reply empty history =
        Histories.outputs ByteString.step ByteString.reply [] (history.map Prod.snd) ∧
      ∃ bytes, (history.foldl step empty).Behaves bytes ∧
        (Histories.outputs ByteString.step ByteString.pushed [] (history.map Prod.snd)).flatten =
          (Histories.outputs ByteString.step ByteString.taken [] (history.map Prod.snd)).flatten
            ++ bytes := by
  obtain ⟨hholds, hreplies⟩ := Histories.outputs_simulation step reply Prod.snd
    step_simulates empty_holds history
  exact ⟨hreplies, _, hholds.behaves, ByteString.taken_append [] _⟩

end Chunks

end WeisleyRpc
