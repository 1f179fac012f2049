import Mathlib.Algebra.Order.Group.Defs
import Mathlib.Algebra.Order.Group.MinMax
import Mathlib.Algebra.Order.Monoid.NatCast
import Mathlib.Algebra.Order.Ring.Int

/-!
# Token buckets

A bucket holds an amount between zero and its capacity. A refill fills it up to the
capacity at most, and what is taken out must be there. Refills are made at the instants
`start + k * period` for `k = 1, 2, …`.
-/

namespace TokenBucket

section Bucket
variable {α : Type*} [AddCommGroup α] [LinearOrder α] [IsOrderedAddMonoid α] {capacity : α}

@[ext]
structure Bucket (capacity : α) where
  tokens : α
  nonneg : 0 ≤ tokens
  le_capacity : tokens ≤ capacity

def Bucket.full (h : 0 ≤ capacity) : Bucket capacity := ⟨capacity, h, le_rfl⟩

def Bucket.refill (b : Bucket capacity) (amount : α) (h : 0 ≤ amount) : Bucket capacity where
  tokens := min capacity (b.tokens + amount)
  nonneg := le_min (b.nonneg.trans b.le_capacity) (add_nonneg b.nonneg h)
  le_capacity := min_le_left _ _

/-- Nothing is taken when there is not enough. -/
def Bucket.take (b : Bucket capacity) (amount : α) (h : 0 ≤ amount) : Option (Bucket capacity) :=
  if enough : amount ≤ b.tokens then
    some ⟨b.tokens - amount, sub_nonneg.2 enough, (sub_le_self _ h).trans b.le_capacity⟩
  else none

theorem Bucket.tokens_refill (b : Bucket capacity) {amount : α} (h : 0 ≤ amount) :
    (b.refill amount h).tokens = min capacity (b.tokens + amount) := rfl

/-- Refills one by one fill as much as all of them together. -/
theorem Bucket.tokens_iterate_refill (b : Bucket capacity) {amount : α} (h : 0 ≤ amount) (n : ℕ) :
    ((fun b => b.refill amount h)^[n] b).tokens = min capacity (b.tokens + n • amount) := by
  induction n with
  | zero =>
    rw [Function.iterate_zero, id, zero_nsmul, add_zero]
    exact (min_eq_right b.le_capacity).symm
  | succ n ih =>
    rw [Function.iterate_succ_apply', tokens_refill, ih, min_add, ← min_assoc,
      min_eq_left (le_add_of_nonneg_right h), add_assoc, ← succ_nsmul]

end Bucket

section Instants
variable (start period now : ℤ)

/-- How many of the instants `start + k * period` have come. -/
def instants : ℕ := ((now - start) / period).toNat

variable {start period now}

theorem le_instants_iff (h : 0 < period) {k : ℕ} (hk : 0 < k) :
    k ≤ instants start period now ↔ start + k * period ≤ now := by
  have hdiv : (k : ℤ) ≤ (now - start) / period ↔ k * period ≤ now - start :=
    Int.le_ediv_iff_mul_le h
  rw [instants]
  omega

end Instants

end TokenBucket
