import Mathlib.Algebra.Order.Field.Power
import Mathlib.Algebra.Order.Floor.Ring
import Mathlib.Data.Int.Log
import Mathlib.Data.Int.Order.Lemmas
import Mathlib.Tactic.Linarith
import Mathlib.Tactic.Positivity
import Mathlib.Tactic.Ring

/-!
# Rounding to binary floating-point numbers

The floating-point numbers around a value are the multiples of a power of two, which is chosen
so that `precision` digits are significant and is at least the smallest unit `2 ^ emin`. A value
is rounded to the nearest of them, and to the even one of two. Rounding is monotone, and exact
on the whole numbers up to `2 ^ precision`; there counting up, and a little further on counting
down, comes to a halt.
-/

namespace FloatRounding

section Grids
variable {K : Type*} [Field K]

/-- The multiples of `2 ^ e`. -/
def OnGrid (e : ℤ) (x : K) : Prop := ∃ k : ℤ, x = k * 2 ^ e

theorem OnGrid.neg {e : ℤ} {x : K} (h : OnGrid e x) : OnGrid e (-x) := by
  obtain ⟨k, rfl⟩ := h
  exact ⟨-k, by rw [Int.cast_neg, neg_mul]⟩

theorem onGrid_zero (e : ℤ) : OnGrid e (0 : K) := ⟨0, by rw [Int.cast_zero, zero_mul]⟩

variable [NeZero (2 : K)]

theorem onGrid_zpow {e n : ℤ} (h : e ≤ n) : OnGrid e (2 ^ n : K) := by
  refine ⟨2 ^ (n - e).toNat, ?_⟩
  have hsum : ((n - e).toNat : ℤ) + e = n := by omega
  rw [Int.cast_pow, Int.cast_ofNat, ← zpow_natCast, ← zpow_add₀ two_ne_zero, hsum]

theorem onGrid_intCast {e : ℤ} (h : e ≤ 0) (n : ℤ) : OnGrid e (n : K) := by
  obtain ⟨k, hk⟩ := onGrid_zpow (K := K) h
  refine ⟨n * k, ?_⟩
  rw [Int.cast_mul, mul_assoc, ← hk, zpow_zero, mul_one]

end Grids

section Integers
variable {K : Type*} [Field K] [LinearOrder K] [FloorRing K]

/-- The nearest whole number, the even one of two. -/
def roundEven (x : K) : ℤ :=
  if 2 * Int.fract x < 1 then ⌊x⌋
  else if 1 < 2 * Int.fract x then ⌊x⌋ + 1
  else if Even ⌊x⌋ then ⌊x⌋
  else ⌊x⌋ + 1

theorem floor_le_roundEven (x : K) : ⌊x⌋ ≤ roundEven x := by
  unfold roundEven
  split_ifs <;> omega

theorem roundEven_le (x : K) : roundEven x ≤ ⌊x⌋ + 1 := by
  unfold roundEven
  split_ifs <;> omega

variable [IsStrictOrderedRing K]

theorem roundEven_intCast (k : ℤ) : roundEven (k : K) = k := by
  simp [roundEven]

theorem roundEven_mono {x y : K} (h : x ≤ y) : roundEven x ≤ roundEven y := by
  have hfloor : ⌊x⌋ ≤ ⌊y⌋ := Int.floor_mono h
  rcases hfloor.lt_or_eq with hlt | heq
  · calc
      roundEven x ≤ ⌊x⌋ + 1 := roundEven_le x
      _ ≤ ⌊y⌋ := hlt
      _ ≤ roundEven y := floor_le_roundEven y
  · have hfract : Int.fract x ≤ Int.fract y := by
      rw [Int.fract, Int.fract, heq]
      linarith
    unfold roundEven
    rw [heq]
    split_ifs <;> first | omega | linarith

theorem roundEven_le_add_half (x : K) : (roundEven x : K) ≤ x + 1 / 2 := by
  have hsplit := Int.floor_add_fract x
  have hnonneg := Int.fract_nonneg x
  unfold roundEven
  split_ifs
  · linarith
  · push_cast
    linarith
  · linarith
  · push_cast
    linarith

/-- A midpoint is rounded to its even neighbour. -/
theorem roundEven_midpoint (k : ℤ) :
    roundEven ((2 * k + 1 : K) / 2) = if Even k then k else k + 1 := by
  have hsplit : (2 * k + 1 : K) / 2 = k + 1 / 2 := by ring
  have hhalf : ⌊(1 / 2 : K)⌋ = 0 := by
    rw [Int.floor_eq_zero_iff]
    constructor <;> linarith
  have hfloor : ⌊(2 * k + 1 : K) / 2⌋ = k := by
    rw [hsplit, Int.floor_intCast_add, hhalf, add_zero]
  have hfract : 2 * Int.fract ((2 * k + 1 : K) / 2) = 1 := by
    rw [Int.fract, hfloor]
    ring
  rw [roundEven, hfract, hfloor, if_neg (lt_irrefl _), if_neg (lt_irrefl _)]

end Integers

variable {K : Type*} [Field K] [LinearOrder K] [IsStrictOrderedRing K] [FloorRing K]

/-- The multiple of `2 ^ e` that is nearest. -/
def nearestAt (e : ℤ) (x : K) : K := roundEven (x / 2 ^ e) * 2 ^ e

theorem nearestAt_mono (e : ℤ) {x y : K} (h : x ≤ y) : nearestAt e x ≤ nearestAt e y := by
  have hpos : (0 : K) < 2 ^ e := by positivity
  have hdiv : x / 2 ^ e ≤ y / 2 ^ e := div_le_div_of_nonneg_right h hpos.le
  exact mul_le_mul_of_nonneg_right (Int.cast_le.mpr (roundEven_mono hdiv)) hpos.le

theorem OnGrid.nearestAt {e : ℤ} {x : K} (h : OnGrid e x) : nearestAt e x = x := by
  obtain ⟨k, rfl⟩ := h
  have hne : (2 : K) ^ e ≠ 0 := by positivity
  rw [FloatRounding.nearestAt, mul_div_cancel_right₀ _ hne, roundEven_intCast]

section Nearest
variable (precision : ℕ) (emin : ℤ)

/-- The unit of the floating-point numbers around `x` is two to this power. -/
def exponent (x : K) : ℤ := max (Int.log 2 |x| + 1 - precision) emin

def nearest (x : K) : K := nearestAt (exponent precision emin x) x

variable {precision emin} {x y : K}

theorem OnGrid.nearest (h : OnGrid (exponent precision emin x) x) : nearest precision emin x = x :=
  h.nearestAt

/-- A common grid point between two values separates what they are rounded to. -/
theorem nearest_le_of_onGrid {b : K} (hx : x ≤ b) (hy : b ≤ y)
    (hbx : OnGrid (exponent precision emin x) b) (hby : OnGrid (exponent precision emin y) b) :
    nearest precision emin x ≤ nearest precision emin y := by
  calc
    nearest precision emin x ≤ nearestAt (exponent precision emin x) b := nearestAt_mono _ hx
    _ = b := hbx.nearestAt
    _ = nearestAt (exponent precision emin y) b := hby.nearestAt.symm
    _ ≤ nearest precision emin y := nearestAt_mono _ hy

theorem exponent_mono (hx : x ≠ 0) (h : |x| ≤ |y|) :
    exponent precision emin x ≤ exponent precision emin y := by
  have hlog : Int.log 2 |x| ≤ Int.log 2 |y| := Int.log_mono_right (abs_pos.mpr hx) h
  unfold exponent
  omega

theorem abs_le_zpow_of_exponent_lt (h : exponent precision emin x < exponent precision emin y) :
    |x| ≤ 2 ^ Int.log 2 |y| := by
  have hlog : Int.log 2 |x| + 1 ≤ Int.log 2 |y| := by
    unfold exponent at h
    omega
  have hlt : |x| < ((2 : ℕ) : K) ^ (Int.log 2 |x| + 1) := Int.lt_zpow_succ_log_self Nat.one_lt_two _
  rw [Nat.cast_ofNat] at hlt
  exact hlt.le.trans (zpow_le_zpow_right₀ one_le_two hlog)

theorem zpow_log_le_abs (hy : y ≠ 0) : (2 : K) ^ Int.log 2 |y| ≤ |y| := by
  have hle := Int.zpow_log_le_self Nat.one_lt_two (abs_pos.mpr hy)
  rwa [Nat.cast_ofNat] at hle

omit [IsStrictOrderedRing K] in
theorem onGrid_zpow_log (hp : 0 < precision)
    (h : exponent precision emin x < exponent precision emin y) :
    OnGrid (exponent precision emin x) (2 ^ Int.log 2 |y| : K) ∧
      OnGrid (exponent precision emin y) (2 ^ Int.log 2 |y| : K) := by
  have hy : exponent precision emin y ≤ Int.log 2 |y| := by
    unfold exponent at h ⊢
    omega
  exact ⟨onGrid_zpow (h.le.trans hy), onGrid_zpow hy⟩

theorem nearest_mono (hp : 0 < precision) (h : x ≤ y) :
    nearest precision emin x ≤ nearest precision emin y := by
  rcases le_or_gt x 0 with hx | hx
  · rcases le_or_gt 0 y with hy | hy
    · exact nearest_le_of_onGrid hx hy (onGrid_zero _) (onGrid_zero _)
    · have habs : |y| ≤ |x| := by
        rw [abs_of_neg hy, abs_of_nonpos hx]
        linarith
      have hmono : exponent precision emin y ≤ exponent precision emin x :=
        exponent_mono hy.ne habs
      rcases hmono.lt_or_eq with hlt | heq
      · obtain ⟨hgy, hgx⟩ := onGrid_zpow_log hp hlt
        have hle := abs_le_zpow_of_exponent_lt hlt
        have hge := zpow_log_le_abs (h.trans_lt hy).ne
        rw [abs_of_neg hy] at hle
        rw [abs_of_nonpos hx] at hge hle hgy hgx
        exact nearest_le_of_onGrid (by linarith) (by linarith) hgx.neg hgy.neg
      · unfold nearest
        rw [heq]
        exact nearestAt_mono _ h
  · have hy := hx.trans_le h
    have habs : |x| ≤ |y| := by rwa [abs_of_pos hx, abs_of_pos hy]
    have hmono : exponent precision emin x ≤ exponent precision emin y :=
      exponent_mono hx.ne' habs
    rcases hmono.lt_or_eq with hlt | heq
    · obtain ⟨hgx, hgy⟩ := onGrid_zpow_log hp hlt
      have hle := abs_le_zpow_of_exponent_lt hlt
      have hge := zpow_log_le_abs hy.ne'
      rw [abs_of_pos hx] at hle
      rw [abs_of_pos hy] at hge hle hgx hgy
      exact nearest_le_of_onGrid hle hge hgx hgy
    · unfold nearest
      rw [heq]
      exact nearestAt_mono _ h

/-! ### Whole numbers -/

theorem exponent_of_log {n : ℤ} (hn : n ≠ 0) {k : ℕ} (hlow : 2 ^ k ≤ n.natAbs)
    (hhigh : n.natAbs < 2 ^ (k + 1)) :
    exponent precision emin (n : K) = max (k + 1 - precision : ℤ) emin := by
  have hcast : |(n : K)| = ((n.natAbs : ℕ) : K) := by
    rw [← Int.cast_abs, ← Int.natCast_natAbs, Int.cast_natCast]
  have hlog : Nat.log 2 n.natAbs = k := (Nat.log_eq_iff (Or.inr ⟨Nat.one_lt_two,
    Int.natAbs_ne_zero.mpr hn⟩)).mpr ⟨hlow, hhigh⟩
  rw [exponent, hcast, Int.log_natCast, hlog]

theorem exponent_intCast_le {n : ℤ} (hn : n ≠ 0) {k : ℕ} (hhigh : n.natAbs < 2 ^ (k + 1)) :
    exponent precision emin (n : K) ≤ max (k + 1 - precision : ℤ) emin := by
  have hpos : 0 < n.natAbs := Int.natAbs_pos.mpr hn
  have hlow := Nat.pow_log_le_self 2 hpos.ne'
  have hlog : Nat.log 2 n.natAbs < k + 1 :=
    (Nat.pow_lt_pow_iff_right Nat.one_lt_two).mp (hlow.trans_lt hhigh)
  rw [exponent_of_log hn hlow (Nat.lt_pow_succ_log_self Nat.one_lt_two n.natAbs)]
  omega

/-- Whole numbers of at most `precision` digits are floating-point numbers. -/
theorem nearest_intCast (hp : 0 < precision) (hmin : emin ≤ 0) {n : ℤ}
    (hn : n.natAbs < 2 ^ precision) : nearest precision emin (n : K) = n := by
  refine OnGrid.nearest ?_
  rcases eq_or_ne n 0 with rfl | hne
  · rw [Int.cast_zero]
    exact onGrid_zero _
  · obtain ⟨k, rfl⟩ := Nat.exists_eq_add_of_lt hp
    have hle : exponent (0 + k + 1) emin (n : K) ≤ max (k + 1 - (0 + k + 1 : ℕ) : ℤ) emin :=
      exponent_intCast_le hne (by simpa using hn)
    exact onGrid_intCast (by omega) n

theorem nearest_even (hmin : emin ≤ 0) {n : ℤ} (heven : Even n)
    (hn : n.natAbs < 2 ^ (precision + 1)) : nearest precision emin (n : K) = n := by
  refine OnGrid.nearest ?_
  rcases eq_or_ne n 0 with rfl | hne
  · rw [Int.cast_zero]
    exact onGrid_zero _
  · have hle : exponent precision emin (n : K) ≤ max (precision + 1 - precision : ℤ) emin :=
      exponent_intCast_le hne hn
    obtain ⟨m, rfl⟩ := heven
    obtain ⟨k, hk⟩ := onGrid_zpow (K := K) (e := exponent precision emin ((m + m : ℤ) : K)) (n := 1)
      (by omega)
    refine ⟨m * k, ?_⟩
    rw [Int.cast_mul, mul_assoc, ← hk, zpow_one, Int.cast_add]
    ring

/-- An odd number with one digit more is halfway between two of them. -/
theorem nearest_odd (hmin : emin ≤ 0) {k : ℤ} (hlow : 2 ^ precision ≤ (2 * k + 1).natAbs)
    (hhigh : (2 * k + 1).natAbs < 2 ^ (precision + 1)) :
    nearest precision emin ((2 * k + 1 : ℤ) : K) =
      ((2 * if Even k then k else k + 1 : ℤ) : K) := by
  have hexponent : exponent precision emin ((2 * k + 1 : ℤ) : K) = 1 := by
    rw [exponent_of_log (by omega) hlow hhigh]
    omega
  have hhalf : ((2 * k + 1 : ℤ) : K) / 2 ^ (1 : ℤ) = (2 * k + 1 : K) / 2 := by
    rw [zpow_one]
    push_cast
    ring
  rw [nearest, hexponent, nearestAt, hhalf, roundEven_midpoint, zpow_one]
  push_cast
  ring

/-- The floating-point numbers with more than `precision` digits are even. -/
theorem even_of_nearest (h : nearest precision emin x = x) (hlow : 2 ^ precision ≤ |x|) :
    ∃ m : ℤ, x = ((2 * m : ℤ) : K) := by
  have hpos : 0 < |x| := lt_of_lt_of_le (by positivity) hlow
  have hlog : (precision : ℤ) ≤ Int.log 2 |x| := by
    rw [← Int.zpow_le_iff_le_log Nat.one_lt_two hpos, zpow_natCast]
    exact_mod_cast hlow
  obtain ⟨j, hj⟩ : ∃ j : ℕ, exponent precision emin x = j + 1 := by
    refine ⟨(exponent precision emin x - 1).toNat, ?_⟩
    unfold exponent
    omega
  refine ⟨roundEven (x / 2 ^ exponent precision emin x) * 2 ^ j, ?_⟩
  calc
    x = nearest precision emin x := h.symm
    _ = roundEven (x / 2 ^ exponent precision emin x) * 2 ^ (j + 1 : ℤ) := by
      rw [nearest, nearestAt, hj]
    _ = ((2 * (roundEven (x / 2 ^ exponent precision emin x) * 2 ^ j) : ℤ) : K) := by
      rw [zpow_add₀ (by positivity), zpow_natCast, zpow_one]
      push_cast
      ring

theorem exists_nearest_intCast (n : ℤ) : ∃ m : ℤ, nearest precision emin (n : K) = m := by
  rcases le_or_gt (exponent precision emin (n : K)) 0 with hle | hgt
  · exact ⟨n, (onGrid_intCast hle n).nearest⟩
  · refine ⟨roundEven ((n : K) / 2 ^ exponent precision emin (n : K)) *
      2 ^ (exponent precision emin (n : K)).toNat, ?_⟩
    rw [nearest, nearestAt, Int.cast_mul, Int.cast_pow, Int.cast_ofNat, ← zpow_natCast,
      Int.toNat_of_nonneg hgt.le]

/-! ### Quotients -/

theorem nearest_le_add_half_unit :
    nearest precision emin x ≤ x + 2 ^ exponent precision emin x / 2 := by
  have hpos : (0 : K) < 2 ^ exponent precision emin x := by positivity
  calc
    nearest precision emin x ≤
        (x / 2 ^ exponent precision emin x + 1 / 2) * 2 ^ exponent precision emin x :=
      mul_le_mul_of_nonneg_right (roundEven_le_add_half _) hpos.le
    _ = x + 2 ^ exponent precision emin x / 2 := by
      rw [add_mul, div_mul_cancel₀ _ hpos.ne']
      ring

theorem mul_unit_lt {a b : K} (hb : 0 < b) (ha : 0 < a) (hlt : a < 2 ^ precision)
    (hunit : exponent precision emin (a / b) = Int.log 2 |a / b| + 1 - precision) :
    b * 2 ^ exponent precision emin (a / b) < 2 := by
  have hpos : 0 < a / b := div_pos ha hb
  have hlog := zpow_log_le_abs hpos.ne'
  have hsplit : (2 : K) ^ (Int.log 2 |a / b| + 1 - precision) =
      2 ^ Int.log 2 |a / b| * (2 / 2 ^ precision) := by
    rw [add_sub_assoc, zpow_add₀ two_ne_zero, zpow_sub₀ two_ne_zero, zpow_one, zpow_natCast]
  have hscale : (0 : K) < 2 / 2 ^ precision := by positivity
  rw [abs_of_pos hpos] at hlog hsplit
  rw [hunit, abs_of_pos hpos, hsplit]
  calc
    b * (2 ^ Int.log 2 (a / b) * (2 / 2 ^ precision)) ≤ b * (a / b * (2 / 2 ^ precision)) := by
      gcongr
    _ = 2 * (a / 2 ^ precision) := by
      field_simp
    _ < 2 * 1 := by
      have hone : a / 2 ^ precision < 1 := (div_lt_one (by positivity)).mpr hlt
      linarith
    _ = 2 := mul_one 2

/-- A quotient of whole numbers is not rounded up to the next whole number. -/
theorem floor_nearest_div (hp : 0 < precision) (hmin : emin + precision < 0) {a b : ℤ}
    (ha : 0 ≤ a) (hlt : a < 2 ^ precision) (hb : 0 < b) :
    ⌊nearest precision emin ((a : K) / b)⌋ = a / b := by
  have hbelow : a / b * b ≤ a := Int.ediv_mul_le a hb.ne'
  have habove : a + 1 ≤ (a / b + 1) * b := Int.lt_ediv_add_one_mul_self a hb
  have hq : 0 ≤ a / b := Int.ediv_nonneg ha hb.le
  have hqa : a / b ≤ a := Int.ediv_le_self _ ha
  have hbK : (0 : K) < b := Int.cast_pos.mpr hb
  rw [Int.floor_eq_iff]
  constructor
  · have hexact : nearest precision emin ((a / b : ℤ) : K) = ((a / b : ℤ) : K) :=
      nearest_intCast hp (by omega) (by zify; rw [abs_of_nonneg hq]; omega)
    rw [← hexact]
    refine nearest_mono hp ((le_div_iff₀ hbK).mpr ?_)
    exact_mod_cast hbelow
  · rcases ha.eq_or_lt with rfl | hpos
    · have hzero : nearest precision emin ((0 : ℤ) / b : K) = 0 := by
        rw [Int.cast_zero, zero_div]
        exact (onGrid_zero _).nearest
      rw [hzero, Int.zero_ediv]
      norm_num
    · have haK : (0 : K) < a := Int.cast_pos.mpr hpos
      have hx : (0 : K) < a / b := div_pos haK hbK
      by_contra hle
      have hreach := (not_lt.mp hle).trans nearest_le_add_half_unit
      rcases max_choice (Int.log 2 |(a : K) / b| + 1 - precision) emin with hunit | hunit
      · have hsmall := mul_unit_lt hbK haK (by exact_mod_cast hlt) hunit
        have hmul := mul_le_mul_of_nonneg_left hreach hbK.le
        have hdiv : (b : K) * (a / b) = a := mul_div_cancel₀ _ hbK.ne'
        have hcast : (a : K) + 1 ≤ ((a / b : ℤ) + 1) * b := by exact_mod_cast habove
        rw [mul_add, mul_add, hdiv] at hmul
        linarith
      · have hlog : Int.log 2 |(a : K) / b| + 1 ≤ -1 := by omega
        have hsmall : (a : K) / b < ((2 : ℕ) : K) ^ (Int.log 2 ((a : K) / b) + 1) :=
          Int.lt_zpow_succ_log_self Nat.one_lt_two _
        rw [abs_of_pos hx] at hlog
        rw [Nat.cast_ofNat] at hsmall
        have hhalf : (2 : K) ^ (Int.log 2 ((a : K) / b) + 1) ≤ 2 ^ (-1 : ℤ) :=
          zpow_le_zpow_right₀ one_le_two hlog
        have hunit' : (2 : K) ^ exponent precision emin ((a : K) / b) ≤ 2 ^ (0 : ℤ) := by
          rw [exponent, hunit]
          exact zpow_le_zpow_right₀ one_le_two (by omega)
        have hone : (0 : K) ≤ (a / b : ℤ) := by exact_mod_cast hq
        rw [zpow_neg_one] at hhalf
        rw [zpow_zero] at hunit'
        linarith

end Nearest

end FloatRounding
