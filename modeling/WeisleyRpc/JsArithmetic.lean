import Mathlib.Data.Rat.Floor
import WeisleyRpc.FloatRounding
import WeisleyRpc.JsValue

/-!
# Arithmetic on JavaScript numbers

The operators round an exact result to a double: 53 significant digits, the smallest unit
`2 ^ (-1074)`, and an infinity from `2 ^ 1024` on. The two zeros are one number here; no
operation below tells them apart, save for a division by zero, which takes the positive one.
-/

namespace JsNumber

open FloatRounding

/-- The first power of two beyond the largest number. -/
def overflow : ℚ := 2 ^ 1024

/-- The double nearest to an exact result. -/
def ofExact (q : ℚ) : JsNumber :=
  if overflow ≤ nearest 53 (-1074) q then .infinity
  else if nearest 53 (-1074) q ≤ -overflow then .negInfinity
  else .finite (nearest 53 (-1074) q)

def ofInt (n : ℤ) : JsNumber := .finite n

def neg : JsNumber → JsNumber
  | .nan => .nan
  | .infinity => .negInfinity
  | .negInfinity => .infinity
  | .finite q => .finite (-q)

def add : JsNumber → JsNumber → JsNumber
  | .finite p, .finite q => ofExact (p + q)
  | .nan, _ | _, .nan => .nan
  | .infinity, .negInfinity | .negInfinity, .infinity => .nan
  | .infinity, _ | _, .infinity => .infinity
  | .negInfinity, _ | _, .negInfinity => .negInfinity

def sub (m n : JsNumber) : JsNumber := m.add n.neg

/-- The infinity of the sign of `q`, times an infinity. -/
def signed (n : JsNumber) (q : ℚ) : JsNumber :=
  if q = 0 then .nan else if 0 < q then n else n.neg

def mul : JsNumber → JsNumber → JsNumber
  | .finite p, .finite q => ofExact (p * q)
  | .nan, _ | _, .nan => .nan
  | .finite p, n => n.signed p
  | n, .finite q => n.signed q
  | .infinity, .infinity | .negInfinity, .negInfinity => .infinity
  | .infinity, .negInfinity | .negInfinity, .infinity => .negInfinity

/-- `2 ** n`. -/
def twoPow (n : ℕ) : JsNumber := ofExact (2 ^ n)

def div : JsNumber → JsNumber → JsNumber
  | .finite p, .finite q =>
    if q = 0 then JsNumber.infinity.signed p else ofExact (p / q)
  | .nan, _ | _, .nan => .nan
  | .finite _, _ => .finite 0
  | n, .finite q => if q < 0 then n.neg else n
  | _, _ => .nan

/-- `Math.floor`. -/
def floor : JsNumber → JsNumber
  | .finite q => .finite ⌊q⌋
  | n => n

/-- `Math.max`. -/
def max : JsNumber → JsNumber → JsNumber
  | .nan, _ | _, .nan => .nan
  | .infinity, _ | _, .infinity => .infinity
  | .negInfinity, n | n, .negInfinity => n
  | .finite p, .finite q => .finite (if p ≤ q then q else p)

/-- `m <= n`. -/
def le : JsNumber → JsNumber → Bool
  | .nan, _ | _, .nan => false
  | .negInfinity, _ | _, .infinity => true
  | .infinity, _ | _, .negInfinity => false
  | .finite p, .finite q => p ≤ q

variable {p q : ℚ} {n : ℤ}

theorem lt_overflow : (2 ^ 54 : ℚ) < overflow :=
  pow_lt_pow_right₀ one_lt_two (by norm_num)

theorem nearest_mono' (h : p ≤ q) : nearest 53 (-1074) p ≤ nearest 53 (-1074) q :=
  nearest_mono (by omega) h

/-- Whole numbers up to `2 ^ 53` are numbers, and beyond it every other one. -/
theorem nearest_whole (hn : n.natAbs ≤ 2 ^ 53 ∨ (Even n ∧ n.natAbs < 2 ^ 54)) :
    nearest 53 (-1074) (n : ℚ) = n := by
  rcases hn with hle | ⟨heven, hlt⟩
  · rcases hle.lt_or_eq with hlt | heq
    · exact nearest_intCast (by omega) (by omega) hlt
    · exact nearest_even (by omega) (Int.even_iff.mpr (by omega)) (by omega)
  · exact nearest_even (by omega) heven hlt

theorem nearest_zero : nearest 53 (-1074) (0 : ℚ) = 0 := by
  have h := nearest_whole (n := 0) (Or.inl (by norm_num))
  rwa [Int.cast_zero] at h

/-- Counting up ends at `2 ^ 53`. -/
theorem nearest_top : nearest 53 (-1074) ((2 ^ 53 + 1 : ℤ) : ℚ) = ((2 ^ 53 : ℤ) : ℚ) := by
  have h : nearest 53 (-1074) ((2 * 2 ^ 52 + 1 : ℤ) : ℚ) =
      ((2 * if Even (2 ^ 52 : ℤ) then 2 ^ 52 else 2 ^ 52 + 1 : ℤ) : ℚ) :=
    nearest_odd (by omega) (by norm_num) (by norm_num)
  rw [if_pos (by decide)] at h
  norm_num at h ⊢
  exact h

/-- Counting down begins below `2 ^ 53 + 4`. -/
theorem nearest_stuck : nearest 53 (-1074) ((2 ^ 53 + 3 : ℤ) : ℚ) = ((2 ^ 53 + 4 : ℤ) : ℚ) := by
  have h : nearest 53 (-1074) ((2 * (2 ^ 52 + 1) + 1 : ℤ) : ℚ) =
      ((2 * if Even (2 ^ 52 + 1 : ℤ) then 2 ^ 52 + 1 else 2 ^ 52 + 1 + 1 : ℤ) : ℚ) :=
    nearest_odd (by omega) (by norm_num) (by norm_num)
  rw [if_neg (by decide)] at h
  norm_num at h ⊢
  exact h

theorem ofExact_eq_finite (hlow : -(2 ^ 54 - 2) ≤ q) (hhigh : q ≤ 2 ^ 54 - 2) :
    ofExact q = .finite (nearest 53 (-1074) q) := by
  have hbound : nearest 53 (-1074) ((2 ^ 54 - 2 : ℤ) : ℚ) = ((2 ^ 54 - 2 : ℤ) : ℚ) :=
    nearest_whole (Or.inr ⟨by decide, by norm_num⟩)
  have hbound' : nearest 53 (-1074) ((-(2 ^ 54 - 2) : ℤ) : ℚ) = ((-(2 ^ 54 - 2) : ℤ) : ℚ) :=
    nearest_whole (Or.inr ⟨by decide, by norm_num⟩)
  have habove : nearest 53 (-1074) q ≤ ((2 ^ 54 - 2 : ℤ) : ℚ) := by
    rw [← hbound]
    exact nearest_mono' (by exact_mod_cast hhigh)
  have hbelow : ((-(2 ^ 54 - 2) : ℤ) : ℚ) ≤ nearest 53 (-1074) q := by
    rw [← hbound']
    exact nearest_mono' (by exact_mod_cast hlow)
  norm_num at habove hbelow
  have hlt := lt_overflow
  rw [ofExact, if_neg (by linarith), if_neg (by linarith)]

theorem ofExact_whole (hn : n.natAbs ≤ 2 ^ 53 ∨ (Even n ∧ n.natAbs < 2 ^ 54)) :
    ofExact (n : ℚ) = .finite n := by
  have hbounds : -(2 ^ 54 - 2) ≤ n ∧ n ≤ 2 ^ 54 - 2 := by
    rcases hn with hle | ⟨⟨k, rfl⟩, hlt⟩ <;> omega
  have hlow : ((-(2 ^ 54 - 2) : ℤ) : ℚ) ≤ n := Int.cast_le.mpr hbounds.1
  have hhigh : (n : ℚ) ≤ ((2 ^ 54 - 2 : ℤ) : ℚ) := Int.cast_le.mpr hbounds.2
  rw [ofExact_eq_finite (by exact_mod_cast hlow) (by exact_mod_cast hhigh), nearest_whole hn]

section Whole
variable {m : ℤ}

theorem add_ofInt (h : (m + n).natAbs ≤ 2 ^ 53) : (ofInt m).add (ofInt n) = ofInt (m + n) := by
  have hsum : (m : ℚ) + n = ((m + n : ℤ) : ℚ) := (Int.cast_add m n).symm
  rw [ofInt, ofInt, add, hsum]
  exact ofExact_whole (Or.inl h)

theorem sub_ofInt_eq (m n : ℤ) : (ofInt m).sub (ofInt n) = ofExact ((m - n : ℤ) : ℚ) := by
  rw [Int.cast_sub, sub_eq_add_neg]
  rfl

theorem sub_ofInt (h : (m - n).natAbs ≤ 2 ^ 53) : (ofInt m).sub (ofInt n) = ofInt (m - n) := by
  rw [sub_ofInt_eq]
  exact ofExact_whole (Or.inl h)

theorem mul_ofInt (h : (m * n).natAbs ≤ 2 ^ 53) : (ofInt m).mul (ofInt n) = ofInt (m * n) := by
  have hprod : (m : ℚ) * n = ((m * n : ℤ) : ℚ) := (Int.cast_mul m n).symm
  rw [ofInt, ofInt, mul, hprod]
  exact ofExact_whole (Or.inl h)

theorem floor_div_ofInt (hm : 0 ≤ m) (hlt : m < 2 ^ 53) (hn : 0 < n) :
    ((ofInt m).div (ofInt n)).floor = ofInt (m / n) := by
  have hpos : (0 : ℚ) < n := Int.cast_pos.mpr hn
  have hmQ : (0 : ℚ) ≤ m := by exact_mod_cast hm
  have hnonneg : (0 : ℚ) ≤ m / n := div_nonneg hmQ hpos.le
  have hle : (m / n : ℚ) ≤ 2 ^ 53 := by
    have hone : (1 : ℚ) ≤ n := by exact_mod_cast hn
    have hcast : (m : ℚ) ≤ 2 ^ 53 := by exact_mod_cast hlt.le
    exact (div_le_self hmQ hone).trans hcast
  rw [ofInt, ofInt, div, if_neg hpos.ne', ofExact_eq_finite (by linarith) (by linarith)]
  rw [floor, floor_nearest_div (by omega) (by norm_num) hm hlt hn]
  rfl

end Whole

theorem ofExact_nonpos (h : q ≤ 0) :
    ofExact q = .negInfinity ∨ ∃ r ≤ 0, ofExact q = .finite r := by
  have hle : nearest 53 (-1074) q ≤ 0 := by
    rw [← nearest_zero]
    exact nearest_mono' h
  unfold ofExact
  split_ifs with hhigh hlow
  · have hlt := lt_overflow
    linarith
  · exact Or.inl rfl
  · exact Or.inr ⟨_, hle, rfl⟩

theorem ofExact_stuck (h : 2 ^ 53 + 3 ≤ q) :
    ofExact q = .infinity ∨ ∃ r, 2 ^ 53 + 4 ≤ r ∧ ofExact q = .finite r := by
  have hle : ((2 ^ 53 + 4 : ℤ) : ℚ) ≤ nearest 53 (-1074) q := by
    rw [← nearest_stuck]
    exact nearest_mono' (by exact_mod_cast h)
  unfold ofExact
  split_ifs with hhigh hlow
  · exact Or.inl rfl
  · have hpos : (0 : ℚ) ≤ ((2 ^ 53 + 4 : ℤ) : ℚ) := by norm_num
    have hlt := lt_overflow
    linarith
  · exact Or.inr ⟨_, by exact_mod_cast hle, rfl⟩

/-- The fractions that are numbers of the language. -/
def IsDouble (q : ℚ) : Prop := ofExact q = .finite q

theorem IsDouble.even (h : IsDouble q) (hlow : 2 ^ 53 ≤ q) : ∃ m : ℤ, q = ((2 * m : ℤ) : ℚ) := by
  have hnearest : nearest 53 (-1074) q = q := by
    unfold IsDouble ofExact at h
    split_ifs at h
    exact JsNumber.finite.inj h
  exact even_of_nearest hnearest (hlow.trans (le_abs_self q))

theorem ofExact_ne_nan : ofExact q ≠ .nan := by
  unfold ofExact
  split_ifs <;> exact JsNumber.noConfusion

theorem infinity_signed (hn : 1 ≤ n) : signed .infinity n = .infinity := by
  have hpos : (0 : ℚ) < n := by exact_mod_cast hn
  rw [signed, if_neg hpos.ne', if_pos hpos]

/-- A whole number from `m` on, or `Infinity`. -/
def AtLeast (m : ℤ) (x : JsNumber) : Prop := x = .infinity ∨ ∃ k : ℤ, m ≤ k ∧ x = .finite k

namespace AtLeast
variable {m k : ℤ} {x y : JsNumber}

theorem mono (hx : AtLeast m x) (h : k ≤ m) : AtLeast k x := by
  rcases hx with rfl | ⟨j, hj, rfl⟩
  · exact Or.inl rfl
  · exact Or.inr ⟨j, h.trans hj, rfl⟩

theorem le {n : ℕ} (hx : AtLeast n x) : (ofNat n).le x = true := by
  rcases hx with rfl | ⟨k, hk, rfl⟩
  · rfl
  · have hcast : ((n : ℤ) : ℚ) ≤ k := Int.cast_le.mpr hk
    simpa [ofNat, JsNumber.le] using hcast

/-- A whole result is a whole number again, not below a number that it is not below. -/
theorem ofExact (hm : m.natAbs ≤ 2 ^ 53) (h : m ≤ n) : AtLeast m (ofExact (n : ℚ)) := by
  have hle : (m : ℚ) ≤ nearest 53 (-1074) (n : ℚ) := by
    rw [← nearest_whole (Or.inl hm)]
    exact nearest_mono' (Int.cast_le.mpr h)
  obtain ⟨k, hk⟩ : ∃ k : ℤ, nearest 53 (-1074) (n : ℚ) = k := exists_nearest_intCast n
  unfold JsNumber.ofExact
  split_ifs with hhigh hlow
  · exact Or.inl rfl
  · have hbelow : (-2 ^ 53 : ℚ) ≤ m := by
      have hcast : ((-2 ^ 53 : ℤ) : ℚ) ≤ m := Int.cast_le.mpr (by omega)
      exact_mod_cast hcast
    have hlt := lt_overflow
    linarith
  · refine Or.inr ⟨k, ?_, by rw [hk]⟩
    rw [hk] at hle
    exact Int.cast_le.mp hle

theorem add (hx : AtLeast m x) (hy : AtLeast k y) (h : (m + k).natAbs ≤ 2 ^ 53) :
    AtLeast (m + k) (x.add y) := by
  rcases hx with rfl | ⟨i, hi, rfl⟩
  · rcases hy with rfl | ⟨j, hj, rfl⟩ <;> exact Or.inl rfl
  · rcases hy with rfl | ⟨j, hj, rfl⟩
    · exact Or.inl rfl
    · have hsum : ((i : ℚ) + j) = ((i + j : ℤ) : ℚ) := (Int.cast_add i j).symm
      rw [JsNumber.add, hsum]
      exact AtLeast.ofExact h (by omega)

theorem mul (hx : AtLeast 1 x) (hy : AtLeast 1 y) : AtLeast 1 (x.mul y) := by
  rcases hx with rfl | ⟨i, hi, rfl⟩
  · rcases hy with rfl | ⟨j, hj, rfl⟩
    · exact Or.inl rfl
    · exact Or.inl (infinity_signed hj)
  · rcases hy with rfl | ⟨j, hj, rfl⟩
    · exact Or.inl (infinity_signed hi)
    · have hprod : ((i : ℚ) * j) = ((i * j : ℤ) : ℚ) := (Int.cast_mul i j).symm
      rw [JsNumber.mul, hprod]
      refine AtLeast.ofExact (by norm_num) ?_
      calc
        (1 : ℤ) = 1 * 1 := rfl
        _ ≤ i * j := Int.mul_le_mul hi hj (by omega) (by omega)

/-- `Math.max(n, Math.floor(x))` passes `NaN` on. -/
theorem max_floor (n : ℕ) (hx : x ≠ .nan) : AtLeast n ((ofNat n).max x.floor) := by
  cases x with
  | nan => exact absurd rfl hx
  | infinity => exact Or.inl rfl
  | negInfinity => exact Or.inr ⟨n, le_refl _, by simp [JsNumber.floor, JsNumber.max, ofNat]⟩
  | finite q =>
    refine Or.inr ⟨Max.max n ⌊q⌋, le_max_left _ _, ?_⟩
    rw [Int.cast_max, Int.cast_natCast]
    simp only [JsNumber.floor, JsNumber.max, ofNat, max_def]

theorem floor_cases (hx : x ≠ .nan) : x.floor.leNat 0 = true ∨ AtLeast 1 x.floor := by
  cases x with
  | nan => exact absurd rfl hx
  | infinity => exact Or.inr (Or.inl rfl)
  | negInfinity => exact Or.inl rfl
  | finite q =>
    by_cases hq : ⌊q⌋ ≤ 0
    · left
      have hcast : (⌊q⌋ : ℚ) ≤ 0 := by exact_mod_cast hq
      simpa [JsNumber.floor, leNat] using hcast
    · exact Or.inr (Or.inr ⟨⌊q⌋, by omega, rfl⟩)

end AtLeast

theorem div_ne_nan {x : JsNumber} (hx : x ≠ .nan) (hn : 1 ≤ n) : x.div (.finite n) ≠ .nan := by
  have hpos : (0 : ℚ) < n := by exact_mod_cast hn
  cases x with
  | nan => exact absurd rfl hx
  | infinity => simp [div, hpos.not_gt]
  | negInfinity => simp [div, hpos.not_gt]
  | finite q =>
    rw [div, if_neg hpos.ne']
    exact ofExact_ne_nan

theorem div_leNat_zero {x : JsNumber} (hx : x.leNat 0 = true) (hn : 1 ≤ n) :
    (x.div (.finite n)).floor.leNat 0 = true := by
  have hpos : (0 : ℚ) < n := by exact_mod_cast hn
  cases x with
  | nan => simp [leNat] at hx
  | infinity => simp [leNat] at hx
  | negInfinity => simp [div, hpos.not_gt, floor, leNat]
  | finite q =>
    have hq : q ≤ 0 := by simpa [leNat] using hx
    rw [div, if_neg hpos.ne']
    rcases ofExact_nonpos (div_nonpos_of_nonpos_of_nonneg hq hpos.le) with h | ⟨r, hr, h⟩
    · rw [h]
      rfl
    · have hfloor : (⌊r⌋ : ℚ) ≤ 0 := (Int.floor_le r).trans hr
      rw [h]
      simpa [floor, leNat] using hfloor

end JsNumber
