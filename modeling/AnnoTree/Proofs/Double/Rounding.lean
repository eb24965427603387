import AnnoTree.Double.Basic
import Mathlib

/-!
# Rounding

What rounding comes to, said with rationals: the nearest number to a quotient depends on the value
of the quotient and not on its numerator and denominator, and the nearest number to a decimal on
the value of the decimal and not on its digits and exponent. A number of the format is nearest to
itself.

## Main definitions

- `Double.lastPlace`: the exponent at which a rational has a mantissa of 53 bits.
- `Double.nearest?`: the number nearest to a rational.

## Main statements

- `Double.ofRatio?_eq_nearest?`, `Double.ofDecimal_eq_nearest?`: the two ways to a number.
- `Double.nearest?_value`: a number is nearest to its own value.
-/

namespace AnnoTree.Double

/-! ## §1 Rounding of rationals -/

/-- A rational rounded to the nearest natural number, a tie to the even one. -/
def roundHalf (x : ℚ) : ℕ :=
  if x - ⌊x⌋₊ < 1 / 2 then ⌊x⌋₊
  else if 1 / 2 < x - ⌊x⌋₊ then ⌊x⌋₊ + 1
  else if ⌊x⌋₊ % 2 = 0 then ⌊x⌋₊
  else ⌊x⌋₊ + 1

/-- The exponent at which a rational has a mantissa of 53 bits, but never less than the least. -/
def lastPlace (x : ℚ) : ℤ :=
  max (Int.log 2 x - 52) (-1074)

/-- The number nearest to a rational that is not negative; none if it is too large. -/
def nearest? (negative : Bool) (x : ℚ) : Option Double :=
  if x = 0 then some (zero negative)
  else
    let e := lastPlace x
    let m := roundHalf (x / 2 ^ e)
    let (mantissa, exponent) := if m = mantissaBound then (leadingBit, e + 1) else (m, e)
    if h : Canonical mantissa exponent then some (.finite negative mantissa exponent h) else none

/-- The magnitude of a finite number. -/
def value (mantissa : ℕ) (exponent : ℤ) : ℚ :=
  mantissa * 2 ^ exponent

/-! ## §2 Scaling -/

theorem scaleDown_pos {base den : ℕ} (hbase : 0 < base) (hden : 0 < den) (num : ℕ) (power : ℤ) :
    0 < (scaleDown base num den power).2 := by
  unfold scaleDown
  split
  · exact Nat.mul_pos hden (Nat.pow_pos hbase)
  · exact hden

/-- Scaling divides the value of a quotient by a power. -/
theorem scaleDown_value {base : ℕ} (hbase : 0 < base) (num den : ℕ) (power : ℤ) :
    ((scaleDown base num den power).1 : ℚ) / (scaleDown base num den power).2 =
      num / den / base ^ power := by
  have hne : (base : ℚ) ≠ 0 := Nat.cast_ne_zero.mpr hbase.ne'
  unfold scaleDown
  split
  next hpower =>
    obtain ⟨n, rfl⟩ := Int.eq_ofNat_of_zero_le hpower
    rw [Int.toNat_natCast, zpow_natCast, div_div]
    push_cast [Nat.pow_eq]
    rfl
  next hpower =>
    obtain ⟨n, rfl⟩ := Int.exists_eq_neg_ofNat (not_le.mp hpower).le
    rw [neg_neg, Int.toNat_natCast, zpow_neg, zpow_natCast, div_inv_eq_mul, div_mul_eq_mul_div]
    push_cast [Nat.pow_eq]
    rfl

/-! ## §3 The exponent of a quotient -/

theorem two_zpow_pos (z : ℤ) : (0 : ℚ) < 2 ^ z :=
  zpow_pos (by norm_num) z

/-- The logarithm of a rational is the only integer whose power and the next one enclose it. -/
theorem log_eq {x : ℚ} {z : ℤ} (hlow : 2 ^ z ≤ x) (hhigh : x < 2 ^ (z + 1)) :
    Int.log 2 x = z := by
  have hx : 0 < x := lt_of_lt_of_le (two_zpow_pos z) hlow
  have hge := (Int.zpow_le_iff_le_log (b := 2) (by decide) hx).mp (by exact_mod_cast hlow)
  have hlt := (Int.lt_zpow_iff_log_lt (b := 2) (by decide) hx).mp (by exact_mod_cast hhigh)
  omega

theorem two_zpow_log2_le {n : ℕ} (hn : 0 < n) : (2 : ℚ) ^ (n.log2 : ℤ) ≤ n := by
  rw [zpow_natCast]
  exact_mod_cast Nat.log2_self_le hn.ne'

theorem lt_two_zpow_log2 (n : ℕ) : (n : ℚ) < 2 ^ ((n.log2 : ℤ) + 1) := by
  exact_mod_cast Nat.lt_log2_self

/-- The lengths of numerator and denominator give the logarithm of a quotient up to one. -/
theorem quotient_bounds {num den : ℕ} (hnum : 0 < num) (hden : 0 < den) :
    (2 : ℚ) ^ ((num.log2 : ℤ) - den.log2 - 1) ≤ num / den ∧
      (num : ℚ) / den < 2 ^ ((num.log2 : ℤ) - den.log2 + 1) := by
  have hpos : (0 : ℚ) < den := Nat.cast_pos.mpr hden
  constructor
  · rw [le_div_iff₀ hpos]
    calc (2 : ℚ) ^ ((num.log2 : ℤ) - den.log2 - 1) * den
        ≤ 2 ^ ((num.log2 : ℤ) - den.log2 - 1) * 2 ^ ((den.log2 : ℤ) + 1) :=
          mul_le_mul_of_nonneg_left (lt_two_zpow_log2 den).le (two_zpow_pos _).le
      _ = 2 ^ (num.log2 : ℤ) := by
          rw [← zpow_add₀ two_ne_zero]
          congr 1
          ring
      _ ≤ num := two_zpow_log2_le hnum
  · rw [div_lt_iff₀ hpos]
    calc (num : ℚ) < 2 ^ ((num.log2 : ℤ) + 1) := lt_two_zpow_log2 num
      _ = 2 ^ ((num.log2 : ℤ) - den.log2 + 1) * 2 ^ (den.log2 : ℤ) := by
          rw [← zpow_add₀ two_ne_zero]
          congr 1
          ring
      _ ≤ 2 ^ ((num.log2 : ℤ) - den.log2 + 1) * den :=
          mul_le_mul_of_nonneg_left (two_zpow_log2_le hden) (two_zpow_pos _).le

/-- The guess of the exponent is corrected by comparing the scaled quotient with 53 bits. -/
theorem exponentOf_eq_lastPlace {num den : ℕ} (hnum : 0 < num) (hden : 0 < den) :
    exponentOf num den = lastPlace (num / den) := by
  obtain ⟨hlow, hhigh⟩ := quotient_bounds hnum hden
  -- the logarithm is 52 or 53 more than the guess
  simp only [exponentOf, lastPlace]
  generalize hguess : (num.log2 : ℤ) - den.log2 - 53 = guess
  have hpos := scaleDown_pos two_pos hden num guess
  have hvalue := scaleDown_value two_pos num den guess
  -- the comparison of natural numbers says which of the two it is
  have hfull : (scaleDown 2 num den guess).1 / (scaleDown 2 num den guess).2 < mantissaBound ↔
      (num : ℚ) / den < 2 ^ (guess + 53) := by
    rw [Nat.div_lt_iff_lt_mul hpos, ← Nat.cast_lt (α := ℚ), Nat.cast_mul,
      ← div_lt_iff₀ (Nat.cast_pos.mpr hpos), hvalue, Nat.cast_ofNat, div_lt_iff₀ (two_zpow_pos _),
      add_comm guess, zpow_add₀ two_ne_zero]
    norm_num [mantissaBound]
  have hbelow : (num.log2 : ℤ) - den.log2 - 1 = guess + 52 := by omega
  have habove : (num.log2 : ℤ) - den.log2 + 1 = guess + 53 + 1 := by omega
  rw [hbelow] at hlow
  rw [habove] at hhigh
  by_cases h : (num : ℚ) / den < 2 ^ (guess + 53)
  · rw [if_pos (hfull.mpr h), log_eq hlow (by rwa [add_assoc])]
    congr 1
    omega
  · rw [if_neg fun hlt => h (hfull.mp hlt), log_eq (not_lt.mp h) hhigh]
    congr 1
    omega

/-! ## §4 Rounding of quotients -/

theorem roundHalfEven_eq (num : ℕ) {den : ℕ} (hden : 0 < den) :
    roundHalfEven num den = roundHalf (num / den) := by
  have hpos : (0 : ℚ) < den := Nat.cast_pos.mpr hden
  have hfloor : ⌊(num : ℚ) / den⌋₊ = num / den := Nat.floor_div_eq_div num den
  have hrest : (num : ℚ) / den - (num / den : ℕ) = (num % den : ℕ) / den := by
    rw [eq_div_iff hpos.ne', sub_mul, div_mul_cancel₀ _ hpos.ne', sub_eq_iff_eq_add]
    exact_mod_cast (Nat.mod_add_div' num den).symm
  -- both comparisons with a half are comparisons of natural numbers
  have hless : (num : ℚ) / den - (num / den : ℕ) < 1 / 2 ↔ 2 * (num % den) < den := by
    rw [hrest, div_lt_div_iff₀ hpos two_pos, one_mul, mul_comm]
    exact_mod_cast Iff.rfl
  have hmore : 1 / 2 < (num : ℚ) / den - (num / den : ℕ) ↔ den < 2 * (num % den) := by
    rw [hrest, div_lt_div_iff₀ two_pos hpos, one_mul, mul_comm]
    exact_mod_cast Iff.rfl
  simp only [roundHalfEven, roundHalf, hfloor, hless, hmore]

/-- Rounding of a quotient depends on its value alone. -/
theorem ofRatio?_eq_nearest? (negative : Bool) (num : ℕ) {den : ℕ} (hden : 0 < den) :
    ofRatio? negative num den = nearest? negative (num / den) := by
  have hpos : (den : ℚ) ≠ 0 := Nat.cast_ne_zero.mpr hden.ne'
  unfold ofRatio? nearest?
  by_cases hnum : num = 0
  · rw [if_pos hnum, if_pos (by rw [hnum, Nat.cast_zero, zero_div])]
  · -- the scaled quotient has the value of which the mantissa is rounded
    have hvalue := scaleDown_value two_pos num den (lastPlace (num / den))
    have hround := roundHalfEven_eq (scaleDown 2 num den (lastPlace (num / den))).1
      (scaleDown_pos two_pos hden num (lastPlace (num / den)))
    rw [hvalue] at hround
    rw [if_neg hnum, if_neg (div_ne_zero (Nat.cast_ne_zero.mpr hnum) hpos)]
    simp only [exponentOf_eq_lastPlace (Nat.pos_of_ne_zero hnum) hden, hround, Nat.cast_ofNat]

/-! ## §5 Numbers of the format -/

theorem roundHalf_natCast (n : ℕ) : roundHalf (n : ℚ) = n := by
  simp [roundHalf]

theorem value_ne_zero {mantissa : ℕ} {exponent : ℤ} (h : mantissa ≠ 0) :
    value mantissa exponent ≠ 0 :=
  mul_ne_zero (Nat.cast_ne_zero.mpr h) (two_zpow_pos exponent).ne'

/-- The stored exponent of a number is that of its last place. -/
theorem lastPlace_value {mantissa : ℕ} {exponent : ℤ} (h : Canonical mantissa exponent)
    (hm : mantissa ≠ 0) : lastPlace (value mantissa exponent) = exponent := by
  obtain ⟨hbound, hleast, -, hsubnormal⟩ := h
  have hhigh : value mantissa exponent < 2 ^ (exponent + 52 + 1) := by
    have hcast : (mantissa : ℚ) < 2 ^ (53 : ℤ) := by exact_mod_cast hbound
    calc value mantissa exponent < 2 ^ (53 : ℤ) * 2 ^ exponent :=
          mul_lt_mul_of_pos_right hcast (two_zpow_pos exponent)
      _ = 2 ^ (exponent + 52 + 1) := by
          rw [← zpow_add₀ two_ne_zero]
          congr 1
          ring
  have hpos : 0 < value mantissa exponent :=
    mul_pos (Nat.cast_pos.mpr (Nat.pos_of_ne_zero hm)) (two_zpow_pos exponent)
  unfold lastPlace
  by_cases hnormal : mantissa < leadingBit
  · -- below the first number of 53 bits the exponent is the least one
    have hlog := (Int.lt_zpow_iff_log_lt (b := 2) (by decide) hpos).mp (by exact_mod_cast hhigh)
    have := hsubnormal hnormal
    omega
  · have hlow : 2 ^ (exponent + 52) ≤ value mantissa exponent := by
      have hcast : (2 : ℚ) ^ (52 : ℤ) ≤ mantissa := by exact_mod_cast not_lt.mp hnormal
      calc (2 : ℚ) ^ (exponent + 52) = 2 ^ (52 : ℤ) * 2 ^ exponent := by
            rw [← zpow_add₀ two_ne_zero, add_comm]
        _ ≤ value mantissa exponent :=
            mul_le_mul_of_nonneg_right hcast (two_zpow_pos exponent).le
    rw [log_eq hlow hhigh]
    omega

/-- A number of the format is nearest to its own value. -/
theorem nearest?_value {mantissa : ℕ} {exponent : ℤ} (negative : Bool)
    (h : Canonical mantissa exponent) :
    nearest? negative (value mantissa exponent) = some (.finite negative mantissa exponent h) := by
  unfold nearest?
  by_cases hm : mantissa = 0
  · subst hm
    obtain rfl : exponent = -1074 := h.2.2.2 (by decide)
    rw [if_pos (by rw [value, Nat.cast_zero, zero_mul])]
    rfl
  · -- the scaled value is a whole number, so nothing is rounded
    have hscaled : value mantissa exponent / 2 ^ exponent = mantissa :=
      mul_div_cancel_right₀ _ (two_zpow_pos exponent).ne'
    rw [if_neg (value_ne_zero hm)]
    simp only [lastPlace_value h hm, hscaled, roundHalf_natCast, if_neg h.1.ne, dif_pos h]

/-- The sign has no part in rounding. -/
theorem nearest?_sign {negative sign : Bool} {x : ℚ} {mantissa : ℕ} {exponent : ℤ}
    {h : Canonical mantissa exponent}
    (hx : nearest? negative x = some (.finite sign mantissa exponent h)) (other : Bool) :
    nearest? other x = some (.finite other mantissa exponent h) := by
  unfold nearest? at hx ⊢
  split at hx
  next hzero =>
    rw [if_pos hzero]
    cases hx
    rfl
  next hzero =>
    rw [if_neg hzero]
    simp only [Option.dite_none_right_eq_some] at hx ⊢
    obtain ⟨hcanonical, hx⟩ := hx
    cases hx
    exact ⟨hcanonical, rfl⟩

/-! ## §6 The ends of the range -/

/-- Every number of the format is less than the next power of two after the greatest. -/
theorem nearest?_of_large {x : ℚ} (negative : Bool) (hx : 2 ^ (1024 : ℤ) ≤ x) :
    nearest? negative x = none := by
  have hpos : 0 < x := lt_of_lt_of_le (two_zpow_pos 1024) hx
  have hlog : 1024 ≤ Int.log 2 x :=
    (Int.zpow_le_iff_le_log (b := 2) (by decide) hpos).mp (by rwa [Nat.cast_ofNat])
  -- the exponent is past the greatest one, whether or not the mantissa is carried over
  have hplace : 972 ≤ lastPlace x := by
    unfold lastPlace
    omega
  unfold nearest?
  rw [if_neg hpos.ne']
  simp only [dite_eq_right_iff, reduceCtorEq, imp_false]
  rintro ⟨-, -, hgreatest, -⟩
  split at hgreatest <;> omega

/-- Below half of the least positive number the nearest one is zero. -/
theorem nearest?_of_small {x : ℚ} (negative : Bool) (hpos : 0 < x) (hx : x < 2 ^ (-1075 : ℤ)) :
    nearest? negative x = some (zero negative) := by
  have hlog : Int.log 2 x < -1075 :=
    (Int.lt_zpow_iff_log_lt (b := 2) (by decide) hpos).mp (by rwa [Nat.cast_ofNat])
  have hplace : lastPlace x = -1074 := by
    unfold lastPlace
    omega
  have hscaled : x / 2 ^ (-1074 : ℤ) < 1 / 2 := by
    rw [div_lt_iff₀ (two_zpow_pos _)]
    calc x < 2 ^ (-1075 : ℤ) := hx
      _ = 1 / 2 * 2 ^ (-1074 : ℤ) := by
          rw [show (-1075 : ℤ) = -1 + -1074 by norm_num, zpow_add₀ two_ne_zero]
          norm_num
  have hround : roundHalf (x / 2 ^ (-1074 : ℤ)) = 0 := by
    have hfloor : ⌊x / 2 ^ (-1074 : ℤ)⌋₊ = 0 := Nat.floor_eq_zero.mpr (by linarith)
    unfold roundHalf
    rw [hfloor, Nat.cast_zero, sub_zero, if_pos hscaled]
  unfold nearest?
  rw [if_neg hpos.ne']
  simp only [hplace, hround]
  rfl

/-! ## §7 Decimals -/

theorem ten_zpow_pos (z : ℤ) : (0 : ℚ) < 10 ^ z :=
  zpow_pos (by norm_num) z

theorem two_zpow_le_ten_zpow : (2 : ℚ) ^ (1203 : ℤ) ≤ 10 ^ (401 : ℤ) :=
  calc (2 : ℚ) ^ (1203 : ℤ) = (2 ^ (3 : ℤ)) ^ (401 : ℤ) := by rw [← zpow_mul]; rfl
    _ ≤ 10 ^ (401 : ℤ) := zpow_le_zpow_left₀ (by norm_num) (by norm_num) (by norm_num)

theorem ten_zpow_lt_two_zpow : (10 : ℚ) ^ (-401 : ℤ) < 2 ^ (-1075 : ℤ) := by
  rw [zpow_neg, zpow_neg, inv_lt_inv₀ (ten_zpow_pos _) (two_zpow_pos _)]
  calc (2 : ℚ) ^ (1075 : ℤ) < 2 ^ (1203 : ℤ) := zpow_lt_zpow_right₀ (by norm_num) (by norm_num)
    _ ≤ 10 ^ (401 : ℤ) := two_zpow_le_ten_zpow

/-- Rounding of a decimal depends on its value alone; the shortcuts for very large and very small
exponents give what rounding would give. -/
theorem ofDecimal_eq_nearest? (negative : Bool) (digits : ℕ) (exponent : ℤ) :
    ofDecimal negative digits exponent =
      (nearest? negative (digits * 10 ^ exponent)).getD (.infinite negative) := by
  unfold ofDecimal
  by_cases hdigits : digits = 0
  · rw [if_pos hdigits, hdigits, Nat.cast_zero, zero_mul, nearest?, if_pos rfl]
    rfl
  rw [if_neg hdigits]
  have hone : (1 : ℚ) ≤ digits := Nat.one_le_cast.mpr (Nat.pos_of_ne_zero hdigits)
  split
  next hlarge =>
    -- one digit is enough to be too large
    have hrange : (2 : ℚ) ^ (1024 : ℤ) ≤ digits * 10 ^ exponent :=
      calc (2 : ℚ) ^ (1024 : ℤ)
        _ ≤ 2 ^ (1203 : ℤ) := zpow_le_zpow_right₀ (by norm_num) (by norm_num)
        _ ≤ 10 ^ (401 : ℤ) := two_zpow_le_ten_zpow
        _ ≤ 10 ^ exponent := zpow_le_zpow_right₀ (by norm_num) hlarge
        _ ≤ digits * 10 ^ exponent := le_mul_of_one_le_left (ten_zpow_pos exponent).le hone
    rw [nearest?_of_large negative hrange]
    rfl
  next =>
    split
    next hsmall =>
      -- there are fewer digits than bits, so the exponent makes up for them
      have hbits : (digits : ℚ) < 10 ^ ((digits.log2 : ℤ) + 1) :=
        calc (digits : ℚ) < 2 ^ ((digits.log2 : ℤ) + 1) := lt_two_zpow_log2 digits
          _ ≤ 10 ^ ((digits.log2 : ℤ) + 1) :=
            zpow_le_zpow_left₀ (by omega) (by norm_num) (by norm_num)
      have hrange : digits * 10 ^ exponent < (2 : ℚ) ^ (-1075 : ℤ) :=
        calc digits * 10 ^ exponent < (10 : ℚ) ^ ((digits.log2 : ℤ) + 1) * 10 ^ exponent :=
              mul_lt_mul_of_pos_right hbits (ten_zpow_pos exponent)
          _ = 10 ^ (exponent + digits.log2 + 1) := by
              rw [← zpow_add₀ (by norm_num)]
              congr 1
              ring
          _ ≤ 10 ^ (-401 : ℤ) := zpow_le_zpow_right₀ (by norm_num) (by omega)
          _ < 2 ^ (-1075 : ℤ) := ten_zpow_lt_two_zpow
      have hpos : 0 < digits * (10 : ℚ) ^ exponent :=
        mul_pos (lt_of_lt_of_le one_pos hone) (ten_zpow_pos exponent)
      rw [nearest?_of_small negative hpos hrange]
      rfl
    next =>
      -- a decimal is the quotient that its exponent makes of its digits
      have hvalue := scaleDown_value (by decide : 0 < 10) digits 1 (-exponent)
      rw [Nat.cast_one, div_one, zpow_neg, div_inv_eq_mul, Nat.cast_ofNat] at hvalue
      show (ofRatio? negative (scaleDown 10 digits 1 (-exponent)).1
        (scaleDown 10 digits 1 (-exponent)).2).getD _ = _
      rw [ofRatio?_eq_nearest? negative _ (scaleDown_pos (by decide) one_pos digits _), hvalue]

end AnnoTree.Double
