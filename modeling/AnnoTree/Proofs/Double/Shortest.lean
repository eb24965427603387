import AnnoTree.Double.Shortest
import AnnoTree.Proofs.Double.Rounding

/-!
# Shortest decimals

The decimal that the search returns rounds to the number it was made from, whatever step of the
search found it.

## Main statements

- `Double.nearest?_shortest`: the shortest decimal of a number rounds to that number.
- `Double.shortest_digits_ne_zero`: its first digit says something.
-/

namespace AnnoTree.Double

/-! ## §1 Decimals that read back -/

/-- The value of a decimal. -/
def Decimal.value (x : Decimal) : ℚ :=
  x.digits * 10 ^ x.exponent

/-- The test on a decimal is about its value. -/
theorem Decimal.nearest?_value {x : Decimal} {mantissa : ℕ} {exponent : ℤ}
    (h : Canonical mantissa exponent) (hback : x.readsBack mantissa exponent = true) :
    nearest? false x.value = some (.finite false mantissa exponent h) := by
  rw [readsBack, ofDecimal_eq_nearest?] at hback
  -- the test fails on all that is not a number of the format
  rcases hnear : nearest? false (x.digits * 10 ^ x.exponent) with _ | y
  · rw [hnear] at hback
    cases hback
  · rw [hnear] at hback
    rcases y with _ | _ | ⟨sign, m, e, hcanonical⟩
    · cases hback
    · cases hback
    · simp only [Option.getD_some, Bool.and_eq_true, beq_iff_eq] at hback
      obtain ⟨rfl, rfl⟩ := hback
      exact nearest?_sign hnear false

/-! ## §2 The search -/

theorem neighbour?_readsBack {mantissa : ℕ} {exponent power : ℤ} {x : Decimal}
    (h : neighbour? mantissa exponent power = some x) : x.readsBack mantissa exponent = true := by
  simp only [neighbour?] at h
  split at h
  next hlower hupper =>
    obtain rfl := Option.some.inj h
    split
    · exact hlower
    · exact hupper
  next hlower _ =>
    obtain rfl := Option.some.inj h
    exact hlower
  next _ hupper =>
    obtain rfl := Option.some.inj h
    exact hupper
  next => cases h

theorem exactDecimal_value (mantissa : ℕ) (exponent : ℤ) :
    (exactDecimal mantissa exponent).value = Double.value mantissa exponent := by
  unfold exactDecimal Decimal.value Double.value
  split
  next hexponent =>
    obtain ⟨n, rfl⟩ := Int.eq_ofNat_of_zero_le hexponent
    rw [Int.toNat_natCast, zpow_zero, mul_one, zpow_natCast]
    push_cast [Nat.pow_eq]
    rfl
  next hexponent =>
    -- five times two is ten in each place after the point
    obtain ⟨n, rfl⟩ := Int.exists_eq_neg_ofNat (not_le.mp hexponent).le
    have hten : (10 : ℚ) ^ (-n : ℤ) = 5 ^ (-n : ℤ) * 2 ^ (-n : ℤ) := by
      rw [← mul_zpow]
      norm_num
    have hfive : (5 : ℚ) ^ n * 5 ^ (-n : ℤ) = 1 := by
      rw [← zpow_natCast, ← zpow_add₀ (by norm_num), add_neg_cancel, zpow_zero]
    rw [neg_neg, Int.toNat_natCast, hten]
    push_cast [Nat.pow_eq]
    rw [← mul_assoc, mul_assoc (mantissa : ℚ), hfive, mul_one]

/-- The shortest decimal of a number rounds to that number, with either sign. -/
theorem nearest?_shortest {mantissa : ℕ} {exponent : ℤ} (negative : Bool)
    (h : Canonical mantissa exponent) :
    nearest? negative (shortest mantissa exponent).value =
      some (.finite negative mantissa exponent h) := by
  suffices hplain : nearest? false (shortest mantissa exponent).value =
      some (.finite false mantissa exponent h) from nearest?_sign hplain negative
  simp only [shortest]
  -- either some grid has a neighbour that reads back, or all digits are kept
  rcases hfound : List.findSome? _ (List.range 17) with _ | x
  · rw [Option.getD_none, exactDecimal_value]
    exact Double.nearest?_value false h
  · obtain ⟨n, -, hneighbour⟩ := List.exists_of_findSome?_eq_some hfound
    exact Decimal.nearest?_value h (neighbour?_readsBack hneighbour)

/-- A number other than zero has a digit other than zero. -/
theorem shortest_digits_ne_zero {mantissa : ℕ} {exponent : ℤ} (h : Canonical mantissa exponent)
    (hm : mantissa ≠ 0) : (shortest mantissa exponent).digits ≠ 0 := by
  intro hzero
  -- otherwise the decimal would be zero and round to zero
  have hnear := nearest?_shortest false h
  rw [Decimal.value, hzero, Nat.cast_zero, zero_mul, nearest?, if_pos rfl] at hnear
  exact hm (Double.finite.inj (Option.some.inj hnear)).2.1.symm

end AnnoTree.Double
