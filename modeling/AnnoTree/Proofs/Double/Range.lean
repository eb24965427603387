import AnnoTree.Double.Basic
import Mathlib

/-!
# The range of conversion

Which integers have a nearest number of the floating-point format: those below the midpoint of the
greatest finite number and the next power of two. The midpoint itself is a tie, and the greatest
finite number has an odd mantissa, so it is rounded away.

## Main statements

- `Double.isSome_ofInt?`: the integers that are in range.
-/

namespace AnnoTree.Double

/-! ## §1 Scaling -/

theorem scaleDown_add (num m j : Nat) :
    scaleDown 2 num 1 ((m + j : Nat) - m) = (num, 2 ^ j) := by
  have hpower : ((m + j : Nat) - m : Int).toNat = j := by omega
  rw [scaleDown, if_pos (by omega)]
  simp only [hpower, Nat.pow_eq, Nat.one_mul]

theorem scaleDown_sub (num k j : Nat) :
    scaleDown 2 num 1 (k - (k + j : Nat)) = (num * 2 ^ j, 1) := by
  cases j with
  | zero => simpa using scaleDown_add num k 0
  | succ j =>
    have hpower : (-((k : Int) - (k + (j + 1) : Nat))).toNat = j + 1 := by omega
    rw [scaleDown, if_neg (by omega)]
    simp only [hpower, Nat.pow_eq]

/-- Scaling a number down by all but `m` of its bits leaves `m + 1` bits. -/
theorem scaleDown_bounds {num k : Nat} (m : Nat) (hlow : 2 ^ k ≤ num) (hhigh : num < 2 ^ (k + 1)) :
    0 < (scaleDown 2 num 1 (k - m)).2 ∧
    2 ^ m * (scaleDown 2 num 1 (k - m)).2 ≤ (scaleDown 2 num 1 (k - m)).1 ∧
    (scaleDown 2 num 1 (k - m)).1 < 2 ^ (m + 1) * (scaleDown 2 num 1 (k - m)).2 := by
  rcases Nat.le_total m k with hmk | hkm
  · obtain ⟨j, rfl⟩ : ∃ j, k = m + j := ⟨k - m, by omega⟩
    simp only [scaleDown_add, ← Nat.pow_add]
    refine ⟨Nat.two_pow_pos j, hlow, ?_⟩
    rwa [Nat.add_right_comm]
  · obtain ⟨j, rfl⟩ : ∃ j, m = k + j := ⟨m - k, by omega⟩
    simp only [scaleDown_sub, Nat.mul_one]
    refine ⟨Nat.one_pos, ?_, ?_⟩
    · rw [Nat.pow_add]
      exact Nat.mul_le_mul_right _ hlow
    · rw [Nat.add_right_comm, Nat.pow_add]
      exact Nat.mul_lt_mul_of_pos_right hhigh (Nat.two_pow_pos j)

theorem exponentOf_eq {num k : Nat} (hlow : 2 ^ k ≤ num) (hhigh : num < 2 ^ (k + 1)) :
    exponentOf num 1 = k - (52 : Nat) := by
  have hlog : num.log2 = k := (Nat.log2_eq_iff (by
    have := Nat.two_pow_pos k
    omega)).mpr ⟨hlow, hhigh⟩
  obtain ⟨hpos, hbits, -⟩ := scaleDown_bounds 53 hlow hhigh
  have hguess : ((num.log2 : Int) - Nat.log2 1 - 53) = k - (53 : Nat) := by
    rw [hlog, show Nat.log2 1 = 0 by decide]
    simp
  have hfull : ¬(scaleDown 2 num 1 (k - (53 : Nat))).1 / (scaleDown 2 num 1 (k - (53 : Nat))).2 <
      mantissaBound :=
    Nat.not_lt.mpr ((Nat.le_div_iff_mul_le hpos).mpr hbits)
  simp only [exponentOf, hguess, if_neg hfull]
  omega

/-! ## §2 Rounding -/

theorem le_roundHalfEven {num den b : Nat} (hden : 0 < den) (h : b * den ≤ num) :
    b ≤ roundHalfEven num den := by
  have hwhole : b ≤ num / den := (Nat.le_div_iff_mul_le hden).mpr h
  unfold roundHalfEven
  grind

theorem roundHalfEven_le {num den b : Nat} (hden : 0 < den) (h : num < b * den) :
    roundHalfEven num den ≤ b := by
  have hwhole : num / den < b := (Nat.div_lt_iff_lt_mul hden).mpr h
  unfold roundHalfEven
  grind

/-- A quotient below an even bound stays below it up to the midpoint of the last step. -/
theorem roundHalfEven_lt_iff {num den b : Nat} (hden : 0 < den) (hb : b % 2 = 0)
    (h : num < b * den) : roundHalfEven num den < b ↔ 2 * num < (2 * b - 1) * den := by
  have hwhole : num / den < b := (Nat.div_lt_iff_lt_mul hden).mpr h
  have hrest : num % den < den := Nat.mod_lt num hden
  have hdiv : den * (num / den) + num % den = num := Nat.div_add_mod num den
  by_cases hlast : num / den + 1 = b
  · -- the last step: its lower end is odd, so a tie goes up
    have hstep : (2 * b - 1) * den = 2 * (den * (num / den)) + den := by
      rw [← hlast, show 2 * (num / den + 1) - 1 = 2 * (num / den) + 1 by omega, Nat.add_mul,
        Nat.one_mul, Nat.mul_assoc, Nat.mul_comm den]
    have hodd : num / den % 2 ≠ 0 := by omega
    rw [hstep, roundHalfEven]
    simp only [hodd, if_false]
    split
    · constructor <;> intro <;> omega
    · constructor <;> intro <;> split at * <;> omega
  · have hresult : roundHalfEven num den ≤ num / den + 1 := by
      unfold roundHalfEven
      grind
    have hfactor : den * (num / den + 2) ≤ den * b := Nat.mul_le_mul_left den (by omega)
    have hbound : (2 * b - 1) * den + den = 2 * (den * b) := by
      rw [← Nat.succ_mul, show (2 * b - 1).succ = 2 * b by omega, Nat.mul_assoc, Nat.mul_comm b]
    rw [Nat.mul_add] at hfactor
    constructor <;> intro <;> omega

/-! ## §3 Conversion -/

/-- A mantissa that is rounded up to one bit more takes the next exponent. -/
theorem isSome_ofRatio? {negative : Bool} {num k : Nat} (hlow : 2 ^ k ≤ num)
    (hhigh : num < 2 ^ (k + 1)) :
    (ofRatio? negative num 1).isSome = true ↔ k ≤ 1022 ∨ k = 1023 ∧
      roundHalfEven (scaleDown 2 num 1 (k - (52 : Nat))).1 (scaleDown 2 num 1 (k - (52 : Nat))).2 <
        mantissaBound := by
  obtain ⟨hden, hbits, hbound⟩ := scaleDown_bounds 52 hlow hhigh
  have hnum : num ≠ 0 := by
    have := Nat.two_pow_pos k
    omega
  have hleading := le_roundHalfEven hden hbits
  have hmantissa := roundHalfEven_le hden hbound
  simp only [ofRatio?, if_neg hnum, exponentOf_eq hlow hhigh, Option.isSome_dite]
  generalize roundHalfEven (scaleDown 2 num 1 (k - (52 : Nat))).1
    (scaleDown 2 num 1 (k - (52 : Nat))).2 = m at hleading hmantissa ⊢
  by_cases hm : m = mantissaBound
  · rw [if_pos hm]
    simp only [Canonical, leadingBit, mantissaBound] at hm ⊢
    omega
  · rw [if_neg hm]
    simp only [Canonical, leadingBit, mantissaBound] at hm ⊢
    omega

private theorem two_pow_split (l k j : Nat) (h : l = k + j) : 2 ^ l = 2 ^ k * 2 ^ j := by
  rw [h, Nat.pow_add]

/-- The integers that can be converted: those below the midpoint of the greatest finite number and
the next power of two. -/
theorem isSome_ofInt? (i : Int) :
    (ofInt? i).isSome = true ↔ i.natAbs < 2 ^ 1024 - 2 ^ 970 := by
  unfold ofInt?
  generalize i.natAbs = num
  -- the powers are too large to be written out, so all of them are multiples of one
  have htop : 2 ^ 1024 = 2 ^ 54 * 2 ^ 970 := two_pow_split 1024 54 970 rfl
  have hunit : 2 ^ 971 = 2 ^ 1 * 2 ^ 970 := two_pow_split 971 1 970 rfl
  have hpos : 0 < 2 ^ 970 := pow_pos Nat.zero_lt_two 970
  by_cases hnum : num = 0
  · rw [hnum, htop]
    simp only [ofRatio?, if_true, Option.isSome_some, true_iff]
    generalize 2 ^ 970 = p at hpos
    omega
  have hlow : 2 ^ num.log2 ≤ num := Nat.log2_self_le hnum
  have hhigh : num < 2 ^ (num.log2 + 1) := Nat.lt_log2_self
  rw [isSome_ofRatio? hlow hhigh]
  generalize num.log2 = k at hlow hhigh
  rcases Nat.lt_trichotomy k 1023 with hk | rfl | hk
  · have hpower : 2 ^ (k + 1) ≤ 2 ^ 53 * 2 ^ 970 :=
      calc 2 ^ (k + 1) ≤ 2 ^ (53 + 970) := Nat.pow_le_pow_right (by decide) hk
        _ = 2 ^ 53 * 2 ^ 970 := pow_add 2 53 970
    rw [htop]
    generalize 2 ^ 970 = p at hpos hpower
    omega
  · obtain ⟨hden, -, hbound⟩ := scaleDown_bounds 52 hlow hhigh
    have hwidth : 2 ^ (52 + 1) = mantissaBound := by decide
    rw [hwidth] at hbound
    simp only [scaleDown_add num 52 971] at hden hbound ⊢
    have hround := roundHalfEven_lt_iff hden (by decide) hbound
    have hfactor : 2 * mantissaBound - 1 = 0x3FFFFFFFFFFFFF := by decide
    rw [or_iff_right (by decide), true_and, hround, hfactor, hunit, htop]
    clear hround hlow hhigh hbound
    generalize 2 ^ 970 = p at hpos
    omega
  · have hmono : ∀ l, l ≤ k → 2 ^ l ≤ 2 ^ k := fun l h => Nat.pow_le_pow_right (by decide) h
    have hpower := hmono 1024 hk
    rw [htop] at hpower ⊢
    generalize 2 ^ 970 = p at hpos hpower
    omega

end AnnoTree.Double
