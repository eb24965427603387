import AnnoTree.Json.Reader
import AnnoTree.Json.Writer
import AnnoTree.Proofs.Double.Shortest
import AnnoTree.Value.Scalar

/-!
# Numbers in JSON

A number that is written is read back as the same number, whatever follows it that no numeral runs
on into: an integer that is not too long as an integer, and a double, in each of its layouts, as the
same double.

## Main definitions

- `Json.Delimited`: a text that no numeral runs on into.
- `Json.fractionText`, `Json.exponentMark`: the parts of a written numeral that may be missing.

## Main statements

- `Json.atom_int`: an integer is read back, if it is not too long.
- `Json.atom_float`: a double is read back.
-/

namespace AnnoTree

open AnnoTree.Text AnnoTree.Double
open CodePoint (char)

namespace Json

/-! ## §1 Digits -/

/-- A text consists of decimal digits. -/
def AllDigits (ds : List Char) : Prop :=
  ∀ c ∈ ds, c.isDigit = true

/-- A text that no numeral runs on into. -/
def Delimited (rest : List CodePoint) : Prop :=
  ∀ c ∈ rest.head?, isDigit c = false ∧ c ≠ '.' ∧ c ≠ 'e' ∧ c ≠ 'E'

theorem AllDigits.append {ds es : List Char} (hds : AllDigits ds) (hes : AllDigits es) :
    AllDigits (ds ++ es) := by
  intro c hc
  rcases List.mem_append.mp hc with h | h
  · exact hds c h
  · exact hes c h

theorem toList_toString_nat (n : ℕ) : (toString n).toList = Nat.toDigits 10 n := by
  rw [Nat.toString_eq_ofList_toDigits, String.toList_ofList]

theorem allDigits_toDigits (n : ℕ) : AllDigits (Nat.toDigits 10 n) :=
  fun _ hc => Nat.isDigit_of_mem_toDigits (by decide) (by decide) hc

theorem allDigits_zeros (n : ℕ) : AllDigits (List.replicate n '0') := by
  intro c hc
  rw [List.eq_of_mem_replicate hc]
  rfl

/-- No zero stands in front of the digits of a number, unless it is zero. -/
theorem head?_toDigits {n : ℕ} (h : n ≠ 0) : (Nat.toDigits 10 n).head? ≠ some '0' := by
  -- by induction on the number, whose last digit is taken off in each step
  induction n using Nat.strongRecOn with
  | ind n ih =>
    rw [Nat.toDigits_eq_if (by decide)]
    split
    next hsmall =>
      rw [List.head?_cons, Ne, Option.some.injEq, Nat.digitChar_eq_zero]
      exact h
    next hlarge =>
      -- the first digit is that of the tenth part
      rw [List.head?_append_of_ne_nil _ Nat.toDigits_ne_nil]
      exact ih (n / 10) (by omega) (by omega)

/-- The values of digits. -/
def digitValues (ds : List Char) : List ℕ :=
  ds.map fun c => c.toNat - '0'.toNat

theorem ofDigits_digitValues (ds : List Char) :
    ofDigits 10 (digitValues ds) = Nat.ofDigitChars 10 ds 0 := by
  rw [ofDigits, digitValues, List.foldl_map, Nat.ofDigitChars_eq_foldl]

theorem digitsOf_append {ds rest : List CodePoint} (hds : ∀ c ∈ ds, isDigit c = true)
    (hrest : ∀ c ∈ rest.head?, isDigit c = false) :
    digitsOf (ds ++ rest) = (ds.map fun c => c.toNat - '0'.toNat, rest) := by
  -- what follows begins with no digit, so nothing more is taken
  have htake : rest.takeWhile isDigit = [] ∧ rest.dropWhile isDigit = rest := by
    cases rest with
    | nil => exact ⟨rfl, rfl⟩
    | cons c cs =>
      have hc := hrest c rfl
      simp [hc]
  rw [digitsOf, List.takeWhile_append_of_pos hds, List.dropWhile_append_of_pos hds, htake.1,
    htake.2, List.append_nil]

theorem AllDigits.digitsOf_append {ds : List Char} {rest : List CodePoint} (hds : AllDigits ds)
    (hrest : ∀ c ∈ rest.head?, isDigit c = false) :
    digitsOf (ds.map .char ++ rest) = (digitValues ds, rest) := by
  have hdigits : ∀ c ∈ ds.map CodePoint.char, isDigit c = true := List.forall_mem_map.mpr hds
  rw [Json.digitsOf_append hdigits hrest, List.map_map]
  rfl

/-! ## §2 The parts of a numeral -/

theorem wholePart_append {ds : List Char} {rest : List CodePoint} (hds : AllDigits ds)
    (hne : ds ≠ []) (hzero : ds.head? = some '0' → ds = ['0'])
    (hrest : ∀ c ∈ rest.head?, isDigit c = false) :
    wholePart (ds.map .char ++ rest) = some (digitValues ds, rest) := by
  obtain ⟨c, cs, rfl⟩ := List.exists_cons_of_ne_nil hne
  by_cases hc : c = '0'
  · -- a zero in front stands alone
    subst hc
    obtain rfl := (List.cons.inj (hzero rfl)).2
    rfl
  · unfold wholePart
    split
    next heq => exact absurd (CodePoint.char.inj (List.cons.inj heq).1) hc
    next =>
      rw [hds.digitsOf_append hrest]
      rfl

/-- The point and the digits after it; nothing if there are none. -/
def fractionText (fs : List Char) : List Char :=
  if fs = [] then [] else '.' :: fs

theorem fractionPart_append {fs : List Char} {rest : List CodePoint} (hfs : AllDigits fs)
    (hrest : ∀ c ∈ rest.head?, isDigit c = false ∧ c ≠ '.') :
    fractionPart ((fractionText fs).map .char ++ rest) =
      (if fs = [] then none else some (digitValues fs), rest) := by
  unfold fractionText
  split
  next =>
    -- without digits there is no point, and what follows does not begin with one
    rw [List.map_nil, List.nil_append]
    unfold fractionPart
    split
    next => exact absurd rfl (hrest '.' rfl).2
    next => rfl
  next hne =>
    obtain ⟨c, cs, rfl⟩ := List.exists_cons_of_ne_nil hne
    have hdigits := hfs.digitsOf_append fun d hd => (hrest d hd).1
    simp only [List.map_cons, List.cons_append] at hdigits ⊢
    simp only [fractionPart, hdigits]
    rfl

/-- The digits of an exponent, at least two. -/
def exponentDigits (e : ℤ) : List Char :=
  List.replicate (2 - (Nat.toDigits 10 e.natAbs).length) '0' ++ Nat.toDigits 10 e.natAbs

theorem exponentText_eq (e : ℤ) :
    exponentText e = (if e < 0 then '-' else '+') :: exponentDigits e := by
  have hpos : 0 < (Nat.toDigits 10 e.natAbs).length := Nat.length_toDigits_pos
  simp only [exponentText, exponentDigits, toList_toString_nat, List.cons.injEq, true_and]
  split
  next hshort =>
    -- a lone digit has one zero in front of it
    have hone : 2 - (Nat.toDigits 10 e.natAbs).length = 1 := by omega
    rw [hone]
    rfl
  next hlong =>
    have hnone : 2 - (Nat.toDigits 10 e.natAbs).length = 0 := by omega
    rw [hnone]
    rfl

theorem allDigits_exponentDigits (e : ℤ) : AllDigits (exponentDigits e) :=
  (allDigits_zeros _).append (allDigits_toDigits _)

theorem ofDigits_exponentDigits (e : ℤ) :
    ofDigits 10 (digitValues (exponentDigits e)) = e.natAbs := by
  rw [ofDigits_digitValues, exponentDigits, Nat.ofDigitChars_append,
    Nat.ofDigitChars_replicate_zero, Nat.mul_zero, Nat.ofDigitChars_ten_toDigits]

theorem exponentSign_exponentText (e : ℤ) (rest : List CodePoint) :
    exponentSign ((exponentText e).map .char ++ rest) =
      (decide (e < 0), (exponentDigits e).map .char ++ rest) := by
  rw [exponentText_eq, List.map_cons, List.cons_append]
  by_cases hneg : e < 0
  · rw [if_pos hneg, decide_eq_true hneg]
    rfl
  · rw [if_neg hneg, decide_eq_false hneg]
    rfl

theorem signed_natAbs (i : ℤ) : signed (decide (i < 0)) i.natAbs = i := by
  simp only [signed, decide_eq_true_eq]
  split <;> omega

/-- The exponent with its mark; nothing if there is none. -/
def exponentMark : Option ℤ → List Char
  | none => []
  | some e => 'e' :: exponentText e

theorem exponentPart_append (e : Option ℤ) {rest : List CodePoint} (hrest : Delimited rest) :
    exponentPart ((exponentMark e).map .char ++ rest) = (e, rest) := by
  rcases e with _ | e
  · rw [exponentMark, List.map_nil, List.nil_append]
    cases rest with
    | nil => rfl
    | cons c cs =>
      obtain ⟨-, -, he, hE⟩ := hrest c rfl
      simp [exponentPart, he, hE]
  · -- an exponent always has digits, so its mark is never put back
    have hdigits := (allDigits_exponentDigits e).digitsOf_append fun d hd => (hrest d hd).1
    have hvalue := ofDigits_exponentDigits e
    have hne : digitValues (exponentDigits e) ≠ [] := by
      simp [digitValues, exponentDigits, Nat.toDigits_ne_nil]
    obtain ⟨d, ds, hcons⟩ := List.exists_cons_of_ne_nil hne
    rw [hcons] at hdigits hvalue
    simp only [exponentMark, List.map_cons, List.cons_append, exponentPart, beq_self_eq_true,
      Bool.true_or, if_true, exponentSign_exponentText, hdigits, hvalue, signed_natAbs]

/-! ## §3 Whole numerals -/

/-- The digits in front of a point or of an exponent: no zero stands in front of another digit. -/
structure IsWhole (ds : List Char) : Prop where
  digits : AllDigits ds
  ne_nil : ds ≠ []
  zero : ds.head? = some '0' → ds = ['0']

theorem isWhole_toDigits (n : ℕ) : IsWhole (Nat.toDigits 10 n) := by
  refine ⟨allDigits_toDigits n, Nat.toDigits_ne_nil, ?_⟩
  intro hzero
  by_cases hn : n = 0
  · rw [hn, Nat.toDigits_zero]
  · exact absurd hzero (head?_toDigits hn)

theorem isWhole_zero : IsWhole ['0'] :=
  Nat.toDigits_zero 10 ▸ isWhole_toDigits 0

/-- A numeral without point and exponent is an integer. -/
theorem unsignedNumber_whole (negative : Bool) {ds : List Char} {rest : List CodePoint}
    (hds : IsWhole ds) (hshort : ds.length ≤ maxDigits) (hrest : Delimited rest) :
    unsignedNumber negative (ds.map .char ++ rest) =
      .ok (.int (signed negative (Nat.ofDigitChars 10 ds 0)), rest) := by
  have hread : readInteger negative (digitValues ds) =
      .ok (signed negative (Nat.ofDigitChars 10 ds 0)) := by
    rw [readInteger, if_pos (by rwa [digitValues, List.length_map]), ofDigits_digitValues]
  have hwhole := wholePart_append hds.digits hds.ne_nil hds.zero fun c hc => (hrest c hc).1
  have hnone : AllDigits [] := by simp [AllDigits]
  have hfraction := fractionPart_append hnone fun c hc => ⟨(hrest c hc).1, (hrest c hc).2.1⟩
  have hexponent := exponentPart_append none hrest
  simp only [fractionText, exponentMark, if_true, List.map_nil, List.nil_append]
    at hfraction hexponent
  simp only [unsignedNumber, hwhole, hfraction, hexponent, hread, Except.map]

theorem head?_exponentMark (e : Option ℤ) {rest : List CodePoint} (hrest : Delimited rest) :
    ∀ c ∈ ((exponentMark e).map CodePoint.char ++ rest).head?, isDigit c = false ∧ c ≠ '.' := by
  intro c hc
  rcases e with _ | e
  · exact ⟨(hrest c hc).1, (hrest c hc).2.1⟩
  · obtain rfl : char 'e' = c := Option.some.inj hc
    decide

theorem head?_fractionText (fs : List Char) {rest : List CodePoint}
    (hrest : ∀ c ∈ rest.head?, isDigit c = false) :
    ∀ c ∈ ((fractionText fs).map CodePoint.char ++ rest).head?, isDigit c = false := by
  intro c hc
  unfold fractionText at hc
  split at hc
  · exact hrest c hc
  · obtain rfl : char '.' = c := Option.some.inj hc
    rfl

/-- A text is a numeral with a point or an exponent, and has a value. -/
inductive IsNumeral : List Char → ℚ → Prop where
  | intro {ds fs : List Char} {e : Option ℤ} (whole : IsWhole ds) (fraction : AllDigits fs)
      (marked : fs ≠ [] ∨ e ≠ none) :
      IsNumeral (ds ++ (fractionText fs ++ exponentMark e))
        (Nat.ofDigitChars 10 (ds ++ fs) 0 * 10 ^ (e.getD 0 - fs.length))

/-- A numeral with a point or an exponent is the double nearest to its value. -/
theorem IsNumeral.read {text : List Char} {value : ℚ} (h : IsNumeral text value)
    (negative : Bool) {rest : List CodePoint} (hrest : Delimited rest) :
    unsignedNumber negative (text.map .char ++ rest) =
      .ok (.float ((nearest? negative value).getD (.infinite negative)), rest) := by
  obtain @⟨ds, fs, e, hds, hfs, hmark⟩ := h
  -- the parts from last to first, for each is delimited by the next one
  have hexponent := exponentPart_append e hrest
  have hfraction := fractionPart_append hfs (head?_exponentMark e hrest)
  have hwhole := wholePart_append hds.digits hds.ne_nil hds.zero
    (head?_fractionText fs fun c hc => (head?_exponentMark e hrest c hc).1)
  have hvalues : digitValues ds ++ digitValues fs = digitValues (ds ++ fs) :=
    List.map_append.symm
  rw [← ofDecimal_eq_nearest?]
  simp only [unsignedNumber, List.map_append, List.append_assoc, hwhole, hfraction, hexponent]
  by_cases hnil : fs = []
  · -- without a point there is an exponent
    subst hnil
    obtain ⟨z, rfl⟩ := Option.ne_none_iff_exists'.mp (hmark.resolve_left (· rfl))
    simp only [if_true, Option.getD_none, Option.getD_some, List.append_nil,
      ofDigits_digitValues, List.length_nil]
  · simp only [if_neg hnil, Option.getD_some, hvalues, ofDigits_digitValues]
    rw [digitValues, List.length_map]

/-! ## §4 Layouts -/

/-- The value of digits that are read as `0.digits * 10 ^ point`. -/
def pointValue (ds : List Char) (point : ℤ) : ℚ :=
  Nat.ofDigitChars 10 ds 0 * 10 ^ (point - ds.length)

theorem IsWhole.of_head? {ds : List Char} (hds : AllDigits ds) (hne : ds ≠ [])
    (hzero : ds.head? ≠ some '0') : IsWhole ds :=
  ⟨hds, hne, fun h => absurd h hzero⟩

/-- Digits in front of others are the whole part of a numeral. -/
theorem isWhole_take {ds : List Char} (hds : AllDigits ds) (hne : ds ≠ [])
    (hzero : ds.head? ≠ some '0') {n : ℕ} (hn : 0 < n) : IsWhole (ds.take n) := by
  refine .of_head? (fun c hc => hds c (List.mem_of_mem_take hc)) ?_ ?_
  · simp only [Ne, List.take_eq_nil_iff, hne, or_false]
    omega
  · rwa [List.head?_take, if_neg (by omega)]

/-- Digits with zeros between the point and them. -/
theorem isNumeral_zeros_before {ds : List Char} (hds : AllDigits ds) (hne : ds ≠ []) (n : ℕ) :
    IsNumeral ('0' :: '.' :: (List.replicate n '0' ++ ds)) (pointValue ds (-n)) := by
  have hvalue : pointValue ds (-n) =
      Nat.ofDigitChars 10 (['0'] ++ (List.replicate n '0' ++ ds)) 0 *
        10 ^ ((none : Option ℤ).getD 0 - (List.replicate n '0' ++ ds).length) := by
    -- zeros in front do not change what digits spell, only how many they are
    simp only [pointValue, Nat.ofDigitChars_append, Nat.ofDigitChars_replicate_zero,
      Nat.ofDigitChars_cons, Nat.ofDigitChars_nil, List.length_append, List.length_replicate,
      Option.getD_none]
    congr 2
    push_cast
    ring
  have hfraction : List.replicate n '0' ++ ds ≠ [] := by simp [hne]
  have hnumeral := IsNumeral.intro (e := none) isWhole_zero ((allDigits_zeros n).append hds)
    (.inl hfraction)
  rw [hvalue]
  simpa [fractionText, exponentMark, hne] using hnumeral

/-- Digits with zeros between them and the point, and a zero after it. -/
theorem isNumeral_zeros_after {ds : List Char} (hds : AllDigits ds) (hne : ds ≠ [])
    (hzero : ds.head? ≠ some '0') (n : ℕ) :
    IsNumeral (ds ++ List.replicate n '0' ++ ['.', '0']) (pointValue ds (ds.length + n)) := by
  have hvalue : pointValue ds (ds.length + n) =
      Nat.ofDigitChars 10 ((ds ++ List.replicate n '0') ++ ['0']) 0 *
        10 ^ ((none : Option ℤ).getD 0 - (['0'] : List Char).length) := by
    -- each zero before the point is a factor of ten, and the one after it is taken back
    simp only [pointValue, Nat.ofDigitChars_append, Nat.ofDigitChars_replicate_zero,
      Nat.ofDigitChars_cons, Nat.ofDigitChars_nil, Option.getD_none, add_sub_cancel_left,
      List.length_singleton, zpow_natCast]
    push_cast
    norm_num
    ring
  have hwhole : IsWhole (ds ++ List.replicate n '0') := by
    refine .of_head? (hds.append (allDigits_zeros n)) (by simp [hne]) ?_
    rwa [List.head?_append_of_ne_nil _ hne]
  have hnumeral := IsNumeral.intro (e := none) hwhole (allDigits_zeros 1)
    (.inl (List.cons_ne_nil _ _))
  rw [hvalue]
  simpa [fractionText, exponentMark] using hnumeral

/-- Digits that are split by the point, or written with an exponent. -/
theorem isNumeral_split {ds : List Char} (hds : AllDigits ds) (hzero : ds.head? ≠ some '0')
    {n : ℕ} (hpos : 0 < n) (hn : n ≤ ds.length) (e : Option ℤ) (hmark : ds.drop n ≠ [] ∨ e ≠ none) :
    IsNumeral (ds.take n ++ (fractionText (ds.drop n) ++ exponentMark e))
      (pointValue ds (e.getD 0 + n)) := by
  have hne : ds ≠ [] := List.length_pos_iff.mp (Nat.lt_of_lt_of_le hpos hn)
  have hfraction : AllDigits (ds.drop n) := fun c hc => hds c (List.mem_of_mem_drop hc)
  have hvalue : pointValue ds (e.getD 0 + n) =
      Nat.ofDigitChars 10 (ds.take n ++ ds.drop n) 0 * 10 ^ (e.getD 0 - (ds.drop n).length) := by
    rw [pointValue, List.take_append_drop, List.length_drop]
    congr 2
    omega
  rw [hvalue]
  exact .intro (isWhole_take hds hne hzero hpos) hfraction hmark

/-- Each layout of digits is a numeral of the value that digits and point stand for. -/
theorem isNumeral_layout {ds : List Char} (hds : AllDigits ds) (hne : ds ≠ [])
    (hzero : ds.head? ≠ some '0') (point : ℤ) :
    IsNumeral (layout ds point) (pointValue ds point) := by
  have hpos : 0 < ds.length := List.length_pos_iff.mpr hne
  unfold layout
  split
  next hplain =>
    split
    next hsmall =>
      obtain ⟨n, rfl⟩ := Int.exists_eq_neg_ofNat hsmall
      rw [neg_neg, Int.toNat_natCast]
      exact isNumeral_zeros_before hds hne n
    next hlarge =>
      obtain ⟨m, rfl⟩ := Int.eq_ofNat_of_zero_le (by omega : 0 ≤ point)
      rw [Int.toNat_natCast]
      split
      next hfull =>
        obtain ⟨n, rfl⟩ := Nat.exists_eq_add_of_le hfull
        rw [Nat.add_sub_cancel_left, Nat.cast_add]
        exact isNumeral_zeros_after hds hne hzero n
      next hinside =>
        -- the point stands between two digits
        have hfraction : ds.drop m ≠ [] := by
          rw [Ne, List.drop_eq_nil_iff]
          exact hinside
        have hnumeral := isNumeral_split hds hzero (by omega : 0 < m) (by omega) none
          (.inl hfraction)
        rw [Option.getD_none, zero_add] at hnumeral
        simpa only [fractionText, exponentMark, if_neg hfraction, List.append_nil] using hnumeral
  next =>
    -- one digit stands in front of the point
    have hnumeral := isNumeral_split hds hzero one_pos hpos (some (point - 1))
      (.inr (Option.some_ne_none _))
    rw [Option.getD_some, Nat.cast_one, sub_add_cancel] at hnumeral
    have hfraction : fractionText (ds.drop 1) =
        if ds.length ≤ 1 then [] else '.' :: ds.drop 1 := by
      simp only [fractionText, List.drop_eq_nil_iff]
    rw [List.append_assoc, ← hfraction]
    exact hnumeral

/-! ## §5 Doubles -/

/-- Zeros at the end of digits are the factor by which they differ from what is left. -/
theorem trimZeros_eq (ds : List Char) : ∃ n, ds = trimZeros ds ++ List.replicate n '0' := by
  refine ⟨(ds.reverse.takeWhile (· == '0')).length, ?_⟩
  -- the zeros at the end are those in front of the reversed digits
  have hzeros : ds.reverse.takeWhile (· == '0') =
      List.replicate (ds.reverse.takeWhile (· == '0')).length '0' := by
    refine List.eq_replicate_of_mem fun c hc => ?_
    exact eq_of_beq (List.mem_takeWhile_imp (p := (· == '0')) hc)
  rw [← List.reverse_replicate, ← hzeros, trimZeros, ← List.reverse_append,
    List.takeWhile_append_dropWhile, List.reverse_reverse]

/-- The first digit is not trimmed, unless it is zero. -/
theorem head?_trimZeros {ds : List Char} (hne : ds ≠ []) (hzero : ds.head? ≠ some '0') :
    (trimZeros ds).head? = ds.head? := by
  obtain ⟨n, htrim⟩ := trimZeros_eq ds
  by_cases hnil : trimZeros ds = []
  · rw [hnil, List.nil_append] at htrim
    cases n with
    | zero => exact absurd htrim hne
    | succ n =>
      rw [htrim] at hzero
      exact absurd rfl hzero
  · rw [congrArg List.head? htrim, List.head?_append_of_ne_nil _ hnil]

theorem allDigits_trimZeros {ds : List Char} (hds : AllDigits ds) : AllDigits (trimZeros ds) := by
  obtain ⟨n, htrim⟩ := trimZeros_eq ds
  intro c hc
  rw [htrim] at hds
  exact hds c (List.mem_append_left _ hc)

/-- Zeros at the end do not change what digits stand for. -/
theorem pointValue_append_zeros (ds : List Char) (n : ℕ) (point : ℤ) :
    pointValue (ds ++ List.replicate n '0') point = pointValue ds point := by
  have hexponent : (10 : ℚ) ^ (point - ds.length) =
      10 ^ n * 10 ^ (point - (ds ++ List.replicate n '0').length) := by
    rw [← zpow_natCast, ← zpow_add₀ (by norm_num), List.length_append, List.length_replicate]
    congr 1
    push_cast
    ring
  rw [pointValue, pointValue, hexponent, Nat.ofDigitChars_append,
    Nat.ofDigitChars_replicate_zero]
  push_cast
  ring

/-- The text of a finite number is a numeral with a point or an exponent, and the number is the
nearest to its value. -/
theorem isNumeral_magnitudeText {mantissa : ℕ} {exponent : ℤ}
    (h : Canonical mantissa exponent) :
    ∃ value, IsNumeral (magnitudeText mantissa exponent) value ∧ ∀ negative,
      nearest? negative value = some (.finite negative mantissa exponent h) := by
  unfold magnitudeText
  split
  next hm =>
    -- zero has a layout of its own
    subst hm
    obtain rfl : exponent = -1074 := h.2.2.2 (by decide)
    refine ⟨_, IsNumeral.intro (e := none) isWhole_zero (allDigits_zeros 1) (.inl (by simp)), ?_⟩
    intro negative
    have hvalue : ((Nat.ofDigitChars 10 (['0'] ++ ['0']) 0 : ℕ) : ℚ) = 0 := Nat.cast_eq_zero.mpr rfl
    rw [List.replicate_one, hvalue, zero_mul, nearest?, if_pos rfl]
    rfl
  next hm =>
    -- the digits that are kept and the zeros that are dropped
    obtain ⟨n, htrim⟩ := trimZeros_eq (Nat.toDigits 10 (shortest mantissa exponent).digits)
    have hhead := head?_toDigits (shortest_digits_ne_zero h hm)
    have hkept := head?_trimZeros Nat.toDigits_ne_nil hhead
    have hne : trimZeros (Nat.toDigits 10 (shortest mantissa exponent).digits) ≠ [] := by
      intro hnil
      rw [hnil, List.head?_nil, eq_comm, List.head?_eq_none_iff] at hkept
      exact Nat.toDigits_ne_nil hkept
    simp only [toList_toString_nat]
    refine ⟨_, isNumeral_layout (allDigits_trimZeros (allDigits_toDigits _)) hne
      (hkept ▸ hhead) _, ?_⟩
    intro negative
    rw [← pointValue_append_zeros _ n, ← htrim, pointValue, add_sub_cancel_right,
      Nat.ofDigitChars_ten_toDigits]
    exact nearest?_shortest negative h

/-! ## §6 Atoms -/

/-- A digit begins none of the names. -/
theorem atom_digit {c : CodePoint} (hc : isDigit c = true) (cs : List CodePoint) :
    atom (c :: cs) = unsignedNumber false (c :: cs) := by
  unfold atom
  -- every other alternative names a first character that is no digit
  split
  all_goals first
    | rfl
    | (next heq =>
        rw [(List.cons.inj heq).1] at hc
        contradiction)

theorem atom_minus {c : CodePoint} (hc : isDigit c = true) (cs : List CodePoint) :
    atom ('-' :: c :: cs) = unsignedNumber true (c :: cs) := by
  have hname : c ≠ 'I' := by
    rintro rfl
    contradiction
  simp [atom, hname]

/-- A numeral after its sign, if it has one. -/
theorem atom_signed (negative : Bool) {text : List Char} (h : ∃ c ∈ text.head?, c.isDigit = true)
    (rest : List CodePoint) :
    atom (((if negative then ['-'] else []) ++ text).map .char ++ rest) =
      unsignedNumber negative (text.map .char ++ rest) := by
  obtain ⟨c, hhead, hc⟩ := h
  obtain ⟨cs, rfl⟩ := List.head?_eq_some_iff.mp hhead
  cases negative with
  | false => exact atom_digit (c := .char c) hc _
  | true => exact atom_minus (c := .char c) hc _

theorem IsWhole.head? {ds : List Char} (h : IsWhole ds) : ∃ c ∈ ds.head?, c.isDigit = true := by
  obtain ⟨c, cs, rfl⟩ := List.exists_cons_of_ne_nil h.ne_nil
  exact ⟨c, rfl, h.digits c List.mem_cons_self⟩

theorem IsNumeral.head? {text : List Char} {value : ℚ} (h : IsNumeral text value) :
    ∃ c ∈ text.head?, c.isDigit = true := by
  obtain @⟨ds, fs, e, hds, hfs, hmark⟩ := h
  rw [List.head?_append_of_ne_nil _ hds.ne_nil]
  exact hds.head?

theorem toList_toString (i : ℤ) :
    (toString i).toList =
      (if decide (i < 0) then ['-'] else []) ++ Nat.toDigits 10 i.natAbs := by
  rw [Int.toString_eq_repr]
  cases i with
  | ofNat n =>
    rw [Int.repr, Nat.repr_eq_ofList_toDigits, String.toList_ofList]
    simp
  | negSucc n =>
    rw [Int.repr, Nat.repr_eq_ofList_toDigits, String.toList_append, String.toList_ofList]
    simp

/-- **An integer is read back** if it is not too long, whatever follows it that no numeral runs on
into. -/
theorem atom_int {i : ℤ} (hshort : isTooLong i = false) {rest : List CodePoint}
    (hrest : Delimited rest) :
    atom ((toString i).toList.map .char ++ rest) = .ok (.int i, rest) := by
  have hwhole := isWhole_toDigits i.natAbs
  have hlength : (Nat.toDigits 10 i.natAbs).length ≤ maxDigits :=
    Nat.not_lt.mp (of_decide_eq_false hshort)
  rw [toList_toString, atom_signed _ hwhole.head?, unsignedNumber_whole _ hwhole hlength hrest,
    Nat.ofDigitChars_ten_toDigits, signed_natAbs]

/-- **A double is read back**, whatever follows it that no numeral runs on into. -/
theorem atom_float (x : Double) {rest : List CodePoint} (hrest : Delimited rest) :
    atom ((x.text longNames).toList.map .char ++ rest) = .ok (.float x, rest) := by
  rcases x with _ | negative | ⟨negative, mantissa, exponent, h⟩
  · rfl
  · cases negative <;> rfl
  · obtain ⟨value, hnumeral, hnear⟩ := isNumeral_magnitudeText h
    rw [Double.text, String.toList_ofList, atom_signed negative hnumeral.head?,
      hnumeral.read negative hrest, hnear, Option.getD_some]

end Json

/-! ## §7 Integers that are not too long -/

theorem Text.isTooLong_eq_false {i : ℤ} : isTooLong i = false ↔ i.natAbs < 10 ^ maxDigits := by
  rw [isTooLong, decide_eq_false_iff_not, Nat.not_lt,
    Nat.length_toDigits_le_iff (by decide) (by decide)]

/-- What an integer kind holds has few digits. -/
theorem IntegerKind.Holds.isTooLong_eq_false {k : IntegerKind} {i : ℤ} (h : k.Holds i) :
    isTooLong i = false := by
  have hsmall : i.natAbs < 10 ^ 19 := by
    cases k <;> simp only [IntegerKind.Holds, IntegerKind.half] at h <;> omega
  exact Text.isTooLong_eq_false.mpr
    (hsmall.trans_le (Nat.pow_le_pow_right (by decide) (by decide)))

end AnnoTree
