import AnnoTree.Proofs.Json.RoundTrip
import AnnoTree.Proofs.Results

/-!
# Texts that go on

What is read at the front of a text is read there too if the text goes on behind it. Only a numeral
at the very end could run on into what follows; strings, arrays and objects have an end of their
own. So no text of an object can go on and be the text of a value, except for blanks.

## Main definitions

- `Json.Ended`: text is left after a value, and no numeral runs on into it.

## Main statements

- `Json.stringBody_append_of_eq_ok`, `Json.atom_append_of_eq_ok`: strings, names and numbers.
- `Json.valueAux_append_of_eq_ok`: values of any kind.
- `Json.readPoints_append_eq_malformed`: an object with more text behind it is not read.
-/

namespace AnnoTree.Json

open AnnoTree.Text

/-! ## §1 Strs -/

theorem consPiece_eq_some {p : Piece} {r : Option (List Piece × List CodePoint)} {ps : List Piece}
    {rest : List CodePoint} :
    consPiece p r = some (ps, rest) ↔ ∃ qs, r = some (qs, rest) ∧ ps = p :: qs := by
  rcases r with _ | ⟨qs, more⟩
  · simp [consPiece]
  · simp only [consPiece, Option.some.injEq, Prod.mk.injEq]
    constructor
    · rintro ⟨rfl, rfl⟩
      exact ⟨qs, ⟨rfl, rfl⟩, rfl⟩
    · rintro ⟨_, ⟨rfl, rfl⟩, rfl⟩
      exact ⟨rfl, rfl⟩

theorem pieces_append_of_eq_some {cs rest : List CodePoint} {ps : List Piece}
    (h : pieces cs = some (ps, rest)) (more : List CodePoint) :
    pieces (cs ++ more) = some (ps, rest ++ more) := by
  -- by induction on the text, in the cases of the reader
  fun_induction pieces cs generalizing ps rest with
  | case1 => cases h
  | case2 cs =>
    cases h
    rfl
  | case3 a b c d cs n hunit ih =>
    obtain ⟨qs, hqs, rfl⟩ := consPiece_eq_some.mp h
    simp only [List.cons_append, pieces, hunit, ih hqs]
    rfl
  | case4 => cases h
  | case5 c cs _ x hshort ih =>
    obtain ⟨qs, hqs, rfl⟩ := consPiece_eq_some.mp h
    -- a code unit has no short form
    have hunit : c ≠ 'u' := by
      rintro rfl
      cases hshort
    simp [pieces, hunit, hshort, ih hqs, consPiece]
  | case6 => cases h
  | case7 => cases h
  | case8 c cs hquote _ _ hplain ih =>
    obtain ⟨qs, hqs, rfl⟩ := consPiece_eq_some.mp h
    simp only [Bool.or_eq_true, decide_eq_true_eq, beq_iff_eq, not_or] at hplain
    rw [List.cons_append, pieces_plain hquote hplain.2 hplain.1, ih hqs]
    rfl

theorem stringBody_append_of_eq_ok {cs rest : List CodePoint} {s : List CodePoint}
    (h : stringBody cs = .ok (s, rest)) (more : List CodePoint) :
    stringBody (cs ++ more) = .ok (s, rest ++ more) := by
  obtain ⟨⟨ps, rest'⟩, hread, heq⟩ := map_eq_ok.mp h
  cases heq
  rw [stringBody, pieces_append_of_eq_some (readingOf_eq_ok.mp hread)]
  rfl

/-! ## §2 Names and numbers -/

/-- Text is left after a value, and no numeral runs on into it. -/
structure Ended (rest : List CodePoint) : Prop where
  ne_nil : rest ≠ []
  delimited : Delimited rest

section Numbers

variable {cs rest : List CodePoint}

/-- Digits that are followed by something stay the only ones. -/
theorem digitsOf_append_of_ne_nil {ds : List ℕ} (h : digitsOf cs = (ds, rest)) (hrest : rest ≠ [])
    (more : List CodePoint) : digitsOf (cs ++ more) = (ds, rest ++ more) := by
  rw [digitsOf, Prod.mk.injEq] at h
  obtain ⟨rfl, rfl⟩ := h
  have hdigits : ∀ c ∈ cs.takeWhile isDigit, isDigit c = true :=
    fun _ hc => List.mem_takeWhile_imp hc
  have hnext : ∀ c ∈ (cs.dropWhile isDigit ++ more).head?, isDigit c = false := by
    rw [List.head?_append_of_ne_nil _ hrest]
    intro c hc
    have hnot := List.head?_dropWhile_not isDigit cs
    rw [hc] at hnot
    simpa using hnot
  have hsplit := digitsOf_append hdigits hnext
  rwa [← List.append_assoc, List.takeWhile_append_dropWhile] at hsplit

theorem exists_digit_of_digitsOf {ds : List ℕ} (h : digitsOf cs = (ds, rest)) (hne : ds ≠ []) :
    ∃ c tail, cs = c :: tail ∧ isDigit c = true := by
  rw [digitsOf, Prod.mk.injEq] at h
  cases cs with
  | nil => exact absurd h.1.symm hne
  | cons c tail =>
    refine ⟨c, tail, rfl, ?_⟩
    by_contra hc
    rw [List.takeWhile_cons_of_neg hc] at h
    exact hne h.1.symm

/-- A whole part is a lone zero, or digits of which the first is none. -/
theorem wholePart_eq_some_iff {ds : List ℕ} :
    wholePart cs = some (ds, rest) ↔
      (cs = .char '0' :: rest ∧ ds = [0]) ∨
        cs.head? ≠ some (.char '0') ∧ digitsOf cs = (ds, rest) ∧ ds ≠ [] := by
  unfold wholePart
  split
  next tail =>
    constructor
    · rintro ⟨⟩
      exact .inl ⟨rfl, rfl⟩
    · rintro (⟨⟨⟩, rfl⟩ | ⟨hhead, -⟩)
      · rfl
      · exact absurd rfl hhead
  next hzero =>
    have hhead : cs.head? ≠ some (.char '0') := by
      intro h
      obtain ⟨tail, rfl⟩ := List.head?_eq_some_iff.mp h
      exact hzero tail rfl
    rcases hdigits : digitsOf cs with ⟨_ | ⟨d, ds'⟩, rest'⟩
    · constructor
      · nofun
      · rintro (⟨rfl, -⟩ | ⟨-, ⟨⟩, hne⟩)
        · exact (hzero rest rfl).elim
        · exact absurd rfl hne
    · constructor
      · rintro ⟨⟩
        exact .inr ⟨hhead, rfl, List.cons_ne_nil d ds'⟩
      · rintro (⟨rfl, -⟩ | ⟨-, ⟨⟩, -⟩)
        · exact (hzero rest rfl).elim
        · rfl

theorem wholePart_append_of_eq_some {ds : List ℕ} (h : wholePart cs = some (ds, rest))
    (hrest : rest ≠ []) (more : List CodePoint) :
    wholePart (cs ++ more) = some (ds, rest ++ more) := by
  rcases wholePart_eq_some_iff.mp h with ⟨rfl, rfl⟩ | ⟨hzero, hdigits, hne⟩
  · rfl
  · obtain ⟨c, tail, rfl, -⟩ := exists_digit_of_digitsOf hdigits hne
    exact wholePart_eq_some_iff.mpr
      (.inr ⟨hzero, digitsOf_append_of_ne_nil hdigits hrest more, hne⟩)

theorem exists_digit_of_wholePart {ds : List ℕ} (h : wholePart cs = some (ds, rest)) :
    ∃ c tail, cs = c :: tail ∧ isDigit c = true := by
  rcases wholePart_eq_some_iff.mp h with ⟨rfl, -⟩ | ⟨-, hdigits, hne⟩
  · exact ⟨'0', rest, rfl, rfl⟩
  · exact exists_digit_of_digitsOf hdigits hne

/-- A fraction is a point and digits; anything else is left where it is. -/
theorem fractionPart_cases {f : Option (List ℕ)} (h : fractionPart cs = (f, rest)) :
    (∃ tail ds, cs = .char '.' :: tail ∧ digitsOf tail = (ds, rest) ∧ ds ≠ [] ∧ f = some ds) ∨
      f = none ∧ rest = cs := by
  unfold fractionPart at h
  split at h
  next tail =>
    rcases hdigits : digitsOf tail with ⟨_ | ⟨d, ds⟩, rest'⟩
    · rw [hdigits] at h
      cases h
      exact .inr ⟨rfl, rfl⟩
    · rw [hdigits] at h
      cases h
      exact .inl ⟨tail, d :: ds, rfl, hdigits, List.cons_ne_nil d ds, rfl⟩
  next =>
    cases h
    exact .inr ⟨rfl, rfl⟩

theorem fractionPart_append_of_ne_nil {f : Option (List ℕ)} (h : fractionPart cs = (f, rest))
    (hrest : rest ≠ []) (hpoint : rest.head? ≠ some (.char '.')) (more : List CodePoint) :
    fractionPart (cs ++ more) = (f, rest ++ more) := by
  rcases fractionPart_cases h with ⟨tail, ds, rfl, hdigits, hne, rfl⟩ | ⟨rfl, rfl⟩
  · obtain ⟨d, ds, rfl⟩ := List.exists_cons_of_ne_nil hne
    simp only [List.cons_append, fractionPart, digitsOf_append_of_ne_nil hdigits hrest more]
  · obtain ⟨c, tail, rfl⟩ := List.exists_cons_of_ne_nil hrest
    have hc : c ≠ '.' := by
      rintro rfl
      exact hpoint rfl
    simp [fractionPart, hc]

/-- An exponent is its mark, perhaps a sign, and digits; anything else is left where it is. -/
theorem exponentPart_cases {e : Option ℤ} (h : exponentPart cs = (e, rest)) :
    (∃ c tail ds, cs = c :: tail ∧ (c == 'e' || c == 'E') = true ∧
        digitsOf (exponentSign tail).2 = (ds, rest) ∧ ds ≠ [] ∧
        e = some (signed (exponentSign tail).1 (ofDigits 10 ds))) ∨
      e = none ∧ rest = cs := by
  cases cs with
  | nil =>
    cases h
    exact .inr ⟨rfl, rfl⟩
  | cons c tail =>
    simp only [exponentPart] at h
    split at h
    next hmark =>
      rcases hdigits : digitsOf (exponentSign tail).2 with ⟨_ | ⟨d, ds⟩, rest'⟩
      · rw [hdigits] at h
        cases h
        exact .inr ⟨rfl, rfl⟩
      · rw [hdigits] at h
        cases h
        exact .inl ⟨c, tail, d :: ds, rfl, hmark, hdigits, List.cons_ne_nil d ds, rfl⟩
    next =>
      cases h
      exact .inr ⟨rfl, rfl⟩

theorem exponentSign_append {tail : List CodePoint} (h : tail ≠ []) (more : List CodePoint) :
    exponentSign (tail ++ more) = ((exponentSign tail).1, (exponentSign tail).2 ++ more) := by
  obtain ⟨c, tail, rfl⟩ := List.exists_cons_of_ne_nil h
  by_cases hminus : c = '-'
  · subst hminus
    rfl
  · by_cases hplus : c = '+'
    · subst hplus
      rfl
    · simp [exponentSign, hminus, hplus]

theorem exponentPart_append_of_ended {e : Option ℤ} (h : exponentPart cs = (e, rest))
    (hrest : Ended rest) (more : List CodePoint) :
    exponentPart (cs ++ more) = (e, rest ++ more) := by
  rcases exponentPart_cases h with ⟨c, tail, ds, rfl, hmark, hdigits, hne, rfl⟩ | ⟨rfl, rfl⟩
  · have htail : tail ≠ [] := by
      rintro rfl
      obtain ⟨c, tail, htail, -⟩ := exists_digit_of_digitsOf hdigits hne
      cases htail
    have hmore := digitsOf_append_of_ne_nil hdigits hrest.ne_nil more
    obtain ⟨d, ds, rfl⟩ := List.exists_cons_of_ne_nil hne
    simp only [List.cons_append, exponentPart, hmark, if_true, exponentSign_append htail, hmore]
  · obtain ⟨c, tail, rfl⟩ := List.exists_cons_of_ne_nil hrest.ne_nil
    obtain ⟨-, -, he, hE⟩ := hrest.delimited c rfl
    simp [exponentPart, he, hE]

/-- A number that is followed by something it does not run on into stays the same. -/
theorem unsignedNumber_append_of_ended {negative : Bool} {j : Json}
    (h : unsignedNumber negative cs = .ok (j, rest)) (hrest : Ended rest) (more : List CodePoint) :
    unsignedNumber negative (cs ++ more) = .ok (j, rest ++ more) := by
  unfold unsignedNumber at h
  split at h
  next => cases h
  next whole afterWhole hwhole =>
    rcases hfraction : fractionPart afterWhole with ⟨fraction, afterFraction⟩
    rcases hexponent : exponentPart afterFraction with ⟨exponent, afterExponent⟩
    simp only [hfraction, hexponent] at h
    have hend : afterExponent = rest := by
      split at h
      next =>
        obtain ⟨i, -, heq⟩ := map_eq_ok.mp h
        cases heq
        rfl
      next =>
        cases h
        rfl
    subst hend
    -- what each part leaves begins with the next part or with what follows the number
    have hfractionEnd : afterFraction ≠ [] ∧ afterFraction.head? ≠ some '.' := by
      rcases exponentPart_cases hexponent with ⟨c, tail, -, rfl, hmark, -⟩ | ⟨-, rfl⟩
      · refine ⟨List.cons_ne_nil c tail, ?_⟩
        rintro ⟨⟩
        cases hmark
      · exact ⟨hrest.ne_nil, fun hpoint => (hrest.delimited '.' hpoint).2.1 rfl⟩
    have hwholeEnd : afterWhole ≠ [] := by
      rcases fractionPart_cases hfraction with ⟨tail, -, rfl, -⟩ | ⟨-, rfl⟩
      · exact List.cons_ne_nil _ tail
      · exact hfractionEnd.1
    rw [unsignedNumber, wholePart_append_of_eq_some hwhole hwholeEnd]
    simp only [fractionPart_append_of_ne_nil hfraction hfractionEnd.1 hfractionEnd.2,
      exponentPart_append_of_ended hexponent hrest]
    cases fraction <;> cases exponent
    case none.none =>
      obtain ⟨i, hi, heq⟩ := map_eq_ok.mp h
      cases heq
      rw [hi]
      rfl
    all_goals
      cases h
      rfl

theorem exists_digit_of_unsignedNumber {negative : Bool} {j : Json}
    (h : unsignedNumber negative cs = .ok (j, rest)) :
    ∃ c tail, cs = c :: tail ∧ isDigit c = true := by
  unfold unsignedNumber at h
  split at h
  next => cases h
  next hwhole => exact exists_digit_of_wholePart hwhole

/-- **A name or a number** that is followed by something it does not run on into stays the same. -/
theorem atom_append_of_eq_ok {j : Json} (h : atom cs = .ok (j, rest)) (hrest : Ended rest)
    (more : List CodePoint) : atom (cs ++ more) = .ok (j, rest ++ more) := by
  unfold atom at h
  split at h
  case h_7 tail _ =>
    -- a sign and a digit
    have hnumber := unsignedNumber_append_of_ended h hrest more
    obtain ⟨c, tail, rfl, hc⟩ := exists_digit_of_unsignedNumber h
    exact (atom_minus hc _).trans hnumber
  case h_8 =>
    have hnumber := unsignedNumber_append_of_ended h hrest more
    obtain ⟨c, tail, rfl, hc⟩ := exists_digit_of_unsignedNumber h
    exact (atom_digit hc _).trans hnumber
  all_goals
    cases h
    rfl

end Numbers

/-! ## §3 Values -/

/-- What begins like a string, an array or an object has an end of its own. -/
def BeginsEnclosed (cs : List CodePoint) : Prop :=
  ∃ c ∈ cs.head?, c ∈ (['"', '[', '\x7b'] : List CodePoint)

/-- Blanks and then a mark end a value. -/
theorem ended_of_skipSpace {rest tail : List CodePoint} {c : CodePoint}
    (h : skipSpace rest = c :: tail) (hc : c ∈ ([',', ']', '\x7d'] : List CodePoint)) :
    Ended rest := by
  cases rest with
  | nil => cases h
  | cons d rest =>
    refine ⟨List.cons_ne_nil d rest, delimited_cons rest ?_⟩
    by_cases hd : isSpace d = true
    · simp only [isSpace, Bool.or_eq_true, beq_iff_eq] at hd
      rcases hd with ((rfl | rfl) | rfl) | rfl <;> decide
    · rw [Bool.not_eq_true] at hd
      rw [skipSpace_cons hd] at h
      obtain ⟨rfl, -⟩ := List.cons.inj h
      simp only [List.mem_cons, List.not_mem_nil, or_false] at hc
      rcases hc with rfl | rfl | rfl <;> decide

theorem skipSpace_append {cs : List CodePoint} (h : skipSpace cs ≠ []) (more : List CodePoint) :
    skipSpace (cs ++ more) = skipSpace cs ++ more := by
  rw [skipSpace, List.dropWhile_append, if_neg (by rwa [List.isEmpty_iff])]
  rfl

theorem skipSpace_append_of_eq_cons {cs tail : List CodePoint} {c : CodePoint}
    (h : skipSpace cs = c :: tail) (more : List CodePoint) :
    skipSpace (cs ++ more) = c :: (tail ++ more) := by
  rw [skipSpace_append (by simp [h]), h, List.cons_append]

section Empty

variable {n : ℕ} {cs : List CodePoint}

theorem ne_nil_of_valueAux {r : Json × List CodePoint} (h : valueAux n cs = .ok r) : cs ≠ [] := by
  rintro rfl
  cases n <;> cases h

theorem ne_nil_of_itemsAux {r : List Json × List CodePoint} (h : itemsAux n cs = .ok r) :
    cs ≠ [] := by
  cases n with
  | zero => cases h
  | succ n =>
    rw [itemsAux] at h
    split at h
    next => cases h
    next hvalue => exact ne_nil_of_valueAux hvalue

theorem ne_nil_of_entriesAux {r : List (Str × Json) × List CodePoint}
    (h : entriesAux n cs = .ok r) : cs ≠ [] := by
  rintro rfl
  cases n <;> cases h

end Empty

/-- What the three readers do at a bound they do at a greater one too, on a text that goes on. -/
structure ReadsOn (more : List CodePoint) (n : ℕ) : Prop where
  value : ∀ {cs rest : List CodePoint} {j : Json}, valueAux n cs = .ok (j, rest) →
    BeginsEnclosed cs ∨ Ended rest → ∀ m ≥ n, valueAux m (cs ++ more) = .ok (j, rest ++ more)
  items : ∀ {cs rest : List CodePoint} {js : List Json}, itemsAux n cs = .ok (js, rest) →
    ∀ m ≥ n, itemsAux m (cs ++ more) = .ok (js, rest ++ more)
  entries : ∀ {cs rest : List CodePoint} {es : List (Str × Json)},
    entriesAux n cs = .ok (es, rest) →
    ∀ m ≥ n, entriesAux m (cs ++ more) = .ok (es, rest ++ more)

section Steps

variable {more : List CodePoint} {n : ℕ}

theorem ReadsOn.zero : ReadsOn more 0 where
  value h := by cases h
  items h := by cases h
  entries h := by cases h

/-- An item is followed by a mark, so it has ended there. -/
theorem ReadsOn.items_succ (ih : ReadsOn more n) {cs rest : List CodePoint} {js : List Json}
    (h : itemsAux (n + 1) cs = .ok (js, rest)) {m : ℕ} (hm : n ≤ m) :
    itemsAux (m + 1) (cs ++ more) = .ok (js, rest ++ more) := by
  rw [itemsAux] at h
  split at h
  next => cases h
  next j after hvalue =>
    rw [itemsAux]
    split at h
    next tail hmark =>
      cases h
      have hended := ended_of_skipSpace hmark (by simp)
      have hskip := skipSpace_append_of_eq_cons hmark more
      rw [ih.value hvalue (.inr hended) m hm]
      simp only [hskip]
    next tail hmark =>
      obtain ⟨⟨js', rest'⟩, hitems, heq⟩ := map_eq_ok.mp h
      cases heq
      have hended := ended_of_skipSpace hmark (by simp)
      have hskip := skipSpace_append_of_eq_cons hmark more
      have htail := skipSpace_append (ne_nil_of_itemsAux hitems) more
      rw [ih.value hvalue (.inr hended) m hm]
      simp only [hskip, htail, ih.items hitems m hm, Except.map]
    next => cases h

/-- A key and a colon come before the value of an entry, and a mark behind it. -/
theorem ReadsOn.entries_succ (ih : ReadsOn more n) {cs rest : List CodePoint}
    {es : List (Str × Json)} (h : entriesAux (n + 1) cs = .ok (es, rest)) {m : ℕ}
    (hm : n ≤ m) : entriesAux (m + 1) (cs ++ more) = .ok (es, rest ++ more) := by
  unfold entriesAux at h
  split at h
  next body =>
    split at h
    next => cases h
    next key afterKey hkey =>
      split at h
      next colonTail hcolon =>
        split at h
        next => cases h
        next j after hvalue =>
          have hkeySkip := skipSpace_append_of_eq_cons hcolon more
          have hvalueSkip := skipSpace_append (ne_nil_of_valueAux hvalue) more
          rw [List.cons_append, entriesAux, stringBody_append_of_eq_ok hkey]
          simp only [hkeySkip, hvalueSkip]
          dsimp only at h
          split at h
          next tail hmark =>
            cases h
            have hended := ended_of_skipSpace hmark (by simp)
            have hskip := skipSpace_append_of_eq_cons hmark more
            simp only [ih.value hvalue (.inr hended) m hm, hskip]
          next tail hmark =>
            obtain ⟨⟨es', rest'⟩, hentries, heq⟩ := map_eq_ok.mp h
            cases heq
            have hended := ended_of_skipSpace hmark (by simp)
            have hskip := skipSpace_append_of_eq_cons hmark more
            have htail := skipSpace_append (ne_nil_of_entriesAux hentries) more
            simp only [ih.value hvalue (.inr hended) m hm, hskip, htail,
              ih.entries hentries m hm, Except.map]
          next => cases h
      next => cases h
  next => cases h

/-- A quote and the two opening brackets say what is to be read; anything else is a name or a
number. -/
theorem ReadsOn.value_succ (ih : ReadsOn more n) {cs rest : List CodePoint} {j : Json}
    (h : valueAux (n + 1) cs = .ok (j, rest)) (hend : BeginsEnclosed cs ∨ Ended rest) {m : ℕ}
    (hm : n ≤ m) : valueAux (m + 1) (cs ++ more) = .ok (j, rest ++ more) := by
  unfold valueAux at h
  split at h
  next body =>
    obtain ⟨⟨s, rest'⟩, hbody, heq⟩ := map_eq_ok.mp h
    cases heq
    rw [List.cons_append, valueAux, stringBody_append_of_eq_ok hbody]
    rfl
  next body =>
    split at h
    next tail hclose =>
      cases h
      rw [List.cons_append, valueAux]
      simp only [skipSpace_append_of_eq_cons hclose more]
    next hopen =>
      obtain ⟨⟨js, rest'⟩, hitems, heq⟩ := map_eq_ok.mp h
      cases heq
      obtain ⟨c, tail, hc⟩ := List.exists_cons_of_ne_nil (ne_nil_of_itemsAux hitems)
      have hne : c ≠ ']' := by
        rintro rfl
        exact hopen tail hc
      have hmore := ih.items hitems m hm
      rw [hc, List.cons_append] at hmore
      simp [valueAux, skipSpace_append_of_eq_cons hc more, hne, hmore, Except.map]
  next body =>
    split at h
    next tail hclose =>
      cases h
      rw [List.cons_append, valueAux]
      simp only [skipSpace_append_of_eq_cons hclose more]
    next hopen =>
      obtain ⟨⟨es, rest'⟩, hentries, heq⟩ := map_eq_ok.mp h
      cases heq
      obtain ⟨c, tail, hc⟩ := List.exists_cons_of_ne_nil (ne_nil_of_entriesAux hentries)
      have hne : c ≠ '\x7d' := by
        rintro rfl
        exact hopen tail hc
      have hmore := ih.entries hentries m hm
      rw [hc, List.cons_append] at hmore
      simp [valueAux, skipSpace_append_of_eq_cons hc more, hne, hmore, Except.map]
  next hquote harray hobject =>
    cases cs with
    | nil => cases h
    | cons c cs =>
      have hc : c ≠ '"' ∧ c ≠ '[' ∧ c ≠ '\x7b' :=
        ⟨fun hc => hquote cs (by rw [hc]), fun hc => harray cs (by rw [hc]),
          fun hc => hobject cs (by rw [hc])⟩
      have hended : Ended rest := by
        rcases hend with ⟨d, hd, hmem⟩ | hended
        · cases hd
          simp [hc] at hmem
        · exact hended
      have hatom := atom_append_of_eq_ok h hended more
      rw [List.cons_append] at hatom ⊢
      simp [valueAux, hc, hatom]

theorem readsOn (more : List CodePoint) (n : ℕ) : ReadsOn more n := by
  induction n with
  | zero => exact .zero
  | succ n ih =>
    refine ⟨fun h hend m hm => ?_, fun h m hm => ?_, fun h m hm => ?_⟩
    all_goals obtain ⟨m, rfl⟩ := Nat.exists_eq_succ_of_ne_zero (Nat.ne_zero_of_lt hm)
    · exact ih.value_succ h hend (Nat.le_of_succ_le_succ hm)
    · exact ih.items_succ h (Nat.le_of_succ_le_succ hm)
    · exact ih.entries_succ h (Nat.le_of_succ_le_succ hm)

end Steps

/-- **A value** is read from the front of a text that goes on, if it has an end of its own or
something follows that it does not run on into. -/
theorem valueAux_append_of_eq_ok {n m : ℕ} {cs rest : List CodePoint} {j : Json}
    (h : valueAux n cs = .ok (j, rest)) (hend : BeginsEnclosed cs ∨ Ended rest) (hm : n ≤ m)
    (more : List CodePoint) : valueAux m (cs ++ more) = .ok (j, rest ++ more) :=
  (readsOn more n).value h hend m hm

/-! ## §4 Objects with more text behind them -/

theorem atom_ne_object {cs rest : List CodePoint} {entries : List (Str × Json)} :
    atom cs ≠ .ok (.object entries, rest) := by
  have hnumber : ∀ negative ds, unsignedNumber negative ds ≠ .ok (.object entries, rest) := by
    intro negative ds h
    unfold unsignedNumber at h
    split at h
    next => cases h
    next whole afterWhole hwhole =>
      rcases hfraction : fractionPart afterWhole with ⟨fraction, afterFraction⟩
      rcases hexponent : exponentPart afterFraction with ⟨exponent, afterExponent⟩
      simp only [hfraction, hexponent] at h
      cases fraction <;> cases exponent
      case none.none =>
        obtain ⟨i, -, heq⟩ := map_eq_ok.mp h
        cases heq
      all_goals cases h
  unfold atom
  split
  case h_7 => exact hnumber true _
  case h_8 => exact hnumber false _
  all_goals nofun

/-- An object begins with its brace. -/
theorem beginsEnclosed_of_object {n : ℕ} {cs rest : List CodePoint} {entries : List (Str × Json)}
    (h : valueAux n cs = .ok (.object entries, rest)) : BeginsEnclosed cs := by
  cases n with
  | zero => cases h
  | succ n =>
    unfold valueAux at h
    split at h
    next => exact ⟨'"', rfl, by simp⟩
    next => exact ⟨'[', rfl, by simp⟩
    next => exact ⟨'\x7b', rfl, by simp⟩
    next => exact absurd h atom_ne_object

/-- **An object with more text behind it is not read**, unless that is blank. -/
theorem readPoints_append_eq_malformed {cs more : List CodePoint} {entries : List (Str × Json)}
    (h : readPoints cs = .ok (.object entries)) (hmore : skipSpace more ≠ []) :
    readPoints (cs ++ more) = .error .malformed := by
  unfold readPoints at h
  split at h
  next => cases h
  next j rest hvalue =>
    split at h
    next hblank =>
      cases h
      rw [List.isEmpty_iff] at hblank
      have hlonger := valueAux_append_of_eq_ok (m := (cs ++ more).length + 1) hvalue
        (.inl (beginsEnclosed_of_object hvalue)) (by simp) more
      -- what is left after the object are blanks and then the text behind it
      have hleft : skipSpace (rest ++ more) = skipSpace more :=
        skipSpace_blanks (List.dropWhile_eq_nil_iff.mp hblank) more
      rw [readPoints, skipSpace_append (ne_nil_of_valueAux hvalue), hlonger]
      simp only [hleft, List.isEmpty_iff, hmore, if_false]
    next => cases h

end AnnoTree.Json
