import AnnoTree.Proofs.Signature.Reading

/-!
# Where descriptors are at fault

A malformed descriptor is reported with a position in the text between its blanks. Where a segment
of the class name is to blame, it is the first that is no identifier, and the position is where it
begins. The reader counts along the segments of a name in which slashes have become dots and from
which the marks have been taken off; here the position is said of the text as it stands.

## Main definitions

- `Passed`, `FirstBadSegment`: identifiers that have been passed, and the segment behind them.
- `ClassNameAt`: where a class name stands in a text, and what separates its segments.
- `BadSegmentAt`: the first bad segment of the class name of a text.

## Main statements

- `firstBadSegment?_eq_some_iff`: the scan of segments finds the first bad one.
- `faultIn_of_parse`: a fault lies in the text, and where a segment is to blame, it is the first.
- `BadSegmentAt.read`: a first bad segment is reported.
- `malformed_descriptors_are_located`: what is reported of a malformed descriptor.
-/

namespace AnnoTree

open AnnoTree.Text
open CodePoint (char)

/-! ## §1 Segments -/

/-- Identifiers, each with a separator behind it. -/
inductive Passed (separators : List CodePoint) : List CodePoint → Prop where
  | nil : Passed separators []
  | cons {s rest : List CodePoint} {separator : CodePoint} (identifier : Identifier s)
      (separates : separator ∈ separators) (more : Passed separators rest) :
      Passed separators (s ++ separator :: rest)

/-- The first segment of a name that is no identifier, between what has been passed and what is left
behind it. -/
structure FirstBadSegment (separators name passed segment behind : List CodePoint) : Prop where
  eq : name = passed ++ (segment ++ behind)
  passed : Passed separators passed
  bad : ¬Identifier segment
  unseparated : ∀ c ∈ segment, c ∉ separators
  /-- The segment ends with the name or at a separator. -/
  ended : ∀ c ∈ behind.head?, c ∈ separators

namespace FirstBadSegment

variable {separators name passed segment behind : List CodePoint}

/-- One more identifier in front. -/
theorem cons {s : List CodePoint} {separator : CodePoint} (hs : Identifier s)
    (hsep : separator ∈ separators) (h : FirstBadSegment separators name passed segment behind) :
    FirstBadSegment separators (s ++ separator :: name) (s ++ separator :: passed) segment
      behind where
  eq := by simp [h.eq]
  passed := .cons hs hsep h.passed
  bad := h.bad
  unseparated := h.unseparated
  ended := h.ended

theorem length_le (h : FirstBadSegment separators name passed segment behind) :
    passed.length + segment.length ≤ name.length := by
  rw [h.eq, List.length_append, List.length_append]
  omega

end FirstBadSegment

/-- A text is one part, or a part with a separator and another text behind it. -/
@[elab_as_elim]
theorem splitAt_induct (separator : CodePoint) {motive : List CodePoint → Prop}
    (cs : List CodePoint) (single : ∀ cs, separator ∉ cs → motive cs)
    (cons : ∀ s rest, separator ∉ s → motive rest → motive (s ++ separator :: rest)) :
    motive cs := by
  induction hlength : cs.length using Nat.strongRecOn generalizing cs with
  | ind n ih =>
    by_cases hsep : separator ∈ cs
    · obtain ⟨s, rest, rfl, hs⟩ := List.eq_append_cons_of_mem hsep
      refine cons s rest hs (ih rest.length ?_ rest rfl)
      simp only [List.length_append, List.length_cons] at hlength
      omega
    · exact single cs hsep

/-- **The scan of segments finds the first bad one**, and counts what it has passed. -/
theorem firstBadSegment?_eq_some_iff {position k : ℕ} {name segment : List CodePoint} :
    firstBadSegment? position (splitAt (char '.') name) = some (k, segment) ↔
      ∃ passed behind, FirstBadSegment [char '.'] name passed segment behind ∧
        k = position + passed.length := by
  constructor
  · intro h
    induction name using splitAt_induct '.' generalizing position with
    | single cs hdot =>
      rw [splitAt_of_not_mem hdot, firstBadSegment?] at h
      split at h
      · cases h
      next hbad =>
        cases h
        refine ⟨[], [], ⟨by simp, .nil, mt isIdentifier_iff.mpr hbad, ?_, by simp⟩, rfl⟩
        rintro c hc hsep
        exact hdot (List.mem_singleton.mp hsep ▸ hc)
    | cons s rest hdot ih =>
      rw [splitAt_append hdot, firstBadSegment?] at h
      split at h
      next hgood =>
        obtain ⟨passed, behind, hbad, rfl⟩ := ih h
        have hs := isIdentifier_iff.mp hgood
        refine ⟨s ++ char '.' :: passed, behind, hbad.cons hs (by simp), ?_⟩
        simp only [List.length_append, List.length_cons]
        omega
      next hbad =>
        cases h
        refine ⟨[], char '.' :: rest,
          ⟨by simp, .nil, mt isIdentifier_iff.mpr hbad, ?_, by simp⟩, rfl⟩
        rintro c hc hsep
        exact hdot (List.mem_singleton.mp hsep ▸ hc)
  · rintro ⟨passed, behind, ⟨rfl, hpassed, hbad, hwhole, hended⟩, rfl⟩
    induction hpassed generalizing position with
    | nil =>
      have hdot : char '.' ∉ segment := fun hmem => hwhole '.' hmem (by simp)
      have hnot : ¬isIdentifier segment = true := mt isIdentifier_iff.mp hbad
      cases behind with
      | nil => simp [splitAt_of_not_mem hdot, firstBadSegment?, hnot]
      | cons c rest =>
        obtain rfl : c = '.' := by simpa using hended
        simp [splitAt_append hdot, firstBadSegment?, hnot]
    | @cons s rest separator identifier separates more ih =>
      obtain rfl : separator = '.' := by simpa using separates
      have hdot : char '.' ∉ s := identifier.not_mem (by decide)
      rw [List.append_assoc, List.cons_append, splitAt_append hdot, firstBadSegment?,
        if_pos (isIdentifier_iff.mpr identifier), ih]
      simp only [List.length_append, List.length_cons]
      congr 2
      omega

/-- A class name with a bad segment is refused for the first one. -/
theorem namedElement_eq_error_iff {position k : ℕ} {name : List CodePoint}
    {fault : DescriptorFault} :
    namedElement position name = .error (k, fault) ↔
      ∃ passed segment behind, FirstBadSegment [char '.'] name passed segment behind ∧
        k = position + passed.length ∧ fault = .invalidSegment (Str.ofList segment) := by
  rw [namedElement]
  constructor
  · intro h
    split at h
    next segment hsome =>
      cases h
      obtain ⟨passed, behind, hbad, rfl⟩ := firstBadSegment?_eq_some_iff.mp hsome
      exact ⟨passed, segment, behind, hbad, rfl, rfl⟩
    next => cases h
  · rintro ⟨passed, segment, behind, hbad, rfl, rfl⟩
    rw [firstBadSegment?_eq_some_iff.mpr ⟨passed, behind, hbad, rfl⟩]

theorem FirstBadSegment.namedElement_eq {name passed segment behind : List CodePoint}
    (h : FirstBadSegment [char '.'] name passed segment behind) (position : ℕ) :
    namedElement position name =
      .error (position + passed.length, .invalidSegment (Str.ofList segment)) :=
  namedElement_eq_error_iff.mpr ⟨passed, segment, behind, h, rfl, rfl⟩

/-- A name with a bad segment is not that of a base type, which would be an identifier. -/
theorem FirstBadSegment.ofName?_eq_none {name passed segment behind : List CodePoint}
    (h : FirstBadSegment [char '.'] name passed segment behind) :
    BaseType.ofName? (Str.ofList name) = none := by
  rw [BaseType.ofName?_eq_none_iff]
  intro b hb
  have hdotted : DottedName name := by
    rw [← Str.toList_ofList name, hb]
    exact b.dottedName_name
  -- all segments of a dotted name are identifiers
  have hnone : firstBadSegment? 0 (splitAt (char '.') name) = none :=
    firstBadSegment?_eq_none_iff.mpr (dottedName_iff.mp hdotted)
  rw [firstBadSegment?_eq_some_iff.mpr ⟨passed, behind, h, rfl⟩] at hnone
  cases hnone

/-! ## §2 Slashes -/

@[simp] theorem length_slashesToDots (name : List CodePoint) :
    (slashesToDots name).length = name.length :=
  List.length_map _

theorem slashesToDots_append (front back : List CodePoint) :
    slashesToDots (front ++ back) = slashesToDots front ++ slashesToDots back :=
  List.map_append

theorem slashesToDots_eq_append_iff {name front back : List CodePoint} :
    slashesToDots name = front ++ back ↔
      ∃ f b, name = f ++ b ∧ slashesToDots f = front ∧ slashesToDots b = back :=
  List.map_eq_append_iff

/-- What becomes a dot is a separator, and nothing else is. -/
theorem slashToDot_mem_iff {c : CodePoint} :
    (if c = char '/' then char '.' else c) ∈ [char '.'] ↔ c ∈ [char '.', char '/'] := by
  by_cases hc : c = '/'
  · simp [hc]
  · simp [hc]

theorem separators_head?_iff {cs : List CodePoint} :
    (∀ c ∈ (slashesToDots cs).head?, c ∈ [char '.']) ↔
      ∀ c ∈ cs.head?, c ∈ [char '.', char '/'] := by
  cases cs with
  | nil => simp [slashesToDots]
  | cons c rest => simpa [slashesToDots] using slashToDot_mem_iff (c := c)

theorem slashesToDots_of_not_mem {s : List CodePoint} (h : char '/' ∉ s) : slashesToDots s = s := by
  have hsame : ∀ c ∈ s, (if c = char '/' then char '.' else c) = id c := by
    intro c hc
    apply if_neg
    rintro rfl
    exact h hc
  rw [slashesToDots, List.map_congr_left hsame, List.map_id]

/-- What has no dots when slashes have become dots was the same before. -/
theorem slashesToDots_of_dot_not_mem {s : List CodePoint} (h : char '.' ∉ slashesToDots s) :
    slashesToDots s = s :=
  slashesToDots_of_not_mem fun hmem => h (List.mem_map.mpr ⟨'/', hmem, rfl⟩)

theorem passed_slashesToDots_iff {passed : List CodePoint} :
    Passed [char '.'] (slashesToDots passed) ↔ Passed [char '.', char '/'] passed := by
  constructor
  · intro h
    generalize hdots : slashesToDots passed = dotted at h
    induction h generalizing passed with
    | nil =>
      obtain rfl := List.map_eq_nil_iff.mp hdots
      exact .nil
    | cons identifier separates more ih =>
      obtain ⟨s, rest, rfl, rfl, hrest⟩ := slashesToDots_eq_append_iff.mp hdots
      obtain ⟨separator, rest, rfl, rfl, rfl⟩ := List.map_eq_cons_iff.mp hrest
      rw [slashesToDots_of_dot_not_mem (identifier.not_mem (by decide))] at identifier
      exact .cons identifier (slashToDot_mem_iff.mp separates) (ih rfl)
  · intro h
    induction h with
    | nil => exact .nil
    | cons identifier separates more ih =>
      rw [slashesToDots_append, slashesToDots_of_not_mem (identifier.not_mem (by decide))]
      exact .cons identifier (slashToDot_mem_iff.mpr separates) ih

/-- A bad segment is the same before slashes become dots, and where it was. -/
theorem FirstBadSegment.of_dots {name dotted segment left : List CodePoint}
    (h : FirstBadSegment [char '.'] (slashesToDots name) dotted segment left) :
    ∃ passed behind, FirstBadSegment [char '.', char '/'] name passed segment behind ∧
      passed.length = dotted.length := by
  obtain ⟨heq, hpassed, hbad, hwhole, hended⟩ := h
  obtain ⟨passed, rest, rfl, rfl, hrest⟩ := slashesToDots_eq_append_iff.mp heq
  obtain ⟨s, behind, rfl, rfl, rfl⟩ := slashesToDots_eq_append_iff.mp hrest
  have hdot : char '.' ∉ slashesToDots s := fun hmem => hwhole '.' hmem (by simp)
  have hs : slashesToDots s = s := slashesToDots_of_dot_not_mem hdot
  rw [hs] at hbad hdot ⊢
  refine ⟨passed, behind, ⟨rfl, passed_slashesToDots_iff.mp hpassed, hbad, ?_,
    separators_head?_iff.mp hended⟩, (length_slashesToDots passed).symm⟩
  -- a slash in the segment would have become a dot in it
  intro c hc hsep
  rw [← slashToDot_mem_iff] at hsep
  exact hwhole _ (List.mem_map.mpr ⟨c, hc, rfl⟩) hsep

theorem FirstBadSegment.dots {name passed segment behind : List CodePoint}
    (h : FirstBadSegment [char '.', char '/'] name passed segment behind) :
    FirstBadSegment [char '.'] (slashesToDots name) (slashesToDots passed) segment
      (slashesToDots behind) where
  eq := by
    have hslash : char '/' ∉ segment := fun hmem => h.unseparated '/' hmem (by simp)
    rw [h.eq, slashesToDots_append, slashesToDots_append, slashesToDots_of_not_mem hslash]
  passed := passed_slashesToDots_iff.mpr h.passed
  bad := h.bad
  unseparated := fun c hc hsep => h.unseparated c hc (by simp [List.mem_singleton.mp hsep])
  ended := separators_head?_iff.mpr h.ended

/-! ## §3 Where class names stand -/

/-- A text that is to be read as a field descriptor: it begins with a mark for a dimension, or is
the letter of a base type, or stands between the marks of a class. -/
def IsFieldForm (cs : List CodePoint) : Prop :=
  cs.head? = some (char '[') ∨ (∃ b : BaseType, cs = [b.code]) ∨
    (cs.head? = some (char 'L') ∧ cs.getLast? = some (char ';'))

theorem looksLikeField_iff {cs : List CodePoint} : looksLikeField cs = true ↔ IsFieldForm cs := by
  unfold looksLikeField IsFieldForm
  split
  case h_1 => simp
  case h_2 c hmark =>
    constructor
    · intro hletter
      obtain ⟨b, hb⟩ := Option.isSome_iff_exists.mp hletter
      exact .inr (.inl ⟨b, by rw [BaseType.ofCode?_eq_some_iff.mp hb]⟩)
    · rintro (hhead | ⟨b, hb⟩ | ⟨hhead, hlast⟩)
      · exact (hmark (by simpa using hhead)).elim
      · cases hb
        simp [BaseType.ofCode?_code]
      · -- one character is not two marks
        obtain rfl : c = 'L' := by simpa using hhead
        simp at hlast
  case h_3 rest hmore =>
    have hrest : rest ≠ [] := hmore
    obtain ⟨c, more, rfl⟩ := List.exists_cons_of_ne_nil hrest
    simp
  case h_4 hmark hletter hclass =>
    refine iff_of_false (by simp) ?_
    rintro (hhead | ⟨b, rfl⟩ | ⟨hhead, -⟩)
    · obtain ⟨rest, hcs⟩ := List.head?_eq_some_iff.mp hhead
      exact hmark rest hcs
    · exact hletter b.code rfl
    · obtain ⟨rest, hcs⟩ := List.head?_eq_some_iff.mp hhead
      exact hclass rest hcs

/-- A class name that stands in a text from a position on, with what may separate its segments. In a
field descriptor it stands behind the marks for its dimensions and that of a class, up to a
semicolon; in a source form it stands in front of all brackets. -/
inductive ClassNameAt : List CodePoint → ℕ → List CodePoint → List CodePoint → Prop where
  | field (name : List CodePoint) (n : ℕ) (nonempty : name ≠ []) (unmarked : char ';' ∉ name) :
      ClassNameAt (List.replicate n (char '[') ++ char 'L' :: (name ++ [char ';'])) (n + 1)
        [char '.', char '/'] name
  | source (name : List CodePoint) (n : ℕ) (nonempty : name ≠ [])
      (unmarked : ¬[char '[', char ']'] <:+ name)
      (noField : ¬IsFieldForm (name ++ (brackets n).toList)) :
      ClassNameAt (name ++ (brackets n).toList) 0 [char '.'] name

/-- The class name of a text has a segment that is no identifier at a position, and only identifiers
before it. -/
inductive BadSegmentAt (cs : List CodePoint) : ℕ → List CodePoint → Prop where
  | mk {start : ℕ} {separators name passed segment behind : List CodePoint}
      (className : ClassNameAt cs start separators name)
      (first : FirstBadSegment separators name passed segment behind) :
      BadSegmentAt cs (start + passed.length) segment

/-- A class name is a slice of the text in which it stands. -/
theorem ClassNameAt.exists_append {cs name separators : List CodePoint} {start : ℕ}
    (h : ClassNameAt cs start separators name) :
    ∃ front back, cs = front ++ (name ++ back) ∧ front.length = start := by
  cases h with
  | field name n =>
    refine ⟨List.replicate n (char '[') ++ [char 'L'], [char ';'], by simp, by simp⟩
  | source name n => exact ⟨[], (brackets n).toList, rfl, rfl⟩

/-- **A bad segment is the slice** of its length at its position. -/
theorem BadSegmentAt.slice {cs segment : List CodePoint} {position : ℕ}
    (h : BadSegmentAt cs position segment) :
    (cs.drop position).take segment.length = segment := by
  obtain @⟨_, _, _, passed, _, _, className, first⟩ := h
  obtain ⟨front, back, rfl, rfl⟩ := className.exists_append
  have hbefore : (front ++ passed).length = front.length + passed.length := List.length_append
  rw [first.eq, List.append_assoc, ← List.append_assoc front, List.drop_left' hbefore,
    List.append_assoc, List.take_left]

/-! ## §4 Faults of the readers -/

/-- A fault in a text: it lies in it, and where a segment is to blame, it is the first bad one. -/
structure FaultIn (cs : List CodePoint) (position : ℕ) (fault : DescriptorFault) : Prop where
  position_le : position ≤ cs.length
  segment : ∀ s, fault = .invalidSegment s → BadSegmentAt cs position s.toList

/-- A fault for which no segment is to blame. -/
theorem FaultIn.elsewhere {cs : List CodePoint} {position : ℕ} {fault : DescriptorFault}
    (hle : position ≤ cs.length) (h : ∀ s, fault ≠ .invalidSegment s) :
    FaultIn cs position fault where
  position_le := hle
  segment := fun s hs => absurd hs (h s)

/-- The fault of a class name lies in the text in which the name stands. -/
theorem ClassNameAt.faultIn {cs name separators passed segment behind : List CodePoint} {start : ℕ}
    (h : ClassNameAt cs start separators name)
    (first : FirstBadSegment separators name passed segment behind) :
    FaultIn cs (start + passed.length) (.invalidSegment (Str.ofList segment)) where
  position_le := by
    obtain ⟨front, back, rfl, rfl⟩ := h.exists_append
    have hlength := first.length_le
    simp only [List.length_append]
    omega
  segment := by
    rintro s hs
    cases hs
    rw [Str.toList_ofList]
    exact .mk h first

/-- What is wrong with a class between its marks. -/
theorem fieldElement_class_faultIn {n k : ℕ} {rest : List CodePoint} {fault : DescriptorFault}
    (h : fieldElement n ('L' :: rest) = .error (k, fault)) :
    FaultIn (List.replicate n (char '[') ++ char 'L' :: rest) k fault := by
  have hlength :
      (List.replicate n (char '[') ++ char 'L' :: rest).length = n + 1 + rest.length := by
    simp only [List.length_append, List.length_replicate, List.length_cons]
    omega
  have hname : (rest.takeWhile (· != char ';')).length + (rest.dropWhile (· != char ';')).length =
      rest.length := by
    rw [← List.length_append, List.takeWhile_append_dropWhile]
  rw [fieldElement] at h
  dsimp only at h
  split at h
  next =>
    -- no semicolon: the fault is where the text ends
    cases h
    exact .elsewhere (by omega) (by simp)
  next hdrop =>
    -- the fault is behind the semicolon, and there is something behind it
    cases h
    rw [hdrop] at hname
    simp only [List.length_cons] at hname
    exact .elsewhere (by omega) (by simp)
  next d hdrop =>
    split at h
    next =>
      cases h
      exact .elsewhere (by omega) (by simp)
    next hempty =>
      split at h
      next =>
        cases h
        exact .elsewhere (by omega) (by simp)
      next hbase =>
        rw [← slashesToDots, namedElement_eq_error_iff] at h
        obtain ⟨dotted, segment, left, hbad, rfl, rfl⟩ := h
        obtain ⟨passed, behind, hfirst, hpassed⟩ := hbad.of_dots
        rw [← hpassed]
        have hunmarked : char ';' ∉ rest.takeWhile (· != char ';') := by
          intro hmem
          simpa using List.mem_takeWhile_imp hmem
        rw [← takeWhile_append_semicolon hdrop]
        exact (ClassNameAt.field _ n (by simpa using hempty) hunmarked).faultIn hfirst

/-- What is wrong with the rest of a field descriptor. -/
theorem fieldElement_faultIn {n k : ℕ} {cs : List CodePoint} {fault : DescriptorFault}
    (h : fieldElement n cs = .error (k, fault)) :
    FaultIn (List.replicate n (char '[') ++ cs) k fault := by
  cases cs with
  | nil =>
    cases h
    exact .elsewhere (by simp) (by simp)
  | cons c rest =>
    by_cases hc : c = 'L'
    · subst hc
      exact fieldElement_class_faultIn h
    · -- a letter is to blame itself, or what stands behind it
      have hlength : n + 1 ≤ (List.replicate n (char '[') ++ c :: rest).length := by simp
      rw [fieldElement] at h
      · split at h
        next =>
          cases h
          exact .elsewhere (by omega) (by simp)
        next =>
          split at h
          next =>
            cases h
            exact .elsewhere hlength (by simp)
          next =>
            split at h
            next =>
              cases h
              exact .elsewhere (by omega) (by simp)
            next => cases h
      · exact hc

/-- What is wrong with a field descriptor. -/
theorem parseField_faultIn {k : ℕ} {cs : List CodePoint} {fault : DescriptorFault}
    (h : parseField cs = .error (k, fault)) : FaultIn cs k fault := by
  rw [parseField] at h
  cases helement : fieldElement (cs.takeWhile (· == char '[')).length
      (cs.dropWhile (· == char '[')) with
  | ok e =>
    rw [helement] at h
    cases h
  | error e =>
    rw [helement] at h
    cases h
    have hfault := fieldElement_faultIn helement
    rwa [← takeWhile_eq_replicate, List.takeWhile_append_dropWhile] at hfault

theorem suffix_brackets_iff {name : List CodePoint} :
    [char '[', char ']'] <:+ name ↔ ∃ rest, name.reverse = char ']' :: char '[' :: rest := by
  rw [← List.reverse_prefix]
  exact exists_congr fun _ => eq_comm

/-- What is left when brackets are split off does not begin with a pair of them. -/
theorem splitBrackets_snd_ne (cs rest : List CodePoint) :
    (splitBrackets cs).2 ≠ char ']' :: char '[' :: rest := by
  induction cs using splitBrackets.induct with
  | case1 more n name hsplit ih => simpa [splitBrackets, hsplit] using ih
  | case2 cs hcs =>
    rw [splitBrackets]
    · exact hcs rest
    · exact hcs

/-- A source form is a name that does not end with brackets, and brackets behind it. -/
theorem exists_name_brackets (cs : List CodePoint) :
    ∃ name n, cs = name ++ (brackets n).toList ∧ ¬[char '[', char ']'] <:+ name ∧
      splitBrackets cs.reverse = (n, name.reverse) := by
  have hwhole := splitBrackets_append cs.reverse
  rw [← List.reverse_eq_iff, List.reverse_append, List.reverse_reverse] at hwhole
  refine ⟨_, _, hwhole.symm, ?_, by rw [List.reverse_reverse]⟩
  rw [suffix_brackets_iff, List.reverse_reverse]
  rintro ⟨rest, hrest⟩
  exact splitBrackets_snd_ne _ rest hrest

/-- What is wrong with a source form. -/
theorem parseSource_faultIn {k : ℕ} {cs : List CodePoint} {fault : DescriptorFault}
    (hfield : ¬IsFieldForm cs) (h : parseSource cs = .error (k, fault)) : FaultIn cs k fault := by
  obtain ⟨name, n, rfl, hunmarked, hsplit⟩ := exists_name_brackets cs
  simp only [parseSource, hsplit, List.reverse_reverse] at h
  split at h
  · cases h
    exact .elsewhere (Nat.zero_le _) (by simp)
  next hempty =>
    split at h
    · -- a base type may be to blame for its dimensions
      split at h
      · cases h
        exact .elsewhere (by simp) (by simp)
      · cases h
    · cases helement : namedElement 0 name with
      | ok e =>
        rw [helement] at h
        cases h
      | error e =>
        rw [helement] at h
        cases h
        obtain ⟨passed, segment, behind, hfirst, rfl, rfl⟩ := namedElement_eq_error_iff.mp helement
        exact (ClassNameAt.source name n (by simpa using hempty) hunmarked hfield).faultIn hfirst

/-! ## §5 Bad segments are reported -/

/-- **A first bad segment is reported**, by the reader for the text in which it is. -/
theorem BadSegmentAt.read {cs segment : List CodePoint} {k : ℕ} (h : BadSegmentAt cs k segment) :
    (if looksLikeField cs then parseField cs else parseSource cs) =
      .error (k, .invalidSegment (Str.ofList segment)) := by
  obtain @⟨_, _, name, passed, _, behind, className, first⟩ := h
  cases className with
  | field _ n nonempty unmarked =>
    have hfield :
        IsFieldForm (List.replicate n (char '[') ++ char 'L' :: (name ++ [char ';'])) := by
      cases n with
      | zero =>
        refine .inr (.inr ⟨rfl, ?_⟩)
        rw [List.replicate_zero, List.nil_append, ← List.cons_append, List.getLast?_concat]
      | succ n => exact .inl rfl
    rw [if_pos (looksLikeField_iff.mpr hfield), parseField_replicate n (by simp),
      fieldElement_named n nonempty unmarked first.dots.ofName?_eq_none]
    rw [first.dots.namedElement_eq, length_slashesToDots]
    rfl
  | source _ n nonempty unmarked noField =>
    have hsplit : splitBrackets (name ++ (brackets n).toList).reverse = (n, name.reverse) := by
      rw [List.reverse_append]
      apply splitBrackets_of_ne
      intro rest hrest
      exact unmarked (suffix_brackets_iff.mpr ⟨rest, hrest⟩)
    have hempty : ¬name.isEmpty = true := by simpa using nonempty
    rw [if_neg (mt looksLikeField_iff.mp noField)]
    simp only [parseSource, hsplit, List.reverse_reverse, if_neg hempty, first.ofName?_eq_none,
      first.namedElement_eq]
    rfl

/-! ## §6 Descriptors -/

/-- A fault is reported of the text between the blanks, if there is one. -/
theorem parse_eq_error_iff {d : Str} (hne : stripPoints d.toList ≠ []) {m : Malformed} :
    Signature.parse d = .error m ↔
      m.descriptor = strip d ∧
        (if looksLikeField (stripPoints d.toList) then parseField (stripPoints d.toList)
          else parseSource (stripPoints d.toList)) = .error (m.position, m.fault) := by
  rw [Signature.parse, strip, Str.toList_ofList]
  generalize stripPoints d.toList = cs at hne
  dsimp only
  rw [if_neg (by simpa using hne)]
  generalize (if looksLikeField cs then parseField cs else parseSource cs) = result
  obtain ⟨descriptor, position, fault⟩ := m
  cases result with
  | ok s => simp [Except.mapError]
  | error e => simp [Except.mapError, Prod.ext_iff, eq_comm]

/-- A fault of a descriptor lies in the text between its blanks. -/
theorem faultIn_of_parse {d : Str} (hne : stripPoints d.toList ≠ []) {m : Malformed}
    (h : Signature.parse d = .error m) :
    m.descriptor = strip d ∧ FaultIn (stripPoints d.toList) m.position m.fault := by
  obtain ⟨hdescriptor, hread⟩ := (parse_eq_error_iff hne).mp h
  refine ⟨hdescriptor, ?_⟩
  split at hread
  case isTrue => exact parseField_faultIn hread
  case isFalse hfield => exact parseSource_faultIn (mt looksLikeField_iff.mpr hfield) hread

theorem BadSegmentAt.ne_nil {cs segment : List CodePoint} {position : ℕ}
    (h : BadSegmentAt cs position segment) : cs ≠ [] := by
  obtain @⟨_, _, name, _, _, _, className, _⟩ := h
  cases className with
  | field => simp
  | source _ _ nonempty => simp [nonempty]

/-- **What is reported of a malformed descriptor.** A blank one is reported as it is, at its
beginning. Of any other the text between its blanks is reported, with a position in it. An invalid
segment is reported exactly if it is the first segment of the class name that is no identifier, at
the position where it begins: there it is the slice of its length. -/
theorem malformed_descriptors_are_located (d : Str) :
    (stripPoints d.toList = [] → Signature.parse d = .error ⟨d, 0, .emptyDescriptor⟩) ∧
    (stripPoints d.toList ≠ [] → ∀ m, Signature.parse d = .error m →
      m.descriptor = strip d ∧ m.position ≤ (stripPoints d.toList).length ∧
      ∀ segment, m.fault = .invalidSegment segment →
        BadSegmentAt (stripPoints d.toList) m.position segment.toList ∧
        ((stripPoints d.toList).drop m.position).take segment.toList.length = segment.toList) ∧
    ∀ position segment, BadSegmentAt (stripPoints d.toList) position segment →
      Signature.parse d =
        .error ⟨strip d, position, .invalidSegment (Str.ofList segment)⟩ := by
  refine ⟨fun hempty => ?blank, fun hne m h => ?located, fun position segment hbad => ?reported⟩
  case blank =>
    rw [Signature.parse, strip, Str.toList_ofList, hempty]
    rfl
  case located =>
    obtain ⟨hdescriptor, hfault⟩ := faultIn_of_parse hne h
    refine ⟨hdescriptor, hfault.position_le, fun segment hsegment => ?_⟩
    have hbad := hfault.segment segment hsegment
    exact ⟨hbad, hbad.slice⟩
  case reported =>
    exact (parse_eq_error_iff hbad.ne_nil).mpr ⟨rfl, hbad.read⟩

/-- A case of it: the second segment of a class name, behind two marks for dimensions. -/
theorem second_segment_is_located :
    BadSegmentAt ("[[Ljava/1x/String;" : Str).toList 8 ("1x" : Str).toList ∧
      Signature.parse " [[Ljava/1x/String; " =
        .error ⟨"[[Ljava/1x/String;", 8, .invalidSegment "1x"⟩ := by
  have hparse : Signature.parse " [[Ljava/1x/String; " =
      .error ⟨"[[Ljava/1x/String;", 8, .invalidSegment "1x"⟩ := by decide
  have hstrip : stripPoints (" [[Ljava/1x/String; " : Str).toList =
      ("[[Ljava/1x/String;" : Str).toList := by decide
  obtain ⟨-, hlocated, -⟩ := malformed_descriptors_are_located " [[Ljava/1x/String; "
  obtain ⟨-, -, hsegment⟩ := hlocated (by rw [hstrip]; decide) _ hparse
  obtain ⟨hbad, -⟩ := hsegment "1x" rfl
  rw [hstrip] at hbad
  exact ⟨hbad, hparse⟩

end AnnoTree
