import AnnoTree.Proofs.Entries
import AnnoTree.Types.Registry
import Mathlib.Tactic.Common

/-!
# Enum constants in registries

A registry finds a type by any of its names, but it calls the type by the first one only, and
that name alone decides whether the type counts as an enum and which table has its constants.
`Answers` says what a registry answers to a reference, one rule for each way that the lookup can
end. Every reference has one answer.

## Main definitions

- `Registry.IsFirstName`: the first name of a type.
- `Registry.Answers`: the answers of a registry, by rules.

## Main statements

- `Registry.exists_answers`: each reference has an answer.
- `Registry.Answers.enumConst`: the lookup gives every answer that there is.
- `registry_answers_are_sound`: what is found is in the table of the type or a constant of its own,
  and all else is one fault.
- `foreign_enums_resolve_by_first_names`: when a foreign enum has its constants under a name.
-/

namespace AnnoTree

/-! ## §1 Names of constants -/

/-- A name with an underscore in front is not accessible. -/
def IsHiddenConstant (name : Str) : Prop :=
  name.toList.head? = some (.char '_')

instance (name : Str) : Decidable (IsHiddenConstant name) :=
  inferInstanceAs (Decidable (_ = _))

theorem startsWith_underscore_iff {name : Str} :
    name.startsWith "_" = true ↔ IsHiddenConstant name := by
  rw [Str.startsWith_iff, IsHiddenConstant]
  cases name.toList with
  | nil =>
    refine iff_of_false (fun h => ?_) (Option.some_ne_none _).symm
    exact List.cons_ne_nil _ _ (List.prefix_nil.mp h)
  | cons c cs =>
    rw [List.head?_cons, Option.some.injEq, show ("_" : Str).toList = [.char '_'] from rfl]
    constructor
    · intro h
      exact (List.cons_prefix_cons.mp h).1.symm
    · rintro rfl
      exact ⟨cs, rfl⟩

/-! ## §2 Constants of a type -/

namespace Entity

variable {type e : Entity} {c : Str}

/-- Only an enum type has constants of its own. -/
theorem isEnumType_of_isConstantOf (h : e.isConstantOf type = true) : type.isEnumType = true := by
  cases type with
  | enumType t => rfl
  | _ => cases e <;> cases h

/-- What a type has under the name of a constant is an attribute as well, and it is a constant of
the type. -/
theorem attribute?_of_constant? (h : type.constant? c = some e) :
    type.attribute? c = some e ∧ e.isConstantOf type = true := by
  cases type with
  | enumType t =>
    have hconstant : t.constant? c = some e := h
    constructor
    · rw [attribute?, EnumType.attribute?, hconstant]
      rfl
    · rw [EnumType.constant?, Option.map_eq_some_iff] at hconstant
      obtain ⟨own, -, rfl⟩ := hconstant
      exact beq_self_eq_true t.id
  | _ => cases h

end Entity

namespace Registry

variable {r : Registry} {name first c : Str} {type e : Entity} {ref : EnumConst}
variable {outcome : Except LookupFault Entity}

/-! ## §3 First names -/

/-- A type is registered under a name. -/
def Holds (r : Registry) (name : Str) (type : Entity) : Prop :=
  Entries.get? name r.types = some type

/-- The first name of a type: what is registered before it are other types. -/
def IsFirstName (r : Registry) (type : Entity) (name : Str) : Prop :=
  ∃ front same back, r.types = front ++ (name, same) :: back ∧ same.identity = type.identity ∧
    ∀ other ∈ front, other.2.identity ≠ type.identity

/-- Messages, tables and the names of enums go by the first name. -/
theorem IsFirstName.nameOf_eq (h : r.IsFirstName type first) : r.nameOf type = first := by
  obtain ⟨front, same, back, htypes, hsame, hfront⟩ := h
  have hfind : (r.types.find? fun e => e.2.identity == type.identity) = some (first, same) := by
    rw [List.find?_eq_some_iff_append]
    refine ⟨beq_iff_eq.mpr hsame, front, back, htypes, fun other hmem => ?_⟩
    rw [Bool.not_eq_true', beq_eq_false_iff_ne]
    exact hfront other hmem
  rw [nameOf, hfind]

theorem isFirstName_nameOf (h : r.Holds name type) : r.IsFirstName type (r.nameOf type) := by
  -- the name itself is one that the search can end with
  have hmem := Entries.mem_of_get? h
  have hsome : (r.types.find? fun e => e.2.identity == type.identity).isSome = true :=
    List.find?_isSome.mpr ⟨(name, type), hmem, beq_self_eq_true type.identity⟩
  obtain ⟨⟨first, same⟩, hfind⟩ := Option.isSome_iff_exists.mp hsome
  rw [nameOf, hfind]
  obtain ⟨hsame, front, back, htypes, hfront⟩ := List.find?_eq_some_iff_append.mp hfind
  refine ⟨front, same, back, htypes, beq_iff_eq.mp hsame, fun other hother => ?_⟩
  have hne := hfront other hother
  rwa [Bool.not_eq_true', beq_eq_false_iff_ne] at hne

/-! ## §4 Answers -/

/-- A name is that of a type, which has a first name. -/
structure Knows (r : Registry) (name : Str) (type : Entity) (first : Str) : Prop where
  holds : r.Holds name type
  isFirst : r.IsFirstName type first

/-- A type is an enum, or is listed as one by its first name. -/
def CountsAsEnum (r : Registry) (type : Entity) (first : Str) : Prop :=
  type.isEnumType = true ∨ first ∈ r.enumNames

/-- A reference leads to an enum and asks for a constant that may be seen. -/
structure Admits (r : Registry) (ref : EnumConst) (type : Entity) (first : Str) : Prop
    extends r.Knows ref.typeName type first where
  counts : r.CountsAsEnum type first
  visible : ¬IsHiddenConstant ref.constantName

/-- What a registry answers to a reference. A table takes the place of the attributes of the type;
without one, an attribute has to be a constant of the type. -/
inductive Answers (r : Registry) (ref : EnumConst) : Except LookupFault Entity → Prop
  /-- Nothing is registered under the name. -/
  | unknown (h : ∀ type, ¬r.Holds ref.typeName type) :
      r.Answers ref (.error (.typeNotFound ref.typeName))
  /-- The type is no enum. The fault has the name of the reference, which may not be the first. -/
  | noEnum {type : Entity} {first : Str} (h : r.Knows ref.typeName type first)
      (hno : ¬r.CountsAsEnum type first) :
      r.Answers ref (.error (.notAnEnum ref.typeName (some type.foundName)))
  /-- The name has an underscore in front, whether or not there is a constant of that name. From
  here on faults have the first name. -/
  | hidden {type : Entity} {first : Str} (h : r.Knows ref.typeName type first)
      (hcounts : r.CountsAsEnum type first) (hhidden : IsHiddenConstant ref.constantName) :
      r.Answers ref (.error (.accessDenied first ref.constantName))
  /-- The table under the first name has an entry. -/
  | entry {type e : Entity} {first : Str} {table : List (Str × Entity)}
      (h : r.Admits ref type first) (htable : Entries.get? first r.tables = some table)
      (hentry : Entries.get? ref.constantName table = some e) : r.Answers ref (.ok e)
  /-- That table has none, and the attributes of the type are not asked. -/
  | noEntry {type : Entity} {first : Str} {table : List (Str × Entity)}
      (h : r.Admits ref type first) (htable : Entries.get? first r.tables = some table)
      (hentry : Entries.get? ref.constantName table = none) :
      r.Answers ref (.error (.constantNotFound first ref.constantName))
  /-- Without a table, an attribute is a constant of the type. -/
  | own {type e : Entity} {first : Str} (h : r.Admits ref type first)
      (htable : Entries.get? first r.tables = none)
      (hattribute : type.attribute? ref.constantName = some e)
      (hconstant : e.isConstantOf type = true) : r.Answers ref (.ok e)
  /-- There is neither a table nor an attribute. -/
  | noAttribute {type : Entity} {first : Str} (h : r.Admits ref type first)
      (htable : Entries.get? first r.tables = none)
      (hattribute : type.attribute? ref.constantName = none) :
      r.Answers ref (.error (.constantNotFound first ref.constantName))
  /-- There is an attribute, such as a method, that is no constant of the type. -/
  | noConstant {type e : Entity} {first : Str} (h : r.Admits ref type first)
      (htable : Entries.get? first r.tables = none)
      (hattribute : type.attribute? ref.constantName = some e)
      (hconstant : e.isConstantOf type = false) :
      r.Answers ref (.error (.notAConstant first ref.constantName (some e.kindName)))

/-- **Each reference has an answer.** -/
theorem exists_answers (r : Registry) (ref : EnumConst) : ∃ outcome, r.Answers ref outcome := by
  -- the cases are split in the order of the faults
  cases hholds : Entries.get? ref.typeName r.types with
  | none =>
    refine ⟨_, .unknown fun type htype => ?_⟩
    rw [Holds, hholds] at htype
    cases htype
  | some type =>
    have hknows : r.Knows ref.typeName type (r.nameOf type) := ⟨hholds, isFirstName_nameOf hholds⟩
    by_cases hcounts : r.CountsAsEnum type (r.nameOf type)
    · by_cases hhidden : IsHiddenConstant ref.constantName
      · exact ⟨_, .hidden hknows hcounts hhidden⟩
      · have hadmits : r.Admits ref type (r.nameOf type) := ⟨hknows, hcounts, hhidden⟩
        -- the table decides if there is one, and otherwise the attribute of the type
        cases htable : Entries.get? (r.nameOf type) r.tables with
        | some table =>
          cases hentry : Entries.get? ref.constantName table with
          | some e => exact ⟨_, .entry hadmits htable hentry⟩
          | none => exact ⟨_, .noEntry hadmits htable hentry⟩
        | none =>
          cases hattribute : type.attribute? ref.constantName with
          | none => exact ⟨_, .noAttribute hadmits htable hattribute⟩
          | some e =>
            cases hconstant : e.isConstantOf type with
            | true => exact ⟨_, .own hadmits htable hattribute hconstant⟩
            | false => exact ⟨_, .noConstant hadmits htable hattribute hconstant⟩
    · exact ⟨_, .noEnum hknows hcounts⟩

/-! ## §5 The lookup -/

theorem isEnum_iff (h : r.IsFirstName type first) :
    r.isEnum type = true ↔ r.CountsAsEnum type first := by
  rw [isEnum, h.nameOf_eq, Bool.or_eq_true, List.contains_iff_mem, CountsAsEnum]

theorem enumConst_of_holds (ref : EnumConst) (h : r.Holds ref.typeName type) :
    lookup.enumConst r ref =
      if r.isEnum type then (r, r.resolveConstant type ref.constantName)
      else (r, Lookup.fault (.notAnEnum ref.typeName (some type.foundName))) := by
  have htype : r.resolveType ref.typeName = .ok type := by
    rw [resolveType, h]
  simp only [Lookup.enumConst, lookup, htype, Lookup.andThen]
  rfl

/-- What a type has under the name of a constant is found among its attributes. -/
theorem constant?_or_attributeConstant (name : Str) (type : Entity) (c : Str) :
    (match type.constant? c with
      | some e => .ok e
      | none => attributeConstant name type c) = attributeConstant name type c := by
  cases hconstant : type.constant? c with
  | none => rfl
  | some e =>
    obtain ⟨hattribute, hown⟩ := Entity.attribute?_of_constant? hconstant
    simp only [attributeConstant, hattribute, hown, if_true]

theorem resolveConstant_of_hidden (h : r.IsFirstName type first) (hhidden : IsHiddenConstant c) :
    r.resolveConstant type c = Lookup.fault (.accessDenied first c) := by
  rw [resolveConstant, h.nameOf_eq, if_pos (startsWith_underscore_iff.mpr hhidden)]

theorem resolveConstant_of_entry {table : List (Str × Entity)} (h : r.IsFirstName type first)
    (hvisible : ¬IsHiddenConstant c) (htable : Entries.get? first r.tables = some table)
    (hentry : Entries.get? c table = some e) : r.resolveConstant type c = .ok e := by
  have hstarts := mt startsWith_underscore_iff.mp hvisible
  simp only [resolveConstant, h.nameOf_eq, if_neg hstarts, htable, hentry]

theorem resolveConstant_of_no_entry {table : List (Str × Entity)}
    (h : r.IsFirstName type first) (hvisible : ¬IsHiddenConstant c)
    (htable : Entries.get? first r.tables = some table) (hentry : Entries.get? c table = none) :
    r.resolveConstant type c = Lookup.fault (.constantNotFound first c) := by
  have hstarts := mt startsWith_underscore_iff.mp hvisible
  simp only [resolveConstant, h.nameOf_eq, if_neg hstarts, htable, hentry]

theorem resolveConstant_of_no_table (h : r.IsFirstName type first)
    (hvisible : ¬IsHiddenConstant c) (htable : Entries.get? first r.tables = none) :
    r.resolveConstant type c = attributeConstant first type c := by
  have hstarts := mt startsWith_underscore_iff.mp hvisible
  rw [resolveConstant, h.nameOf_eq, if_neg hstarts, htable]
  exact constant?_or_attributeConstant first type c

/-- The constant is looked up only where the type counts as an enum. -/
theorem Knows.enumConst (h : r.Knows ref.typeName type first)
    (hcounts : r.CountsAsEnum type first) :
    lookup.enumConst r ref = (r, r.resolveConstant type ref.constantName) := by
  rw [enumConst_of_holds ref h.holds, if_pos ((isEnum_iff h.isFirst).mpr hcounts)]

/-- Without a table, the attributes of an enum are asked. -/
theorem Admits.enumConst_of_no_table (h : r.Admits ref type first)
    (htable : Entries.get? first r.tables = none) :
    lookup.enumConst r ref = (r, attributeConstant first type ref.constantName) := by
  rw [h.toKnows.enumConst h.counts, resolveConstant_of_no_table h.isFirst h.visible htable]

/-- **The lookup gives every answer that there is**, so there is only one. -/
theorem Answers.enumConst (h : r.Answers ref outcome) :
    lookup.enumConst r ref = (r, outcome.mapError .lookup) := by
  cases h with
  | unknown hnone =>
    have hget : Entries.get? ref.typeName r.types = none :=
      Option.eq_none_iff_forall_ne_some.mpr hnone
    have htype : r.resolveType ref.typeName = Lookup.fault (.typeNotFound ref.typeName) := by
      rw [resolveType, hget]
    simp only [Lookup.enumConst, lookup, htype]
    rfl
  | noEnum hknows hno =>
    rw [enumConst_of_holds ref hknows.holds, if_neg (mt (isEnum_iff hknows.isFirst).mp hno)]
    rfl
  | hidden hknows hcounts hhidden =>
    rw [hknows.enumConst hcounts, resolveConstant_of_hidden hknows.isFirst hhidden]
    rfl
  | entry hadmits htable hentry =>
    rw [hadmits.toKnows.enumConst hadmits.counts,
      resolveConstant_of_entry hadmits.isFirst hadmits.visible htable hentry]
    rfl
  | noEntry hadmits htable hentry =>
    rw [hadmits.toKnows.enumConst hadmits.counts,
      resolveConstant_of_no_entry hadmits.isFirst hadmits.visible htable hentry]
    rfl
  | own hadmits htable hattribute hconstant =>
    rw [hadmits.enumConst_of_no_table htable, attributeConstant, hattribute]
    exact congrArg _ (if_pos hconstant)
  | noAttribute hadmits htable hattribute =>
    rw [hadmits.enumConst_of_no_table htable, attributeConstant, hattribute]
    rfl
  | noConstant hadmits htable hattribute hconstant =>
    rw [hadmits.enumConst_of_no_table htable, attributeConstant, hattribute]
    exact congrArg _ (if_neg (Bool.eq_false_iff.mp hconstant))

theorem mapError_lookup_inj {a b : Except LookupFault Entity}
    (h : a.mapError Failure.lookup = b.mapError Failure.lookup) : a = b := by
  cases a with
  | ok x =>
    cases b with
    | ok y => exact congrArg Except.ok (Except.ok.inj h)
    | error g => cases h
  | error f =>
    cases b with
    | ok y => cases h
    | error g => exact congrArg Except.error (Failure.lookup.inj (Except.error.inj h))

theorem enumConst_eq_iff :
    lookup.enumConst r ref = (r, outcome.mapError .lookup) ↔ r.Answers ref outcome := by
  constructor
  · intro heq
    obtain ⟨answer, hanswer⟩ := r.exists_answers ref
    rw [hanswer.enumConst, Prod.mk.injEq] at heq
    exact mapError_lookup_inj heq.2 ▸ hanswer
  · exact Answers.enumConst

/-! ## §6 What is found -/

/-- The entry of a constant in the table under a name. -/
def tableConstant? (r : Registry) (name c : Str) : Option Entity :=
  (Entries.get? name r.tables).bind (Entries.get? c)

/-- What is found is in the table, or an attribute that is a constant of the type. -/
theorem answers_ok_iff :
    r.Answers ref (.ok e) ↔ ∃ type first, r.Admits ref type first ∧
      (r.tableConstant? first ref.constantName = some e ∨ Entries.get? first r.tables = none ∧
        type.attribute? ref.constantName = some e ∧ e.isConstantOf type = true) := by
  constructor
  · intro h
    cases h with
    | entry hadmits htable hentry =>
      refine ⟨_, _, hadmits, .inl ?_⟩
      rw [tableConstant?, htable]
      exact hentry
    | own hadmits htable hattribute hconstant =>
      exact ⟨_, _, hadmits, .inr ⟨htable, hattribute, hconstant⟩⟩
  · rintro ⟨type, first, hadmits, hentry | ⟨htable, hattribute, hconstant⟩⟩
    · obtain ⟨table, htable, hentry⟩ := Option.bind_eq_some_iff.mp hentry
      exact .entry hadmits htable hentry
    · exact .own hadmits htable hattribute hconstant

theorem enumConst_eq_ok_iff :
    (lookup.enumConst r ref).2 = .ok e ↔ r.Answers ref (.ok e) := by
  rw [← enumConst_eq_iff, Prod.ext_iff]
  obtain ⟨answer, hanswer⟩ := r.exists_answers ref
  exact (and_iff_right (congrArg Prod.fst hanswer.enumConst)).symm

/-- Under a name of a foreign type, only the table under its first name is looked at. -/
theorem Knows.enumConst_eq_ok_iff (h : r.Knows name type first)
    (hforeign : type.isEnumType = false) (hvisible : ¬IsHiddenConstant c) :
    (lookup.enumConst r ⟨name, c⟩).2 = .ok e ↔
      first ∈ r.enumNames ∧ r.tableConstant? first c = some e := by
  rw [Registry.enumConst_eq_ok_iff, answers_ok_iff]
  constructor
  · rintro ⟨type', first', hadmits, hfound⟩
    -- the name has one type, and the type one first name
    obtain rfl : type' = type := Option.some.inj (hadmits.holds.symm.trans h.holds)
    obtain rfl : first' = first := hadmits.isFirst.nameOf_eq.symm.trans h.isFirst.nameOf_eq
    have hno : ¬type'.isEnumType = true := Bool.eq_false_iff.mp hforeign
    rcases hfound with hentry | ⟨-, -, hconstant⟩
    · exact ⟨hadmits.counts.resolve_left hno, hentry⟩
    · exact absurd (Entity.isEnumType_of_isConstantOf hconstant) hno
  · rintro ⟨hmem, hentry⟩
    exact ⟨type, first, ⟨h, .inr hmem, hvisible⟩, .inl hentry⟩

end Registry

/-! ## §7 Main statements -/

/-- **What a registry finds for a reference is in the table of the type or a constant of its own.**
The type is the one under the name of the reference, its table that under its first name; a name
with an underscore in front is never found, and without a table only an enum type has constants,
which are its own. The outcome is in every case the one answer that the rules give, so whatever is
not found is exactly one fault: an unknown type comes before a type that is no enum, that before a
hidden name, and that before a missing constant or an attribute that is none. -/
theorem registry_answers_are_sound (r : Registry) (ref : EnumConst) :
    (∀ e, (Registry.lookup.enumConst r ref).2 = .ok e →
      ∃ type first, r.Knows ref.typeName type first ∧ ¬IsHiddenConstant ref.constantName ∧
        (r.tableConstant? first ref.constantName = some e ∨ Entries.get? first r.tables = none ∧
          type.isEnumType = true ∧ e.isConstantOf type = true)) ∧
    ∃ outcome : Except LookupFault Entity,
      Registry.lookup.enumConst r ref = (r, outcome.mapError .lookup) ∧
      r.Answers ref outcome ∧ ∀ other, r.Answers ref other → other = outcome := by
  constructor
  · intro e hfound
    obtain ⟨type, first, hadmits, hentry | ⟨htable, -, hconstant⟩⟩ :=
      Registry.answers_ok_iff.mp (Registry.enumConst_eq_ok_iff.mp hfound)
    · exact ⟨type, first, hadmits.toKnows, hadmits.visible, .inl hentry⟩
    · have henum := Entity.isEnumType_of_isConstantOf hconstant
      exact ⟨type, first, hadmits.toKnows, hadmits.visible, .inr ⟨htable, henum, hconstant⟩⟩
  · obtain ⟨outcome, hanswer⟩ := r.exists_answers ref
    refine ⟨outcome, hanswer.enumConst, hanswer, fun other hother => ?_⟩
    have hsame := hother.enumConst.symm.trans hanswer.enumConst
    exact Registry.mapError_lookup_inj (Prod.mk.inj hsame).2

/-- **A foreign enum has the constants under its first name.** Take a name of a type that is no
enum type, listed as an enum, and an entry of the table under that name. A reference by the name
leads to the entry exactly if the first name of the type is listed as well and has the same entry;
so it does under the first name, and where the first name is not listed the type is no enum. -/
theorem foreign_enums_resolve_by_first_names {r : Registry} {name first c : Str}
    {type constant : Entity} (h : r.Knows name type first) (hforeign : type.isEnumType = false)
    (hlisted : name ∈ r.enumNames) (hvisible : ¬IsHiddenConstant c)
    (hentry : r.tableConstant? name c = some constant) :
    ((Registry.lookup.enumConst r ⟨name, c⟩).2 = .ok constant ↔
      first ∈ r.enumNames ∧ r.tableConstant? first c = some constant) ∧
    (first = name → (Registry.lookup.enumConst r ⟨name, c⟩).2 = .ok constant) ∧
    (first ∉ r.enumNames → (Registry.lookup.enumConst r ⟨name, c⟩).2 =
      Lookup.fault (.notAnEnum name (some type.foundName))) := by
  have hiff : (Registry.lookup.enumConst r ⟨name, c⟩).2 = .ok constant ↔
      first ∈ r.enumNames ∧ r.tableConstant? first c = some constant :=
    h.enumConst_eq_ok_iff hforeign hvisible
  refine ⟨hiff, ?_, fun hnot => ?_⟩
  · rintro rfl
    exact hiff.mpr ⟨hlisted, hentry⟩
  · have hno : ¬r.CountsAsEnum type first := fun hcounts =>
      hcounts.elim (Bool.eq_false_iff.mp hforeign) hnot
    have hanswer : r.Answers ⟨name, c⟩ (.error (.notAnEnum name (some type.foundName))) :=
      .noEnum h hno
    exact congrArg Prod.snd hanswer.enumConst

/-- A type of another system. -/
def foreignPolicy : Entity :=
  .handle 0 ⟨"foreign", "Handle"⟩ "RetentionPolicy" []

/-- The foreign type under a short name and, after it, under its full one. -/
def policies (enumNames : List Str) (tables : List (Str × List (Str × Entity))) :
    Registry :=
  (Registry.register { enumNames, tables } "Policy" foreignPolicy).register
    "java.Policy" foreignPolicy

theorem policies_knows (enumNames : List Str)
    (tables : List (Str × List (Str × Entity))) :
    (policies enumNames tables).Knows "java.Policy" foreignPolicy "Policy" :=
  ⟨rfl, [], foreignPolicy, [("java.Policy", foreignPolicy)], rfl, rfl, List.forall_mem_nil _⟩

/-- The table of a foreign enum with one constant. -/
def policyTable (name : Str) (value : Int) : Str × List (Str × Entity) :=
  (name, [("RUNTIME", .data value.toNat (.int value))])

/-- Where both names are listed with the same constant, it is found by the second one. -/
theorem listed_names_lead_to_the_constant :
    let r := policies ["Policy", "java.Policy"]
      [policyTable "Policy" 1, policyTable "java.Policy" 1]
    r.Knows "java.Policy" foreignPolicy "Policy" ∧ foreignPolicy.isEnumType = false ∧
      ("java.Policy" : Str) ∈ r.enumNames ∧ ¬IsHiddenConstant "RUNTIME" ∧
      r.tableConstant? "java.Policy" "RUNTIME" = some (.data 1 (.int 1)) ∧
      (Registry.lookup.enumConst r ⟨"java.Policy", "RUNTIME"⟩).2 = .ok (.data 1 (.int 1)) := by
  have hknows := policies_knows ["Policy", "java.Policy"]
    [policyTable "Policy" 1, policyTable "java.Policy" 1]
  refine ⟨hknows, rfl, by decide, by decide, rfl, ?_⟩
  exact (foreign_enums_resolve_by_first_names hknows rfl (by decide) (by decide) rfl).1.mpr
    ⟨by decide, rfl⟩

/-- A foreign enum that is listed under its second name only counts as no enum by that name, and if
the first name is listed too, its table is the one that counts. -/
theorem later_names_may_not_lead_to_the_constant :
    (let r := policies ["java.Policy"] [policyTable "java.Policy" 1]
     r.Holds "java.Policy" foreignPolicy ∧ foreignPolicy.isEnumType = false ∧
       ("java.Policy" : Str) ∈ r.enumNames ∧ ¬IsHiddenConstant "RUNTIME" ∧
       r.tableConstant? "java.Policy" "RUNTIME" = some (.data 1 (.int 1)) ∧
       (Registry.lookup.enumConst r ⟨"java.Policy", "RUNTIME"⟩).2 =
         Lookup.fault (.notAnEnum "java.Policy" (some "foreign.Handle"))) ∧
    (let r := policies ["Policy", "java.Policy"]
      [policyTable "Policy" 1, policyTable "java.Policy" 2]
     r.Holds "java.Policy" foreignPolicy ∧ foreignPolicy.isEnumType = false ∧
       ("java.Policy" : Str) ∈ r.enumNames ∧ ¬IsHiddenConstant "RUNTIME" ∧
       r.tableConstant? "java.Policy" "RUNTIME" = some (.data 2 (.int 2)) ∧
       (Registry.lookup.enumConst r ⟨"java.Policy", "RUNTIME"⟩).2 = .ok (.data 1 (.int 1))) := by
  refine ⟨⟨rfl, rfl, by decide, by decide, rfl, rfl⟩,
    ⟨rfl, rfl, by decide, by decide, rfl, ?_⟩⟩
  have hknows := policies_knows ["Policy", "java.Policy"]
    [policyTable "Policy" 1, policyTable "java.Policy" 2]
  exact (hknows.enumConst_eq_ok_iff rfl (by decide)).mpr ⟨by decide, rfl⟩

end AnnoTree
