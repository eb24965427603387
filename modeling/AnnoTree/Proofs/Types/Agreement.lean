import AnnoTree.Proofs.Types.LongestModule
import AnnoTree.Proofs.Types.Registries

/-!
# Registries and modules agree

A class that a module defines may be looked up by loading the module, or in a registry that has it
under its full name. Both find the class, and both judge its constants alike, but for one thing: an
attribute that is a constant of the class without being listed as one is found in the registry only.

## Main definitions

- `Modules.DefinesClass`: a module defines a class, and no other module hides it.
- `Entity.ListsItsConstants`: a type lists its constants under every name that they have.

## Main statements

- `Modules.Reflects.resolveType_of_definesClass`: a class is found in the module that defines it.
- `lookups_agree_on_defined_classes`: when the two lookups have the same outcome.
-/

namespace AnnoTree

variable {m : Modules} {declared : List (Str × ModuleBody)} {name q c : Str}
variable {parts : List Str} {type e : Entity} {failure : Failure}

/-! ## §1 Classes of modules -/

namespace Modules

/-- A module defines a class of its own under a name, which is no module as well. -/
structure DefinesClass (declared : List (Str × ModuleBody)) (parts : List Str) (q : Str)
    (type : Entity) : Prop where
  ne_nil : parts ≠ []
  areParts : AreParts (parts ++ [q])
  body : ∃ entities, Entries.get? (dotted parts) declared = some (.attributes entities) ∧
    Entries.get? q (Entries.ofList entities) = some type
  typeName : type.typeName? = some ⟨dotted parts, q⟩
  noModule : ¬IsDeclared declared (dotted (parts ++ [q]))

/-- A module that loads has nothing on its way that fails. -/
theorem isReady_of_load (h : (m.load parts).2 = .ok ()) :
    ∀ i, 0 < i → i ≤ parts.length → m.IsReady (dotted (parts.take i)) := by
  rcases m.ready_or_stopsAt parts with hready | ⟨count, fault, hstops⟩
  · exact hready
  · have hload := hstops.load_of_lt hstops.within
    rw [List.take_length] at hload
    rw [hload] at h
    cases h

namespace DefinesClass

/-- The full name of the class is that of its module and its own. -/
theorem full_eq (h : DefinesClass declared parts q type) :
    (TypeName.mk (dotted parts) q).full = dotted (parts ++ [q]) :=
  (dotted_concat h.ne_nil q).symm

theorem isType (h : DefinesClass declared parts q type) : type.isType = true := by
  have hname := h.typeName
  cases type with
  | enumType t => rfl
  | classType id own attributes => rfl
  | _ => cases hname

/-- Loading the full name of the class stops behind the module. -/
theorem stopsAt (h : DefinesClass declared parts q type) (hreflects : m.Reflects declared)
    (hload : (m.load parts).2 = .ok ()) :
    m.StopsAt (parts ++ [q]) parts.length (.missing (dotted (parts ++ [q]))) := by
  have hwhole : (parts ++ [q]).take (parts.length + 1) = parts ++ [q] :=
    List.take_of_length_le (by rw [List.length_append, List.length_singleton])
  refine ⟨?_, fun i hpos hle => ?_, ?_, ?_⟩
  · rw [List.length_append, List.length_singleton]
    exact Nat.lt_succ_self parts.length
  · rw [List.take_append_of_le_length hle]
    exact isReady_of_load hload i hpos hle
  · rw [hwhole]
    exact fun hloaded => h.noModule (hreflects.isDeclared hloaded)
  · rw [hwhole]
    exact fault?_of_not_isDeclared (hreflects.declared_eq.symm ▸ h.noModule)

end DefinesClass

/-- **A class is found in the module that defines it.** -/
theorem Reflects.resolveType_of_definesClass (h : m.Reflects declared)
    (hclass : DefinesClass declared parts q type) (hload : (m.load parts).2 = .ok ()) :
    (m.resolveType (dotted (parts ++ [q]))).2 = .ok type := by
  have hparts := partsOf_dotted hclass.areParts
  have hstops := hclass.stopsAt h hload
  have hstopsName : m.StopsAt (partsOf (dotted (parts ++ [q]))) parts.length
      (.missing (dotted (parts ++ [q]))) := hparts.symm ▸ hstops
  have hwhole : (parts ++ [q]).take (parts.length + 1) = parts ++ [q] :=
    List.take_of_length_le (by rw [List.length_append, List.length_singleton])
  -- the name of the class is missing as a module, so that its last part is looked up above
  rw [hstopsName.resolveType, typeAfter_missing, hparts, hwhole,
    if_pos ⟨List.length_pos_of_ne_nil hclass.ne_nil, explains_self _⟩, List.take_left,
    List.drop_left]
  -- the module is loaded, and what it has under the name is what it declares
  have hafter : (m.after (parts ++ [q]) parts.length).Reflects declared :=
    h.load (hclass.areParts.front (List.take_prefix _ _))
  have hextends := after_extends (Nat.le_of_lt hstops.within) hstops.above
  have hloaded : (m.after (parts ++ [q]) parts.length).IsLoaded (dotted parts) := by
    refine (hextends.loaded _).mpr (.inr ⟨parts.length, ?_, Nat.le_refl _, ?_⟩)
    · exact List.length_pos_of_ne_nil hclass.ne_nil
    · rw [List.take_left]
  have hbelow : ¬(m.after (parts ++ [q]) parts.length).IsLoaded (dotted parts ++ "." ++ q) := by
    rw [← dotted_concat hclass.ne_nil]
    exact fun hyes => hclass.noModule (hafter.isDeclared hyes)
  obtain ⟨entities, hbody, hget⟩ := hclass.body
  rw [hafter.typeBelow_eq_ok_iff (areParts_append.mp hclass.areParts).2]
  rw [← hafter.declared_eq] at hbody
  exact ⟨.step (.declared hloaded hbelow hbody hget) (.done type), hclass.isType⟩

/-! ## §2 Constants -/

/-- Once a type is found, it has to be an enum type. -/
theorem enumConst_of_resolveType (h : (m.resolveType name).2 = .ok type) (c : Str) :
    (lookup.enumConst m ⟨name, c⟩).2 =
      if type.isEnumType then resolveConstant type c
      else Lookup.fault (.notAnEnum name (some type.foundName)) := by
  rcases hresolve : m.resolveType name with ⟨m', found⟩
  rw [hresolve] at h
  cases h
  simp only [Lookup.enumConst, lookup, hresolve, Lookup.andThen]
  by_cases henum : type.isEnumType = true
  · rw [if_pos henum]
    exact congrArg Prod.snd (if_pos henum)
  · rw [if_neg henum]
    exact congrArg Prod.snd (if_neg henum)

variable {n : TypeName}

theorem resolveConstant_of_hidden (htype : type.typeName? = some n) (h : IsHiddenConstant c) :
    resolveConstant type c = Lookup.fault (.accessDenied n.full c) := by
  rw [resolveConstant, htype]
  exact if_pos (startsWith_underscore_iff.mpr h)

section visible

variable (htype : type.typeName? = some n) (henum : type.isEnumType = true)
variable (h : ¬IsHiddenConstant c)
include htype henum h

theorem resolveConstant_of_constant (hconstant : type.constant? c = some e) :
    resolveConstant type c = .ok e := by
  have hstarts := mt startsWith_underscore_iff.mp h
  simp only [resolveConstant, htype, if_neg hstarts, henum, hconstant, Bool.not_true,
    Bool.false_eq_true, if_false]

theorem resolveConstant_of_attribute (hconstant : type.constant? c = none)
    (hattribute : type.attribute? c = some e) :
    resolveConstant type c = Lookup.fault (.notAConstant n.full c (some e.kindName)) := by
  have hstarts := mt startsWith_underscore_iff.mp h
  simp only [resolveConstant, htype, if_neg hstarts, henum, hconstant, hattribute, Bool.not_true,
    Bool.false_eq_true, if_false]

theorem resolveConstant_of_no_attribute (hconstant : type.constant? c = none)
    (hattribute : type.attribute? c = none) :
    resolveConstant type c = Lookup.fault (.constantNotFound n.full c) := by
  have hstarts := mt startsWith_underscore_iff.mp h
  simp only [resolveConstant, htype, if_neg hstarts, henum, hconstant, hattribute, Bool.not_true,
    Bool.false_eq_true, if_false]

end visible

/-- What an enum type does not have as a constant is a fault of the lookup. -/
theorem exists_fault_of_resolveConstant (htype : type.typeName? = some n)
    (henum : type.isEnumType = true) (hfails : resolveConstant type c = .error failure) :
    ∃ fault, failure = .lookup fault := by
  by_cases hhidden : IsHiddenConstant c
  · rw [resolveConstant_of_hidden htype hhidden] at hfails
    exact ⟨_, (Except.error.inj hfails).symm⟩
  · cases hconstant : type.constant? c with
    | some own =>
      rw [resolveConstant_of_constant htype henum hhidden hconstant] at hfails
      cases hfails
    | none =>
      cases hattribute : type.attribute? c with
      | none =>
        rw [resolveConstant_of_no_attribute htype henum hhidden hconstant hattribute] at hfails
        exact ⟨_, (Except.error.inj hfails).symm⟩
      | some e =>
        rw [resolveConstant_of_attribute htype henum hhidden hconstant hattribute] at hfails
        exact ⟨_, (Except.error.inj hfails).symm⟩

/-- What the modules do not find, once they find the type, is a fault of the lookup. -/
theorem exists_fault_of_enumConst (htype : type.typeName? = some n)
    (hfound : (m.resolveType name).2 = .ok type)
    (hfails : (lookup.enumConst m ⟨name, c⟩).2 = .error failure) :
    ∃ fault, failure = .lookup fault := by
  rw [enumConst_of_resolveType hfound] at hfails
  by_cases henum : type.isEnumType = true
  · rw [if_pos henum] at hfails
    exact exists_fault_of_resolveConstant htype henum hfails
  · rw [if_neg henum] at hfails
    exact ⟨_, (Except.error.inj hfails).symm⟩

end Modules

/-! ## §3 Agreement -/

/-- A type lists its constants under every name that they have and that may be seen. -/
def Entity.ListsItsConstants (type : Entity) : Prop :=
  ∀ c e, ¬IsHiddenConstant c → type.attribute? c = some e → e.isConstantOf type = true →
    ∃ own, type.constant? c = some own

/-- The registry of one type. -/
def Registry.single (name : Str) (type : Entity) : Registry where
  types := [(name, type)]

namespace Registry

theorem single_knows (name : Str) (type : Entity) : (single name type).Knows name type name := by
  refine ⟨?_, [], type, [], rfl, rfl, List.forall_mem_nil _⟩
  rw [Holds, single, Entries.get?, if_pos (beq_self_eq_true name)]

theorem enumConst_single (name : Str) (type : Entity) (c : Str) :
    (lookup.enumConst (single name type) ⟨name, c⟩).2 =
      if type.isEnumType then (single name type).resolveConstant type c
      else Lookup.fault (.notAnEnum name (some type.foundName)) := by
  have hknows := single_knows name type
  have hisEnum : (single name type).isEnum type = type.isEnumType := Bool.or_false _
  rw [enumConst_of_holds ⟨name, c⟩ hknows.holds, hisEnum]
  cases type.isEnumType with
  | true => rfl
  | false => rfl

end Registry

/-- **The two ways to judge a constant differ only where it is not listed.** -/
theorem resolveConstant_eq_iff {n : TypeName} (htype : type.typeName? = some n)
    (henum : type.isEnumType = true) :
    Modules.resolveConstant type c =
        (Registry.single n.full type).resolveConstant type c ↔
      (¬IsHiddenConstant c → ∀ e, type.attribute? c = some e → e.isConstantOf type = true →
        ∃ own, type.constant? c = some own) := by
  have hfirst := (Registry.single_knows n.full type).isFirst
  by_cases hhidden : IsHiddenConstant c
  · rw [Modules.resolveConstant_of_hidden htype hhidden,
      Registry.resolveConstant_of_hidden hfirst hhidden]
    exact iff_of_true rfl fun hvisible => absurd hhidden hvisible
  · rw [Registry.resolveConstant_of_no_table hfirst hhidden rfl, Registry.attributeConstant]
    cases hconstant : type.constant? c with
    | some own =>
      obtain ⟨hattribute, hown⟩ := Entity.attribute?_of_constant? hconstant
      rw [Modules.resolveConstant_of_constant htype henum hhidden hconstant, hattribute]
      exact iff_of_true (if_pos hown).symm fun _ _ _ _ => ⟨own, rfl⟩
    | none =>
      cases hattribute : type.attribute? c with
      | none =>
        rw [Modules.resolveConstant_of_no_attribute htype henum hhidden hconstant hattribute]
        exact iff_of_true rfl fun _ e' heq => absurd heq.symm (Option.some_ne_none e')
      | some e =>
        rw [Modules.resolveConstant_of_attribute htype henum hhidden hconstant hattribute]
        dsimp only
        by_cases hown : e.isConstantOf type = true
        · -- the registry finds a constant that is not listed
          rw [if_pos hown]
          refine iff_of_false (fun hsame => ?_) fun hlists => ?_
          · cases hsame
          · obtain ⟨own, heq⟩ := hlists hhidden e rfl hown
            cases heq
        · rw [if_neg hown]
          refine iff_of_true rfl fun _ e' heq hown' => ?_
          cases heq
          exact absurd hown' hown

/-- **Registries and modules agree on the classes that modules define.** Take a module that loads
and a class that it defines, after whatever was looked up before, and a registry that has nothing
but this class under its full name. The two lookups have the same outcome for every constant name,
the constant or the fault with all that it says, exactly if the class lists its constants; and the
outcome is never anything but a constant or a fault of the lookup. -/
theorem lookups_agree_on_defined_classes (hreached : m.IsReached declared)
    (hclass : Modules.DefinesClass declared parts q type) (hload : (m.load parts).2 = .ok ()) :
    (type.ListsItsConstants ↔
      ∀ c, (Modules.lookup.enumConst m ⟨Modules.dotted (parts ++ [q]), c⟩).2 =
        (Registry.lookup.enumConst (Registry.single (Modules.dotted (parts ++ [q])) type)
          ⟨Modules.dotted (parts ++ [q]), c⟩).2) ∧
    ∀ c failure,
      (Modules.lookup.enumConst m ⟨Modules.dotted (parts ++ [q]), c⟩).2 = .error failure →
        ∃ fault, failure = .lookup fault := by
  have hfound := hreached.reflects.resolveType_of_definesClass hclass hload
  refine ⟨?_, fun c failure => Modules.exists_fault_of_enumConst hclass.typeName hfound⟩
  simp only [Modules.enumConst_of_resolveType hfound, Registry.enumConst_single]
  by_cases henum : type.isEnumType = true
  · simp only [if_pos henum, ← hclass.full_eq, resolveConstant_eq_iff hclass.typeName henum]
    exact ⟨fun hlists c hvisible e => hlists c e hvisible, fun hlists c e hvisible =>
      hlists c hvisible e⟩
  · -- a class that is no enum type has no constants
    simp only [if_neg henum]
    exact iff_of_true (fun _ _ _ _ hown => absurd (Entity.isEnumType_of_isConstantOf hown) henum)
      fun _ => trivial

/-- An enum type of which one constant has two names, with a method. -/
def retention : Entity :=
  .enumType {
    id := 0
    name := ⟨"annotations.policy", "Retention"⟩
    constants := [("RUNTIME", "RUNTIME"), ("DEFAULT", "RUNTIME"), ("SOURCE", "SOURCE")]
    aliases := []
    attributes := [("describe", .function 1 "describe")] }

theorem retention_listsItsConstants : retention.ListsItsConstants := by
  intro c e _ hattribute hown
  cases hconstant : retention.constant? c with
  | some own => exact ⟨own, rfl⟩
  | none =>
    -- what is left is the method, which is no constant
    have hother : Entries.get? c [("describe", Entity.function 1 "describe")] = some e := by
      rw [retention, Entity.attribute?, EnumType.attribute?] at hattribute
      rw [retention, Entity.constant?] at hconstant
      rwa [hconstant] at hattribute
    have hmem := List.mem_singleton.mp (Entries.mem_of_get? hother)
    cases hmem
    cases hown

/-- A package and a module in it with the enum type. -/
def policyModules : List (Str × ModuleBody) :=
  [("annotations", .attributes []), ("annotations.policy", .attributes [("Retention", retention)])]

theorem policyModules_definesClass :
    Modules.DefinesClass policyModules ["annotations", "policy"] "Retention" retention := by
  refine ⟨List.cons_ne_nil _ _, fun part hmem => ?_, ⟨_, rfl, rfl⟩, rfl, by decide⟩
  simp only [List.cons_append, List.nil_append, List.mem_cons, List.not_mem_nil, or_false] at hmem
  rcases hmem with rfl | rfl | rfl
  · exact ⟨by decide, by decide, by decide⟩
  · exact ⟨by decide, by decide, by decide⟩
  · exact ⟨by decide, by decide, by decide⟩

/-- The second name of a constant leads to it in both lookups, as does the name of a method to the
same fault. -/
theorem second_names_lead_to_constants :
    let m := Modules.lookedUp { declared := policyModules } ["annotations.policy.Missing"]
    let r := Registry.single "annotations.policy.Retention" retention
    m.IsReached policyModules ∧
      Modules.DefinesClass policyModules ["annotations", "policy"] "Retention" retention ∧
      (m.load ["annotations", "policy"]).2 = .ok () ∧ retention.ListsItsConstants ∧
      ∀ c, (Modules.lookup.enumConst m ⟨"annotations.policy.Retention", c⟩).2 =
        (Registry.lookup.enumConst r ⟨"annotations.policy.Retention", c⟩).2 := by
  have hreached : (Modules.lookedUp { declared := policyModules }
      ["annotations.policy.Missing"]).IsReached policyModules := ⟨[], _, rfl⟩
  refine ⟨hreached, policyModules_definesClass, rfl, retention_listsItsConstants, ?_⟩
  exact (lookups_agree_on_defined_classes hreached policyModules_definesClass rfl).1.mp
    retention_listsItsConstants

end AnnoTree
