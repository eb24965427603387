import AnnoTree.Proofs.Types.LoadedModules
import Mathlib.Data.List.Induction

/-!
# The longest module of a name

Where all declared modules load, and a package is declared with its modules, a prefix of a name can
be loaded exactly if it is declared. So the lookup of a type stops at the longest declared prefix,
and the rest of the name is followed from there: what a module has under a part is the loaded module
below it or what was declared, and what any other entity has are its attributes. No shorter prefix
is asked when the rest leads nowhere.

## Main definitions

- `Modules.Attribute`, `Modules.Walks`: following attributes, by rules.
- `Modules.IsLongestModule`: the longest declared module of a name.

## Main statements

- `Modules.Reflects.follow?_eq_some_iff`: attributes are followed by the rules.
- `Modules.Reflects.resolveType_cases`: a type is looked up in the longest module, or not at all.
- `Modules.types_are_found_in_the_longest_module`: where the type of a name is found.
-/

namespace AnnoTree

namespace Modules

variable {m : Modules} {declared : List (Str × ModuleBody)} {name own : Str}
variable {parts others front rest path : List Str} {start e type : Entity}

/-! ## §1 Following attributes -/

/-- What an entity has under a part of a name. -/
inductive Attribute (m : Modules) (own : Str) : Entity → Entity → Prop
  | submodule {name : Str} (hloaded : m.IsLoaded name)
      (hbelow : m.IsLoaded (name ++ "." ++ own)) :
      m.Attribute own (.module name) (.module (name ++ "." ++ own))
  | declared {name : Str} {entities : List (Str × Entity)} {e : Entity}
      (hloaded : m.IsLoaded name) (hbelow : ¬m.IsLoaded (name ++ "." ++ own))
      (hbody : Entries.get? name m.declared = some (.attributes entities))
      (hget : Entries.get? own (Entries.ofList entities) = some e) :
      m.Attribute own (.module name) e
  | entity {start e : Entity} (hstart : ∀ name, start ≠ .module name)
      (hget : start.attribute? own = some e) : m.Attribute own start e

/-- What is reached by following some parts of a name, one after another. -/
inductive Walks (m : Modules) : Entity → List Str → Entity → Prop
  | done (e : Entity) : m.Walks e [] e
  | step {start next e : Entity} {own : Str} {path : List Str}
      (h : m.Attribute own start next) (hrest : m.Walks next path e) : m.Walks start (own :: path) e

theorem attributesOf_of_not_isLoaded (h : ¬m.IsLoaded name) : m.attributesOf name = [] := by
  rw [IsLoaded, Entries.hasKey, Option.not_isSome_iff_eq_none] at h
  rw [attributesOf, h]
  rfl

theorem attribute?_of_ne_module (h : ∀ name, start ≠ .module name) (own : Str) :
    m.attribute? own start = start.attribute? own := by
  cases start with
  | module name => exact absurd rfl (h name)
  | _ => rfl

namespace Reflects

theorem attribute?_module_iff (h : m.Reflects declared) (hpart : IsPart own) :
    m.attribute? own (.module name) = some e ↔ m.Attribute own (.module name) e := by
  have hattribute : m.attribute? own (.module name) = Entries.get? own (m.attributesOf name) := rfl
  rw [hattribute]
  by_cases hloaded : m.IsLoaded name
  · obtain ⟨entities, hbody, hvisible⟩ := h.body name hloaded
    rw [← h.declared_eq] at hbody
    rw [hvisible own hpart, visible?]
    by_cases hbelow : m.IsLoaded (name ++ "." ++ own)
    · rw [if_pos hbelow]
      constructor
      · rintro ⟨⟩
        exact .submodule hloaded hbelow
      · intro hattribute
        cases hattribute with
        | submodule => rfl
        | declared _ hnot => exact absurd hbelow hnot
        | entity hstart => exact absurd rfl (hstart name)
    · rw [if_neg hbelow]
      constructor
      · exact fun hget => .declared hloaded hbelow hbody hget
      · intro hattribute
        cases hattribute with
        | submodule _ hyes => exact absurd hyes hbelow
        | declared _ _ hbody' hget =>
          rw [hbody] at hbody'
          cases hbody'
          exact hget
        | entity hstart => exact absurd rfl (hstart name)
  · -- a module that is not loaded has no attributes, and no rule gives it any
    rw [attributesOf_of_not_isLoaded hloaded]
    refine iff_of_false (Option.some_ne_none e).symm fun hattribute => ?_
    cases hattribute with
    | submodule hyes => exact hloaded hyes
    | declared hyes => exact hloaded hyes
    | entity hstart => exact hstart name rfl

/-- An attribute is what the rules give. -/
theorem attribute?_eq_some_iff (h : m.Reflects declared) (hpart : IsPart own) :
    m.attribute? own start = some e ↔ m.Attribute own start e := by
  by_cases hstart : ∃ name, start = .module name
  · obtain ⟨name, rfl⟩ := hstart
    exact h.attribute?_module_iff hpart
  · have hne : ∀ name, start ≠ .module name := not_exists.mp hstart
    rw [attribute?_of_ne_module hne]
    constructor
    · exact fun hget => .entity hne hget
    · intro hattribute
      cases hattribute with
      | submodule => exact absurd rfl (hne _)
      | declared => exact absurd rfl (hne _)
      | entity _ hget => exact hget

/-- **Attributes are followed by the rules.** -/
theorem follow?_eq_some_iff (h : m.Reflects declared) (hpath : AreParts path) :
    m.follow? start path = some e ↔ m.Walks start path e := by
  -- by induction on what is left of the name, one attribute for each part
  induction path generalizing start with
  | nil =>
    rw [follow?, Option.some.injEq]
    constructor
    · rintro rfl
      exact .done start
    · rintro ⟨⟩
      rfl
  | cons own path ih =>
    have hpart := hpath own List.mem_cons_self
    have ih' : ∀ next : Entity, m.follow? next path = some e ↔ m.Walks next path e :=
      fun next => ih fun part hmem => hpath part (List.mem_cons_of_mem _ hmem)
    rw [follow?]
    cases hget : m.attribute? own start with
    | none =>
      refine iff_of_false (Option.some_ne_none e).symm ?_
      rintro (_ | ⟨hattribute, -⟩)
      rw [(h.attribute?_eq_some_iff hpart).mpr hattribute] at hget
      cases hget
    | some next =>
      dsimp only
      rw [ih' next]
      constructor
      · exact .step ((h.attribute?_eq_some_iff hpart).mp hget)
      · rintro (_ | ⟨hattribute, hrest⟩)
        rw [(h.attribute?_eq_some_iff hpart).mpr hattribute] at hget
        cases hget
        exact hrest

theorem typeBelow_eq_ok_iff (h : m.Reflects declared) (hrest : AreParts rest) :
    m.typeBelow name front rest = .ok type ↔
      m.Walks (.module (dotted front)) rest type ∧ type.isType = true := by
  rw [← h.follow?_eq_some_iff hrest, typeBelow]
  cases m.follow? (.module (dotted front)) rest with
  | none =>
    refine iff_of_false (fun hok => ?_) fun hand => (Option.some_ne_none type).symm hand.1
    cases hok
  | some e =>
    dsimp only
    rw [Option.some.injEq]
    by_cases htype : e.isType = true
    · rw [if_pos htype, Except.ok.injEq]
      exact ⟨fun heq => ⟨heq, heq ▸ htype⟩, And.left⟩
    · rw [if_neg htype]
      refine iff_of_false (fun hok => ?_) fun hand => htype (hand.1 ▸ hand.2)
      cases hok

end Reflects

/-- What is not found is a type that is not found. -/
theorem typeBelow_eq_error {failure : Failure} (h : m.typeBelow name front rest = .error failure) :
    failure = .lookup (.typeNotFound name) := by
  rw [typeBelow] at h
  split at h
  · split at h
    · cases h
    · exact (Except.error.inj h).symm
  · exact (Except.error.inj h).symm

/-! ## §2 Declared modules -/

/-- A module is declared. -/
def IsDeclared (declared : List (Str × ModuleBody)) (name : Str) : Prop :=
  Entries.hasKey name declared = true

instance (declared : List (Str × ModuleBody)) (name : Str) :
    Decidable (IsDeclared declared name) :=
  inferInstanceAs (Decidable (_ = true))

/-- All declared modules load without a fault. -/
def AllLoad (declared : List (Str × ModuleBody)) : Prop :=
  ∀ name body, Entries.get? name declared = some body → body.fault? = none

/-- A package is declared whenever a module below it is. -/
def PackagesDeclared (declared : List (Str × ModuleBody)) : Prop :=
  ∀ parts own, parts ≠ [] → AreParts (parts ++ [own]) →
    IsDeclared declared (dotted (parts ++ [own])) → IsDeclared declared (dotted parts)

/-- The first parts of a name are its longest prefix that is a declared module. -/
structure IsLongestModule (declared : List (Str × ModuleBody)) (parts front rest : List Str) :
    Prop where
  split : parts = front ++ rest
  ne_nil : front ≠ []
  isDeclared : IsDeclared declared (dotted front)
  longest : ∀ longer, longer <+: parts → IsDeclared declared (dotted longer) →
    longer.length ≤ front.length

/-- A name has one longest module at most. -/
theorem IsLongestModule.unique {front' rest' : List Str}
    (h : IsLongestModule declared parts front rest)
    (h' : IsLongestModule declared parts front' rest') : front = front' ∧ rest = rest' := by
  have hbegins : front <+: parts := ⟨rest, h.split.symm⟩
  have hbegins' : front' <+: parts := ⟨rest', h'.split.symm⟩
  have hlength : front.length = front'.length :=
    Nat.le_antisymm (h'.longest front hbegins h.isDeclared)
      (h.longest front' hbegins' h'.isDeclared)
  exact List.append_inj (h.split.symm.trans h'.split) hlength

/-- The packages above a declared module are declared, up to the top. -/
theorem PackagesDeclared.above (h : PackagesDeclared declared) (hparts : AreParts parts)
    (hbegins : others <+: parts) (hne : others ≠ [])
    (hdeclared : IsDeclared declared (dotted parts)) : IsDeclared declared (dotted others) := by
  obtain ⟨more, rfl⟩ := hbegins
  -- one part is taken off at a time
  induction more using List.reverseRecOn with
  | nil => rwa [List.append_nil] at hdeclared
  | append_singleton more own ih =>
    rw [← List.append_assoc] at hparts hdeclared
    have hfront : others ++ more ≠ [] := List.append_ne_nil_of_left_ne_nil hne more
    exact ih (areParts_append.mp hparts).1 (h _ own hfront hparts hdeclared)

theorem fault?_eq_none_iff (hload : AllLoad m.declared) :
    m.fault? name = none ↔ IsDeclared m.declared name := by
  rw [fault?, IsDeclared, Entries.hasKey]
  cases hbody : Entries.get? name m.declared with
  | none => exact iff_of_false (Option.some_ne_none _) Bool.false_ne_true
  | some body => exact iff_of_true (hload name body hbody) rfl

/-- Where all modules load, what is not declared is all that is missing. -/
theorem fault?_of_not_isDeclared (h : ¬IsDeclared m.declared name) :
    m.fault? name = some (.missing name) := by
  rw [IsDeclared, Entries.hasKey, Option.not_isSome_iff_eq_none] at h
  rw [fault?, h]

namespace Reflects

theorem isDeclared (h : m.Reflects declared) (hloaded : m.IsLoaded name) :
    IsDeclared declared name := by
  obtain ⟨entities, hbody, -⟩ := h.body name hloaded
  rw [IsDeclared, Entries.hasKey, hbody]
  rfl

/-- Where all modules load, the ready ones are those that are declared. -/
theorem isReady_iff (h : m.Reflects declared) (hload : AllLoad declared) :
    m.IsReady name ↔ IsDeclared declared name := by
  have hfault : m.fault? name = none ↔ IsDeclared declared name := by
    have hiff : m.fault? name = none ↔ IsDeclared m.declared name :=
      fault?_eq_none_iff (h.declared_eq.symm ▸ hload)
    rwa [h.declared_eq] at hiff
  rw [IsReady, hfault]
  exact or_iff_right_of_imp h.isDeclared

end Reflects

/-! ## §3 The longest module of a name -/

theorem take_succ_ne_nil {count : ℕ} (h : count < parts.length) : parts.take (count + 1) ≠ [] := by
  apply List.ne_nil_of_length_pos
  rw [List.length_take_of_le h]
  exact Nat.succ_pos count

/-- Where a prefix of a name is declared, so are the shorter ones that are not empty. -/
theorem PackagesDeclared.take {count : ℕ} (h : PackagesDeclared declared) (hparts : AreParts parts)
    (hbegins : others <+: parts) (hlt : count < others.length)
    (hdeclared : IsDeclared declared (dotted others)) :
    IsDeclared declared (dotted (parts.take (count + 1))) := by
  have hfront : parts.take (count + 1) <+: others := by
    rw [List.prefix_iff_eq_take.mp hbegins]
    exact List.take_prefix_take_left hlt
  have hne : parts.take (count + 1) ≠ [] :=
    take_succ_ne_nil (Nat.lt_of_lt_of_le hlt hbegins.length_le)
  exact h.above (hparts.front hbegins) hfront hne hdeclared

/-- The first parts of a name are its longest module when they are declared and one part more is
not. -/
theorem isLongestModule_take {count : ℕ} (hpackages : PackagesDeclared declared)
    (hparts : AreParts parts) (hlength : count < parts.length) (hpos : 0 < count)
    (hdeclared : IsDeclared declared (dotted (parts.take count)))
    (hnot : ¬IsDeclared declared (dotted (parts.take (count + 1)))) :
    IsLongestModule declared parts (parts.take count) (parts.drop count) := by
  have htake : (parts.take count).length = count := List.length_take_of_le (Nat.le_of_lt hlength)
  refine ⟨(List.take_append_drop count parts).symm, ?_, hdeclared, fun longer hbegins hyes => ?_⟩
  · apply List.ne_nil_of_length_pos
    rwa [htake]
  · rw [htake]
    by_contra hlt
    -- then one part more would be a package above the longer module
    exact hnot (hpackages.take hparts hbegins (Nat.lt_of_not_le hlt) hyes)

/-- Without a declared module under the first part, no prefix of a name is a module. -/
theorem not_isLongestModule (hpackages : PackagesDeclared declared) (hparts : AreParts parts)
    (hnot : ¬IsDeclared declared (dotted (parts.take 1))) :
    ¬IsLongestModule declared parts front rest := by
  intro hlongest
  have hbegins : front <+: parts := ⟨rest, hlongest.split.symm⟩
  have hpos : 0 < front.length := List.length_pos_of_ne_nil hlongest.ne_nil
  exact hnot (hpackages.take hparts hbegins hpos hlongest.isDeclared)

/-! ## §4 Where types are looked up -/

/-- That a module is missing explains itself. -/
theorem explains_self (name : Str) : explains name name = true :=
  List.isPrefixOf_iff_prefix.mpr List.prefix_rfl

namespace Reflects

/-- Where all modules load, loading stops at a module that is not declared, and for that reason. -/
theorem of_stopsAt {count : ℕ} {fault : LoadFault} (h : m.Reflects declared)
    (hload : AllLoad declared) (hstops : m.StopsAt parts count fault) :
    ¬IsDeclared declared (dotted (parts.take (count + 1))) ∧
      fault = .missing (dotted (parts.take (count + 1))) := by
  have hnot : ¬IsDeclared declared (dotted (parts.take (count + 1))) := by
    rw [← h.isReady_iff hload, IsReady, hstops.fails, not_or]
    exact ⟨hstops.notLoaded, Option.some_ne_none fault⟩
  have hmissing := fault?_of_not_isDeclared (h.declared_eq.symm ▸ hnot)
  exact ⟨hnot, Option.some.inj (hstops.fails.symm.trans hmissing)⟩

/-- **A type is looked up in the longest declared module of its name**, which is loaded for it, and
not at all if there is none. -/
theorem resolveType_cases (h : m.Reflects declared) (hload : AllLoad declared)
    (hpackages : PackagesDeclared declared) (name : Str) :
    (∃ front rest, IsLongestModule declared (partsOf name) front rest ∧
      (∀ i, 0 < i → i ≤ front.length → m.IsReady (dotted ((partsOf name).take i))) ∧
      m.resolveType name = (m.after (partsOf name) front.length,
        (m.after (partsOf name) front.length).typeBelow name front rest)) ∨
    ((∀ front rest, ¬IsLongestModule declared (partsOf name) front rest) ∧
      m.resolveType name = (m, Lookup.fault (.typeNotFound name))) := by
  have hparts := areParts_partsOf name
  rcases m.ready_or_stopsAt (partsOf name) with hready | ⟨count, fault, hstops⟩
  · -- the whole name is a module, or it has no parts
    rcases Nat.eq_zero_or_pos (partsOf name).length with hzero | hpos
    · have hnil := List.eq_nil_of_length_eq_zero hzero
      refine .inr ⟨fun front rest hlongest => ?_, ?_⟩
      · have hsplit := hlongest.split
        rw [hnil] at hsplit
        exact hlongest.ne_nil (List.append_eq_nil_iff.mp hsplit.symm).1
      · rw [resolveType_of_isReady hready, hnil]
        rfl
    · have hdeclared := (h.isReady_iff hload).mp (hready _ hpos (Nat.le_refl _))
      rw [List.take_length] at hdeclared
      refine .inl ⟨partsOf name, [], ⟨(List.append_nil _).symm, List.ne_nil_of_length_pos hpos,
        hdeclared, fun longer hbegins _ => hbegins.length_le⟩, hready, ?_⟩
      rw [resolveType_of_isReady hready]
      rfl
  · obtain ⟨hnot, rfl⟩ := h.of_stopsAt hload hstops
    rw [hstops.resolveType, typeAfter_missing]
    rcases Nat.eq_zero_or_pos count with rfl | hpos
    · right
      refine ⟨fun front rest => not_isLongestModule hpackages hparts hnot, ?_⟩
      rw [if_neg fun hand => Nat.lt_irrefl 0 hand.1]
      rfl
    · left
      have hdeclared := (h.isReady_iff hload).mp (hstops.above count hpos (Nat.le_refl count))
      have hlongest := isLongestModule_take hpackages hparts hstops.within hpos hdeclared hnot
      have htake : ((partsOf name).take count).length = count :=
        List.length_take_of_le (Nat.le_of_lt hstops.within)
      refine ⟨_, _, hlongest, ?_, ?_⟩
      · rw [htake]
        exact hstops.above
      · rw [htake, if_pos ⟨hpos, explains_self _⟩]

theorem resolveType_eq_ok_iff (h : m.Reflects declared) (hload : AllLoad declared)
    (hpackages : PackagesDeclared declared) :
    (m.resolveType name).2 = .ok type ↔
      ∃ front rest, IsLongestModule declared (partsOf name) front rest ∧
        (m.resolveType name).1.Walks (.module (dotted front)) rest type ∧ type.isType = true := by
  have hafter := h.resolveType name
  rcases h.resolveType_cases hload hpackages name with
    ⟨front, rest, hlongest, -, hresolve⟩ | ⟨hnone, hresolve⟩
  · have hparts := areParts_partsOf name
    rw [hlongest.split] at hparts
    rw [hresolve] at hafter ⊢
    rw [hafter.typeBelow_eq_ok_iff (areParts_append.mp hparts).2]
    constructor
    · exact fun hwalks => ⟨front, rest, hlongest, hwalks⟩
    · rintro ⟨front', rest', hlongest', hwalks⟩
      obtain ⟨rfl, rfl⟩ := hlongest.unique hlongest'
      exact hwalks
  · rw [hresolve]
    constructor
    · intro hok
      cases hok
    · rintro ⟨front, rest, hlongest, -⟩
      exact absurd hlongest (hnone front rest)

theorem resolveType_eq_error {failure : Failure} (h : m.Reflects declared)
    (hload : AllLoad declared) (hpackages : PackagesDeclared declared)
    (hfails : (m.resolveType name).2 = .error failure) :
    failure = .lookup (.typeNotFound name) := by
  rcases h.resolveType_cases hload hpackages name with
    ⟨front, rest, -, -, hresolve⟩ | ⟨-, hresolve⟩
  · rw [hresolve] at hfails
    exact typeBelow_eq_error hfails
  · rw [hresolve] at hfails
    exact (Except.error.inj hfails).symm

/-- What is loaded for a name are its longest module and the packages above it. -/
theorem isLoaded_resolveType {module : Str} (h : m.Reflects declared)
    (hload : AllLoad declared) (hpackages : PackagesDeclared declared)
    (hlongest : IsLongestModule declared (partsOf name) front rest) :
    (m.resolveType name).1.IsLoaded module ↔
      m.IsLoaded module ∨ ∃ above, above ≠ [] ∧ above <+: front ∧ module = dotted above := by
  rcases h.resolveType_cases hload hpackages name with
    ⟨front', rest', hlongest', hready, hresolve⟩ | ⟨hnone, -⟩
  · obtain ⟨rfl, rfl⟩ := hlongest'.unique hlongest
    have hlength : front'.length ≤ (partsOf name).length :=
      List.IsPrefix.length_le ⟨rest', hlongest'.split.symm⟩
    -- the first parts of the name, up to its longest module, are those of the module
    have htake : ∀ i, i ≤ front'.length → (partsOf name).take i = front'.take i := by
      intro i hle
      rw [hlongest'.split, List.take_append_of_le_length hle]
    rw [hresolve, (after_extends hlength hready).loaded]
    apply or_congr_right
    constructor
    · rintro ⟨i, hpos, hle, rfl⟩
      refine ⟨front'.take i, ?_, List.take_prefix i front', congrArg dotted (htake i hle)⟩
      exact List.ne_nil_of_length_pos (by rwa [List.length_take_of_le hle])
    · rintro ⟨above, hne, hbegins, rfl⟩
      refine ⟨above.length, List.length_pos_of_ne_nil hne, hbegins.length_le, ?_⟩
      rw [htake _ hbegins.length_le, ← List.prefix_iff_eq_take.mp hbegins]
  · exact absurd hlongest (hnone front rest)

/-- Names of the same parts load the same modules. -/
theorem resolveType_fst_congr {other : Str} (h : m.Reflects declared)
    (hload : AllLoad declared) (hpackages : PackagesDeclared declared)
    (hsame : partsOf name = partsOf other) :
    (m.resolveType name).1 = (m.resolveType other).1 := by
  rcases h.resolveType_cases hload hpackages name with
    ⟨front, rest, hlongest, -, hresolve⟩ | ⟨hnone, hresolve⟩
  · rcases h.resolveType_cases hload hpackages other with
      ⟨front', rest', hlongest', -, hresolve'⟩ | ⟨hnone', -⟩
    · rw [← hsame] at hlongest'
      obtain ⟨rfl, rfl⟩ := hlongest.unique hlongest'
      rw [hresolve, hresolve', hsame]
    · exact absurd (hsame ▸ hlongest) (hnone' front rest)
  · rcases h.resolveType_cases hload hpackages other with
      ⟨front', rest', hlongest', -, -⟩ | ⟨-, hresolve'⟩
    · exact absurd (hsame.symm ▸ hlongest') (hnone front' rest')
    · rw [hresolve, hresolve']

end Reflects

/-! ## §5 Main statement -/

/-- **The type of a name is what its longest declared module leads to.** Where all declared modules
load and packages are declared with their modules, and after whatever was looked up before, a name
has a type exactly if following the rest of it from its longest declared module reaches one, step by
step. In every other case the name itself is reported as not found: no shorter prefix is asked. The
longest module and the packages above it are loaded then, and nothing else is; two names that are
split into the same parts load the same and have the same type. -/
theorem types_are_found_in_the_longest_module (hreached : m.IsReached declared)
    (hload : AllLoad declared) (hpackages : PackagesDeclared declared) :
    (∀ name,
      (∀ type, (m.resolveType name).2 = .ok type ↔
        ∃ front rest, IsLongestModule declared (partsOf name) front rest ∧
          (m.resolveType name).1.Walks (.module (dotted front)) rest type ∧ type.isType = true) ∧
      (∀ failure, (m.resolveType name).2 = .error failure →
        failure = .lookup (.typeNotFound name)) ∧
      ∀ front rest, IsLongestModule declared (partsOf name) front rest → ∀ module,
        (m.resolveType name).1.IsLoaded module ↔
          m.IsLoaded module ∨ ∃ above, above ≠ [] ∧ above <+: front ∧ module = dotted above) ∧
    ∀ name other, partsOf name = partsOf other →
      (m.resolveType name).1 = (m.resolveType other).1 ∧
        ∀ type, (m.resolveType name).2 = .ok type ↔ (m.resolveType other).2 = .ok type := by
  have hreflects := hreached.reflects
  refine ⟨fun name => ⟨fun type => ?_, fun failure hfails => ?_,
    fun front rest hlongest module => ?_⟩, fun name other hsame => ?_⟩
  · exact hreflects.resolveType_eq_ok_iff hload hpackages
  · exact hreflects.resolveType_eq_error hload hpackages hfails
  · exact hreflects.isLoaded_resolveType hload hpackages hlongest
  · have hstate := hreflects.resolveType_fst_congr hload hpackages hsame
    refine ⟨hstate, fun type => ?_⟩
    rw [hreflects.resolveType_eq_ok_iff hload hpackages,
      hreflects.resolveType_eq_ok_iff hload hpackages, hsame, hstate]

/-- A class inside of another one. -/
def innerClass : Entity :=
  .classType 1 ⟨"pkg", "Outer.Inner"⟩ []

/-- A package with a class that has one inside, and with a class under the name of a module. -/
def packageModules : List (Str × ModuleBody) :=
  [("pkg", .attributes [("Outer", .classType 0 ⟨"pkg", "Outer"⟩ [("Inner", innerClass)]),
      ("sub", .classType 2 ⟨"pkg", "sub"⟩ [])]),
    ("pkg.sub", .attributes [])]

theorem isDeclared_packageModules :
    IsDeclared packageModules name ↔ name = "pkg" ∨ name = "pkg.sub" := by
  rw [IsDeclared, Entries.hasKey, Option.isSome_iff_exists, ← Entries.mem_keys_iff]
  simp [Entries.keys, packageModules]

theorem allLoad_packageModules : AllLoad packageModules := by
  intro name body hget
  have hmem := Entries.mem_of_get? hget
  rw [packageModules, List.mem_pair, Prod.mk.injEq, Prod.mk.injEq] at hmem
  rcases hmem with ⟨-, rfl⟩ | ⟨-, rfl⟩
  · rfl
  · rfl

theorem packagesDeclared_packageModules : PackagesDeclared packageModules := by
  intro parts own hne hparts hdeclared
  rw [isDeclared_packageModules] at hdeclared ⊢
  have hsplit := partsOf_dotted hparts
  rcases hdeclared with heq | heq
  · -- a module that is its own top has nothing above it
    have hone : partsOf "pkg" = [] ++ [("pkg" : Str)] := by decide
    rw [heq, hone] at hsplit
    exact absurd (List.append_inj' hsplit rfl).1.symm hne
  · have htwo : partsOf "pkg.sub" = [("pkg" : Str)] ++ [("sub" : Str)] := by decide
    rw [heq, htwo] at hsplit
    rw [← (List.append_inj' hsplit rfl).1]
    exact .inl rfl

/-- A class inside of another one is found under both spellings of its name, and a module is found
in place of a class of its name, so that there is no type. -/
theorem inner_class_is_found :
    let m := lookedUp { declared := packageModules } ["pkg.sub.Missing"]
    m.IsReached packageModules ∧ AllLoad packageModules ∧ PackagesDeclared packageModules ∧
      (m.resolveType "pkg$Outer$Inner").2 = .ok innerClass ∧
      ∀ type, (m.resolveType "pkg.sub").2 ≠ .ok type := by
  have hreached : (lookedUp { declared := packageModules } ["pkg.sub.Missing"]).IsReached
      packageModules := ⟨[], ["pkg.sub.Missing"], rfl⟩
  obtain ⟨-, hsame⟩ := types_are_found_in_the_longest_module hreached allLoad_packageModules
    packagesDeclared_packageModules
  refine ⟨hreached, allLoad_packageModules, packagesDeclared_packageModules, ?_, ?_⟩
  · have hparts : partsOf "pkg.Outer.Inner" = partsOf "pkg$Outer$Inner" := by decide
    exact ((hsame "pkg.Outer.Inner" "pkg$Outer$Inner" hparts).2 innerClass).mp rfl
  · intro type htype
    cases htype

end Modules

end AnnoTree
