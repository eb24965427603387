import AnnoTree.Proofs.Types.DottedNames

/-!
# Modules that have been loaded

Looking up names loads modules and leaves them loaded, so what a name means might depend on the
names that were looked up before. What keeps it from that is an invariant: a loaded module has the
attributes of its declaration, with the loaded modules below it in place of those of their names.
One step of loading keeps it, and with it every run of lookups.

## Main definitions

- `Modules.Reflects`: what is loaded is as it was declared.
- `Modules.IsReached`: modules after some run of lookups.

## Main statements

- `Modules.loadOne_cases`: what one step of loading can do.
- `Modules.Reflects.loadOne`: one step of loading leaves modules as they were declared.
- `Modules.IsReached.reflects`: so does every run of lookups.
-/

namespace AnnoTree

namespace Modules

variable {m : Modules} {declared : List (Str × ModuleBody)} {name own part : Str}
variable {parts above rest : List Str} {entities : List (Str × Entity)}

/-! ## §1 The effect of one step -/

/-- The modules when one more is loaded, which is not yet an attribute of the one above it. -/
def put (m : Modules) (full : Str) (entities : List (Str × Entity)) : Modules :=
  { m with loaded := Entries.insert full (Entries.ofList entities) m.loaded }

/-- The modules when one more is loaded and attached to the one above it. -/
def putBelow (m : Modules) (above : List Str) (own : Str)
    (entities : List (Str × Entity)) : Modules :=
  (m.put (dotted (above ++ [own])) entities).attach above own (dotted (above ++ [own]))

/-- **What one step of loading can do**: the module is there already, or it has a fault, or it is
put in and attached to the module above. -/
theorem loadOne_cases (m : Modules) (above : List Str) (own : Str) :
    (m.IsLoaded (dotted (above ++ [own])) ∧ m.loadOne above own = (m, .ok ())) ∨
    (∃ fault, m.loadOne above own = (m, .error fault)) ∨
    ∃ entities, ¬m.IsLoaded (dotted (above ++ [own])) ∧
      Entries.get? (dotted (above ++ [own])) m.declared = some (.attributes entities) ∧
      m.loadOne above own = (m.putBelow above own entities, .ok ()) := by
  by_cases hloaded : m.IsLoaded (dotted (above ++ [own]))
  · exact .inl ⟨hloaded, loadOne_of_isLoaded hloaded⟩
  · right
    cases hfault : m.fault? (dotted (above ++ [own])) with
    | some fault => exact .inl ⟨fault, loadOne_of_fault hloaded hfault⟩
    | none =>
      right
      rw [fault?] at hfault
      cases hbody : Entries.get? (dotted (above ++ [own])) m.declared with
      | none =>
        rw [hbody] at hfault
        cases hfault
      | some body =>
        rw [hbody] at hfault
        -- a body without a fault is one that has attributes
        cases body with
        | missing name => cases hfault
        | raises text => cases hfault
        | attributes entities =>
          have hnew := hloaded
          rw [IsLoaded, Bool.not_eq_true] at hloaded
          refine ⟨entities, hnew, rfl, ?_⟩
          simp only [loadOne, hloaded, hbody]
          rfl

/-- One module more is loaded when it is put in and attached. -/
theorem putBelow_extends (habove : above = [] ∨ m.IsLoaded (dotted above)) :
    m.Extends (m.putBelow above own entities) (· = dotted (above ++ [own])) := by
  have hput := m.insert_extends (dotted (above ++ [own])) (Entries.ofList entities)
  have hattach := attach_extends own (dotted (above ++ [own]))
    (habove.imp_right fun h => (hput.loaded _).mpr (.inl h))
  refine ⟨hattach.declared.trans hput.declared, fun name => ?_⟩
  rw [putBelow, put, hattach.loaded, hput.loaded, or_false]

theorem attributesOf_put (m : Modules) (full : Str) (entities : List (Str × Entity))
    (name : Str) :
    (m.put full entities).attributesOf name =
      if name = full then Entries.ofList entities else m.attributesOf name := by
  rw [put, attributesOf]
  split
  case isTrue heq => rw [heq, Entries.get?_insert_self, Option.getD_some]
  case isFalse hne =>
    rw [Entries.get?_insert_of_ne hne]
    rfl

/-- Attaching a module changes one attribute of the module above. -/
theorem get?_attributesOf_attach (m : Modules) (above : List Str) (own full name key : Str) :
    Entries.get? key ((m.attach above own full).attributesOf name) =
      if above ≠ [] ∧ name = dotted above ∧ key = own then some (.module full)
      else Entries.get? key (m.attributesOf name) := by
  cases above with
  | nil => rfl
  | cons first more =>
    have hattach : (m.attach (first :: more) own full).loaded =
        Entries.insert (dotted (first :: more))
          (Entries.insert own (.module full) (m.attributesOf (dotted (first :: more)))) m.loaded :=
      rfl
    rw [attributesOf, hattach]
    by_cases hname : name = dotted (first :: more)
    · rw [hname, Entries.get?_insert_self, Option.getD_some]
      by_cases hkey : key = own
      · rw [hkey, Entries.get?_insert_self, if_pos ⟨List.cons_ne_nil first more, rfl, rfl⟩]
      · rw [Entries.get?_insert_of_ne hkey, if_neg fun hall => hkey hall.2.2]
    · rw [Entries.get?_insert_of_ne hname, if_neg fun hall => hname hall.2.1]
      rfl

/-! ## §2 Modules as they were declared -/

/-- What a module with some declared attributes has under the name of a part: the module below it,
where that is loaded, and otherwise what was declared last. -/
def visible? (m : Modules) (name : Str) (entities : List (Str × Entity)) (own : Str) :
    Option Entity :=
  if m.IsLoaded (name ++ "." ++ own) then some (.module (name ++ "." ++ own))
  else Entries.get? own (Entries.ofList entities)

/-- What is loaded is as it was declared. -/
structure Reflects (declared : List (Str × ModuleBody)) (m : Modules) : Prop where
  declared_eq : m.declared = declared
  parts : ∀ name, m.IsLoaded name → ∃ parts, parts ≠ [] ∧ AreParts parts ∧ name = dotted parts
  above : ∀ parts own, parts ≠ [] → AreParts (parts ++ [own]) →
    m.IsLoaded (dotted (parts ++ [own])) → m.IsLoaded (dotted parts)
  body : ∀ name, m.IsLoaded name → ∃ entities,
    Entries.get? name declared = some (.attributes entities) ∧
      ∀ own, IsPart own → Entries.get? own (m.attributesOf name) = m.visible? name entities own

/-- Modules none of which is loaded are as they were declared. -/
theorem reflects_fresh (declared : List (Str × ModuleBody))
    (baseTypes : List (Str × Entity)) :
    Reflects declared { declared, baseTypes } := by
  have hnone : ∀ name, ¬IsLoaded { declared, baseTypes } name := fun name => Bool.false_ne_true
  exact ⟨rfl, fun name h => absurd h (hnone name), fun parts own _ _ h => absurd h (hnone _),
    fun name h => absurd h (hnone name)⟩

/-- A module that was loaded has one attribute more if the new module is right below it, and is
unchanged otherwise. -/
theorem get?_putBelow_of_ne {declaredOwn : List (Str × Entity)}
    (hparts : AreParts (above ++ [own])) (habove : above = [] ∨ m.IsLoaded (dotted above))
    (hne : parts ≠ []) (hare : AreParts (parts ++ [part]))
    (hother : dotted parts ≠ dotted (above ++ [own]))
    (hvisible : Entries.get? part (m.attributesOf (dotted parts)) =
      m.visible? (dotted parts) declaredOwn part) :
    Entries.get? part ((m.putBelow above own entities).attributesOf (dotted parts)) =
      (m.putBelow above own entities).visible? (dotted parts) declaredOwn part := by
  rw [putBelow, get?_attributesOf_attach, attributesOf_put, if_neg hother, ← putBelow, hvisible,
    visible?, visible?, ← dotted_concat hne]
  simp only [(putBelow_extends habove).loaded]
  by_cases hnew : dotted (parts ++ [part]) = dotted (above ++ [own])
  · obtain ⟨rfl, rfl⟩ := dotted_concat_inj hare hparts hnew
    rw [if_pos ⟨hne, rfl, rfl⟩, if_pos (.inr rfl)]
  · have hunchanged : ¬(above ≠ [] ∧ dotted parts = dotted above ∧ part = own) := by
      rintro ⟨-, hsame, rfl⟩
      obtain rfl := dotted_inj (areParts_append.mp hare).1 (areParts_append.mp hparts).1 hsame
      exact hnew rfl
    rw [if_neg hunchanged]
    simp only [hnew, or_false]

namespace Reflects

/-- A module that is put in has what it declares, and nothing below it is loaded. -/
theorem get?_putBelow_self (h : m.Reflects declared) (hparts : AreParts (above ++ [own]))
    (habove : above = [] ∨ m.IsLoaded (dotted above))
    (hnew : ¬m.IsLoaded (dotted (above ++ [own]))) (hpart : IsPart part) :
    Entries.get? part ((m.putBelow above own entities).attributesOf (dotted (above ++ [own]))) =
      (m.putBelow above own entities).visible? (dotted (above ++ [own])) entities part := by
  have hne : above ++ [own] ≠ [] :=
    List.append_ne_nil_of_right_ne_nil above (List.cons_ne_nil own [])
  have hare : AreParts ((above ++ [own]) ++ [part]) :=
    areParts_append.mpr ⟨hparts, areParts_singleton.mpr hpart⟩
  -- with a module below it, it would have been loaded itself
  have hnone : ¬(m.putBelow above own entities).IsLoaded (dotted ((above ++ [own]) ++ [part])) := by
    rw [(putBelow_extends habove).loaded]
    rintro (hold | heq)
    · exact hnew (h.above _ part hne hare hold)
    · have hlength := congrArg List.length (dotted_inj hare hparts heq)
      rw [List.length_append, List.length_singleton] at hlength
      omega
  rw [dotted_concat hne] at hnone
  rw [visible?, if_neg hnone, putBelow, get?_attributesOf_attach, attributesOf_put, if_pos rfl,
    if_neg]
  rintro ⟨hne', heq, -⟩
  exact hnew (heq ▸ habove.resolve_left hne')

/-- **A module that is put in and attached leaves all as it was declared.** -/
theorem putBelow (h : m.Reflects declared) (hparts : AreParts (above ++ [own]))
    (habove : above = [] ∨ m.IsLoaded (dotted above))
    (hnew : ¬m.IsLoaded (dotted (above ++ [own])))
    (hbody : Entries.get? (dotted (above ++ [own])) declared = some (.attributes entities)) :
    (m.putBelow above own entities).Reflects declared := by
  have hfull : above ++ [own] ≠ [] :=
    List.append_ne_nil_of_right_ne_nil above (List.cons_ne_nil own [])
  have hextends : m.Extends (m.putBelow above own entities) (· = dotted (above ++ [own])) :=
    putBelow_extends habove
  refine ⟨hextends.declared.trans h.declared_eq, fun name hname => ?_,
    fun parts part hne hare hname => ?_, fun name hname => ?_⟩
  · rcases (hextends.loaded _).mp hname with hold | rfl
    · exact h.parts name hold
    · exact ⟨above ++ [own], hfull, hparts, rfl⟩
  · -- above the new module stands what was loaded on the way to it
    rcases (hextends.loaded _).mp hname with hold | heq
    · exact (hextends.loaded _).mpr (.inl (h.above parts part hne hare hold))
    · obtain ⟨rfl, -⟩ := dotted_concat_inj hare hparts heq
      exact (hextends.loaded _).mpr (.inl (habove.resolve_left hne))
  · by_cases hother : name = dotted (above ++ [own])
    · subst hother
      exact ⟨entities, hbody, fun part hpart => h.get?_putBelow_self hparts habove hnew hpart⟩
    · have hold := ((hextends.loaded _).mp hname).resolve_right hother
      obtain ⟨declaredOwn, hdeclared, hvisible⟩ := h.body name hold
      obtain ⟨parts, hne, hare, rfl⟩ := h.parts name hold
      refine ⟨declaredOwn, hdeclared, fun part hpart => ?_⟩
      exact get?_putBelow_of_ne hparts habove hne
        (areParts_append.mpr ⟨hare, areParts_singleton.mpr hpart⟩) hother (hvisible part hpart)

/-- **One step of loading leaves modules as they were declared.** -/
theorem loadOne (h : m.Reflects declared) (hparts : AreParts (above ++ [own]))
    (habove : above = [] ∨ m.IsLoaded (dotted above)) :
    (m.loadOne above own).1.Reflects declared ∧
      ((m.loadOne above own).2 = .ok () →
        (m.loadOne above own).1.IsLoaded (dotted (above ++ [own]))) := by
  rcases m.loadOne_cases above own with
    ⟨hloaded, heq⟩ | ⟨fault, heq⟩ | ⟨entities, hnew, hbody, heq⟩
  · rw [heq]
    exact ⟨h, fun _ => hloaded⟩
  · rw [heq]
    exact ⟨h, fun hok => by cases hok⟩
  · rw [h.declared_eq] at hbody
    rw [heq]
    exact ⟨h.putBelow hparts habove hnew hbody,
      fun _ => ((putBelow_extends habove).loaded _).mpr (.inr rfl)⟩

/-! ## §3 Runs -/

theorem loadBelow (h : m.Reflects declared) (hparts : AreParts (above ++ rest))
    (habove : above = [] ∨ m.IsLoaded (dotted above)) :
    (m.loadBelow above rest).1.Reflects declared := by
  -- by induction on what is left of the name; the modules above are loaded on the way
  induction rest generalizing m above with
  | nil => exact h
  | cons own rest ih =>
    rw [List.append_cons] at hparts
    obtain ⟨hstep, hloaded⟩ := h.loadOne (areParts_append.mp hparts).1 habove
    rw [Modules.loadBelow]
    rcases hone : m.loadOne above own with ⟨m', fault | ⟨⟩⟩
    · rw [hone] at hstep
      exact hstep
    · rw [hone] at hstep hloaded
      exact ih hstep hparts (.inr (hloaded rfl))

theorem load (h : m.Reflects declared) (hparts : AreParts parts) :
    (m.load parts).1.Reflects declared :=
  h.loadBelow hparts (.inl rfl)

theorem loadPrefix {typeName : Str} {count : ℕ} (h : m.Reflects declared)
    (hparts : AreParts parts) : (m.loadPrefix typeName parts count).1.Reflects declared := by
  -- one load for each prefix that is tried
  induction count generalizing m with
  | zero => exact h
  | succ count ih =>
    have hload := h.load (hparts.front (List.take_prefix (count + 1) parts))
    rw [Modules.loadPrefix]
    rcases hone : m.load (parts.take (count + 1)) with ⟨m', (name | text) | ⟨⟩⟩
    · rw [hone] at hload
      dsimp only
      split
      · exact ih hload
      · exact hload
    · rw [hone] at hload
      exact hload
    · rw [hone] at hload
      exact hload

theorem resolveType (h : m.Reflects declared) (typeName : Str) :
    (m.resolveType typeName).1.Reflects declared := by
  have hfront : (m.loadPrefix typeName (partsOf typeName) (partsOf typeName).length).1.Reflects
      declared := h.loadPrefix (areParts_partsOf typeName)
  rw [resolveType_eq]
  rcases hone : m.loadPrefix typeName (partsOf typeName) (partsOf typeName).length with
    ⟨m', e | ⟨front, rest⟩⟩
  · rw [hone] at hfront
    exact hfront
  · rw [hone] at hfront
    exact hfront

end Reflects

/-- The modules after some names were looked up, one after another. -/
def lookedUp (m : Modules) (names : List Str) : Modules :=
  names.foldl (fun m name => (m.resolveType name).1) m

/-- Modules as they are after any run of lookups, none of them being loaded at its start. -/
def IsReached (declared : List (Str × ModuleBody)) (m : Modules) : Prop :=
  ∃ baseTypes names, m = lookedUp { declared, baseTypes } names

theorem Reflects.lookedUp (h : m.Reflects declared) (names : List Str) :
    (m.lookedUp names).Reflects declared := by
  induction names generalizing m with
  | nil => exact h
  | cons name names ih => exact ih (h.resolveType name)

/-- **Every run of lookups leaves what it loads as it was declared.** -/
theorem IsReached.reflects (h : m.IsReached declared) : m.Reflects declared := by
  obtain ⟨baseTypes, names, rfl⟩ := h
  exact (reflects_fresh declared baseTypes).lookedUp names

end Modules

end AnnoTree
