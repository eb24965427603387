import AnnoTree.Proofs.Entries
import AnnoTree.Types.Modules
import Mathlib.Data.Nat.Find
import Mathlib.Tactic.Common

/-!
# Types in modules that load and in modules that fail

Loading the module of a dotted name loads those above it first, so it goes well down to some module
and stops there, or goes well to the end. Where it stops depends on the modules and the name only:
every longer prefix of the name stops at the same module with the same fault. What is left of a
name is then looked up, or not, according to that fault alone.

## Main definitions

- `Modules.IsReady`: a module that is loaded or can be.
- `Modules.StopsAt`: where loading the module of a dotted name stops, with which fault.

## Main statements

- `Modules.ready_or_stopsAt`: a name is ready from top to end, or loading stops somewhere.
- `Modules.StopsAt.resolveType`: what becomes of a type name whose loading stops.
- `Modules.resolveType_again`: a name that was looked up means the same the next time.
- `Modules.failing_modules_are_passed_on_iff`: a failure of a module is passed on exactly if it is
  not that of a missing module.
-/

namespace AnnoTree

open CodePoint (char)

/-- The fault of a module when it is loaded. -/
def ModuleBody.fault? : ModuleBody → Option LoadFault
  | .attributes _ => none
  | .missing name => some (.missing name)
  | .raises text => some (.raised text)

namespace Modules

variable {m m' : Modules} {name typeName own : Str} {parts above : List Str}
variable {count : ℕ} {fault : LoadFault}

/-! ## §1 Where loading stops -/

/-- A module has been loaded. -/
def IsLoaded (m : Modules) (name : Str) : Prop :=
  Entries.hasKey name m.loaded = true

instance (m : Modules) (name : Str) : Decidable (m.IsLoaded name) :=
  inferInstanceAs (Decidable (_ = true))

/-- The fault of a module that has not been loaded, when it is. -/
def fault? (m : Modules) (name : Str) : Option LoadFault :=
  match Entries.get? name m.declared with
  | none => some (.missing name)
  | some body => body.fault?

/-- A module has been loaded or can be. -/
def IsReady (m : Modules) (name : Str) : Prop :=
  m.IsLoaded name ∨ m.fault? name = none

/-- Loading goes well for the first `count` parts of a dotted name, and stops with a fault at the
module of one part more. -/
structure StopsAt (m : Modules) (parts : List Str) (count : ℕ) (fault : LoadFault) : Prop where
  within : count < parts.length
  above : ∀ i, 0 < i → i ≤ count → m.IsReady (dotted (parts.take i))
  notLoaded : ¬m.IsLoaded (dotted (parts.take (count + 1)))
  fails : m.fault? (dotted (parts.take (count + 1))) = some fault

/-- Every prefix of a name is ready, or loading stops at the first one that is not. -/
theorem ready_or_stopsAt (m : Modules) (parts : List Str) :
    (∀ i, 0 < i → i ≤ parts.length → m.IsReady (dotted (parts.take i))) ∨
      ∃ count fault, m.StopsAt parts count fault := by
  classical
  by_cases hready : ∀ i, 0 < i → i ≤ parts.length → m.IsReady (dotted (parts.take i))
  · exact .inl hready
  · right
    push Not at hready
    -- it stops at the shortest prefix that is not ready
    obtain ⟨hpos, hlength, hnot⟩ := Nat.find_spec hready
    obtain ⟨count, hcount⟩ := Nat.exists_eq_add_of_lt hpos
    rw [Nat.zero_add] at hcount
    rw [hcount] at hlength hnot
    have hmin : ∀ i, 0 < i → i ≤ count → m.IsReady (dotted (parts.take i)) := by
      intro i hi hle
      by_contra hbad
      exact Nat.find_min hready (by omega) ⟨hi, by omega, hbad⟩
    simp only [IsReady, not_or] at hnot
    obtain ⟨fault, hfault⟩ := Option.ne_none_iff_exists'.mp hnot.2
    exact ⟨count, fault, hlength, hmin, hnot.1, hfault⟩

/-! ## §2 Dotted names -/

theorem dotted_concat (h : parts ≠ []) (own : Str) :
    dotted (parts ++ [own]) = dotted parts ++ "." ++ own := by
  induction parts with
  | nil => exact absurd rfl h
  | cons first rest ih =>
    cases rest with
    | nil => rfl
    | cons second more =>
      have hrest := ih (List.cons_ne_nil second more)
      simp only [dotted, List.cons_append, Text.joinWith] at hrest ⊢
      rw [hrest]
      simp only [Str.append_assoc]

theorem dotted_take_succ {i : ℕ} (hi : 0 < i) (hlength : i < parts.length) :
    dotted (parts.take (i + 1)) = dotted (parts.take i) ++ "." ++ parts[i] := by
  have hne : parts.take i ≠ [] := by
    rw [ne_eq, List.take_eq_nil_iff]
    rintro (rfl | rfl)
    · exact absurd hi (Nat.lt_irrefl 0)
    · exact absurd hlength (Nat.not_lt_zero i)
  rw [List.take_succ_eq_append_getElem hlength, dotted_concat hne]

/-- The name of a module below goes on with a dot. -/
theorem dotted_take_extends {i j : ℕ} (hi : 0 < i) (hij : i < j) (hj : j ≤ parts.length) :
    ∃ more, (dotted (parts.take j)).toList = (dotted (parts.take i)).toList ++ char '.' :: more := by
  induction j, hij using Nat.le_induction with
  | base =>
    rw [dotted_take_succ hi hj]
    exact ⟨(parts[i]).toList, by simp⟩
  | succ j hij ih =>
    obtain ⟨more, hmore⟩ := ih (Nat.le_of_succ_le hj)
    rw [dotted_take_succ (Nat.zero_lt_of_lt hij) hj]
    exact ⟨more ++ char '.' :: (parts[j]).toList, by simp [hmore]⟩

theorem dotted_take_ne {i j : ℕ} (hi : 0 < i) (hij : i < j) (hj : j ≤ parts.length) :
    dotted (parts.take j) ≠ dotted (parts.take i) := by
  intro heq
  obtain ⟨more, hmore⟩ := dotted_take_extends hi hij hj
  rw [heq] at hmore
  simp at hmore

/-- What explains that a module is missing explains it for those below. -/
theorem explains_of_le {missing : Str} {i j : ℕ} (hi : 0 < i) (hij : i ≤ j)
    (hj : j ≤ parts.length) (h : explains (dotted (parts.take i)) missing = true) :
    explains (dotted (parts.take j)) missing = true := by
  rcases Nat.eq_or_lt_of_le hij with rfl | hlt
  · exact h
  · obtain ⟨more, hmore⟩ := dotted_take_extends hi hlt hj
    rw [explains, List.isPrefixOf_iff_prefix] at h ⊢
    rw [hmore]
    exact h.trans (List.prefix_append _ _)

/-! ## §3 Loading in steps -/

/-- Of two collections of the same modules, the later one has loaded also those of some names. -/
structure Extends (m m' : Modules) (new : Str → Prop) : Prop where
  declared : m'.declared = m.declared
  loaded : ∀ name, m'.IsLoaded name ↔ m.IsLoaded name ∨ new name

theorem Extends.fault?_eq {new : Str → Prop} (h : m.Extends m' new) (name : Str) :
    m'.fault? name = m.fault? name := by
  rw [fault?, fault?, h.declared]

theorem Extends.isReady {new : Str → Prop} (h : m.Extends m' new) (hready : m.IsReady name) :
    m'.IsReady name := by
  rcases hready with hloaded | hfault
  · exact .inl ((h.loaded name).mpr (.inl hloaded))
  · exact .inr ((h.fault?_eq name).trans hfault)

theorem loadOne_of_isLoaded (h : m.IsLoaded (dotted (above ++ [own]))) :
    m.loadOne above own = (m, .ok ()) := by
  rw [IsLoaded] at h
  simp [loadOne, h]

theorem loadOne_of_fault (hloaded : ¬m.IsLoaded (dotted (above ++ [own])))
    (hfault : m.fault? (dotted (above ++ [own])) = some fault) :
    m.loadOne above own = (m, .error fault) := by
  rw [IsLoaded, Bool.not_eq_true] at hloaded
  rw [fault?] at hfault
  simp only [loadOne, hloaded]
  cases hbody : Entries.get? (dotted (above ++ [own])) m.declared with
  | none =>
    rw [hbody] at hfault
    cases hfault
    rfl
  | some body =>
    rw [hbody] at hfault
    cases body with
    | attributes entities => cases hfault
    | missing name =>
      cases hfault
      rfl
    | raises text =>
      cases hfault
      rfl

/-- A module is put in with its attributes. -/
theorem insert_extends (m : Modules) (full : Str) (attributes : List (Str × Entity)) :
    m.Extends { m with loaded := Entries.insert full attributes m.loaded } (· = full) := by
  refine ⟨rfl, fun name => ?_⟩
  rw [IsLoaded, IsLoaded, Entries.hasKey_insert, or_comm]

/-- A module becomes an attribute of one that is loaded already. -/
theorem attach_extends (own full : Str) (h : above = [] ∨ m.IsLoaded (dotted above)) :
    m.Extends (m.attach above own full) fun _ => False := by
  rw [attach]
  split
  · exact ⟨rfl, fun name => (or_false _).symm.to_iff⟩
  case isFalse hne =>
    have habove := h.resolve_left fun hnil => hne (List.isEmpty_iff.mpr hnil)
    refine ⟨rfl, fun name => ((m.insert_extends _ _).loaded name).trans ?_⟩
    rw [or_false]
    exact or_iff_left_of_imp fun heq => heq ▸ habove

/-- **One step down**: a module that is ready is loaded after it, and nothing else is that was
not. -/
theorem loadOne_of_isReady (habove : above = [] ∨ m.IsLoaded (dotted above))
    (h : m.IsReady (dotted (above ++ [own]))) :
    ∃ m', m.loadOne above own = (m', .ok ()) ∧ m.Extends m' (· = dotted (above ++ [own])) := by
  by_cases hloaded : m.IsLoaded (dotted (above ++ [own]))
  · refine ⟨m, loadOne_of_isLoaded hloaded, rfl, fun name => ?_⟩
    exact (or_iff_left_of_imp fun heq => heq ▸ hloaded).symm
  · have hfault := h.resolve_left hloaded
    rw [fault?] at hfault
    rw [IsLoaded, Bool.not_eq_true] at hloaded
    cases hbody : Entries.get? (dotted (above ++ [own])) m.declared with
    | none =>
      rw [hbody] at hfault
      cases hfault
    | some body =>
      rw [hbody] at hfault
      cases body with
      | missing name => cases hfault
      | raises text => cases hfault
      | attributes entities =>
        -- the module is put in, and then attached to the one above it
        have hput := m.insert_extends (dotted (above ++ [own])) (Entries.ofList entities)
        have hattach := attach_extends own (dotted (above ++ [own]))
          (habove.imp_right fun h => (hput.loaded _).mpr (.inl h))
        refine ⟨_, ?_, hattach.declared.trans hput.declared, fun name => ?_⟩
        · simp only [loadOne, hloaded, hbody]
          rfl
        · rw [hattach.loaded, hput.loaded, or_false]

/-! ## §4 Loading from the top -/

theorem loadBelow_append (m : Modules) (above front rest : List Str) :
    m.loadBelow above (front ++ rest) =
      match m.loadBelow above front with
      | (m', .ok ()) => m'.loadBelow (above ++ front) rest
      | (m', .error f) => (m', .error f) := by
  induction front generalizing m above with
  | nil => simp [loadBelow]
  | cons own front ih =>
    rw [List.cons_append, loadBelow, loadBelow]
    rcases m.loadOne above own with ⟨m', f | -⟩
    · rfl
    · simp only [ih, List.append_assoc, List.singleton_append]

/-- Loading goes on below the part of a name that is loaded. -/
theorem load_append {front : List Str} (rest : List Str)
    (h : m.load front = (m', .ok ())) : m.load (front ++ rest) = m'.loadBelow front rest := by
  rw [load, loadBelow_append, ← load, h, List.nil_append]

/-- The module above the next part of a name is loaded, if it is not the top. -/
theorem eq_nil_or_isLoaded (hloaded : 0 < count → m.IsLoaded (dotted (parts.take count))) :
    parts.take count = [] ∨ m.IsLoaded (dotted (parts.take count)) := by
  rcases Nat.eq_zero_or_pos count with rfl | hpos
  · exact .inl (List.take_zero)
  · exact .inr (hloaded hpos)

/-- **Modules that are ready load from the top**, and no others are loaded by it. -/
theorem load_of_isReady (hlength : count ≤ parts.length)
    (h : ∀ i, 0 < i → i ≤ count → m.IsReady (dotted (parts.take i))) :
    ∃ m', m.load (parts.take count) = (m', .ok ()) ∧
      m.Extends m' fun name => ∃ i, 0 < i ∧ i ≤ count ∧ name = dotted (parts.take i) := by
  -- by induction on the number of parts, each of which stands below those that were loaded
  induction count with
  | zero =>
    refine ⟨m, rfl, rfl, fun name => (or_iff_left ?_).symm⟩
    rintro ⟨i, hpos, hle, -⟩
    omega
  | succ count ih =>
    obtain ⟨m₁, hload, hextends⟩ := ih (Nat.le_of_succ_le hlength)
      fun i hpos hle => h i hpos (Nat.le_succ_of_le hle)
    have htake := List.take_succ_eq_append_getElem hlength
    have hready := hextends.isReady (h (count + 1) (Nat.succ_pos count) (Nat.le_refl _))
    have habove := eq_nil_or_isLoaded fun hpos =>
      (hextends.loaded _).mpr (.inr ⟨count, hpos, Nat.le_refl _, rfl⟩)
    rw [htake] at hready
    obtain ⟨m₂, hone, hstep⟩ := loadOne_of_isReady habove hready
    refine ⟨m₂, ?_, hstep.declared.trans hextends.declared, fun name => ?_⟩
    · rw [htake, load_append _ hload, loadBelow, hone]
      rfl
    · rw [hstep.loaded, hextends.loaded, ← htake]
      constructor
      · rintro ((hold | ⟨i, hpos, hle, rfl⟩) | rfl)
        · exact .inl hold
        · exact .inr ⟨i, hpos, Nat.le_succ_of_le hle, rfl⟩
        · exact .inr ⟨count + 1, Nat.succ_pos count, Nat.le_refl _, rfl⟩
      · rintro (hold | ⟨i, hpos, hle, rfl⟩)
        · exact .inl (.inl hold)
        · rcases Nat.le_succ_iff.mp hle with hle | rfl
          · exact .inl (.inr ⟨i, hpos, hle, rfl⟩)
          · exact .inr rfl

/-- Nothing changes when what is loaded is loaded again. -/
theorem load_of_isLoaded (hlength : count ≤ parts.length)
    (h : ∀ i, 0 < i → i ≤ count → m.IsLoaded (dotted (parts.take i))) :
    m.load (parts.take count) = (m, .ok ()) := by
  induction count with
  | zero => rfl
  | succ count ih =>
    have hload := ih (Nat.le_of_succ_le hlength)
      fun i hpos hle => h i hpos (Nat.le_succ_of_le hle)
    have hlast := h (count + 1) (Nat.succ_pos count) (Nat.le_refl _)
    rw [List.take_succ_eq_append_getElem hlength] at hlast ⊢
    rw [load_append _ hload, loadBelow, loadOne_of_isLoaded hlast]
    rfl

/-- The modules after loading the first parts of a name. -/
def after (m : Modules) (parts : List Str) (count : ℕ) : Modules :=
  (m.load (parts.take count)).1

theorem load_after (hlength : count ≤ parts.length)
    (h : ∀ i, 0 < i → i ≤ count → m.IsReady (dotted (parts.take i))) :
    m.load (parts.take count) = (m.after parts count, .ok ()) := by
  obtain ⟨m', hload, -⟩ := load_of_isReady hlength h
  rw [after, hload]

theorem after_extends (hlength : count ≤ parts.length)
    (h : ∀ i, 0 < i → i ≤ count → m.IsReady (dotted (parts.take i))) :
    m.Extends (m.after parts count)
      fun name => ∃ i, 0 < i ∧ i ≤ count ∧ name = dotted (parts.take i) := by
  obtain ⟨m', hload, hextends⟩ := load_of_isReady hlength h
  rwa [after, hload]

/-- Loading what was loaded leaves all as it is. -/
theorem load_after_again (hlength : count ≤ parts.length)
    (h : ∀ i, 0 < i → i ≤ count → m.IsReady (dotted (parts.take i))) :
    (m.after parts count).load (parts.take count) = (m.after parts count, .ok ()) :=
  load_of_isLoaded hlength fun i hpos hle =>
    ((after_extends hlength h).loaded _).mpr (.inr ⟨i, hpos, hle, rfl⟩)

namespace StopsAt

/-- Loading the modules above does not load the one at which it stops, so that it stops there also
the next time. -/
theorem after (h : m.StopsAt parts count fault) :
    (m.after parts count).StopsAt parts count fault := by
  have hextends := after_extends (Nat.le_of_lt h.within) h.above
  refine ⟨h.within, fun i hpos hle => hextends.isReady (h.above i hpos hle), ?_, ?_⟩
  · rw [hextends.loaded]
    rintro (hloaded | ⟨i, hpos, hle, heq⟩)
    · exact h.notLoaded hloaded
    · exact dotted_take_ne hpos (Nat.lt_succ_of_le hle) h.within heq
  · exact (hextends.fault?_eq _).trans h.fails

/-- Every longer prefix of the name stops at the same module, with the same fault. -/
theorem load_of_lt (h : m.StopsAt parts count fault) {longer : ℕ} (hlt : count < longer) :
    m.load (parts.take longer) = (m.after parts count, .error fault) := by
  -- the longer prefix goes through the modules above and the one that fails, and never further
  obtain ⟨rest, hrest⟩ := List.take_prefix_take_left (l := parts) hlt
  have hnot := h.after.notLoaded
  have hfails := h.after.fails
  rw [List.take_succ_eq_append_getElem h.within] at hnot hfails hrest
  rw [← hrest, List.append_assoc, load_append _ (load_after (Nat.le_of_lt h.within) h.above),
    List.singleton_append, loadBelow, loadOne_of_fault hnot hfails]

/-- The modules after loading stay the same when it is tried again. -/
theorem after_after (h : m.StopsAt parts count fault) :
    (m.after parts count).after parts count = m.after parts count := by
  rw [Modules.after, load_after_again (Nat.le_of_lt h.within) h.above]

end StopsAt

/-! ## §5 Prefixes of type names -/

/-- What is tried with the parts of a type name when the module of one part more than `count`
fails: the fault of a module that raises a failure of its own is final, a missing module is final
unless the name of the module that failed begins with its name. -/
def prefixAfter (typeName : Str) (parts : List Str) (count : ℕ) :
    LoadFault → Except Failure (List Str × List Str)
  | .raised text => .error (.moduleFailed text)
  | .missing name =>
    if 0 < count ∧ explains (dotted (parts.take (count + 1))) name then
      .ok (parts.take count, parts.drop count)
    else Lookup.fault (.typeNotFound typeName)

/-- The first parts of a name are tried when longer prefixes are explained to be missing. -/
theorem loadPrefix_of_isReady (hlength : count ≤ parts.length)
    (h : ∀ i, 0 < i → i ≤ count → m.IsReady (dotted (parts.take i))) :
    m.loadPrefix typeName parts count =
      (m.after parts count,
        if 0 < count then .ok (parts.take count, parts.drop count)
        else Lookup.fault (.typeNotFound typeName)) := by
  cases count with
  | zero => rfl
  | succ count => simp [loadPrefix, load_after hlength h]

/-- **Where loading stops decides about every prefix.** -/
theorem StopsAt.loadPrefix (h : m.StopsAt parts count fault) {longer : ℕ} (hlt : count < longer)
    (hlength : longer ≤ parts.length) :
    m.loadPrefix typeName parts longer =
      (m.after parts count, prefixAfter typeName parts count fault) := by
  -- from the top down; after the first try, the modules above are loaded
  induction longer generalizing m with
  | zero => exact absurd hlt (Nat.not_lt_zero count)
  | succ longer ih =>
    rw [Modules.loadPrefix, h.load_of_lt hlt]
    cases fault with
    | raised text => rfl
    | missing name =>
      dsimp only
      have hle := Nat.le_of_lt_succ hlt
      split
      case isTrue hexplains =>
        rcases Nat.eq_or_lt_of_le hle with rfl | hlt'
        · -- the next prefix to be tried is that of the modules that are loaded
          rw [loadPrefix_of_isReady (Nat.le_of_lt h.within) h.after.above, h.after_after]
          simp [prefixAfter, hexplains]
        · rw [ih h.after hlt' (Nat.le_of_succ_le hlength), h.after_after]
      case isFalse hexplains =>
        -- what a longer prefix does not explain, a shorter one does not either
        have hnot : ¬(0 < count ∧ explains (dotted (parts.take (count + 1))) name) := fun hand =>
          hexplains (explains_of_le (Nat.succ_pos count) hlt hlength hand.2)
        rw [prefixAfter, if_neg hnot]

/-! ## §6 Types -/

/-- The type that is reached from a module by attributes. -/
def typeBelow (m : Modules) (typeName : Str) (front rest : List Str) :
    Except Failure Entity :=
  match m.follow? (.module (dotted front)) rest with
  | some e => if e.isType then .ok e else Lookup.fault (.typeNotFound typeName)
  | none => Lookup.fault (.typeNotFound typeName)

theorem resolveType_eq (m : Modules) (typeName : Str) :
    m.resolveType typeName =
      match m.loadPrefix typeName (partsOf typeName) (partsOf typeName).length with
      | (m', .error e) => (m', .error e)
      | (m', .ok (front, rest)) => (m', m'.typeBelow typeName front rest) := by
  rw [resolveType]
  rcases m.loadPrefix typeName (partsOf typeName) (partsOf typeName).length with
    ⟨m', e | ⟨front, rest⟩⟩
  · rfl
  · dsimp only
    rw [typeBelow]
    cases m'.follow? (.module (dotted front)) rest with
    | none => rfl
    | some e => rfl

/-- The type under a name of which the first `count` parts are a module and the module of one part
more fails. -/
def typeAfter (m : Modules) (typeName : Str) (count : ℕ) (fault : LoadFault) :
    Except Failure Entity :=
  match prefixAfter typeName (partsOf typeName) count fault with
  | .error e => .error e
  | .ok (front, rest) => m.typeBelow typeName front rest

/-- **A type name whose loading stops** comes to what is left after the fault. -/
theorem StopsAt.resolveType (h : m.StopsAt (partsOf typeName) count fault) :
    m.resolveType typeName =
      (m.after (partsOf typeName) count,
        (m.after (partsOf typeName) count).typeAfter typeName count fault) := by
  rw [resolveType_eq, h.loadPrefix h.within (Nat.le_refl _), typeAfter]
  rcases prefixAfter typeName (partsOf typeName) count fault with e | ⟨front, rest⟩
  · rfl
  · rfl

/-- A type name that is ready from top to end is that of a module, and no type. -/
theorem resolveType_of_isReady
    (h : ∀ i, 0 < i → i ≤ (partsOf typeName).length →
      m.IsReady (dotted ((partsOf typeName).take i))) :
    m.resolveType typeName =
      (m.after (partsOf typeName) (partsOf typeName).length,
        Lookup.fault (.typeNotFound typeName)) := by
  rw [resolveType_eq, loadPrefix_of_isReady (Nat.le_refl _) h]
  by_cases hpos : 0 < (partsOf typeName).length
  · rw [if_pos hpos, List.drop_length]
    rfl
  · rw [if_neg hpos]
    rfl

/-- **A name that was looked up means the same the next time**, and nothing more is loaded. -/
theorem resolveType_again (m : Modules) (typeName : Str) :
    (m.resolveType typeName).1.resolveType typeName = m.resolveType typeName := by
  rcases m.ready_or_stopsAt (partsOf typeName) with hready | ⟨count, fault, hstops⟩
  -- in both cases all is loaded already that can be
  · have hextends := after_extends (Nat.le_refl _) hready
    have hagain := resolveType_of_isReady fun i hpos hle => hextends.isReady (hready i hpos hle)
    rw [resolveType_of_isReady hready, hagain, after, load_after_again (Nat.le_refl _) hready]
  · rw [hstops.resolveType, hstops.after.resolveType, hstops.after_after]

/-! ## §7 Failures that are passed on -/

theorem typeBelow_ne_moduleFailed (m : Modules) (front rest : List Str) (text : Str) :
    m.typeBelow typeName front rest ≠ .error (.moduleFailed text) := by
  rw [typeBelow]
  split
  case h_1 e he =>
    split
    · exact nofun
    · exact nofun
  case h_2 => exact nofun

/-- A missing module leaves the rest of the name to the modules above, or ends it. -/
theorem typeAfter_missing (m : Modules) (name : Str) :
    m.typeAfter typeName count (.missing name) =
      if 0 < count ∧ explains (dotted ((partsOf typeName).take (count + 1))) name then
        m.typeBelow typeName ((partsOf typeName).take count) ((partsOf typeName).drop count)
      else Lookup.fault (.typeNotFound typeName) := by
  rw [typeAfter, prefixAfter]
  by_cases h : 0 < count ∧ explains (dotted ((partsOf typeName).take (count + 1))) name
  · rw [if_pos h, if_pos h]
  · rw [if_neg h, if_neg h]
    rfl

/-- **A failure of a module is passed on exactly if it is not that of a missing module.** Where
loading the module of a type name stops, at a declared module or not, a failure of the module's own
is the outcome. That some module is missing is never passed on: if its name is the beginning of the
name of the module that failed, the rest of the type name is looked up in the modules above, and
otherwise the type counts as not found. -/
theorem failing_modules_are_passed_on_iff (m : Modules) (typeName : Str) (count : ℕ)
    (fault : LoadFault) (h : m.StopsAt (partsOf typeName) count fault) :
    (∀ text, (m.resolveType typeName).2 = .error (.moduleFailed text) ↔ fault = .raised text) ∧
    ∀ name, fault = .missing name →
      (m.resolveType typeName).2 =
        if 0 < count ∧ explains (dotted ((partsOf typeName).take (count + 1))) name then
          (m.after (partsOf typeName) count).typeBelow typeName ((partsOf typeName).take count)
            ((partsOf typeName).drop count)
        else Lookup.fault (.typeNotFound typeName) := by
  rw [h.resolveType]
  constructor
  · intro text
    cases fault with
    | raised own =>
      rw [typeAfter, prefixAfter]
      simp
    | missing name =>
      dsimp only
      rw [typeAfter_missing]
      refine ⟨fun heq => ?_, nofun⟩
      split at heq
      · exact absurd heq (typeBelow_ne_moduleFailed _ _ _ text)
      · cases heq
  · rintro name rfl
    exact typeAfter_missing _ name

/-- A package with a module that asks for another one that is missing. -/
def appModules : Modules where
  declared := [("app", .attributes []), ("app.models", .missing "sqlalchemy")]

theorem appModules_stopsAt :
    appModules.StopsAt (partsOf "app.models.User") 1 (.missing "sqlalchemy") := by
  have hparts : partsOf "app.models.User" = ["app", "models", "User"] := by decide
  rw [hparts]
  refine ⟨by decide, fun i hpos hle => ?_, by decide, by decide⟩
  obtain rfl : i = 1 := by omega
  exact .inr (by decide)

/-- The missing module is not heard of: the type counts as not found. -/
theorem missing_module_is_not_passed_on :
    appModules.StopsAt (partsOf "app.models.User") 1 (.missing "sqlalchemy") ∧
      (appModules.resolveType "app.models.User").2 =
        Lookup.fault (.typeNotFound "app.models.User") := by
  refine ⟨appModules_stopsAt, ?_⟩
  rw [(failing_modules_are_passed_on_iff _ _ _ _ appModules_stopsAt).2 _ rfl]
  rfl

/-- The class that a package has under the name of one of its modules. -/
def shadowClass : Entity :=
  .classType 0 ⟨"pkg", "bad"⟩ []

/-- A package with a module that asks for a missing one whose name is the beginning of its own. -/
def shadowedModules : Modules where
  declared := [("pkg", .attributes [("bad", shadowClass)]), ("pkg.bad", .missing "p")]

theorem shadowedModules_stopsAt : shadowedModules.StopsAt (partsOf "pkg.bad") 1 (.missing "p") := by
  have hparts : partsOf "pkg.bad" = ["pkg", "bad"] := by decide
  rw [hparts]
  refine ⟨by decide, fun i hpos hle => ?_, by decide, by decide⟩
  obtain rfl : i = 1 := by omega
  exact .inr (by decide)

/-- A declared module that asks for a missing one may leave its type name not found, and it may
give way to what the module above has under its name. -/
theorem failing_modules_may_be_swallowed :
    (Entries.hasKey ("app.models" : Str) appModules.declared = true ∧
      appModules.StopsAt (partsOf "app.models.User") 1 (.missing "sqlalchemy") ∧
      (appModules.resolveType "app.models.User").2 =
        Lookup.fault (.typeNotFound "app.models.User")) ∧
    Entries.hasKey ("pkg.bad" : Str) shadowedModules.declared = true ∧
      shadowedModules.StopsAt (partsOf "pkg.bad") 1 (.missing "p") ∧
      (shadowedModules.resolveType "pkg.bad").2 = .ok shadowClass :=
  ⟨⟨by decide, appModules_stopsAt, rfl⟩, by decide, shadowedModules_stopsAt, rfl⟩

end Modules

end AnnoTree
