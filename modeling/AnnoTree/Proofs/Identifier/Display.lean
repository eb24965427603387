import AnnoTree.Proofs.Identifier.Supply
import AnnoTree.Proofs.Loading.RoundTrip

/-!
# Identifiers and display settings

Which name a rendering leaves out decides the texts of nested annotations, and texts decide the
order of parameters that have one name. Nothing else of what is loaded from a stored form depends
on that setting. So two settings with one bound load the same annotation, with one identifier,
unless they put parameters of one name in different orders.

## Main definitions

- `SameOrder`: two settings put the parameters of one name in a list in one order, and
  `Annot.SameOrder` says so of all annotations in an annotation.
- `Carries`: what one reader gives, if it is good, the other gives too.
- `CarriedOver`: every decoder carries what is in the same order from one setting to the other.

## Main statements

- `Parameter.fullSort_congr`: settings that put the parameters of one name in one order sort alike.
- `carriedOver`: what every decoder gives under one setting it gives under the other.
- `identifiers_across_displays`: the two settings load one annotation with one identifier.
-/

namespace AnnoTree

open Std

variable {S T : Settings}

/-! ## §1 The order of parameters -/

/-- The order of parameters of different names is that of the names. -/
theorem Parameter.mayPrecede_of_name_ne (settings : Settings) {p q : Parameter}
    (h : p.name ≠ q.name) :
    p.mayPrecede settings q = (Ord.compare p.name q.name != .gt) := by
  have hne : Ord.compare p.name q.name ≠ .eq := fun heq => h (LawfulEqCmp.eq_of_compare heq)
  unfold Parameter.mayPrecede ParameterKey.compare
  show ((Ord.compare p.name q.name).then _ != .gt) = _
  cases hcompare : Ord.compare p.name q.name with
  | lt => rfl
  | eq => exact absurd hcompare hne
  | gt => rfl

/-- What is built of parameters has them sorted. -/
theorem eq_of_ofParameters {settings : Settings} {name : Str} {ps : List Parameter} {a : Annot}
    (h : liftWalk (Annot.ofParameters settings name ps) = .ok a) :
    Annot.ofParameters settings name ps = .ok a ∧
      a = ⟨name, some (Parameter.fullSort settings ps)⟩ := by
  cases hbuilt : Annot.ofParameters settings name ps with
  | error e =>
    rw [hbuilt] at h
    cases h
  | ok b =>
    rw [hbuilt] at h
    cases h
    exact ⟨rfl, ((Annot.build_spec settings name ps).of_eq_ok hbuilt).2⟩

/-- Two settings put parameters of one name in one order. -/
def SameOrder (S T : Settings) (ps : List Parameter) : Prop :=
  ∀ p ∈ ps, ∀ q ∈ ps, p.name = q.name → p.mayPrecede S q = p.mayPrecede T q

theorem Parameter.fullSort_congr {ps : List Parameter} (h : SameOrder S T ps) :
    Parameter.fullSort S ps = Parameter.fullSort T ps := by
  have hprecede : ∀ p ∈ ps, ∀ q ∈ ps, p.mayPrecede S q = (id p).mayPrecede T (id q) := by
    intro p hp q hq
    by_cases hname : p.name = q.name
    · exact h p hp q hq hname
    · rw [id, id, Parameter.mayPrecede_of_name_ne S hname, Parameter.mayPrecede_of_name_ne T hname]
  -- the sort depends on the order of the members of the list only
  have hsorted := List.map_mergeSort hprecede
  rwa [List.map_id, List.map_id] at hsorted

/-- Two settings with one bound sort alike if they put parameters of one name in one order. -/
theorem Parameter.sorted_congr {ps : List Parameter} (hdepth : S.maxDepth = T.maxDepth)
    (h : SameOrder S T ps) : Parameter.sorted S ps = Parameter.sorted T ps := by
  have hT := Parameter.sorted_spec T ps
  rw [← hdepth] at hT
  exact WalkSpec.eq_of_iff (Parameter.sorted_spec S ps) hT Iff.rfl (Parameter.fullSort_congr h)

/-! ## §2 What is carried over -/

/-- What one reader gives, if it is good, the other gives too. -/
def Carries {α : Type} (good : α → Prop) (r s : Except Failure α) : Prop :=
  ∀ x, r = .ok x → good x → s = .ok x

namespace Carries

variable {α β : Type} {good : α → Prop} {fine : β → Prop} {r s : Except Failure α}

theorem same (r : Except Failure α) : Carries good r r :=
  fun _ h _ => h

theorem bind {f g : α → Except Failure β} (hr : Carries good r s)
    (hgood : ∀ x y, f x = .ok y → fine y → good x) (hf : ∀ x, good x → Carries fine (f x) (g x)) :
    Carries fine (r >>= f) (s >>= g) := by
  intro y hy hfine
  cases hx : r with
  | error e =>
    rw [hx] at hy
    cases hy
  | ok x =>
    rw [hx] at hy
    have hgx := hgood x y hy hfine
    rw [hr x hx hgx]
    exact hf x hgx y hy hfine

theorem map {f : α → β} (hr : Carries good r s) (hgood : ∀ x, fine (f x) → good x) :
    Carries fine (r.map f) (s.map f) := by
  have h : Carries fine (r >>= fun x => .ok (f x)) (s >>= fun x => .ok (f x)) := by
    refine hr.bind (fun x y hy hfine => hgood x ?_) fun x _ => same _
    rwa [Except.ok.inj hy]
  exact h

theorem mapM {γ : Type} {f g : γ → Except Failure β} {items : List γ}
    (h : ∀ c ∈ items, Carries fine (f c) (g c)) :
    Carries (fun ys => ∀ y ∈ ys, fine y) (items.mapM f) (items.mapM g) := by
  -- by induction on the items, one step of both readers after the other
  induction items with
  | nil => exact same _
  | cons c rest ih =>
    rw [List.forall_mem_cons] at h
    rw [List.mapM_cons, List.mapM_cons]
    refine h.1.bind ?_ fun y _ => (ih h.2).bind ?_ fun ys _ => same _
    · -- the first of the results is one of them
      intro y zs hzs hfine
      cases hys : rest.mapM f with
      | error e =>
        rw [hys] at hzs
        cases hzs
      | ok ys =>
        rw [hys] at hzs
        cases hzs
        exact hfine y List.mem_cons_self
    · intro ys zs hzs hfine
      cases hzs
      exact fun z hz => hfine z (List.mem_cons_of_mem y hz)

end Carries

/-! ## §3 Decoders under two settings -/

/-- In a value two settings put parameters of one name in one order. -/
def Value.SameOrder (S T : Settings) (v : Value) : Prop :=
  ∀ b ∈ v.annots, AnnoTree.SameOrder S T b.known

/-- In an annotation and in those in it two settings put parameters of one name in one order. -/
def Annot.SameOrder (S T : Settings) (a : Annot) : Prop :=
  ∀ b ∈ a.annots, AnnoTree.SameOrder S T b.known

theorem Value.SameOrder.item {items : List Value} (h : (Value.array items).SameOrder S T)
    {v : Value} (hv : v ∈ items) : v.SameOrder S T :=
  fun b hb => h b (Value.mem_annots_array.mpr ⟨v, hv, hb⟩)

theorem Annot.SameOrder.parameter {a : Annot} (h : a.SameOrder S T) {p : Parameter}
    (hp : p ∈ a.known) : p.value.SameOrder S T :=
  fun b hb => h b (Annot.mem_annots.mpr (.inr ⟨p, hp, hb⟩))

theorem Annot.SameOrder.self {a : Annot} (h : a.SameOrder S T) :
    AnnoTree.SameOrder S T a.known :=
  h a (Annot.mem_annots.mpr (.inl rfl))

/-- What every decoder gives of a stored value under one setting it gives under the other. -/
structure CarriedOver (S T : Settings) (j : Json) : Prop where
  value : ∀ depth : Int, Carries (Value.SameOrder S T) (Value.load S depth j) (Value.load T depth j)
  array : ∀ depth : Int,
    Carries (Value.SameOrder S T) (Value.loadArray S depth j) (Value.loadArray T depth j)
  annot : ∀ depth : Int, Carries (Annot.SameOrder S T) (Annot.load S depth j) (Annot.load T depth j)
  parameters : ∀ depth : Int, Carries (fun ps => ∀ p ∈ ps.getD [], p.value.SameOrder S T)
    (Parameter.loadField S depth j) (Parameter.loadField T depth j)
  parameter : ∀ depth : Int, Carries (fun p => p.value.SameOrder S T)
    (Parameter.load S depth j) (Parameter.load T depth j)

section Steps

variable {depth : Int} {j : Json}

theorem checkDepth_congr (hdepth : S.maxDepth = T.maxDepth) (depth : Int) (walk : Walk) :
    checkDepth S depth walk = checkDepth T depth walk := by
  rw [checkDepth, checkDepth, hdepth]

theorem Value.loadArray_carries (hdepth : S.maxDepth = T.maxDepth)
    (h : ∀ c ∈ j.parts, CarriedOver S T c) :
    Carries (Value.SameOrder S T) (Value.loadArray S depth j) (Value.loadArray T depth j) := by
  cases j with
  | array items =>
    have hitems := Carries.mapM fun c hc => (h c hc).value (depth + 1)
    rw [Value.loadArray, Value.loadArray, Value.loadList_eq_mapM, Value.loadList_eq_mapM,
      checkDepth_congr hdepth]
    refine (Carries.same _).bind (fun _ _ _ _ => trivial) fun _ _ =>
      hitems.bind ?_ fun vs _ => .same _
    -- the annotations of an item are annotations of the array
    intro vs v hv hsame
    cases hv
    exact fun w hw => hsame.item hw
  | _ => exact .same _

theorem Parameter.loadField_carries (h : ∀ c ∈ j.parts, CarriedOver S T c) :
    Carries (fun ps => ∀ p ∈ ps.getD [], p.value.SameOrder S T)
      (Parameter.loadField S depth j) (Parameter.loadField T depth j) := by
  cases j with
  | array items =>
    rw [Parameter.loadField, Parameter.loadField, Parameter.loadList_eq_mapM,
      Parameter.loadList_eq_mapM]
    exact (Carries.mapM fun c hc => (h c hc).parameter depth).map fun ps hps => hps
  | _ => exact .same _

theorem CarriedOver.null : CarriedOver S T .null where
  value _ := .same _
  array _ := .same _
  annot _ := .same _
  parameters _ := .same _
  parameter _ := .same _

/-- A field that is missing counts as null. -/
theorem CarriedOver.field {entries : List (Str × Json)}
    (h : ∀ c ∈ (Json.object entries).parts, CarriedOver S T c) (key : Str) :
    CarriedOver S T (fieldOrNull key entries) := by
  cases hkey : Entries.get? key entries with
  | some c =>
    rw [fieldOrNull, hkey]
    exact h c (Json.mem_parts_of_get? hkey)
  | none =>
    rw [fieldOrNull, hkey]
    exact .null

theorem Parameter.load_carries (h : ∀ c ∈ j.parts, CarriedOver S T c) :
    Carries (fun p => p.value.SameOrder S T) (Parameter.load S depth j)
      (Parameter.load T depth j) := by
  cases j with
  | object entries =>
    rw [Parameter.load, Parameter.load, Value.loadField_eq, Value.loadField_eq]
    split
    · split
      · exact .same _
      · exact ((CarriedOver.field h "value").value depth).map fun v hv => hv
    · exact .same _
  | _ => exact .same _

/-- The annotation of loaded parameters under one setting is that under the other. -/
theorem Annot.ofLoaded_carries (hdepth : S.maxDepth = T.maxDepth) (name : Str)
    (parameters : Option (List Parameter)) :
    Carries (Annot.SameOrder S T)
      (match parameters with
      | none => .ok ⟨name, none⟩
      | some ps => liftWalk (Annot.ofParameters S name ps))
      (match parameters with
      | none => .ok ⟨name, none⟩
      | some ps => liftWalk (Annot.ofParameters T name ps)) := by
  rcases parameters with _ | ps
  · exact .same _
  intro a ha hsame
  obtain ⟨-, hsorted⟩ := eq_of_ofParameters ha
  subst hsorted
  -- sorting does not change which parameters there are
  have hperm : (Parameter.fullSort S ps).Perm ps := Parameter.fullSort_perm ps
  have hps : AnnoTree.SameOrder S T ps := fun p hp q hq =>
    hsame.self p (hperm.mem_iff.mpr hp) q (hperm.mem_iff.mpr hq)
  simp only [Annot.ofParameters, ← Parameter.sorted_congr hdepth hps] at ha ⊢
  exact ha

theorem Annot.load_carries (hdepth : S.maxDepth = T.maxDepth)
    (h : ∀ c ∈ j.parts, CarriedOver S T c) :
    Carries (Annot.SameOrder S T) (Annot.load S depth j) (Annot.load T depth j) := by
  cases j with
  | object entries =>
    have hparameters := (CarriedOver.field h "parameters").parameters depth
    rw [Annot.load, Annot.load, Annot.loadParameters_eq, Annot.loadParameters_eq,
      checkDepth_congr hdepth]
    split
    · exact .same _
    · split
      · split
        · exact .same _
        · refine (Carries.same _).bind (fun _ _ _ _ => trivial) fun _ _ => hparameters.bind ?_
            fun parameters _ => Annot.ofLoaded_carries hdepth _ parameters
          -- the values of the parameters are in the annotation
          intro parameters a ha hsame p hp
          rcases parameters with _ | ps
          · cases hp
          · obtain ⟨-, rfl⟩ := eq_of_ofParameters ha
            exact hsame.parameter ((Parameter.fullSort_perm ps).mem_iff.mpr hp)
      · exact .same _
  | _ => exact .same _

theorem Value.loadSingle_carries (h : CarriedOver S T j) (key : Str) :
    Carries (Value.SameOrder S T) (Value.loadSingle S depth [(key, j)])
      (Value.loadSingle T depth [(key, j)]) := by
  unfold Value.loadSingle
  rcases PayloadKey.ofName? key with _ | kind
  · exact .same _
  · cases kind with
    | array => exact h.array depth
    | annot => exact (h.annot (depth + 1)).map fun a ha => ha
    | _ => exact .same _

theorem Value.load_carries (h : ∀ c ∈ j.parts, CarriedOver S T c) :
    Carries (Value.SameOrder S T) (Value.load S depth j) (Value.load T depth j) := by
  cases j with
  | object entries =>
    rw [Value.load, Value.load]
    split
    · exact .same _
    · exact .same _
    · -- only an object with one key holds something
      rcases entries with _ | ⟨⟨key, c⟩, _ | ⟨e, rest⟩⟩
      · exact .same _
      · exact Value.loadSingle_carries (h c (by simp [Json.parts])) key
      · exact .same _
  | _ => exact .same _

end Steps

/-- **What every decoder gives under one setting it gives under the other**, at every stored
value. -/
theorem carriedOver (hdepth : S.maxDepth = T.maxDepth) (j : Json) : CarriedOver S T j := by
  -- by induction on the stored value, all decoders at once
  induction j using Json.induct_parts with
  | h j ih =>
    exact {
      value := fun _ => Value.load_carries ih
      array := fun _ => Value.loadArray_carries hdepth ih
      annot := fun _ => Annot.load_carries hdepth ih
      parameters := fun _ => Parameter.loadField_carries ih
      parameter := fun _ => Parameter.load_carries ih }

/-! ## §4 Identifiers under two settings -/

/-- The identifier of a loaded annotation is that of its stored form. -/
theorem Annot.identifier_of_load {settings : Settings} {depth : Nat} {stored : Json} {a : Annot}
    (h : Annot.load settings depth stored = .ok a) :
    a.identifier settings = identifierOf a.fullPayload := by
  have hsound := ((loadSpecs settings stored).annot depth).of_eq_ok h
  exact Annot.identifier_of_fits (hsound.fits.mono (Nat.zero_le depth))

/-- **Identifiers and display settings.** Two settings with one bound load the same stored forms,
and what they load has one canonical text exactly if they load the same annotation. They do, with
one identifier, if they put the parameters of one name in one order in every annotation; there is
no identifier only if the stored form of that annotation is not well-formed. -/
theorem identifiers_across_displays (hdepth : S.maxDepth = T.maxDepth) (depth : Nat)
    (stored : Json) :
    ((∃ a, Annot.load S depth stored = .ok a) ↔ ∃ b, Annot.load T depth stored = .ok b) ∧
      (∀ a b j k, Annot.load S depth stored = .ok a → Annot.load T depth stored = .ok b →
        a.payload S 0 = .ok j → b.payload T 0 = .ok k → (j.canonical = k.canonical ↔ a = b)) ∧
      ∀ a, Annot.load S depth stored = .ok a → a.SameOrder S T →
        Annot.load T depth stored = .ok a ∧
          a.identifier S = a.identifier T ∧ ∃ j, a.payload S 0 = .ok j ∧
            ((∃ id, a.identifier S = .ok id) ↔ j.isWellFormed = true) := by
  refine ⟨?_, fun a b j k _ _ hj hk => ?_, fun a ha hsame => ?_⟩
  · -- the layout that is accepted depends on the bound only
    rw [((loadSpecs S stored).annot depth).exists_ok_iff,
      ((loadSpecs T stored).annot depth).exists_ok_iff, hdepth]
  · obtain ⟨-, rfl⟩ := (a.payload_spec S 0).of_eq_ok hj
    obtain ⟨-, rfl⟩ := (b.payload_spec T 0).of_eq_ok hk
    constructor
    · exact Annot.canonical_inj
    · rintro rfl
      rfl
  · -- what is loaded under the first setting is loaded under the second
    have hb := (carriedOver hdepth stored).annot depth a ha hsame
    have hfits := (((loadSpecs S stored).annot depth).of_eq_ok ha).fits.mono (Nat.zero_le depth)
    refine ⟨hb, ?_, _, (a.payload_spec S 0).ok hfits, ?_⟩
    · rw [Annot.identifier_of_load ha, Annot.identifier_of_load hb]
    · rw [Annot.identifier_of_load ha]
      exact exists_identifierOf_iff

/-- The default settings with another name that a rendering leaves out. -/
def leavingOutV : Settings :=
  ⟨64, "v", by decide, by decide⟩

theorem int_holds_one : IntegerKind.int.Holds 1 := by
  decide

/-- A parameter `x` that holds an annotation with one parameter, which is the integer 1. -/
def holding (name parameter : Str) : Parameter :=
  ⟨"x", .annot ⟨name, some [⟨parameter, .scalar (.integer .int 1 int_holds_one)⟩]⟩⟩

/-- What is loaded of two parameters that come back. -/
theorem Annot.load_pair {settings : Settings} {name : Str} {p q : Parameter} (hname : name ≠ "")
    (hp : Parameter.load settings 0 p.fullPayload = .ok p)
    (hq : Parameter.load settings 0 q.fullPayload = .ok q)
    (hfits : ∀ r ∈ [p, q], r.value.Fits settings.maxDepth 0) :
    Annot.load settings 0 (Annot.fullPayload ⟨name, some [p, q]⟩) =
      .ok ⟨name, some (if p.mayPrecede settings q = true then [p, q] else [q, p])⟩ := by
  have hparameters : ∀ r ∈ [p, q], Parameter.load settings (0 : Nat) r.fullPayload = .ok r := by
    simp only [List.forall_mem_cons]
    exact ⟨hp, hq, by simp⟩
  refine (Annot.load_parameters hname (Nat.zero_le _) hparameters).trans ?_
  rw [(Annot.build_spec settings name [p, q]).ok (.inr hfits), ← Parameter.fullSort_pair]
  rfl

/-- A case of it: the texts of the two parameters are not those under the other setting, but they
are in the same order. -/
theorem same_order_gives_same_identifier :
    ∃ a, Annot.load {} 0 (Annot.fullPayload ⟨"A", some [holding "C" "v", holding "B" "v"]⟩) =
        .ok a ∧ a.SameOrder {} leavingOutV ∧ a.fullText {} ≠ a.fullText leavingOutV ∧
      ∃ id, a.identifier {} = .ok id ∧ a.identifier leavingOutV = .ok id := by
  have hload : Annot.load {} 0
      (Annot.fullPayload ⟨"A", some [holding "C" "v", holding "B" "v"]⟩) =
        .ok ⟨"A", some [holding "B" "v", holding "C" "v"]⟩ := by
    rw [Annot.load_pair (by decide) rfl rfl (by decide), if_neg (by decide)]
  have hsame : Annot.SameOrder {} leavingOutV
      ⟨"A", some [holding "B" "v", holding "C" "v"]⟩ := by
    unfold Annot.SameOrder SameOrder
    decide
  have hdepth : Settings.maxDepth {} = leavingOutV.maxDepth := rfl
  obtain ⟨-, hboth, j, hj, hexists⟩ := (identifiers_across_displays hdepth 0 _).2.2 _ hload hsame
  obtain ⟨-, rfl⟩ := (Annot.payload_spec {} 0 _).of_eq_ok hj
  obtain ⟨id, hid⟩ := hexists.mpr (by decide)
  exact ⟨_, hload, hsame, by decide, id, hid, hboth ▸ hid⟩

theorem Value.sortKeys_annot (a : Annot) :
    (Value.annot a).fullPayload.sortKeys = Json.single "annotation" a.fullPayload.sortKeys :=
  Value.sortKeys_fullPayload (.annot a)

/-- The canonical text of a parameter that holds an annotation. -/
def heldText (parameter : String) : String :=
  "\x7b\"name\":\"x\",\"value\":\x7b\"annotation\":\x7b\"name\":\"B\",\"parameters\":[" ++
    "\x7b\"name\":\"" ++ parameter ++ "\",\"value\":\x7b\"int\":1\x7d\x7d]\x7d\x7d\x7d"

theorem canonical_of_value_first :
    (Annot.fullPayload ⟨"A", some [holding "B" "value", holding "B" "a"]⟩).canonical =
      ("\x7b\"name\":\"A\",\"parameters\":[" ++ heldText "value" ++ "," ++ heldText "a" ++
        "]\x7d" : String) := by
  rw [Json.canonical, Annot.sortKeys_fullPayload]
  simp only [holding, List.map_cons, List.map_nil, Parameter.sortKeys_fullPayload,
    Value.sortKeys_annot, Annot.sortKeys_fullPayload]
  simp only [Value.sortKeys_fullPayload]
  decide +kernel

theorem canonical_of_a_first :
    (Annot.fullPayload ⟨"A", some [holding "B" "a", holding "B" "value"]⟩).canonical =
      ("\x7b\"name\":\"A\",\"parameters\":[" ++ heldText "a" ++ "," ++ heldText "value" ++
        "]\x7d" : String) := by
  rw [Json.canonical, Annot.sortKeys_fullPayload]
  simp only [holding, List.map_cons, List.map_nil, Parameter.sortKeys_fullPayload,
    Value.sortKeys_annot, Annot.sortKeys_fullPayload]
  simp only [Value.sortKeys_fullPayload]
  decide +kernel

/-- It is not so that identifiers never depend on the name that a rendering leaves out: two nested
annotations change places if the parameter of the first is written out. -/
theorem identifiers_show_the_display :
    ¬∀ (S T : Settings) (stored : Json) (a b : Annot), S.maxDepth = T.maxDepth →
      Annot.load S 0 stored = .ok a → Annot.load T 0 stored = .ok b →
      a.identifier S = b.identifier T := by
  intro halways
  have hplain : Annot.load {} 0
      (Annot.fullPayload ⟨"A", some [holding "B" "value", holding "B" "a"]⟩) =
        .ok ⟨"A", some [holding "B" "value", holding "B" "a"]⟩ := by
    rw [Annot.load_pair (by decide) rfl rfl (by decide), if_pos (by decide)]
  have hwritten : Annot.load leavingOutV 0
      (Annot.fullPayload ⟨"A", some [holding "B" "value", holding "B" "a"]⟩) =
        .ok ⟨"A", some [holding "B" "a", holding "B" "value"]⟩ := by
    rw [Annot.load_pair (by decide) rfl rfl (by decide), if_neg (by decide)]
  have h := halways {} leavingOutV _ _ _ rfl hplain hwritten
  rw [Annot.identifier_of_fits (by decide), Annot.identifier_of_fits (by decide)] at h
  exact identifierOf_ne canonical_of_value_first canonical_of_a_first (by decide +kernel) h

end AnnoTree
