import AnnoTree.Proofs.Double.Range
import AnnoTree.Proofs.Loading.Layout
import AnnoTree.Value.Payload

/-!
# Loading leaves

The literals and references of stored values. Each is loaded exactly if it has its layout.

## Main statements

- `Scalar.ofRaw_ok_iff`: stored literals that are loaded.
- `EnumConst.ofPayload_ok_iff`, `ClassLiteral.ofPayload_ok_iff`: stored references that are loaded.
- `PayloadKey.ofName?_eq_some`: keys and what they announce.
-/

namespace AnnoTree

open AnnoTree.Text

/-! ## §1 Keys of objects -/

theorem Text.sortedSet_eq_nil {texts : List Str} : sortedSet texts = [] ↔ texts = [] := by
  cases texts with
  | nil => simp [sortedSet]
  | cons s rest =>
    have hinsert : ∀ ts, insertSorted s ts ≠ [] := by
      intro ts
      cases ts with
      | nil => simp [insertSorted]
      | cons t ts =>
        rw [insertSorted]
        split <;> simp
    simpa [sortedSet] using hinsert _

theorem unknownKeys_eq_nil {allowed : List Str} {entries : List (Str × Json)} :
    unknownKeys allowed entries = [] ↔ ∀ k ∈ Entries.keys entries, k ∈ allowed := by
  simp [unknownKeys, Text.sortedSet_eq_nil, List.filter_eq_nil_iff]

theorem textsLayout_object {fields : List Str} {entries : List (Str × Json)} :
    TextsLayout fields (.object entries) ↔
      (∀ f ∈ fields, ∃ s, Entries.get? f entries = some (.string s)) ∧
      ∀ k ∈ Entries.keys entries, k ∈ fields := by
  constructor
  · rintro ⟨_, hkeys, htexts⟩
    exact ⟨htexts, hkeys⟩
  · rintro ⟨htexts, hkeys⟩
    exact .object entries hkeys htexts

theorem textFieldIssues_eq_nil {fields : List Str} {entries : List (Str × Json)} :
    textFieldIssues fields entries = [] ↔ TextsLayout fields (.object entries) := by
  rw [textsLayout_object, textFieldIssues, List.append_eq_nil_iff, List.filterMap_eq_nil_iff,
    List.map_eq_nil_iff, List.filter_eq_nil_iff]
  refine and_congr (forall_congr' fun f => imp_congr_right fun _ => ?_) (by simp)
  cases Entries.get? f entries with
  | none => simp
  | some j => cases j <;> simp

/-! ## §2 References -/

theorem EnumConst.ofPayload_ok_iff {j : Json} :
    (∃ e, EnumConst.ofPayload j = .ok e) ↔ TextsLayout ["type_name", "constant_name"] j := by
  cases j with
  | object entries =>
    rw [← textFieldIssues_eq_nil, EnumConst.ofPayload]
    cases textFieldIssues ["type_name", "constant_name"] entries <;> simp
  | _ => exact ⟨fun ⟨_, h⟩ => (nomatch h), fun h => (nomatch h)⟩

theorem ClassLiteral.ofPayload_ok_iff {j : Json} :
    (∃ c, ClassLiteral.ofPayload j = .ok c) ↔ TextsLayout ["type_descriptor"] j := by
  cases j with
  | object entries =>
    rw [← textFieldIssues_eq_nil, ClassLiteral.ofPayload]
    cases textFieldIssues ["type_descriptor"] entries <;> simp
  | _ => exact ⟨fun ⟨_, h⟩ => (nomatch h), fun h => (nomatch h)⟩

/-! ## §3 Literals -/

theorem IntegerKind.holds_iff {k : IntegerKind} {i : Int} :
    k.Holds i ↔ -2 ^ (k.bits - 1) ≤ i ∧ i < 2 ^ (k.bits - 1) := by
  cases k <;> exact Iff.rfl

theorem Scalar.ofRaw_ok_iff {kind : ScalarKind} {j : Json} :
    (∃ s, Scalar.ofRaw kind (.ofJson j) = .ok s) ↔ ScalarLayout kind j := by
  constructor
  · rintro ⟨s, hs⟩
    cases kind with
    | integer k =>
      cases j with
      | int i =>
        simp only [Raw.ofJson, Scalar.ofRaw] at hs
        split at hs
        next hholds =>
          obtain ⟨hlow, hhigh⟩ := IntegerKind.holds_iff.mp hholds
          exact .integer k i hlow hhigh
        next => exact absurd hs Scalar.outOfRange_ne_ok
      | _ => cases hs
    | boolean =>
      cases j with
      | bool b => exact .boolean b
      | _ => cases hs
    | floating k =>
      cases j with
      | int i =>
        simp only [Raw.ofJson, Scalar.ofRaw] at hs
        split at hs
        next x hx => exact .whole k i ((Double.isSome_ofInt? i).mp (by rw [hx]; rfl))
        next => exact absurd hs Scalar.outOfRange_ne_ok
      | float x => exact .floating k x
      | _ => cases hs
    | char =>
      cases j with
      | string text =>
        simp only [Raw.ofJson, Scalar.ofRaw] at hs
        split at hs
        next c hc =>
          split at hs
          next hsmall =>
            rw [← Str.toList_singleton, Str.toList_inj] at hc
            rw [hc]
            exact .char c hsmall
          next => cases hs
        next => cases hs
      | _ => cases hs
  · rintro (b | ⟨k, i, hlow, hhigh⟩ | ⟨k, x⟩ | ⟨k, i, hrange⟩ | ⟨c, hsmall⟩)
    · exact ⟨_, rfl⟩
    · exact ⟨_, dif_pos (IntegerKind.holds_iff.mpr ⟨hlow, hhigh⟩)⟩
    · exact ⟨_, rfl⟩
    · obtain ⟨x, hx⟩ := Option.isSome_iff_exists.mp ((Double.isSome_ofInt? i).mpr hrange)
      simp [Scalar.ofRaw, Raw.ofJson, hx]
    · simp [Scalar.ofRaw, Raw.ofJson, hsmall]

theorem Scalar.ofRaw_literal (s : Scalar) : Scalar.ofRaw s.kind (.ofJson s.literal) = .ok s := by
  cases s with
  | integer k i h => simp [Scalar.kind, Scalar.literal, Raw.ofJson, Scalar.ofRaw, h]
  | boolean b => rfl
  | floating k x => rfl
  | char c h => simp [Scalar.kind, Scalar.literal, Raw.ofJson, Scalar.ofRaw, h]

/-! ## §4 Keys of values -/

theorem PayloadKey.ofName?_name (key : PayloadKey) : PayloadKey.ofName? key.name = some key := by
  cases key with
  | scalar kind => rw [PayloadKey.name, PayloadKey.ofName?, ScalarKind.ofName?_name]
  | _ => decide

theorem PayloadKey.ofName?_eq_some {s : Str} {key : PayloadKey} :
    PayloadKey.ofName? s = some key ↔ s = key.name := by
  constructor
  · intro h
    unfold PayloadKey.ofName? at h
    split at h
    next kind hkind =>
      cases h
      have hname := List.find?_some hkind
      exact (eq_of_beq hname).symm
    next =>
      repeat' split at h
      all_goals first | cases h; assumption | cases h
  · rintro rfl
    exact PayloadKey.ofName?_name key

theorem PayloadKey.name_inj {k l : PayloadKey} (h : k.name = l.name) : k = l := by
  have hname := PayloadKey.ofName?_name k
  rw [h, PayloadKey.ofName?_name] at hname
  exact (Option.some.inj hname).symm

/-- A value with one key that announces nothing is a fault. -/
theorem singleEntry_unknown {s : Str} {j : Json} (hs : PayloadKey.ofName? s = none) :
    ∃ f, singleEntry [(s, j)] = payloadFault f := by
  simp [singleEntry, Entries.keys, hs, Text.sortedSet, Text.insertSorted]

/-- So is a value with several keys. -/
theorem singleEntry_several (e f : Str × Json) (rest : List (Str × Json)) :
    ∃ fault, singleEntry (e :: f :: rest) = payloadFault fault := by
  unfold singleEntry
  split
  · exact ⟨_, rfl⟩
  · exact ⟨_, rfl⟩

theorem singleEntry_name (key : PayloadKey) (j : Json) :
    singleEntry [(key.name, j)] = .ok (some (key.name, key, j)) := by
  simp [singleEntry, Entries.keys, PayloadKey.ofName?_name, Text.sortedSet]

end AnnoTree
