import AnnoTree.Annot.Identifier
import AnnoTree.Proofs.Json.RoundTrip
import AnnoTree.Proofs.Json.WellFormed
import AnnoTree.Proofs.Loading.Leaves
import AnnoTree.Proofs.Nesting.Walks
import AnnoTree.Proofs.Octets
import AnnoTree.Proofs.Results

/-!
# Canonical texts

The canonical text of a stored form belongs to one annotation only. Sorting the keys of an object
loses nothing as long as it is known which keys the object has, and a stored form says by its first
key what it holds; the text of the sorted form is read back as that form.

## Main statements

- `Json.sortKeys_iff`: what sorting keys keeps.
- `Json.sortKeys_object_inj`: sorting keys loses nothing.
- `Annot.fullPayload_sortKeys_inj`: a stored form with sorted keys belongs to one annotation.
- `Annot.canonical_inj`: a canonical text belongs to one annotation.
-/

namespace AnnoTree

/-! ## §1 Sorted keys -/

namespace Json

theorem sortKeysList_eq_map (items : List Json) : sortKeysList items = items.map sortKeys :=
  eq_map_of_step rfl (fun _ _ => rfl) items

theorem sortKeysEntries_eq_map (entries : List (Str × Json)) :
    sortKeysEntries entries = entries.map fun e => (e.1, e.2.sortKeys) :=
  eq_map_of_step rfl (fun _ _ => rfl) entries

/-- The entries of an object, sorted inside but not among each other. -/
def sortedInside (entries : List (Str × Json)) : List (Str × Json) :=
  entries.map fun e => (e.1, e.2.sortKeys)

theorem keys_sortedInside (entries : List (Str × Json)) :
    Entries.keys (sortedInside entries) = Entries.keys entries := by
  simp [sortedInside, Entries.keys]

theorem sortKeys_object (entries : List (Str × Json)) :
    sortKeys (.object entries) =
      .object ((sortedInside entries).mergeSort fun a b => (compare a.1 b.1).isLE) := by
  rw [sortKeys, sortKeysEntries_eq_map, sortedInside]

theorem sortKeys_single (key : Str) (j : Json) :
    sortKeys (single key j) = single key j.sortKeys := by
  rw [single, sortKeys_object, sortedInside, List.map_singleton, List.mergeSort_singleton, single]

/-- Two entries that come in order stay where they are. -/
theorem sortKeys_pair {first second : Str} (h : (compare first second).isLE = true)
    (j k : Json) :
    sortKeys (.object [(first, j), (second, k)]) =
      .object [(first, j.sortKeys), (second, k.sortKeys)] := by
  rw [sortKeys_object]
  exact congrArg Json.object (List.mergeSort_of_pairwise (by simpa [sortedInside] using h))

/-- Entries that are rearranged without moving a key have not been rearranged. -/
theorem perm_eq_of_keys {es fs : List (Str × Json)} (hperm : es.Perm fs)
    (hkeys : Entries.keys es = Entries.keys fs) (hnodup : (Entries.keys es).Nodup) : es = fs := by
  -- by induction on the entries: the first entries have one key, so they are the same entry
  induction es generalizing fs with
  | nil => exact (List.nil_perm.mp hperm).symm
  | cons e es ih =>
    rcases fs with _ | ⟨f, fs⟩
    · cases hkeys
    · obtain ⟨hkey, hrest⟩ := List.cons.inj hkeys
      obtain ⟨hnew, hnodup⟩ := List.nodup_cons.mp hnodup
      have heq : e = f := by
        rcases List.mem_cons.mp (hperm.mem_iff.mp List.mem_cons_self) with h | h
        · exact h
        · -- the key of the first entry would come again
          refine absurd ?_ hnew
          exact hrest ▸ List.mem_map_of_mem h
      subst heq
      rw [ih (List.Perm.cons_inv hperm) hrest hnodup]

/-- Sorting the keys of objects that have the same keys loses nothing. -/
theorem sortKeys_object_inj {es fs : List (Str × Json)}
    (hkeys : Entries.keys es = Entries.keys fs) (hnodup : (Entries.keys es).Nodup)
    (h : sortKeys (.object es) = sortKeys (.object fs)) : sortedInside es = sortedInside fs := by
  rw [sortKeys_object, sortKeys_object] at h
  have hsorted := Json.object.inj h
  -- the two objects have the same entries in some order, and the same keys in the same order
  refine perm_eq_of_keys ?_ ?_ ?_
  · have hleft := List.mergeSort_perm (sortedInside es) fun a b => (compare a.1 b.1).isLE
    have hright := List.mergeSort_perm (sortedInside fs) fun a b => (compare a.1 b.1).isLE
    rw [hsorted] at hleft
    exact hleft.symm.trans hright
  · rw [keys_sortedInside, keys_sortedInside, hkeys]
  · rwa [keys_sortedInside]

theorem sortKeys_single_inj {key : Str} {j k : Json}
    (h : (single key j).sortKeys = (single key k).sortKeys) : j.sortKeys = k.sortKeys := by
  rw [sortKeys_single, sortKeys_single] at h
  simpa [single] using h

theorem sortKeys_pair_inj {first second : Str} (hne : first ≠ second) {j k l m : Json}
    (h : sortKeys (.object [(first, j), (second, k)]) =
      sortKeys (.object [(first, l), (second, m)])) :
    j.sortKeys = l.sortKeys ∧ k.sortKeys = m.sortKeys := by
  have hinside := sortKeys_object_inj (by rfl) (by simpa [Entries.keys] using hne) h
  simpa [sortedInside] using hinside

theorem IsReadable.sortKeys {j : Json} (h : IsReadable j) : IsReadable j.sortKeys := by
  induction h with
  | null => exact .null
  | bool b => exact .bool b
  | int hshort => exact .int hshort
  | float x => exact .float x
  | string s => exact .string s
  | @array items _ ih =>
    rw [Json.sortKeys, sortKeysList_eq_map]
    refine .array fun j hj => ?_
    obtain ⟨k, hk, rfl⟩ := List.mem_map.mp hj
    exact ih k hk
  | @object entries hkeys _ ih =>
    -- sorting moves the entries of an object but keeps their keys
    have hperm := List.mergeSort_perm (sortedInside entries) fun a b => (compare a.1 b.1).isLE
    rw [sortKeys_object]
    refine .object ?_ fun e he => ?_
    · have hnodup : (Entries.keys (sortedInside entries)).Nodup := by rwa [keys_sortedInside]
      exact (hperm.map Prod.fst).nodup_iff.mpr hnodup
    · obtain ⟨f, hf, rfl⟩ := List.mem_map.mp (hperm.mem_iff.mp he)
      exact ih f hf

/-- **What sorting keys keeps**: what holds of an array exactly if it holds of the items, and of an
object exactly if it holds of the values, and something else of the keys. -/
theorem sortKeys_iff {P : Json → Prop} {Q : Str → Prop}
    (harray : ∀ items, P (.array items) ↔ ∀ j ∈ items, P j)
    (hobject : ∀ entries, P (.object entries) ↔ ∀ e ∈ entries, Q e.1 ∧ P e.2) (j : Json) :
    P j.sortKeys ↔ P j := by
  induction j using induct_parts with
  | h j ih =>
    cases j with
    | array items =>
      rw [Json.sortKeys, sortKeysList_eq_map, harray, harray, List.forall_mem_map]
      exact forall₂_congr ih
    | object entries =>
      have hperm := List.mergeSort_perm (sortedInside entries) fun a b => (compare a.1 b.1).isLE
      rw [sortKeys_object, hobject, hobject]
      -- the order of the entries does not matter
      refine (forall_congr' fun e => imp_congr_left hperm.mem_iff).trans ?_
      rw [sortedInside, List.forall_mem_map]
      exact forall₂_congr fun e he => and_congr_right' (ih e.2 (List.mem_map_of_mem he))
    | _ => exact Iff.rfl

theorem isWellFormed_sortKeys (j : Json) : j.sortKeys.isWellFormed = j.isWellFormed := by
  rw [Bool.eq_iff_iff]
  refine sortKeys_iff (P := fun j => j.isWellFormed = true) (Q := fun k => k.isWellFormed = true)
    (fun items => ?_) (fun entries => ?_) j
  · rw [isWellFormed, isWellFormedList_eq_all, List.all_eq_true]
  · rw [isWellFormed, isWellFormedEntries_eq_all, List.all_eq_true]
    simp only [Bool.and_eq_true]

/-- The canonical text of a value is well-formed exactly if the value is. -/
theorem isWellFormed_canonical (j : Json) : j.canonical.isWellFormed = j.isWellFormed := by
  rw [canonical, isWellFormed_write, isWellFormed_sortKeys]

theorem IsReadable.single {j : Json} (key : Str) (h : IsReadable j) :
    IsReadable (single key j) :=
  .object (List.nodup_singleton key) (List.forall_mem_singleton.mpr h)

end Json

/-! ## §2 Keys of stored forms -/

open Json

theorem Json.IsReadable.pair {j k : Json} {first second : Str} (h : first ≠ second)
    (hj : IsReadable j) (hk : IsReadable k) :
    IsReadable (.object [(first, j), (second, k)]) :=
  .object (by simpa [Entries.keys] using h)
    (List.forall_mem_cons.mpr ⟨hj, List.forall_mem_singleton.mpr hk⟩)

theorem Scalar.isReadable_literal (s : Scalar) : IsReadable s.literal := by
  cases s with
  | integer k i h => exact .int h.isTooLong_eq_false
  | boolean b => exact .bool b
  | floating k x => exact .float x
  | char c h => exact .string _

private theorem isReadable_cases :
    TreeCases (fun v => IsReadable v.fullPayload) (fun a => IsReadable a.fullPayload) where
  scalar s := s.isReadable_literal.single s.kind.name
  string t := .single "string" (.string t)
  array items ih := by
    rw [Value.fullPayload, Value.fullPayloadList_eq_map]
    refine .single "array" (.array fun j hj => ?_)
    obtain ⟨v, hv, rfl⟩ := List.mem_map.mp hj
    exact ih v hv
  enumConst ref := .single "enum_value" (.pair (by decide) (.string _) (.string _))
  classLiteral ref := .single "class_ref" (.single "type_descriptor" (.string _))
  annot a ih := ih.single "annotation"
  absent := .object List.nodup_nil (List.forall_mem_nil _)
  node a ih := by
    obtain ⟨name, _ | parameters⟩ := a
    · exact .pair (by decide) (.string name) .null
    · rw [Annot.fullPayload, Parameter.fullPayloadList_eq_map]
      refine .pair (by decide) (.string name) (.array fun j hj => ?_)
      obtain ⟨p, hp, rfl⟩ := List.mem_map.mp hj
      rw [Parameter.fullPayload_eq]
      exact .pair (by decide) (.string p.name) (ih p hp)

/-- In a stored form no key comes twice, and no integer is too long. -/
theorem Annot.isReadable_fullPayload (a : Annot) : IsReadable a.fullPayload :=
  isReadable_cases.all.2 a

/-! ## §3 Stored forms belong to one annotation -/

/-- The key of the stored form of a value; an absent value has none. -/
def Value.payloadKey : Value → Option PayloadKey
  | .scalar s => some (.scalar s.kind)
  | .string _ => some .string
  | .array _ => some .array
  | .enumConst _ => some .enumConst
  | .classLiteral _ => some .classLiteral
  | .annot _ => some .annot
  | .absent => none

/-- What is stored under the key of a value. -/
def Value.held : Value → Json
  | .scalar s => s.literal
  | .string t => .string t
  | .array items => .array (items.map Value.fullPayload)
  | .enumConst ref => ref.payload
  | .classLiteral ref => ref.payload
  | .annot a => a.fullPayload
  | .absent => .null

theorem Value.sortKeys_fullPayload (v : Value) :
    v.fullPayload.sortKeys = match v.payloadKey with
      | some key => .single key.name v.held.sortKeys
      | none => .object [] := by
  cases v with
  | array items =>
    rw [Value.fullPayload, Value.fullPayloadList_eq_map]
    exact sortKeys_single _ _
  | absent => simp [Value.fullPayload, Value.payloadKey, sortKeys_object, sortedInside]
  | _ => exact sortKeys_single _ _

/-- A stored form with sorted keys still says what it holds. -/
theorem Value.held_of_sortKeys {v w : Value}
    (h : v.fullPayload.sortKeys = w.fullPayload.sortKeys) :
    v.payloadKey = w.payloadKey ∧ (v.payloadKey ≠ none → v.held.sortKeys = w.held.sortKeys) := by
  rw [v.sortKeys_fullPayload, w.sortKeys_fullPayload] at h
  -- whether there is a key, and which, is seen from the object
  generalize v.payloadKey = left at h ⊢
  generalize w.payloadKey = right at h ⊢
  rcases left with _ | key <;> rcases right with _ | other
  · exact ⟨rfl, fun hne => absurd rfl hne⟩
  · cases h
  · cases h
  · simp only [single, Json.object.injEq, List.cons.injEq, Prod.mk.injEq, and_true] at h
    exact ⟨congrArg some (PayloadKey.name_inj h.1), fun _ => h.2⟩

theorem Scalar.sortKeys_literal (s : Scalar) : s.literal.sortKeys = s.literal := by
  cases s <;> rfl

/-- A literal of a known kind belongs to one scalar. -/
theorem Scalar.literal_inj {s t : Scalar} (hkind : s.kind = t.kind)
    (hliteral : s.literal.sortKeys = t.literal.sortKeys) : s = t := by
  -- a literal is read back as its scalar
  have hread := s.ofRaw_literal
  rw [s.sortKeys_literal, t.sortKeys_literal] at hliteral
  rw [hkind, hliteral, t.ofRaw_literal] at hread
  exact (Except.ok.inj hread).symm

theorem EnumConst.payload_inj {e f : EnumConst} (h : e.payload.sortKeys = f.payload.sortKeys) :
    e = f := by
  obtain ⟨htype, hconstant⟩ := sortKeys_pair_inj (by decide) h
  cases e
  cases f
  rw [EnumConst.mk.injEq]
  exact ⟨Json.string.inj htype, Json.string.inj hconstant⟩

theorem ClassLiteral.payload_inj {c d : ClassLiteral}
    (h : c.payload.sortKeys = d.payload.sortKeys) : c = d := by
  have hdescriptor := sortKeys_single_inj h
  cases c
  cases d
  rw [ClassLiteral.mk.injEq]
  exact Json.string.inj hdescriptor

theorem Parameter.sortKeys_inj {p q : Parameter}
    (hvalue : p.value.fullPayload.sortKeys = q.value.fullPayload.sortKeys → p.value = q.value)
    (h : p.fullPayload.sortKeys = q.fullPayload.sortKeys) : p = q := by
  rw [p.fullPayload_eq, q.fullPayload_eq] at h
  obtain ⟨hname, hheld⟩ := sortKeys_pair_inj (by decide) h
  have heq := hvalue hheld
  cases p
  cases q
  rw [Parameter.mk.injEq]
  exact ⟨Json.string.inj hname, heq⟩

theorem map_inj_of_mem {α β : Type} {f : α → β} {xs ys : List α}
    (hinj : ∀ x ∈ xs, ∀ y, f x = f y → x = y) (h : xs.map f = ys.map f) : xs = ys := by
  induction xs generalizing ys with
  | nil => exact (List.map_eq_nil_iff.mp h.symm).symm
  | cons x xs ih =>
    rcases ys with _ | ⟨y, ys⟩
    · cases h
    · obtain ⟨hhead, htail⟩ := List.cons.inj h
      rw [hinj x List.mem_cons_self y hhead,
        ih (fun z hz => hinj z (List.mem_cons_of_mem x hz)) htail]

/-- Arrays of stored forms are equal item by item. -/
theorem array_inj {α : Type} {f : α → Json} {xs ys : List α}
    (hinj : ∀ x ∈ xs, ∀ y, (f x).sortKeys = (f y).sortKeys → x = y)
    (h : (Json.array (xs.map f)).sortKeys = (Json.array (ys.map f)).sortKeys) : xs = ys := by
  simp only [Json.sortKeys, sortKeysList_eq_map, List.map_map] at h
  exact map_inj_of_mem hinj (Json.array.inj h)

theorem Annot.fullPayload_eq (a : Annot) :
    a.fullPayload = .object [("name", .string a.name), ("parameters", match a.parameters with
      | some ps => .array (ps.map Parameter.fullPayload)
      | none => .null)] := by
  obtain ⟨name, _ | ps⟩ := a
  · rfl
  · rw [Annot.fullPayload, Parameter.fullPayloadList_eq_map]

theorem Parameter.sortKeys_fullPayload (p : Parameter) :
    p.fullPayload.sortKeys =
      .object [("name", .string p.name), ("value", p.value.fullPayload.sortKeys)] := by
  rw [p.fullPayload_eq, sortKeys_pair (by decide)]
  rfl

theorem Annot.sortKeys_fullPayload (name : Str) (ps : List Parameter) :
    (Annot.fullPayload ⟨name, some ps⟩).sortKeys =
      .object [("name", .string name),
        ("parameters", .array (ps.map fun p => p.fullPayload.sortKeys))] := by
  rw [Annot.fullPayload, sortKeys_pair (by decide), Parameter.fullPayloadList_eq_map,
    Json.sortKeys, Json.sortKeys, sortKeysList_eq_map, List.map_map]
  rfl

private theorem sortKeys_inj_cases :
    TreeCases
      (fun v => ∀ w : Value, v.fullPayload.sortKeys = w.fullPayload.sortKeys → v = w)
      (fun a => ∀ b : Annot, a.fullPayload.sortKeys = b.fullPayload.sortKeys → a = b) where
  -- in each case the key leaves one form for the other value
  scalar s w h := by
    obtain ⟨hkey, hheld⟩ := Value.held_of_sortKeys h
    cases w with
    | scalar t =>
      have hkind : s.kind = t.kind := by simpa [Value.payloadKey] using hkey
      rw [Scalar.literal_inj hkind (hheld (Option.some_ne_none _))]
    | _ => cases hkey
  string t w h := by
    obtain ⟨hkey, hheld⟩ := Value.held_of_sortKeys h
    cases w with
    | string u => rw [Json.string.inj (hheld (Option.some_ne_none _))]
    | _ => cases hkey
  array items ih w h := by
    obtain ⟨hkey, hheld⟩ := Value.held_of_sortKeys h
    cases w with
    | array others => rw [array_inj ih (hheld (Option.some_ne_none _))]
    | _ => cases hkey
  enumConst ref w h := by
    obtain ⟨hkey, hheld⟩ := Value.held_of_sortKeys h
    cases w with
    | enumConst other => rw [EnumConst.payload_inj (hheld (Option.some_ne_none _))]
    | _ => cases hkey
  classLiteral ref w h := by
    obtain ⟨hkey, hheld⟩ := Value.held_of_sortKeys h
    cases w with
    | classLiteral other => rw [ClassLiteral.payload_inj (hheld (Option.some_ne_none _))]
    | _ => cases hkey
  annot a ih w h := by
    obtain ⟨hkey, hheld⟩ := Value.held_of_sortKeys h
    cases w with
    | annot b => rw [ih b (hheld (Option.some_ne_none _))]
    | _ => cases hkey
  absent w h := by
    obtain ⟨hkey, -⟩ := Value.held_of_sortKeys h
    cases w with
    | absent => rfl
    | _ => cases hkey
  node a ih b h := by
    rw [a.fullPayload_eq, b.fullPayload_eq] at h
    obtain ⟨hname, hparameters⟩ := sortKeys_pair_inj (by decide) h
    obtain ⟨name, parameters⟩ := a
    obtain ⟨other, others⟩ := b
    obtain rfl : name = other := Json.string.inj hname
    -- null and the empty list are told apart
    rcases parameters with _ | ps <;> rcases others with _ | qs
    · rfl
    · cases hparameters
    · cases hparameters
    · have hsame : ps = qs :=
        array_inj (fun p hp q => Parameter.sortKeys_inj (ih p hp q.value)) hparameters
      rw [hsame]

/-- A stored form with sorted keys belongs to one annotation. -/
theorem Annot.fullPayload_sortKeys_inj {a b : Annot}
    (h : a.fullPayload.sortKeys = b.fullPayload.sortKeys) : a = b :=
  sortKeys_inj_cases.all.2 a b h

/-! ## §4 Canonical texts -/

/-- **A canonical text belongs to one annotation.** -/
theorem Annot.canonical_inj {a b : Annot}
    (h : a.fullPayload.canonical = b.fullPayload.canonical) : a = b :=
  Annot.fullPayload_sortKeys_inj (write_inj compact_isPlain a.isReadable_fullPayload.sortKeys
    b.isReadable_fullPayload.sortKeys h)

/-! ## §5 Identifiers -/

theorem identifierOf_eq_ok {j : Json} {octets : List Text.Octet}
    (h : j.canonical.encode = .ok octets) :
    identifierOf j = .ok ("ann_" ++ Sha256.hexDigest octets) := by
  rw [identifierOf, h]
  rfl

theorem identifierOf_eq_error {j : Json} (h : j.isWellFormed = false) :
    identifierOf j = .error .unencodable := by
  rw [identifierOf, Str.encode_eq_error (j.isWellFormed_canonical.trans h)]
  rfl

theorem identifierOf_eq_ok_iff {j : Json} {identifier : Str} :
    identifierOf j = .ok identifier ↔ ∃ octets, j.canonical.encode = .ok octets ∧
      identifier = "ann_" ++ Sha256.hexDigest octets := by
  constructor
  · intro h
    obtain ⟨octets, hencode, heq⟩ := bind_eq_ok.mp h
    exact ⟨octets, hencode, (Except.ok.inj heq).symm⟩
  · rintro ⟨octets, hencode, rfl⟩
    exact identifierOf_eq_ok hencode

theorem exists_identifierOf_iff {j : Json} :
    (∃ identifier, identifierOf j = .ok identifier) ↔ j.isWellFormed = true := by
  rw [← j.isWellFormed_canonical]
  constructor
  · rintro ⟨identifier, h⟩
    obtain ⟨octets, hencode, -⟩ := identifierOf_eq_ok_iff.mp h
    obtain ⟨t, ht, -⟩ := Str.encode_eq_ok_iff.mp hencode
    exact Str.isWellFormed_iff.mpr ⟨t, ht⟩
  · intro h
    obtain ⟨octets, hencode⟩ := Str.exists_encode_eq_ok h
    exact ⟨_, identifierOf_eq_ok hencode⟩

namespace Annot

variable {settings : Settings} {a : Annot}

theorem identifier_of_fits (h : a.Fits settings.maxDepth 0) :
    a.identifier settings = identifierOf a.fullPayload := by
  rw [identifier, (a.payload_spec settings 0).ok h]
  rfl

theorem identifier_of_not_fits (h : ¬a.Fits settings.maxDepth 0) :
    a.identifier settings = .error (.tooDeep ⟨settings.maxDepth, .serialize⟩) := by
  obtain ⟨walk, hwalk, herror⟩ := (a.payload_spec settings 0).tooDeep h
  rw [List.mem_singleton.mp hwalk] at herror
  rw [identifier, herror]
  rfl

/-- **An annotation has an identifier** exactly if it has a well-formed stored form. -/
theorem exists_identifier_iff :
    (∃ identifier, a.identifier settings = .ok identifier) ↔
      ∃ j, a.payload settings 0 = .ok j ∧ j.isWellFormed = true := by
  by_cases h : a.Fits settings.maxDepth 0
  · have hpayload := (a.payload_spec settings 0).ok h
    rw [identifier_of_fits h, exists_identifierOf_iff]
    constructor
    · exact fun hwell => ⟨_, hpayload, hwell⟩
    · rintro ⟨j, hj, hwell⟩
      rw [hpayload] at hj
      exact Except.ok.inj hj ▸ hwell
  · rw [identifier_of_not_fits h]
    constructor
    · rintro ⟨identifier, heq⟩
      cases heq
    · rintro ⟨j, hj, -⟩
      exact absurd ((a.payload_spec settings 0).of_eq_ok hj).1 h

end Annot

/-- Canonical texts of different digests have different identifiers. The octets are taken from the
strings, so that nothing has to be decoded where the digests are computed. -/
theorem identifierOf_ne {j k : Json} {s t : String} (hj : j.canonical = s) (hk : k.canonical = t)
    (h : Sha256.hexDigest s.toByteArray.data.toList ≠ Sha256.hexDigest t.toByteArray.data.toList) :
    identifierOf j ≠ identifierOf k := by
  rw [identifierOf_eq_ok (by rw [hj, Str.encode_ofString]),
    identifierOf_eq_ok (by rw [hk, Str.encode_ofString]), Text.encodeUtf8_eq, Text.encodeUtf8_eq]
  intro heq
  have hhex := (Str.append_right_inj "ann_").mp (Except.ok.inj heq)
  exact h (Str.ofString_inj.mp hhex)

end AnnoTree
