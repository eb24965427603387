import AnnoTree.Proofs.Entries
import AnnoTree.Proofs.Identifier.Canonical
import AnnoTree.Proofs.Loading.RoundTrip

/-!
# Identifiers stand for content

Annotations with one canonical text are one annotation, so they are equal and have one text. If
the digest tells the canonical texts of some annotations apart, a table of their identifiers has
one entry for each content, with the text of every annotation of that content, in whatever order
the annotations come.

## Main definitions

- `Annot.digested`: the octets that are digested for annotations.
- `IsIdentifierTable`: the entries of a table are the identifiers of annotations with their texts.

## Main statements

- `get?_keepFirsts`: a table keeps the first text of each identifier.
- `Annot.identifiers_eq_ok_iff`: when a table is made of annotations, and which.
- `identifiers_stand_for_content`: canonical texts and identifiers stand for content.
-/

namespace AnnoTree

open Text

variable {settings : Settings}

/-! ## §1 Tables that keep the first entry of a key -/

/-- A table of the first entries of each key. -/
def keepFirsts (entries pairs : List (Str × Str)) : List (Str × Str) :=
  pairs.foldl (fun es p => keepFirst es p.1 p.2) entries

theorem get?_keepFirst (key text other : Str) (entries : List (Str × Str)) :
    Entries.get? other (keepFirst entries key text) =
      (Entries.get? other entries).or (Entries.get? other [(key, text)]) := by
  unfold keepFirst Entries.hasKey
  split
  next hkey =>
    -- the key is there, and the entry that comes first is kept
    obtain ⟨first, hfirst⟩ := Option.isSome_iff_exists.mp hkey
    by_cases h : key = other
    · subst h
      rw [hfirst, Option.some_or]
    · have hnone : Entries.get? other [(key, text)] = none := by
        simp [Entries.get?, h]
      rw [hnone, Option.or_none]
  next => rw [Entries.get?_append]

/-- Looking up in the table gives the first text of a key. -/
theorem get?_keepFirsts (other : Str) (entries pairs : List (Str × Str)) :
    Entries.get? other (keepFirsts entries pairs) =
      (Entries.get? other entries).or (Entries.get? other pairs) := by
  -- by induction on the pairs, for any table that has been made so far
  induction pairs generalizing entries with
  | nil => exact (Option.or_none).symm
  | cons p rest ih =>
    have hstep : keepFirsts entries (p :: rest) =
        keepFirsts (keepFirst entries p.1 p.2) rest := rfl
    have hsplit : Entries.get? other (p :: rest) =
        (Entries.get? other [p]).or (Entries.get? other rest) := Entries.get?_append other [p] rest
    rw [hstep, ih, get?_keepFirst, hsplit, Option.or_assoc]

theorem mem_keys_keepFirsts {key : Str} {pairs : List (Str × Str)} :
    key ∈ Entries.keys (keepFirsts [] pairs) ↔ key ∈ Entries.keys pairs := by
  rw [Entries.mem_keys_iff, Entries.mem_keys_iff, get?_keepFirsts, Entries.get?, Option.none_or]

theorem nodup_keepFirst {entries : List (Str × Str)} (key text : Str)
    (h : (Entries.keys entries).Nodup) : (Entries.keys (keepFirst entries key text)).Nodup := by
  unfold keepFirst
  split
  next => exact h
  next hkey =>
    have hnew : key ∉ Entries.keys entries := by
      rw [Entries.mem_keys_iff]
      rintro ⟨first, hfirst⟩
      exact hkey (by rw [Entries.hasKey, hfirst]; rfl)
    simp only [Entries.keys, List.map_append, List.map_cons, List.map_nil] at h hnew ⊢
    exact List.nodup_append.mpr ⟨h, List.nodup_singleton key, by
      rintro other hother _ hsame rfl
      exact hnew (List.mem_singleton.mp hsame ▸ hother)⟩

theorem nodup_keepFirsts {entries : List (Str × Str)} (pairs : List (Str × Str))
    (h : (Entries.keys entries).Nodup) : (Entries.keys (keepFirsts entries pairs)).Nodup := by
  induction pairs generalizing entries with
  | nil => exact h
  | cons p rest ih => exact ih (nodup_keepFirst p.1 p.2 h)

/-! ## §2 Tables of identifiers -/

namespace Annot

/-- The annotation has a well-formed stored form, and so an identifier. -/
def IsIdentified (settings : Settings) (a : Annot) : Prop :=
  ∃ j, a.payload settings 0 = .ok j ∧ j.isWellFormed = true

/-- The octets that are digested for an annotation, however deep it is nested. -/
def octets (a : Annot) : List Octet :=
  encodeUtf8 (String.ofList a.fullPayload.canonical.chars)

/-- The identifier of an annotation with its text, however deep it is nested. -/
def labelled (settings : Settings) (a : Annot) : Str × Str :=
  ("ann_" ++ Sha256.hexDigest a.octets, a.fullText settings)

theorem IsIdentified.fits {a : Annot} (h : a.IsIdentified settings) :
    a.Fits settings.maxDepth 0 := by
  obtain ⟨j, hj, -⟩ := h
  exact ((a.payload_spec settings 0).of_eq_ok hj).1

theorem IsIdentified.encode {a : Annot} (h : a.IsIdentified settings) :
    a.fullPayload.canonical.encode = .ok a.octets := by
  obtain ⟨j, hj, hwell⟩ := h
  obtain ⟨-, rfl⟩ := (a.payload_spec settings 0).of_eq_ok hj
  rw [← Json.isWellFormed_canonical] at hwell
  obtain ⟨t, ht⟩ := Str.isWellFormed_iff.mp hwell
  rw [octets, ht, Str.encode_ofString, Str.chars_ofString, String.ofList_toList]

theorem IsIdentified.identifier {a : Annot} (h : a.IsIdentified settings) :
    a.identifier settings = .ok (a.labelled settings).1 := by
  rw [identifier_of_fits h.fits, identifierOf_eq_ok h.encode]
  rfl

/-- One more annotation in a table: its identifier, its text, and the entry. -/
def enter (settings : Settings) (entries : List (Str × Str)) (a : Annot) :
    Except Failure (List (Str × Str)) := do
  let key ← a.identifier settings
  let text ← liftWalk (a.render settings 0)
  return keepFirst entries key text

theorem IsIdentified.enter {a : Annot} (h : a.IsIdentified settings) (entries : List (Str × Str)) :
    a.enter settings entries =
      .ok (keepFirst entries (a.labelled settings).1 (a.labelled settings).2) := by
  rw [Annot.enter, h.identifier, (a.render_spec settings 0).ok h.fits]
  rfl

theorem isIdentified_of_enter {a : Annot} {entries table : List (Str × Str)}
    (h : a.enter settings entries = .ok table) : a.IsIdentified settings := by
  obtain ⟨key, hkey, -⟩ := bind_eq_ok.mp h
  exact exists_identifier_iff.mp ⟨key, hkey⟩

/-- **A table is made of annotations** exactly if each of them is identified. -/
theorem identifiers_eq_ok_iff {annots : List Annot} {table : List (Str × Str)} :
    Annot.identifiers settings annots = .ok table ↔
      (∀ a ∈ annots, a.IsIdentified settings) ∧
        table = keepFirsts [] (annots.map (labelled settings)) := by
  show annots.foldlM (enter settings) [] = .ok table ↔ _
  -- by induction on the annotations, for any table that has been made so far
  generalize ([] : List (Str × Str)) = entries
  induction annots generalizing entries with
  | nil =>
    rw [List.foldlM_nil, List.map_nil]
    exact ⟨fun h => ⟨List.forall_mem_nil _, (Except.ok.inj h).symm⟩, fun h => congrArg _ h.2.symm⟩
  | cons a rest ih =>
    rw [List.foldlM_cons, bind_eq_ok, List.forall_mem_cons]
    constructor
    · rintro ⟨entered, henter, hrest⟩
      have ha := isIdentified_of_enter henter
      rw [ha.enter, Except.ok.injEq] at henter
      subst henter
      exact ⟨⟨ha, ((ih _).mp hrest).1⟩, ((ih _).mp hrest).2⟩
    · rintro ⟨⟨ha, hrest⟩, htable⟩
      exact ⟨_, ha.enter entries, (ih _).mpr ⟨hrest, htable⟩⟩

end Annot

/-! ## §3 What identifiers stand for -/

/-- The octets that are digested for annotations. -/
def Annot.digested (settings : Settings) (annots : List Annot) : Set (List Octet) :=
  {octets | ∃ a ∈ annots, ∃ j, a.payload settings 0 = .ok j ∧ j.canonical.encode = .ok octets}

/-- A table has the identifiers of annotations as its keys, each once. -/
structure IsIdentifierTable (settings : Settings) (annots : List Annot)
    (table : List (Str × Str)) : Prop where
  nodup : (Entries.keys table).Nodup
  keys : ∀ id, id ∈ Entries.keys table ↔ ∃ a ∈ annots, a.identifier settings = .ok id

theorem isIdentifierTable_keepFirsts {annots : List Annot}
    (h : ∀ a ∈ annots, a.IsIdentified settings) :
    IsIdentifierTable settings annots (keepFirsts [] (annots.map (Annot.labelled settings))) := by
  refine ⟨nodup_keepFirsts _ List.nodup_nil, fun id => ?_⟩
  rw [mem_keys_keepFirsts, Entries.keys, List.map_map, List.mem_map]
  refine exists_congr fun a => and_congr_right fun ha => ?_
  rw [(h a ha).identifier, Except.ok.injEq]
  rfl

/-- Where the digest tells canonical texts apart, an identifier belongs to one annotation. -/
theorem labelled_inj {annots : List Annot}
    (hdigest : Set.InjOn Sha256.hexDigest (Annot.digested settings annots))
    (hall : ∀ a ∈ annots, a.IsIdentified settings) {a b : Annot} (ha : a ∈ annots)
    (hb : b ∈ annots) (h : (a.labelled settings).1 = (b.labelled settings).1) : a = b := by
  have hmem : ∀ c ∈ annots, c.octets ∈ Annot.digested settings annots := fun c hc =>
    ⟨c, hc, c.fullPayload, (c.payload_spec settings 0).ok (hall c hc).fits, (hall c hc).encode⟩
  -- from the identifier to the digest, the octets, the text and the annotation
  have hhex := Str.ofString_inj.mp ((Str.append_right_inj "ann_").mp h)
  have hoctets := hdigest (hmem a ha) (hmem b hb) hhex
  exact Annot.canonical_inj (Str.encode_inj (hoctets ▸ (hall a ha).encode) (hall b hb).encode)

/-- The annotations of a table, labelled, give an identifier one text only. -/
theorem labelled_functional {annots : List Annot}
    (hdigest : Set.InjOn Sha256.hexDigest (Annot.digested settings annots))
    (hall : ∀ a ∈ annots, a.IsIdentified settings) :
    ∀ e ∈ annots.map (Annot.labelled settings), ∀ f ∈ annots.map (Annot.labelled settings),
      e.1 = f.1 → e.2 = f.2 := by
  simp only [List.forall_mem_map]
  intro a ha b hb h
  rw [labelled_inj hdigest hall ha hb h]

/-- The text under the identifier of an annotation is the text of that annotation. -/
theorem get?_labelled {annots : List Annot}
    (hdigest : Set.InjOn Sha256.hexDigest (Annot.digested settings annots))
    (hall : ∀ a ∈ annots, a.IsIdentified settings) {a : Annot} (ha : a ∈ annots) :
    Entries.get? (a.labelled settings).1
      (keepFirsts [] (annots.map (Annot.labelled settings))) = some (a.fullText settings) := by
  rw [get?_keepFirsts, Entries.get?, Option.none_or,
    Entries.get?_eq_some_iff (labelled_functional hdigest hall)]
  exact List.mem_map_of_mem ha

/-- **Identifiers stand for content.** Two annotations whose stored forms have one canonical text
have one stored form, are equal and have one text. A table of identifiers is made of annotations
if all of them have a well-formed stored form, and it has each of their identifiers once. If the
digest tells their canonical texts apart, it has under each identifier the text of every annotation
that has it, and is the same for every order of the annotations. -/
theorem identifiers_stand_for_content (settings : Settings) :
    (∀ (a b : Annot) (j k : Json), a.payload settings 0 = .ok j → b.payload settings 0 = .ok k →
      j.canonical = k.canonical →
      j = k ∧ (Raw.annot a).equal settings (.annot b) = .ok true ∧
        ∃ text, a.render settings 0 = .ok text ∧ b.render settings 0 = .ok text) ∧
    ∀ annots : List Annot,
      ((∃ table, Annot.identifiers settings annots = .ok table) ↔
        ∀ a ∈ annots, ∃ j, a.payload settings 0 = .ok j ∧ j.isWellFormed = true) ∧
      ∀ table, Annot.identifiers settings annots = .ok table →
        IsIdentifierTable settings annots table ∧
        (Set.InjOn Sha256.hexDigest (Annot.digested settings annots) →
          (∀ a ∈ annots, ∃ id text, a.identifier settings = .ok id ∧
            a.render settings 0 = .ok text ∧ Entries.get? id table = some text) ∧
          ∀ others : List Annot, others.Perm annots → ∃ other,
            Annot.identifiers settings others = .ok other ∧
            ∀ id, Entries.get? id other = Entries.get? id table) := by
  refine ⟨fun a b j k hj hk hcanonical => ?_, fun annots => ⟨?_, fun table htable => ?_⟩⟩
  · obtain ⟨ha, rfl⟩ := (a.payload_spec settings 0).of_eq_ok hj
    obtain ⟨-, rfl⟩ := (b.payload_spec settings 0).of_eq_ok hk
    obtain rfl := Annot.canonical_inj hcanonical
    exact ⟨rfl, Raw.equal_self ha, _, (a.render_spec settings 0).ok ha,
      (a.render_spec settings 0).ok ha⟩
  · constructor
    · rintro ⟨table, htable⟩
      exact (Annot.identifiers_eq_ok_iff.mp htable).1
    · exact fun hall => ⟨_, Annot.identifiers_eq_ok_iff.mpr ⟨hall, rfl⟩⟩
  · obtain ⟨hall, rfl⟩ := Annot.identifiers_eq_ok_iff.mp htable
    refine ⟨isIdentifierTable_keepFirsts hall, fun hdigest => ⟨?_, ?_⟩⟩
    · intro a ha
      exact ⟨_, _, (hall a ha).identifier, (a.render_spec settings 0).ok (hall a ha).fits,
        get?_labelled hdigest hall ha⟩
    · -- what a key gives does not depend on which of its entries comes first
      intro others hperm
      have hothers : ∀ a ∈ others, a.IsIdentified settings := by
        simpa only [hperm.mem_iff] using hall
      refine ⟨_, Annot.identifiers_eq_ok_iff.mpr ⟨hothers, rfl⟩, fun id => ?_⟩
      rw [get?_keepFirsts, get?_keepFirsts,
        Entries.get?_perm (hperm.map _).symm (labelled_functional hdigest hall)]

theorem canonical_of_known :
    (Annot.fullPayload ⟨"A", some []⟩).canonical = "\x7b\"name\":\"A\",\"parameters\":[]\x7d" := by
  rw [Json.canonical, Annot.fullPayload, Json.sortKeys_pair (by decide)]
  rfl

theorem canonical_of_unknown :
    (Annot.fullPayload ⟨"A", none⟩).canonical = "\x7b\"name\":\"A\",\"parameters\":null\x7d" := by
  rw [Json.canonical, Annot.fullPayload, Json.sortKeys_pair (by decide)]
  rfl

/-- A case of it: an annotation without parameters, twice, and one with unknown ones between. -/
theorem unknown_parameters_have_their_own_identifier :
    (Raw.annot ⟨"A", some []⟩).equal {} (.annot ⟨"A", some []⟩) = .ok true ∧
    ∃ table, Annot.identifiers {} [⟨"A", some []⟩, ⟨"A", none⟩, ⟨"A", some []⟩] = .ok table ∧
      IsIdentifierTable {} [⟨"A", some []⟩, ⟨"A", none⟩, ⟨"A", some []⟩] table ∧
      ∀ a ∈ [(⟨"A", some []⟩ : Annot), ⟨"A", none⟩, ⟨"A", some []⟩], ∃ id text,
        a.identifier {} = .ok id ∧ a.render {} 0 = .ok text ∧
        Entries.get? id table = some text := by
  have hdigest : Set.InjOn Sha256.hexDigest
      (Annot.digested {} [⟨"A", some []⟩, ⟨"A", none⟩, ⟨"A", some []⟩]) := by
    have hpair : Sha256.hexDigest (encodeUtf8 "\x7b\"name\":\"A\",\"parameters\":[]\x7d") ≠
        Sha256.hexDigest (encodeUtf8 "\x7b\"name\":\"A\",\"parameters\":null\x7d") := by
      decide +kernel
    refine (Set.injOn_pair.mpr fun h => absurd h hpair).mono ?_
    rintro octets ⟨a, ha, j, hj, hencode⟩
    obtain ⟨-, rfl⟩ := (a.payload_spec {} 0).of_eq_ok hj
    simp only [List.mem_cons, List.not_mem_nil, or_false] at ha
    rcases ha with rfl | rfl | rfl
    · rw [canonical_of_known, Str.encode_ofString] at hencode
      exact .inl (Except.ok.inj hencode).symm
    · rw [canonical_of_unknown, Str.encode_ofString] at hencode
      exact .inr (Except.ok.inj hencode).symm
    · rw [canonical_of_known, Str.encode_ofString] at hencode
      exact .inl (Except.ok.inj hencode).symm
  obtain ⟨hsame, htables⟩ := identifiers_stand_for_content {}
  obtain ⟨hexists, htable⟩ := htables [⟨"A", some []⟩, ⟨"A", none⟩, ⟨"A", some []⟩]
  obtain ⟨table, hok⟩ := hexists.mpr (by
    simp only [List.forall_mem_cons, List.not_mem_nil, false_implies, implies_true, and_true]
    exact ⟨⟨_, rfl, rfl⟩, ⟨_, rfl, rfl⟩, ⟨_, rfl, rfl⟩⟩)
  exact ⟨(hsame _ _ _ _ rfl rfl rfl).2.1, table, hok, (htable table hok).1,
    ((htable table hok).2 hdigest).1⟩

end AnnoTree
