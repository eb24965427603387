import AnnoTree.Proofs.Encoding.Offences

/-!
# Encoding and unwrapping

Unwrapping goes back to the raw value that was encoded, but for tuples, which come back as lists.
Lists and tuples encode alike, so what comes back encodes to the same value again.

## Main definitions

- `Raw.IsPlain`: a raw value of leaves that unwrap to themselves.
- `Raw.listed`: a raw value with its tuples turned into lists.

## Main statements

- `encoding_is_undone_by_unwrapping`
-/

namespace AnnoTree

/-! ## §1 Plain raw values -/

/-- A raw value of plain leaves, references and annotations, in lists and tuples. -/
inductive Raw.IsPlain : Raw → Prop
  | null : IsPlain .null
  | bool (b : Bool) : IsPlain (.bool b)
  | int (i : Int) : IsPlain (.int i)
  | float (x : Double) : IsPlain (.float x)
  | text (s : Str) : IsPlain (.text s)
  | enumConst (ref : EnumConst) : IsPlain (.enumConst ref)
  | classLiteral (ref : ClassLiteral) : IsPlain (.classLiteral ref)
  | annot (a : Annot) : IsPlain (.annot a)
  | list {items : List Raw} (hitems : ∀ r ∈ items, IsPlain r) : IsPlain (.list items)
  | tuple {items : List Raw} (hitems : ∀ r ∈ items, IsPlain r) : IsPlain (.tuple items)

mutual

/-- A raw value with every tuple turned into a list. -/
def Raw.listed : Raw → Raw
  | .list items => .list (Raw.listedItems items)
  | .tuple items => .list (Raw.listedItems items)
  | raw => raw
termination_by structural raw => raw

/-- Raw values with every tuple turned into a list. -/
def Raw.listedItems : List Raw → List Raw
  | [] => []
  | r :: rest => Raw.listed r :: Raw.listedItems rest
termination_by structural raws => raws

end

theorem Raw.listed_of_leaf {raw : Raw} (hleaf : raw.isSequence = false) : raw.listed = raw := by
  cases raw <;> first | rfl | cases hleaf

/-! ## §2 Unwrapping -/

theorem Value.unwrapList_of_encodesAs {items : List Raw} {vs : List Value}
    (hitems : List.Forall₂ Raw.EncodesAs items vs)
    (hplain : ∀ r ∈ items, r.IsPlain)
    (ih : ∀ r ∈ items, ∀ v, r.IsPlain → r.EncodesAs v → v.unwrap = r.listed) :
    Value.unwrapList vs = Raw.listedItems items := by
  induction hitems with
  | nil => rfl
  | cons hv _ ihrest =>
    rw [List.forall_mem_cons] at hplain ih
    rw [Value.unwrapList, Raw.listedItems, ih.1 _ hplain.1 hv, ihrest hplain.2 ih.2]

private theorem unwrap_cases :
    RawCases fun raw => ∀ v, raw.IsPlain → raw.EncodesAs v → v.unwrap = raw.listed where
  list items ih v hplain hv := by
    cases hplain with
    | list hplain =>
      cases hv with
      | list hitems =>
        rw [Value.unwrap, Raw.listed, Value.unwrapList_of_encodesAs hitems hplain ih]
  tuple items ih v hplain hv := by
    cases hplain with
    | tuple hplain =>
      cases hv with
      | tuple hitems =>
        rw [Value.unwrap, Raw.listed, Value.unwrapList_of_encodesAs hitems hplain ih]
  leaf raw hleaf v hplain hv := by
    rw [Raw.listed_of_leaf hleaf]
    cases hv with
    | value v => cases hplain
    | list hitems => cases hleaf
    | tuple hitems => cases hleaf
    | _ => rfl

/-- The value that a plain raw value stands for unwraps to it, with lists for its tuples. -/
theorem Raw.EncodesAs.unwrap_eq {raw : Raw} {v : Value} (hv : raw.EncodesAs v)
    (hplain : raw.IsPlain) : v.unwrap = raw.listed :=
  unwrap_cases.all raw v hplain hv

/-! ## §3 Encoding again -/

section Again

variable (settings : Settings)

theorem Raw.encodeList_listedItems {depth : Nat} {items : List Raw}
    (ih : ∀ r ∈ items, r.listed.encode settings depth = r.encode settings depth) :
    Raw.encodeList settings depth (Raw.listedItems items) =
      Raw.encodeList settings depth items := by
  induction items with
  | nil => rfl
  | cons r rest ihrest =>
    rw [List.forall_mem_cons] at ih
    rw [Raw.listedItems, Raw.encodeList, Raw.encodeList, ih.1, ihrest ih.2]

private theorem encode_listed_cases :
    RawCases fun raw => ∀ depth : Nat,
      raw.listed.encode settings depth = raw.encode settings depth where
  list items ih depth := by
    rw [Raw.listed, Raw.encode, Raw.encode,
      Raw.encodeList_listedItems settings fun r hr => ih r hr (depth + 1)]
  tuple items ih depth := by
    rw [Raw.listed, Raw.encode, Raw.encode,
      Raw.encodeList_listedItems settings fun r hr => ih r hr (depth + 1)]
  leaf raw hleaf depth := by rw [Raw.listed_of_leaf hleaf]

/-- Lists and tuples of the same items encode alike, or fail alike. -/
theorem Raw.encode_listed (depth : Nat) (raw : Raw) :
    raw.listed.encode settings depth = raw.encode settings depth :=
  (encode_listed_cases settings).all raw depth

end Again

/-- **Encoding is undone by unwrapping**, and unwrapping by encoding. What a plain raw value encodes
to unwraps to the raw value with lists for its tuples, which encodes to the same value. -/
theorem encoding_is_undone_by_unwrapping (settings : Settings) (depth : Nat) {raw : Raw}
    (hplain : raw.IsPlain) {v : Value} (hv : raw.encode settings depth = .ok v) :
    v.unwrap = raw.listed ∧ v.unwrap.encode settings depth = .ok v := by
  have hunwrap : v.unwrap = raw.listed :=
    ((Raw.encode_spec settings depth raw).of_eq_ok hv).unwrap_eq hplain
  refine ⟨hunwrap, ?_⟩
  rw [hunwrap, Raw.encode_listed, hv]

/-- A case of it: a truth value, an integer and a number of the same value stay apart, and the
tuples come back as lists. -/
theorem mixed_tuple_comes_back :
    (Value.array [.scalar (.boolean true), .scalar (.integer .int 1 (by decide)),
        .scalar (.floating .double (Double.ofDecimal false 1 0)),
        .array [.scalar (.integer .long 0x80000000 (by decide)), .string "a", .absent]]).unwrap =
      .list [.bool true, .int 1, .float (Double.ofDecimal false 1 0),
        .list [.int 0x80000000, .text "a", .null]] := by
  have hplain : (Raw.tuple [.bool true, .int 1, .float (Double.ofDecimal false 1 0),
      .tuple [.int 0x80000000, .text "a", .null]]).IsPlain := by
    refine .tuple ?_
    simp only [List.forall_mem_cons]
    refine ⟨.bool _, .int _, .float _, .tuple ?_, by simp⟩
    simp only [List.forall_mem_cons]
    exact ⟨.int _, .text _, .null, by simp⟩
  exact (encoding_is_undone_by_unwrapping {} 0 hplain rfl).1

end AnnoTree
