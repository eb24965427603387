import AnnoTree.Types.Entity

/-!
# Looking references up

A `Lookup` finds types, base types and constants by name, in some state that it may change on the
way. What a reference denotes is then found in a fixed order: for an enum constant first the type,
then whether it is an enum, then the constant.
-/

namespace AnnoTree

/-- Ways to find what names denote, in a state of type `σ`. -/
structure Lookup (σ : Type) where
  resolveType : σ → Str → σ × Except Failure Entity
  resolveBase : σ → Str → σ × Except Failure Entity
  isEnum : σ → Entity → Bool
  resolveConstant : σ → Entity → Str → Except Failure Entity

/-- What a signature denotes: a type, under a number of array dimensions. -/
structure Denoted where
  element : Entity
  dimensions : Nat

namespace Lookup

variable {σ : Type}

/-- A lookup fault as a failure. -/
def fault {α : Type} (f : LookupFault) : Except Failure α :=
  .error (.lookup f)

/-- Does something with what was found, in the state after finding it. -/
def andThen {α : Type} (found : σ × Except Failure Entity)
    (next : σ → Entity → σ × Except Failure α) : σ × Except Failure α :=
  match found with
  | (s, .error e) => (s, .error e)
  | (s, .ok entity) => next s entity

/-- The constant that an enum constant denotes. -/
def enumConst (l : Lookup σ) (s : σ) (ref : EnumConst) : σ × Except Failure Entity :=
  andThen (l.resolveType s ref.typeName) fun s type =>
    if l.isEnum s type then (s, l.resolveConstant s type ref.constantName)
    else (s, fault (.notAnEnum ref.typeName (some type.foundName)))

/-- The type that an element type denotes. -/
def element (l : Lookup σ) (s : σ) : ElementType → σ × Except Failure Entity
  | .base b => l.resolveBase s b.name
  | .named className => l.resolveType s className

/-- The type that a signature denotes. -/
def signature (l : Lookup σ) (s : σ) (g : Signature) : σ × Except Failure Denoted :=
  andThen (l.element s g.element) fun s type => (s, .ok ⟨type, g.dimensions⟩)

/-- The type that a class literal denotes. -/
def classLiteral (l : Lookup σ) (s : σ) (ref : ClassLiteral) : σ × Except Failure Denoted :=
  match Signature.parse ref.descriptor with
  | .ok g => l.signature s g
  | .error m => (s, fault (.malformed m))

/-- The type that the name of an annotation denotes. -/
def annotType (l : Lookup σ) (s : σ) (a : Annot) : σ × Except Failure Entity :=
  l.resolveType s a.name

/-- What a raw value that is a reference denotes. -/
def reference (l : Lookup σ) (s : σ) : Raw → σ × Except Failure Denoted
  | .enumConst ref => andThen (l.enumConst s ref) fun s entity => (s, .ok ⟨entity, 0⟩)
  | .classLiteral ref => l.classLiteral s ref
  | _ => (s, .error .noSuchProperty)

end Lookup

end AnnoTree
