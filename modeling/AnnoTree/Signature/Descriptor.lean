import AnnoTree.Signature.Basic
import AnnoTree.Text.Quoted
import AnnoTree.Text.Split

/-!
# Type descriptors

Two spellings of a signature: the field descriptor of compiled files (`[[Ljava/lang/String;`, `I`)
and the source form (`java.lang.String[][]`, `int`). `Signature.parse` reads both.

A text that is neither is reported with the position, in characters, where the reading stopped.
Positions count in the text without the blanks around it.
-/

namespace AnnoTree

open AnnoTree.Text
open CodePoint (char)

/-! ## §1 Faults -/

/-- Why a text is no type descriptor. -/
inductive DescriptorFault where
  | emptyDescriptor
  | missingElement
  | unterminatedClass
  | trailingAfterClass
  | emptyClassName
  | baseAsClass (name : Str)
  | invalidSegment (segment : Str)
  | unknownCode (code : CodePoint)
  | trailingAfterBase
  | voidElement
  deriving DecidableEq, Repr

/-- The wording of a fault. -/
def DescriptorFault.message : DescriptorFault → Str
  | .emptyDescriptor => "empty descriptor"
  | .missingElement => "missing element type"
  | .unterminatedClass => "unterminated class type, expected ';'"
  | .trailingAfterClass => "trailing characters after class type"
  | .emptyClassName => "empty class name"
  | .baseAsClass name => "base type " ++ quoted name ++ " cannot be a class type"
  | .invalidSegment segment => "invalid class name segment " ++ quoted segment
  | .unknownCode code => "unknown type code " ++ quoted (Str.singleton code)
  | .trailingAfterBase => "trailing characters after base type"
  | .voidElement => "void cannot be an array element"

/-- A text that is no type descriptor. -/
structure Malformed where
  descriptor : Str
  position : Nat
  fault : DescriptorFault
  deriving DecidableEq, Repr

/-- The wording of a malformed descriptor, given the descriptor and the position as messages show
them and the wording of the fault. -/
def Malformed.describe (descriptor position reason : Str) : Str :=
  "Malformed type descriptor " ++ descriptor ++ " at offset " ++ position ++ ": " ++ reason

/-- The whole wording of a malformed descriptor. -/
def Malformed.message (m : Malformed) : Str :=
  describe (quoted m.descriptor) (toString m.position) m.fault.message

/-! ## §2 Class names -/

/-- A character that may begin an identifier. -/
def isIdentifierStart (c : Char) : Bool :=
  c.isAlpha || c == '_' || c == '$'

/-- A character that may continue an identifier. -/
def isIdentifierRest (c : Char) : Bool :=
  isIdentifierStart c || c.isDigit

/-- An identifier of ASCII letters, digits, underscores and dollar signs. -/
def isIdentifier : List CodePoint → Bool
  | [] => false
  | c :: rest => c.satisfies isIdentifierStart && rest.all (·.satisfies isIdentifierRest)

/-- The first segment that is no identifier, with its position. -/
def firstBadSegment? (position : Nat) : List (List CodePoint) → Option (Nat × List CodePoint)
  | [] => none
  | s :: rest =>
    if isIdentifier s then firstBadSegment? (position + s.length + 1) rest else some (position, s)

/-- The element type of a dotted class name that stands at a position. -/
def namedElement (position : Nat) (name : List CodePoint) :
    Except (Nat × DescriptorFault) ElementType :=
  match firstBadSegment? position (splitAt (char '.') name) with
  | some (at_, segment) => .error (at_, .invalidSegment (Str.ofList segment))
  | none => .ok (.named (Str.ofList name))

/-! ## §3 Field descriptors -/

/-- The element type of a field descriptor, whose marks for `dimensions` have been read. -/
def fieldElement (dimensions : Nat) (cs : List CodePoint) :
    Except (Nat × DescriptorFault) ElementType :=
  match cs with
  | [] => .error (dimensions, .missingElement)
  | 'L' :: rest =>
    let name := rest.takeWhile (· != char ';')
    match rest.dropWhile (· != char ';') with
    | [] => .error (dimensions + 1 + rest.length, .unterminatedClass)
    | _ :: _ :: _ => .error (dimensions + 2 + name.length, .trailingAfterClass)
    | [_] =>
      if name.isEmpty then .error (dimensions + 1, .emptyClassName)
      else
        let dotted := name.map fun c => if c = char '/' then char '.' else c
        match BaseType.ofName? (Str.ofList dotted) with
        | some b => .error (dimensions + 1, .baseAsClass b.name)
        | none => namedElement (dimensions + 1) dotted
  | c :: rest =>
    match BaseType.ofCode? c with
    | none => .error (dimensions, .unknownCode c)
    | some b =>
      if !rest.isEmpty then .error (dimensions + 1, .trailingAfterBase)
      else if b = .void ∧ dimensions ≠ 0 then .error (dimensions, .voidElement)
      else .ok (.base b)

/-- The signature of a field descriptor. -/
def parseField (cs : List CodePoint) : Except (Nat × DescriptorFault) Signature :=
  let dimensions := (cs.takeWhile (· == char '[')).length
  (fieldElement dimensions (cs.dropWhile (· == char '['))).map (⟨·, dimensions⟩)

/-! ## §4 Source forms -/

/-- The number of bracket pairs at the front of a reversed text, and what follows them. -/
def splitBrackets : List CodePoint → Nat × List CodePoint
  | ']' :: '[' :: rest =>
    let (n, name) := splitBrackets rest
    (n + 1, name)
  | cs => (0, cs)

/-- The signature of a source form. -/
def parseSource (cs : List CodePoint) : Except (Nat × DescriptorFault) Signature :=
  let (dimensions, reversed) := splitBrackets cs.reverse
  let name := reversed.reverse
  if name.isEmpty then .error (0, .missingElement)
  else
    match BaseType.ofName? (Str.ofList name) with
    | some b =>
      if b = .void ∧ dimensions ≠ 0 then .error (name.length, .voidElement)
      else .ok ⟨.base b, dimensions⟩
    | none => (namedElement 0 name).map (⟨·, dimensions⟩)

/-! ## §5 Descriptors -/

/-- Whether a text is to be read as a field descriptor. -/
def looksLikeField (cs : List CodePoint) : Bool :=
  match cs with
  | '[' :: _ => true
  | [c] => (BaseType.ofCode? c).isSome
  | 'L' :: rest => rest.getLast? == some (char ';')
  | _ => false

/-- The signature that a descriptor of either spelling names. -/
def Signature.parse (descriptor : Str) : Except Malformed Signature :=
  let text := (strip descriptor).toList
  if text.isEmpty then .error ⟨descriptor, 0, .emptyDescriptor⟩
  else
    (if looksLikeField text then parseField text else parseSource text).mapError
      fun (position, fault) => ⟨Str.ofList text, position, fault⟩

end AnnoTree
