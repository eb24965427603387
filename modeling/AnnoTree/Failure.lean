import AnnoTree.Nesting
import AnnoTree.Text.Utf8
import AnnoTree.Value.Scalar
import AnnoTree.Value.Reference

/-!
# Failures

Everything that can go wrong with annotations, as causes. Each kind of cause has one function that
words it; `Failure` joins the kinds.

## Kinds

- `Unsupported`: a raw value that no value can hold;
- `FieldIssue`: a field of an object that is missing, of the wrong type or unknown;
- `PayloadFault`: a stored form that is no annotation;
- `LookupFault`: a reference that denotes nothing;
- `StorageFault`: a file that cannot be read or written as rows;
- `ScenarioFault`: an expectation of a scenario that is not met;
- `DeclarationFault`: a declaration that makes no enum type.
-/

namespace AnnoTree

open AnnoTree.Text

/-! ## §1 Raw values -/

/-- What is wrong with a raw value, beyond its type. An integer that is told of has a wording. -/
inductive Misfit where
  | notLiteral (kind : ScalarKind)
  | outOfRange (value : Int) (kind : ScalarKind) (short : isTooLong value = false)
  | wideChar
  | notParameter
  deriving DecidableEq, Repr

/-- The wording of a misfit. -/
def Misfit.message : Misfit → Str
  | .notLiteral kind => "not a " ++ kind.name ++ " literal"
  | .outOfRange value kind _ => toString value ++ " out of range for " ++ kind.name
  | .wideChar => "char must be a single UTF-16 code unit"
  | .notParameter => "expected an AnnotationParameter or a (name, value) pair"

/-- A raw value that no value can hold. -/
structure Unsupported where
  typeName : Str
  misfit : Option Misfit
  deriving DecidableEq, Repr

/-- The wording for the name of a type and what else there is to say. -/
def Unsupported.describe (typeName : Str) (detail : Option Str) : Str :=
  let head := "Unsupported annotation parameter value type: " ++ typeName
  match detail with
  | none => head
  | some "" => head
  | some text => head ++ " (" ++ text ++ ")"

/-- The wording of an unsupported value. -/
def Unsupported.message (u : Unsupported) : Str :=
  describe u.typeName (u.misfit.map Misfit.message)

/-- Why a raw value is no literal of a scalar kind. -/
inductive LiteralFault where
  | unsupported (cause : Unsupported)
  /-- An integer is out of range, and has too many digits to be told of. -/
  | unworded
  deriving DecidableEq, Repr

/-! ## §2 Fields -/

/-- What is wrong with a field. -/
inductive FieldFault where
  | missing
  | stringType
  /-- Octets stand for a text, but are not UTF-8. -/
  | stringUnicode
  | extraForbidden
  /-- The name of the field is no text. -/
  | invalidKey
  | modelType
  | tupleType
  /-- An item is plain data and not an object. -/
  | modelAttributesType
  /-- An item is an object that does not say which kind of value it is. -/
  | unionTagNotFound
  | literalError
  | valueError
  deriving DecidableEq, Repr

/-- The code of a field fault in reports. -/
def FieldFault.code : FieldFault → Str
  | .missing => "missing"
  | .stringType => "string_type"
  | .stringUnicode => "string_unicode"
  | .extraForbidden => "extra_forbidden"
  | .invalidKey => "invalid_key"
  | .modelType => "model_type"
  | .tupleType => "tuple_type"
  | .modelAttributesType => "model_attributes_type"
  | .unionTagNotFound => "union_tag_not_found"
  | .literalError => "literal_error"
  | .valueError => "value_error"

/-- A faulty field, by the names that lead to it. -/
structure FieldIssue where
  path : List Str
  fault : FieldFault
  deriving DecidableEq, Repr

/-- The names that lead to a faulty field, as one text. -/
def FieldIssue.location (i : FieldIssue) : Str :=
  joinWith "." i.path

/-- The issues of an object that is itself a field. -/
def FieldIssue.below (field : Str) (issues : List FieldIssue) : List FieldIssue :=
  issues.map fun i => { i with path := field :: i.path }

/-- The wording of issues in one line. -/
def FieldIssue.summary (issues : List FieldIssue) : Str :=
  joinWith "; " (issues.map fun i => i.location ++ ": " ++ i.fault.code)

/-! ## §3 Payloads -/

/-- The parts of a payload that are objects. -/
inductive PayloadPart where
  | annot
  | parameter
  | value
  deriving DecidableEq, Repr

/-- The name of a part in messages. -/
def PayloadPart.name : PayloadPart → Str
  | .annot => "annotation"
  | .parameter => "parameter"
  | .value => "value"

/-- Why a stored form is no annotation. -/
inductive PayloadFault where
  | notMapping (part : PayloadPart) (typeName : Str)
  | unknownFields (part : PayloadPart) (fields : List Str)
  | severalFields (fields : List Str)
  | unnamedAnnot
  | parametersNotList
  | unnamedParameter
  | stringNotText (typeName : Str)
  | arrayNotList (typeName : Str)
  | unsupportedScalar (key : Str) (cause : Unsupported)
  | faultyFields (key : Str) (issues : List FieldIssue)
  /-- A row of a file, by its path and line number. -/
  | atRow (path : Str) (line : Nat) (cause : PayloadFault)
  deriving DecidableEq, Repr

/-- The wording of a payload fault. -/
def PayloadFault.message : PayloadFault → Str
  | .notMapping part typeName => part.name ++ " payload must be a mapping, got " ++ typeName
  | .unknownFields part fields =>
    "unknown " ++ part.name ++ " payload fields: " ++ quotedList fields
  | .severalFields fields =>
    "value payload must set exactly one field, got " ++ quotedList fields
  | .unnamedAnnot => "annotation payload requires a non-empty string name"
  | .parametersNotList => "annotation parameters must be a list or null"
  | .unnamedParameter => "each parameter payload requires a string name"
  | .stringNotText typeName => "string payload must be a str, got " ++ typeName
  | .arrayNotList typeName => "array payload must be a list, got " ++ typeName
  | .unsupportedScalar key cause => "invalid " ++ key ++ " payload: " ++ cause.message
  | .faultyFields key issues =>
    "invalid " ++ key ++ " payload: " ++ FieldIssue.summary issues
  | .atRow path line cause => path ++ ":" ++ toString line ++ ": " ++ cause.message

/-- The payload fault of a literal under a key. -/
def LiteralFault.below (key : Str) : LiteralFault → PayloadFault
  | .unsupported u => .unsupportedScalar key u
  | .unworded => .faultyFields key [⟨[], .valueError⟩]

/-! ## §4 Lookups -/

/-- Why a reference denotes nothing. -/
inductive LookupFault where
  | typeNotFound (typeName : Str)
  | notAnEnum (typeName : Str) (actualKind : Option Str)
  | constantNotFound (typeName constantName : Str)
  | notAConstant (typeName constantName : Str) (actualKind : Option Str)
  | accessDenied (typeName constantName : Str)
  | malformed (m : Malformed)
  deriving DecidableEq, Repr

/-- The title of a lookup fault. -/
def LookupFault.title : LookupFault → Str
  | .typeNotFound _ => "TypeNotFound"
  | .notAnEnum _ _ => "NotAnEnum"
  | .constantNotFound _ _ => "ConstantNotFound"
  | .notAConstant _ _ _ => "NotAConstant"
  | .accessDenied _ _ => "AccessDenied"
  | .malformed _ => "MalformedDescriptor"

/-- What was found instead, in parentheses. -/
def foundText : Option Str → Str
  | none => ""
  | some "" => ""
  | some kind => " (found " ++ kind ++ ")"

/-- The wording of a lookup fault. -/
def LookupFault.message : LookupFault → Str
  | .typeNotFound t => "Could not resolve type " ++ t
  | .notAnEnum t kind => "Class " ++ t ++ " is not an enum" ++ foundText kind
  | .constantNotFound t c => "Could not find enum constant " ++ t ++ "." ++ c
  | .notAConstant t c kind =>
    "Field " ++ t ++ "." ++ c ++ " is not an enum constant" ++ foundText kind
  | .accessDenied t c => "Field " ++ t ++ "." ++ c ++ " is not accessible"
  | .malformed m => m.message

/-! ## §5 Storage and scenarios -/

/-- Why a file cannot be read or written as rows. -/
inductive StorageFault where
  | fileNotFound
  | notUtf8
  | notJson
  | rowNotObject (line : Nat) (typeName : Str)
  | noAnnot
  | notStorable
  | notADirectory
  | isADirectory
  /-- A file stands where a directory is needed. -/
  | fileInTheWay
  /-- A path or the text of a variable has a null character in it. -/
  | nulCharacter
  /-- A path, or a name in it, is longer than any can be. -/
  | nameTooLong
  deriving DecidableEq, Repr

/-- Why a scenario fails. -/
inductive ScenarioFault where
  | unnamed
  | renderingDiffers (rendered : Option Str) (expected : Str)
  | lookupSucceeded
  | otherLookupFault
  deriving DecidableEq, Repr

/-- The wording of a failed scenario. -/
def ScenarioFault.message : ScenarioFault → Str
  | .unnamed => "an annotation name must be given before building"
  | .renderingDiffers rendered expected =>
    ((rendered.map quoted).getD "None") ++ " != " ++ quoted expected
  | .lookupSucceeded => "resolution was expected to fail"
  | .otherLookupFault => ""

/-! ## §6 Declarations -/

/-- Why an enum type cannot be declared. -/
inductive DeclarationFault where
  | repeatedConstant
  /-- An attribute has the name of a constant. -/
  | constantReplaced
  | forbiddenNames (names : List Str)
  | reservedName (name : Str)
  deriving DecidableEq, Repr

/-- The wording of a declaration fault; none for what has no wording of its own. -/
def DeclarationFault.message? : DeclarationFault → Option Str
  | .repeatedConstant => none
  | .constantReplaced => none
  | .forbiddenNames names =>
    some ("invalid enum member name(s) " ++ joinWith "," (names.map quoted))
  | .reservedName name =>
    some ("_sunder_ names, such as " ++ quoted name ++ ", are reserved for future Enum use")

/-! ## §7 All failures -/

/-- The closed sets of names that a text may be checked against. -/
inductive NameSet where
  | scalarKind
  | check
  deriving DecidableEq, Repr

/-- The title of a set of names in messages. -/
def NameSet.title : NameSet → Str
  | .scalarKind => "ScalarKind"
  | .check => "InvariantId"

/-- Uses of a value of the wrong type that have no wording of their own. -/
inductive Misuse where
  | notIterable
  | notHashable
  | notOrdered
  deriving DecidableEq, Repr

/-- Everything that can go wrong. -/
inductive Failure where
  | unsupported (cause : Unsupported)
  | tooDeep (cause : TooDeep)
  | tooLong (cause : TooLong)
  /-- A text in which half of a surrogate pair stands alone was to be encoded. -/
  | unencodable
  | fields (issues : List FieldIssue)
  | payload (cause : PayloadFault)
  | lookup (cause : LookupFault)
  | storage (cause : StorageFault)
  | settings (cause : SettingsFault)
  | scenario (cause : ScenarioFault)
  | declaration (cause : DeclarationFault)
  /-- A text that is not in a closed set of names. -/
  | unknownName (set : NameSet) (shown : Str)
  | incomparable (left right : Str)
  /-- Something that is no signature, as messages show it. -/
  | notSignature (shown : Str)
  /-- A text that spells no floating-point number. -/
  | notFloating (text : Str)
  | misuse (cause : Misuse)
  /-- An object lacks a property that every type has. -/
  | noSuchProperty
  /-- Loading a module raised a failure of its own. -/
  | moduleFailed (text : Str)
  deriving DecidableEq, Repr

/-- The beginning of a text, of at most so many characters. -/
def firstChars (count : Nat) (s : Str) : Str :=
  Str.ofList (s.toList.take count)

/-- The wording of settings that cannot be used; none for what has no wording of its own. A text of
the configuration is quoted up to a bound. -/
def SettingsFault.message? : SettingsFault → Option Str
  | .depthTooSmall => some "max_nesting_depth must be >= 1"
  | .emptyName => some "single_element_name must be a non-empty string"
  | .depthNotInteger text =>
    some ("invalid literal for int() with base 10: " ++ firstChars 200 (quoted text))
  | .variableNotInteger text =>
    some ("ANNOTATION_MODEL_MAX_DEPTH must be an integer, got " ++ quoted text)
  | .depthNotNumber => some "cannot convert float NaN to integer"
  | .tooLong e => some e.message
  | .depthInfinite => none
  | .depthOfWrongType => none
  | .unknownField => none
  | .notText => none

/-- The wording of a storage fault; none for what has no wording of its own. -/
def StorageFault.message? : StorageFault → Option Str
  | .rowNotObject line typeName =>
    some ("Expected JSON object on line " ++ toString line ++ ", got " ++ typeName)
  | .noAnnot => some "append_annotation requires an annotation instance"
  | .nulCharacter => some "embedded null byte"
  | _ => none

/-- The wording of a failure; none for what has no wording of its own. -/
def Failure.message? : Failure → Option Str
  | .unsupported u => some u.message
  | .tooDeep e => some e.message
  | .tooLong e => some e.message
  | .unencodable => none
  | .fields _ => none
  | .payload f => some f.message
  | .lookup f => some f.message
  | .storage f => f.message?
  | .settings f => f.message?
  | .scenario f => some f.message
  | .declaration f => f.message?
  | .unknownName set shown => some (shown ++ " is not a valid " ++ set.title)
  | .incomparable left right => some ("cannot compare " ++ left ++ " with " ++ right)
  | .notSignature shown => some ("unsupported type signature " ++ shown)
  | .notFloating text => some ("could not convert string to float: " ++ quoted text)
  | .misuse _ => none
  | .noSuchProperty => none
  | .moduleFailed text => some text

/-- The failure of a literal by itself. -/
def LiteralFault.failure : LiteralFault → Failure
  | .unsupported u => .unsupported u
  | .unworded => .fields [⟨[], .valueError⟩]

/-- A walk's result among other failures. -/
def liftWalk {α : Type} (r : Except TooDeep α) : Except Failure α :=
  r.mapError .tooDeep

/-- The octets of a text, if it is well-formed. -/
def Str.encode (s : Str) : Except Failure (List Octet) :=
  match s.string? with
  | some t => .ok (encodeUtf8 t)
  | none => .error .unencodable

end AnnoTree
