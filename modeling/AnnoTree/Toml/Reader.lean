import AnnoTree.Json.Reader
import AnnoTree.Toml.Table

/-!
# Reading TOML

A document is read into its values. What begins like a date or a time is one; only then is it tried
as a number.

Lines have to end in line feeds alone. A control character other than a tab may stand nowhere. As in
the reader of JSON, each step returns what it read and the text that is left, a decimal integer with
too many digits ends the reading, and the steps that nest count down the length of the text.
-/

namespace AnnoTree.Toml

open AnnoTree.Text

/-! ## §1 Blanks and comments -/

/-- A control character other than a tab. -/
def isControl (c : Char) : Bool :=
  (c.toNat < 0x20 || c.toNat == 0x7F) && c != '\t'

/-- A character that may separate the parts of a line. -/
def isSpace (c : Char) : Bool :=
  c == ' ' || c == '\t'

/-- The text without such characters in front. -/
def skipSpace (cs : List Char) : List Char :=
  cs.dropWhile isSpace

/-- The text after the end of a line that has nothing more but perhaps a comment. -/
def endOfLineAux (inComment : Bool) : List Char → Option (List Char)
  | [] => some []
  | c :: rest =>
    if c = '\n' then some rest
    else if inComment then if isControl c then none else endOfLineAux true rest
    else if c = '#' then endOfLineAux true rest
    else if isSpace c then endOfLineAux false rest
    else none

/-- The text after the end of a line. -/
def endOfLine (cs : List Char) : Option (List Char) :=
  endOfLineAux false cs

/-- The text after blanks, line ends and comments. -/
def skipFillerAux (inComment : Bool) : List Char → Option (List Char)
  | [] => some []
  | c :: rest =>
    if c = '\n' then skipFillerAux false rest
    else if inComment then if isControl c then none else skipFillerAux true rest
    else if c = '#' then skipFillerAux true rest
    else if isSpace c then skipFillerAux false rest
    else some (c :: rest)

/-- The text after what may stand between the items of an array. -/
def skipFiller (cs : List Char) : Option (List Char) :=
  skipFillerAux false cs

/-! ## §2 Strings -/

/-- Characters that were read, and the text that is left. -/
abbrev Piece := Option (List Char × List Char)

/-- Puts a character in front of what was read. -/
def consChar (c : Char) (p : Piece) : Piece :=
  p.map fun (read, rest) => (c :: read, rest)

/-- The character of a short escape. -/
def shortEscape? : Char → Option Char
  | 'b' => some '\x08'
  | 't' => some '\t'
  | 'n' => some '\n'
  | 'f' => some '\x0c'
  | 'r' => some '\r'
  | '"' => some '"'
  | '\\' => some '\\'
  | _ => none

/-- The character of an escape by its code point. -/
def codePoint? (digits : List Char) : Option Char := do
  let ds ← digits.mapM Json.hexValue?
  let n := ofDigits 16 ds
  if n.isValidChar then some (Char.ofNat n) else none

/-- The characters of a basic string up to its quote. -/
def basicBody : List Char → Piece
  | [] => none
  | '"' :: rest => some ([], rest)
  | '\\' :: 'u' :: a :: b :: c :: d :: rest => do
    consChar (← codePoint? [a, b, c, d]) (basicBody rest)
  | '\\' :: 'U' :: a :: b :: c :: d :: e :: f :: g :: h :: rest => do
    consChar (← codePoint? [a, b, c, d, e, f, g, h]) (basicBody rest)
  | '\\' :: c :: rest => do consChar (← shortEscape? c) (basicBody rest)
  | c :: rest => if c = '\\' || isControl c then none else consChar c (basicBody rest)

/-- The characters of a literal string up to its quote. -/
def literalBody : List Char → Piece
  | [] => none
  | '\'' :: rest => some ([], rest)
  | c :: rest => if isControl c then none else consChar c (literalBody rest)

/-- What a string of several lines ends with after three quotes: up to two more belong to it. -/
def closing (quote : Char) : List Char → List Char × List Char
  | [] => ([], [])
  | [c] => if c = quote then ([c], []) else ([], [c])
  | c :: d :: rest =>
    if c = quote then if d = quote then ([c, d], rest) else ([c], d :: rest)
    else ([], c :: d :: rest)

/-- Whether a backslash stands before the end of a line. -/
def endsLine (cs : List Char) : Bool :=
  match skipSpace cs with
  | [] => true
  | c :: _ => c == '\n'

/-- The characters of a basic string of several lines. While `skipping`, blanks and line ends are
left out, which is what a backslash at the end of a line asks for. -/
def basicLines (skipping : Bool) : List Char → Piece
  | [] => none
  | c :: rest =>
    if skipping && (isSpace c || c == '\n') then basicLines true rest
    else
      match c, rest with
      | '"', '"' :: '"' :: rest => some (closing '"' rest)
      | '\\', 'u' :: a :: b :: c :: d :: rest => do
        consChar (← codePoint? [a, b, c, d]) (basicLines false rest)
      | '\\', 'U' :: a :: b :: c :: d :: e :: f :: g :: h :: rest => do
        consChar (← codePoint? [a, b, c, d, e, f, g, h]) (basicLines false rest)
      | '\\', c :: rest =>
        if isSpace c || c == '\n' then
          if c == '\n' || endsLine rest then basicLines true rest else none
        else do consChar (← shortEscape? c) (basicLines false rest)
      | '\\', [] => none
      | c, rest =>
        if isControl c && c != '\n' then none else consChar c (basicLines false rest)

/-- The characters of a literal string of several lines. -/
def literalLines : List Char → Piece
  | [] => none
  | '\'' :: '\'' :: '\'' :: rest => some (closing '\'' rest)
  | c :: rest => if isControl c && c != '\n' then none else consChar c (literalLines rest)

/-- The text of a string of several lines, whose first line may be empty. -/
def dropLineFeed : List Char → List Char
  | '\n' :: rest => rest
  | cs => cs

/-- A string of any kind, whose first quote comes next. -/
def anyString : List Char → Piece
  | '"' :: '"' :: '"' :: rest => basicLines false (dropLineFeed rest)
  | '"' :: rest => basicBody rest
  | '\'' :: '\'' :: '\'' :: rest => literalLines (dropLineFeed rest)
  | '\'' :: rest => literalBody rest
  | _ => none

/-! ## §3 Numbers -/

/-- The digits that go on a run of digits, of which single ones may follow underscores. -/
def moreDigits (value? : Char → Option Nat) : List Char → List Nat × List Char
  | [] => ([], [])
  | '_' :: [] => ([], ['_'])
  | '_' :: c :: rest =>
    match value? c with
    | none => ([], '_' :: c :: rest)
    | some d =>
      let (ds, left) := moreDigits value? rest
      (d :: ds, left)
  | c :: rest =>
    match value? c with
    | none => ([], c :: rest)
    | some d =>
      let (ds, left) := moreDigits value? rest
      (d :: ds, left)

/-- A run of digits. -/
def digits (value? : Char → Option Nat) : List Char → Option (List Nat × List Char)
  | [] => none
  | c :: rest =>
    match value? c with
    | none => none
    | some d =>
      let (ds, left) := moreDigits value? rest
      some (d :: ds, left)

/-- The value of a digit below a base. -/
def digitBelow? (base : Nat) (c : Char) : Option Nat :=
  (Json.hexValue? c).filter (· < base)

/-- The base that a letter after a zero announces. -/
def baseOf? : Char → Option Nat
  | 'x' => some 16
  | 'o' => some 8
  | 'b' => some 2
  | _ => none

/-- An integer in a base that its second character announces. -/
def basedInteger : List Char → Option (Value × List Char)
  | '0' :: letter :: rest => do
    let base ← baseOf? letter
    let (ds, left) ← digits (digitBelow? base) rest
    return (.int (ofDigits base ds), left)
  | _ => none

/-- The digits before the point: a zero stands alone. -/
def wholeDigits : List Char → Option (List Nat × List Char)
  | '0' :: rest => some ([0], rest)
  | cs => digits (digitBelow? 10) cs

/-- The digits after a point. -/
def fractionDigits : List Char → Option (List Nat × List Char)
  | '.' :: rest => digits (digitBelow? 10) rest
  | _ => none

/-- The exponent after its letter. -/
def exponent : List Char → Option (Int × List Char)
  | c :: rest => do
    if c = 'e' || c = 'E' then
      let (negative, cs) := splitSign rest
      let (ds, left) ← digits (digitBelow? 10) cs
      return (signed negative (ofDigits 10 ds), left)
    else none
  | [] => none

/-- A decimal number, after its sign and its whole digits. -/
def decimal (negative : Bool) (whole : List Nat) (cs : List Char) : Reading Char Value :=
  let (fraction, cs) := match fractionDigits cs with
    | some (ds, rest) => (some ds, rest)
    | none => (none, cs)
  let (power, cs) := match exponent cs with
    | some (e, rest) => (some e, rest)
    | none => (none, cs)
  match fraction, power with
  | none, none => (readInteger negative whole).map fun i => (.int i, cs)
  | fraction, power =>
    let ds := fraction.getD []
    .ok (.float (.ofDecimal negative (ofDigits 10 (whole ++ ds)) (power.getD 0 - ds.length)), cs)

/-- The name of a value without digits, after its sign. -/
def namedNumber (negative : Bool) : List Char → Option (Value × List Char)
  | 'i' :: 'n' :: 'f' :: rest => some (.float (.infinite negative), rest)
  | 'n' :: 'a' :: 'n' :: rest => some (.float .nan, rest)
  | _ => none

/-- A number. -/
def number (cs : List Char) : Reading Char Value :=
  match basedInteger cs with
  | some r => .ok r
  | none =>
    let (negative, body) := splitSign cs
    match wholeDigits body with
    | some (whole, rest) => decimal negative whole rest
    | none => readingOf (namedNumber negative body)

/-! ## §4 Keys -/

/-- A character of a key that is not quoted. -/
def isKeyChar (c : Char) : Bool :=
  c.isAlphanum || c == '-' || c == '_'

/-- One part of a key. -/
def keyPart : List Char → Option (String × List Char)
  | '"' :: rest => (basicBody rest).map fun (key, left) => (String.ofList key, left)
  | '\'' :: rest => (literalBody rest).map fun (key, left) => (String.ofList key, left)
  | cs =>
    let key := cs.takeWhile isKeyChar
    if key.isEmpty then none else some (String.ofList key, cs.dropWhile isKeyChar)

/-- The parts of a dotted key, and the text after the blanks behind it. -/
def keyAux : Nat → List Char → Option (List String × List Char)
  | 0, _ => none
  | n + 1, cs => do
    let (part, rest) ← keyPart cs
    match skipSpace rest with
    | '.' :: rest =>
      let (parts, rest) ← keyAux n (skipSpace rest)
      return (part :: parts, rest)
    | rest => return ([part], rest)

/-- A dotted key. -/
def key (cs : List Char) : Option (List String × List Char) :=
  keyAux (cs.length + 1) cs

/-- A dotted key and the equals sign after it. -/
def keyAndMark (cs : List Char) : Option (List String × List Char) := do
  match ← key cs with
  | (parts, '=' :: rest) => return (parts, skipSpace rest)
  | _ => none

/-! ## §5 Values -/

mutual

/-- A value at the front of a text. -/
def valueAux : Nat → List Char → Reading Char Value
  | 0, _ => .error .malformed
  | n + 1, cs =>
    match cs with
    | '"' :: _ => (readingOf (anyString cs)).map fun (s, rest) => (.string (String.ofList s), rest)
    | '\'' :: _ => (readingOf (anyString cs)).map fun (s, rest) => (.string (String.ofList s), rest)
    | 't' :: 'r' :: 'u' :: 'e' :: rest => .ok (.bool true, rest)
    | 'f' :: 'a' :: 'l' :: 's' :: 'e' :: rest => .ok (.bool false, rest)
    | '[' :: rest =>
      match skipFiller rest with
      | none => .error .malformed
      | some (']' :: rest) => .ok (.array [], rest)
      | some rest => (itemsAux n rest).map fun (items, rest) => (.array items, rest)
    | '\x7b' :: rest =>
      match skipSpace rest with
      | '\x7d' :: rest => .ok (.table [], rest)
      | rest => (inlineAux n [] rest).map fun (t, rest) => (.table (entryValues t), rest)
    | cs =>
      match readMoment cs with
      | some (m, rest) => .ok (.moment m, rest)
      | none => number cs
termination_by structural n => n

/-- One item or more, and the end of their array. -/
def itemsAux : Nat → List Char → Reading Char (List Value)
  | 0, _ => .error .malformed
  | n + 1, cs =>
    match valueAux n cs with
    | .error f => .error f
    | .ok (v, rest) =>
      match skipFiller rest with
      | some (']' :: rest) => .ok ([v], rest)
      | some (',' :: rest) =>
        match skipFiller rest with
        | none => .error .malformed
        | some (']' :: rest) => .ok ([v], rest)
        | some rest => (itemsAux n rest).map fun (vs, rest) => (v :: vs, rest)
      | _ => .error .malformed
termination_by structural n => n

/-- One entry or more of an inline table that has some already, and its end. -/
def inlineAux : Nat → Table → List Char → Reading Char Table
  | 0, _, _ => .error .malformed
  | n + 1, t, cs =>
    match keyAndMark cs with
    | none => .error .malformed
    | some (parts, rest) =>
      match valueAux n rest with
      | .error f => .error f
      | .ok (v, rest) =>
        match assign 0 v parts t with
        | none => .error .malformed
        | some t =>
          match skipSpace rest with
          | '\x7d' :: rest => .ok (t, rest)
          | ',' :: rest => inlineAux n t (skipSpace rest)
          | _ => .error .malformed
termination_by structural n => n

end

/-- A value at the front of a text. -/
def value (cs : List Char) : Reading Char Value :=
  valueAux (cs.length + 1) cs

/-! ## §6 Documents -/

/-- A document of which the beginning was read. -/
structure Draft where
  root : Table := []
  /-- The keys of the last header. -/
  header : List String := []
  /-- How many headers came before. -/
  number : Nat := 0

/-- Changes the table of the last part of a header. -/
def Draft.openWith (d : Draft) (change : String → Table → Option Table) (keys : List String) :
    Option Draft := do
  let last ← keys.getLast?
  let root ← enterAll (change last) keys.dropLast d.root
  return ⟨root, keys, d.number + 1⟩

/-- Puts a value into the section of the last header. -/
def Draft.assign (d : Draft) (keys : List String) (v : Value) : Option Draft := do
  let root ← enterAll (Toml.assign d.number v keys) d.header d.root
  return { d with root := root }

/-- The effect of a statement, and the text after it. -/
def statement (d : Draft) (cs : List Char) : Except ReadFault (Draft × List Char) :=
  match cs with
  | '[' :: '[' :: rest => do
    match ← readingOf (key (skipSpace rest)) with
    | (keys, ']' :: ']' :: rest) => return (← readingOf (d.openWith openElement keys), rest)
    | _ => throw .malformed
  | '[' :: rest => do
    match ← readingOf (key (skipSpace rest)) with
    | (keys, ']' :: rest) => return (← readingOf (d.openWith openTable keys), rest)
    | _ => throw .malformed
  | cs => do
    let (keys, rest) ← readingOf (keyAndMark cs)
    let (v, rest) ← value rest
    return (← readingOf (d.assign keys v), rest)

/-- The document that lines add up to. -/
def linesAux : Nat → Draft → List Char → Except ReadFault Draft
  | 0, _, _ => .error .malformed
  | n + 1, d, cs =>
    match skipSpace cs with
    | [] => .ok d
    | '\n' :: rest => linesAux n d rest
    | '#' :: rest => do linesAux n d (← readingOf (endOfLine ('#' :: rest)))
    | cs => do
      let (d, rest) ← statement d cs
      linesAux n d (← readingOf (endOfLine rest))

/-- The entries of a document. -/
def read (cs : List Char) : Except ReadFault (List (String × Value)) :=
  (linesAux (cs.length + 1) {} cs).map fun d => entryValues d.root

end AnnoTree.Toml
