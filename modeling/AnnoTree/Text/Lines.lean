/-!
# Lines of a text

Two rules say where a line ends:

- `physicalLines`, for reading rows: a line feed, a carriage return or both together;
- `lineCount`, for numbering a row that is to be appended: also a vertical tab, a form feed, three
  information separators, and the three line breaks of Unicode.

Under both, text after the last line break is a line if it is not empty.
-/

namespace AnnoTree.Text

/-! ## §1 Physical lines -/

/-- The lines of a text, where `current` holds the characters of the unfinished line, last one
first. -/
def physicalLinesAux (current : List Char) : List Char → List (List Char)
  | [] => if current.isEmpty then [] else [current.reverse]
  | '\n' :: rest => current.reverse :: physicalLinesAux [] rest
  | '\r' :: '\n' :: rest => current.reverse :: physicalLinesAux [] rest
  | '\r' :: rest => current.reverse :: physicalLinesAux [] rest
  | c :: rest => physicalLinesAux (c :: current) rest

/-- The lines of a text without their ends, cut at line feeds and carriage returns. -/
def physicalLines (cs : List Char) : List (List Char) :=
  physicalLinesAux [] cs

/-- The lines that are known to be finished when more text may follow, where `current` holds the
unfinished line: a last carriage return may still be followed by its line feed. -/
def finishedLinesAux (current : List Char) : List Char → List (List Char)
  | [] => []
  | ['\r'] => []
  | '\n' :: rest => current.reverse :: finishedLinesAux [] rest
  | '\r' :: '\n' :: rest => current.reverse :: finishedLinesAux [] rest
  | '\r' :: rest => current.reverse :: finishedLinesAux [] rest
  | c :: rest => finishedLinesAux (c :: current) rest

/-- The finished lines of the beginning of a text. -/
def finishedLines (cs : List Char) : List (List Char) :=
  finishedLinesAux [] cs

/-- The text with each carriage return, alone or before a line feed, read as one line feed. -/
def foldLineEnds : List Char → List Char
  | [] => []
  | '\r' :: '\n' :: rest => '\n' :: foldLineEnds rest
  | '\r' :: rest => '\n' :: foldLineEnds rest
  | c :: rest => c :: foldLineEnds rest

/-! ## §2 Counted lines -/

/-- The characters that end a line when lines are counted. -/
def isLineBreak (c : Char) : Bool :=
  ['\n', '\x0b', '\x0c', '\r', '\x1c', '\x1d', '\x1e', '\x85', '\u2028', '\u2029'].contains c

/-- The number of lines, where `opened` says that the current line has characters. -/
def lineCountAux (opened : Bool) : List Char → Nat
  | [] => if opened then 1 else 0
  | '\r' :: '\n' :: rest => lineCountAux false rest + 1
  | c :: rest => if isLineBreak c then lineCountAux false rest + 1 else lineCountAux true rest

/-- The number of lines of a text under the wide rule. -/
def lineCount (cs : List Char) : Nat :=
  lineCountAux false cs

example : physicalLines "a\r\nb\rc\n\nd".toList =
    [['a'], ['b'], ['c'], [], ['d']] := by decide

example : lineCount "a\x0cb\r\nc".toList = 3 := by decide

end AnnoTree.Text
