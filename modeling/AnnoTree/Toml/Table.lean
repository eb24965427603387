import AnnoTree.Double.Basic
import AnnoTree.Entries
import AnnoTree.Toml.Moment

/-!
# Values and tables of a TOML document

Integers of any size and doubles are kept apart, and a table keeps its entries in the order in
which their keys first came.

What the statements of a document build: tables whose entries are values, tables and arrays of
tables. A table remembers how it came to be, because that decides what may still be added to it:

- a table that was made on the way to another one may be given a header of its own once;
- a table with a header gets no second header, and dotted keys do not reach into it;
- a table of dotted keys gets no header, and only the section that made it reaches into it.

Nothing replaces an entry that is there.
-/

namespace AnnoTree.Toml

/-! ## §1 The types -/

/-- A value of a TOML document. -/
inductive Value where
  | bool (b : Bool)
  | int (i : Int)
  | float (x : Double)
  | string (s : String)
  | moment (m : Moment)
  | array (items : List Value)
  | table (entries : List (String × Value))

instance : Inhabited Value := ⟨.table []⟩

/-- How a table came to be. -/
inductive Origin where
  /-- On the way to a table below it. -/
  | passing
  /-- By a header. -/
  | header
  /-- By dotted keys in the section of that number. -/
  | dotted (number : Nat)
  deriving DecidableEq, Repr

/-- An entry of a table. -/
inductive Item where
  /-- A value, to which nothing can be added. -/
  | leaf (value : Value)
  | table (origin : Origin) (entries : List (String × Item))
  /-- An array of tables: those before the last, and the entries of the last. -/
  | tables (before : List (List (String × Item))) (last : List (String × Item))

/-- The entries of a table. -/
abbrev Table := List (String × Item)

/-! ## §2 Statements -/

/-- Changes the table under a key, the last one of an array of tables. A table that is not there
is made. -/
def enter (key : String) (change : Table → Option Table) (t : Table) : Option Table :=
  match Entries.get? key t with
  | none => (change []).map fun sub => Entries.insert key (.table .passing sub) t
  | some (.leaf _) => none
  | some (.table origin sub) =>
    (change sub).map fun sub => Entries.insert key (.table origin sub) t
  | some (.tables before last) =>
    (change last).map fun last => Entries.insert key (.tables before last) t

/-- Changes the table that keys lead to. -/
def enterAll (change : Table → Option Table) : List String → Table → Option Table
  | [], t => change t
  | key :: rest, t => enter key (enterAll change rest) t

/-- Gives the table under a key a header. -/
def openTable (key : String) (t : Table) : Option Table :=
  match Entries.get? key t with
  | none => some (Entries.insert key (.table .header []) t)
  | some (.table .passing sub) => some (Entries.insert key (.table .header sub) t)
  | some _ => none

/-- Starts a further table of the array under a key. -/
def openElement (key : String) (t : Table) : Option Table :=
  match Entries.get? key t with
  | none => some (Entries.insert key (.tables [] []) t)
  | some (.tables before last) => some (Entries.insert key (.tables (before ++ [last]) []) t)
  | some _ => none

/-- The entries of a table that the dotted keys of a section may add to. -/
def Item.dottedEntries? (number : Nat) : Item → Option Table
  | .table .passing sub => some sub
  | .table (.dotted n) sub => if n = number then some sub else none
  | _ => none

/-- Puts a value under a dotted key in the section of a number. -/
def assign (number : Nat) (value : Value) : List String → Table → Option Table
  | [], _ => none
  | [key], t => if Entries.hasKey key t then none else some (Entries.insert key (.leaf value) t)
  | key :: next :: rest, t => do
    let sub ← match Entries.get? key t with
      | none => some []
      | some item => item.dottedEntries? number
    let sub ← assign number value (next :: rest) sub
    return Entries.insert key (.table (.dotted number) sub) t

/-! ## §3 Finished tables -/

mutual

/-- The value of an entry. -/
def Item.value : Item → Value
  | .leaf value => value
  | .table _ entries => .table (entryValues entries)
  | .tables before last => .array (tableValues before ++ [.table (entryValues last)])
termination_by structural item => item

/-- The values of entries. -/
def entryValues : List (String × Item) → List (String × Value)
  | [] => []
  | (key, item) :: rest => (key, item.value) :: entryValues rest
termination_by structural es => es

/-- The values of tables. -/
def tableValues : List (List (String × Item)) → List Value
  | [] => []
  | t :: rest => .table (entryValues t) :: tableValues rest
termination_by structural ts => ts

end

end AnnoTree.Toml
