/-!
# Entries

Lists of keyed entries in the order in which the keys first came. Inserting under a key that is
there keeps its place and replaces its value; `get?` reads the value of a key.
-/

namespace AnnoTree.Entries

variable {α β : Type} [BEq α]

/-- The value under a key. -/
def get? (key : α) : List (α × β) → Option β
  | [] => none
  | (k, v) :: rest => if k == key then some v else get? key rest

/-- Whether a key is there. -/
def hasKey (key : α) (entries : List (α × β)) : Bool :=
  (get? key entries).isSome

/-- Puts a value under a key. -/
def insert (key : α) (value : β) : List (α × β) → List (α × β)
  | [] => [(key, value)]
  | (k, v) :: rest => if k == key then (k, value) :: rest else (k, v) :: insert key value rest

/-- Puts the entries of the second list, in turn, into the first. -/
def insertAll (entries additions : List (α × β)) : List (α × β) :=
  additions.foldl (fun es e => insert e.1 e.2 es) entries

/-- The entries of a list of keys and values in which a key may come again. -/
def ofList (pairs : List (α × β)) : List (α × β) :=
  insertAll [] pairs

/-- The keys, in order. -/
def keys (entries : List (α × β)) : List α :=
  entries.map (·.1)

theorem get?_insert_self [LawfulBEq α] (key : α) (value : β) (entries : List (α × β)) :
    get? key (insert key value entries) = some value := by
  induction entries with
  | nil => simp [insert, get?]
  | cons e rest ih =>
    obtain ⟨k, v⟩ := e
    by_cases h : k == key <;> simp [insert, get?, h, ih]

theorem get?_insert_of_ne [LawfulBEq α] {key other : α} (h : other ≠ key) (value : β)
    (entries : List (α × β)) : get? other (insert key value entries) = get? other entries := by
  induction entries with
  | nil => simp [insert, get?, Ne.symm h]
  | cons e rest ih =>
    obtain ⟨k, v⟩ := e
    by_cases hk : k == key
    · have : (k == other) = false := by
        rw [eq_of_beq hk]
        exact beq_eq_false_iff_ne.2 (Ne.symm h)
      simp [insert, get?, hk, this]
    · simp [insert, get?, hk, ih]

end AnnoTree.Entries
