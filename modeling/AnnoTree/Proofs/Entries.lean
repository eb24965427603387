import AnnoTree.Entries
import Mathlib.Data.List.Nodup
import Mathlib.Tactic.Common

/-!
# Looking up entries

What can be said of a list of entries by looking up its keys. Entries that are put in one after
another have each key once, and the last value that came for it.

## Main statements

- `Entries.get?_append`: of two lists the first one is asked first.
- `Entries.get?_perm`: entries that give each key one value can be looked up in any order.
- `Entries.get?_ofList`: putting in entries in turn keeps the last value of each key.
- `Entries.nodup_keys_ofList`: putting in entries in turn gives each key once.
-/

namespace AnnoTree.Entries

variable {α β : Type} [BEq α]

/-! ## §1 Lists of entries -/

theorem get?_append (key : α) (es fs : List (α × β)) :
    get? key (es ++ fs) = (get? key es).or (get? key fs) := by
  induction es with
  | nil => rfl
  | cons e es ih =>
    simp only [List.cons_append, get?]
    split
    · rfl
    · exact ih

theorem insertAll_ofList (es fs : List (α × β)) :
    insertAll (ofList es) fs = ofList (es ++ fs) := by
  simp [insertAll, ofList, List.foldl_append]

variable [LawfulBEq α]

theorem mem_keys_iff {key : α} {entries : List (α × β)} :
    key ∈ keys entries ↔ ∃ value, get? key entries = some value := by
  induction entries with
  | nil => simp [keys, get?]
  | cons e rest ih =>
    simp only [keys, List.map_cons, List.mem_cons, get?] at ih ⊢
    by_cases h : e.1 = key
    · simp [h]
    · rw [ih, if_neg (by simpa using h)]
      simp [Ne.symm h]

theorem mem_of_get? {key : α} {value : β} {entries : List (α × β)}
    (h : get? key entries = some value) : (key, value) ∈ entries := by
  induction entries with
  | nil => cases h
  | cons e rest ih =>
    rw [get?] at h
    split at h
    case isTrue hkey =>
      cases h
      rw [← eq_of_beq hkey]
      exact List.mem_cons_self
    case isFalse => exact List.mem_cons_of_mem _ (ih h)

/-- In entries that give a key one value only, looking up is membership. -/
theorem get?_eq_some_iff {entries : List (α × β)}
    (hone : ∀ e ∈ entries, ∀ f ∈ entries, e.1 = f.1 → e.2 = f.2) {key : α} {value : β} :
    get? key entries = some value ↔ (key, value) ∈ entries := by
  induction entries with
  | nil => simp [get?]
  | cons e rest ih =>
    obtain ⟨k, v⟩ := e
    rw [get?]
    by_cases h : k = key
    · -- a later entry of the key would give it the same value
      subst h
      rw [if_pos (beq_self_eq_true k), Option.some.injEq]
      constructor
      · rintro rfl
        exact List.mem_cons_self
      · exact fun hmem => hone _ List.mem_cons_self _ hmem rfl
    · have hrest := ih fun e he f hf =>
        hone e (List.mem_cons_of_mem _ he) f (List.mem_cons_of_mem _ hf)
      rw [if_neg (by simpa using h), hrest, List.mem_cons, Prod.mk.injEq]
      exact (or_iff_right fun heq => h heq.1.symm).symm

/-- Such entries can be looked up in any order. -/
theorem get?_perm {es fs : List (α × β)} (h : es.Perm fs)
    (hone : ∀ e ∈ es, ∀ f ∈ es, e.1 = f.1 → e.2 = f.2) (key : α) : get? key es = get? key fs := by
  have hother : ∀ e ∈ fs, ∀ f ∈ fs, e.1 = f.1 → e.2 = f.2 := by
    simpa only [h.mem_iff] using hone
  refine Option.ext fun value => ?_
  rw [get?_eq_some_iff hone, get?_eq_some_iff hother, h.mem_iff]

/-- In entries with distinct keys, looking up is membership. -/
theorem get?_eq_some_iff_of_nodup {entries : List (α × β)} (h : (keys entries).Nodup) {key : α}
    {value : β} : get? key entries = some value ↔ (key, value) ∈ entries := by
  apply get?_eq_some_iff
  intro e he f hf hkey
  rw [List.inj_on_of_nodup_map h he hf hkey]

/-- Entries with distinct keys can be looked up in any order. -/
theorem get?_perm_of_nodup {es fs : List (α × β)} (h : es.Perm fs) (hkeys : (keys es).Nodup)
    (key : α) : get? key es = get? key fs := by
  apply get?_perm h
  intro e he f hf hkey
  rw [List.inj_on_of_nodup_map hkeys he hf hkey]

/-! ## §2 Entries put in one after another -/

theorem get?_insert (key other : α) (value : β) (entries : List (α × β)) :
    get? other (insert key value entries) =
      (get? other [(key, value)]).or (get? other entries) := by
  by_cases h : other = key
  · subst h
    rw [get?_insert_self]
    simp [get?]
  · rw [get?_insert_of_ne h]
    simp [get?, Ne.symm h]

theorem mem_keys_insert {key other : α} {value : β} {entries : List (α × β)} :
    other ∈ keys (insert key value entries) ↔ other = key ∨ other ∈ keys entries := by
  rw [mem_keys_iff, mem_keys_iff, get?_insert]
  by_cases h : other = key
  · subst h
    simp [get?]
  · simp [get?, h, Ne.symm h]

theorem hasKey_insert {key other : α} {value : β} {entries : List (α × β)} :
    hasKey other (insert key value entries) = true ↔ other = key ∨ hasKey other entries = true := by
  rw [hasKey, hasKey, get?_insert]
  by_cases h : other = key
  · subst h
    simp [get?]
  · simp [get?, h, Ne.symm h]

theorem nodup_keys_insert (key : α) (value : β) {entries : List (α × β)}
    (h : (keys entries).Nodup) : (keys (insert key value entries)).Nodup := by
  induction entries with
  | nil => simp [insert, keys]
  | cons e rest ih =>
    obtain ⟨k, v⟩ := e
    obtain ⟨hnew, hrest⟩ := List.nodup_cons.mp h
    rw [insert]
    split
    · -- the value is replaced where it stands
      exact h
    · next hne =>
      apply List.nodup_cons.mpr
      refine ⟨?_, ih hrest⟩
      intro hmem
      rcases mem_keys_insert.mp hmem with hkey | hmem
      · exact hne (beq_iff_eq.mpr hkey)
      · exact hnew hmem

/-- What is put in later is found first. -/
theorem get?_insertAll (key : α) (entries additions : List (α × β)) :
    get? key (insertAll entries additions) =
      (get? key additions.reverse).or (get? key entries) := by
  -- by induction on the additions, for any entries that are there already
  induction additions generalizing entries with
  | nil => rfl
  | cons e rest ih =>
    have hstep : insertAll entries (e :: rest) = insertAll (insert e.1 e.2 entries) rest := rfl
    rw [hstep, ih, get?_insert, List.reverse_cons, get?_append, Option.or_assoc]

theorem nodup_keys_insertAll {entries : List (α × β)} (additions : List (α × β))
    (h : (keys entries).Nodup) : (keys (insertAll entries additions)).Nodup := by
  induction additions generalizing entries with
  | nil => exact h
  | cons e rest ih => exact ih (nodup_keys_insert e.1 e.2 h)

/-- **The last value of a key is kept.** -/
theorem get?_ofList (key : α) (pairs : List (α × β)) :
    get? key (ofList pairs) = get? key pairs.reverse := by
  rw [ofList, get?_insertAll, get?, Option.or_none]

theorem nodup_keys_ofList (pairs : List (α × β)) : (keys (ofList pairs)).Nodup :=
  nodup_keys_insertAll pairs List.nodup_nil

end AnnoTree.Entries
