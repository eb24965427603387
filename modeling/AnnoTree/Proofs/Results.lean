import Mathlib.Data.List.Forall2
import Mathlib.Tactic.Common

/-!
# Results of steps

What is known of the steps of a computation from its result, and of the items of a list from the
result of a computation that goes over them.

## Main statements

- `bind_eq_ok`, `map_eq_ok`, `mapError_eq_ok`: when a step, or one after another, gives a result.
- `eq_map_of_step`, `eq_mapM_of_step`: recursions over lists that are `List.map` and `List.mapM`.
- `forall₂_of_mapM_eq_ok`, `exists_mem_of_mapM_eq_error`: what became of the items.
-/

namespace AnnoTree

/-! ## §1 Steps -/

section Steps

variable {α β ε ε' : Type}

/-- A step after another one gives a result on what the first one gave. -/
theorem bind_eq_ok {r : Except ε α} {f : α → Except ε β} {y : β} :
    r >>= f = .ok y ↔ ∃ x, r = .ok x ∧ f x = .ok y := by
  cases r <;> simp [bind, Except.bind]

theorem map_eq_ok {r : Except ε α} {f : α → β} {y : β} :
    r.map f = .ok y ↔ ∃ x, r = .ok x ∧ f x = y := by
  cases r <;> simp [Except.map]

theorem mapError_eq_ok {r : Except ε α} {f : ε → ε'} {x : α} :
    r.mapError f = .ok x ↔ r = .ok x := by
  cases r <;> simp [Except.mapError]

end Steps

/-! ## §2 Steps over lists -/

section Lists

variable {α β ε : Type}

/-- A recursion that treats the items of a list one by one is `List.map`. -/
theorem eq_map_of_step {f : α → β} {g : List α → List β} (hnil : g [] = [])
    (hcons : ∀ x xs, g (x :: xs) = f x :: g xs) (xs : List α) : g xs = xs.map f := by
  induction xs with
  | nil => exact hnil
  | cons x xs ih => rw [hcons, ih, List.map_cons]

/-- A recursion that stops at the first item that fails is `List.mapM`. -/
theorem eq_mapM_of_step {f : α → Except ε β} {g : List α → Except ε (List β)} (hnil : g [] = .ok [])
    (hcons : ∀ x xs, g (x :: xs) = do
      let y ← f x
      let ys ← g xs
      return y :: ys) (xs : List α) : g xs = xs.mapM f := by
  induction xs with
  | nil => exact hnil
  | cons x xs ih => rw [hcons, ih, List.mapM_cons]

theorem mapM_map_eq_ok {f : β → Except ε α} {g : α → β} {xs : List α}
    (h : ∀ x ∈ xs, f (g x) = .ok x) : (xs.map g).mapM f = .ok xs := by
  induction xs with
  | nil => rfl
  | cons x rest ih =>
    rw [List.forall_mem_cons] at h
    rw [List.map_cons, List.mapM_cons, h.1, ih h.2]
    rfl

variable {f : α → Except ε β} {xs : List α}

theorem forall₂_of_mapM_eq_ok {ys : List β} (h : xs.mapM f = .ok ys) :
    List.Forall₂ (fun x y => f x = .ok y) xs ys := by
  induction xs generalizing ys with
  | nil =>
    cases h
    exact .nil
  | cons x rest ih =>
    rw [List.mapM_cons] at h
    obtain ⟨y, hy, h⟩ := bind_eq_ok.mp h
    obtain ⟨ys, hys, h⟩ := bind_eq_ok.mp h
    cases h
    exact .cons hy (ih hys)

theorem exists_ok_of_mapM_eq_ok {ys : List β} (h : xs.mapM f = .ok ys) :
    ∀ x ∈ xs, ∃ y, f x = .ok y := by
  have hpairs : List.Forall₂ (fun x y => (∃ z, f x = .ok z) ∧ f x = .ok y) xs ys :=
    (forall₂_of_mapM_eq_ok h).imp fun x y hxy => ⟨⟨y, hxy⟩, hxy⟩
  exact ((List.forall₂_and_left xs ys).mp hpairs).1

theorem exists_mem_of_mapM_eq_error {e : ε} (h : xs.mapM f = .error e) :
    ∃ x ∈ xs, f x = .error e := by
  induction xs with
  | nil => cases h
  | cons x rest ih =>
    rw [List.mapM_cons] at h
    cases hx : f x with
    | error e' =>
      rw [hx] at h
      cases h
      exact ⟨x, List.mem_cons_self, hx⟩
    | ok y =>
      cases hrest : rest.mapM f with
      | error e' =>
        rw [hx, hrest] at h
        cases h
        obtain ⟨z, hz, hfz⟩ := ih hrest
        exact ⟨z, List.mem_cons_of_mem x hz, hfz⟩
      | ok ys =>
        rw [hx, hrest] at h
        cases h

end Lists

end AnnoTree
