import AnnoTree.Annot.Check
import AnnoTree.Proofs.Nesting.Walks
import Mathlib.Order.Bounds.Defs

/-!
# One bound on nesting

Rendering, serializing, comparing and the check of nesting are separate recursions that count
levels in different places. They agree: each gives a result exactly when no array or annotation is
beyond the bound of the settings, and the result is the same at every level where there is one.
The check passes exactly then, and reports the greatest level.

## Main statements

- `Annot.isGreatest_reach`: what the check reports is the greatest level of the tree.
- `walks_agree_on_nesting`: the walks and the check share one bound.
-/

namespace AnnoTree

/-! ## §1 The reach of a walk -/

/-- `reach` is what a walk finds that meets `levels` and does not go below the limit: their
greatest, or zero if there are none, unless one is beyond the limit. -/
structure Reaches (limit : Nat) (levels : List Nat) (reach : Nat) : Prop where
  upper : (∀ n ∈ levels, n ≤ limit) → ∀ n ∈ levels, n ≤ reach
  attained : (∀ n ∈ levels, n ≤ limit) → reach ∈ levels ∨ reach = 0
  beyond : ¬(∀ n ∈ levels, n ≤ limit) → limit < reach

namespace Reaches

variable {limit depth r s : Nat} {ls ms : List Nat}

theorem nil : Reaches limit [] 0 where
  upper _ := by simp
  attained _ := .inr rfl
  beyond h := absurd (by simp) h

/-- A root beyond the limit is as far as a walk goes. -/
theorem stop (h : limit < depth) : Reaches limit (depth :: ls) depth where
  upper hfits := absurd (hfits depth List.mem_cons_self) (by omega)
  attained hfits := absurd (hfits depth List.mem_cons_self) (by omega)
  beyond _ := h

theorem append (hl : Reaches limit ls r) (hm : Reaches limit ms s) :
    Reaches limit (ls ++ ms) (max r s) where
  upper hfits n hn := by
    rw [List.forall_mem_append] at hfits
    rcases List.mem_append.mp hn with hn | hn
    · have := hl.upper hfits.1 n hn
      omega
    · have := hm.upper hfits.2 n hn
      omega
  attained hfits := by
    rw [List.forall_mem_append] at hfits
    have hr := hl.attained hfits.1
    have hs := hm.attained hfits.2
    rcases Nat.le_total r s with hrs | hrs
    · rw [Nat.max_eq_right hrs]
      exact hs.imp_left (List.mem_append_right ls)
    · rw [Nat.max_eq_left hrs]
      exact hr.imp_left (List.mem_append_left ms)
  beyond hfits := by
    rw [List.forall_mem_append] at hfits
    by_cases hls : ∀ n ∈ ls, n ≤ limit
    · have := hm.beyond (fun hms => hfits ⟨hls, hms⟩)
      omega
    · have := hl.beyond hls
      omega

theorem root (h : depth ≤ limit) : Reaches limit [depth] depth where
  upper _ := by simp
  attained _ := .inl List.mem_cons_self
  beyond hfits := absurd (by simpa using h) hfits

/-- A walk goes on below a root that is within the limit. -/
theorem cons (hl : Reaches limit ls r) :
    Reaches limit (depth :: ls) (if limit < depth then depth else max depth r) := by
  split
  · exact stop ‹_›
  · exact (root (by omega)).append hl

end Reaches

theorem Value.reachList_reaches {limit depth : Nat} {vs : List Value}
    (h : ∀ v ∈ vs, Reaches limit (v.levels depth) (v.reach limit depth)) :
    Reaches limit (Value.levelsList depth vs) (Value.reachList limit depth vs) := by
  induction vs with
  | nil => exact Reaches.nil
  | cons v rest ih =>
    rw [List.forall_mem_cons] at h
    exact h.1.append (ih h.2)

theorem Parameter.reachList_reaches {limit depth : Nat} {ps : List Parameter}
    (h : ∀ p ∈ ps, Reaches limit (p.value.levels depth) (p.value.reach limit depth)) :
    Reaches limit (Parameter.levelsList depth ps) (Parameter.reachList limit depth ps) := by
  induction ps with
  | nil => exact Reaches.nil
  | cons p rest ih =>
    rw [List.forall_mem_cons] at h
    obtain ⟨name, value⟩ := p
    exact h.1.append (ih h.2)

private theorem reach_cases (limit : Nat) :
    TreeCases
      (fun v => ∀ depth, Reaches limit (v.levels depth) (v.reach limit depth))
      (fun a => ∀ depth, Reaches limit (a.levels depth) (a.reach limit depth)) where
  scalar _ _ := Reaches.nil
  string _ _ := Reaches.nil
  array items ih depth := (Value.reachList_reaches fun v hv => ih v hv (depth + 1)).cons
  enumConst _ _ := Reaches.nil
  classLiteral _ _ := Reaches.nil
  annot a ih depth := ih (depth + 1)
  absent _ := Reaches.nil
  node a ih depth := by
    obtain ⟨name, _ | parameters⟩ := a
    · simp only [Annot.levels, Annot.reach]
      by_cases h : limit < depth
      · exact Reaches.stop h
      · exact Reaches.root (by omega)
    · exact (Parameter.reachList_reaches fun p hp => ih p hp depth).cons

theorem Annot.reach_reaches (limit depth : Nat) (a : Annot) :
    Reaches limit (a.levels depth) (a.reach limit depth) :=
  (reach_cases limit).all.2 a depth

theorem Annot.isGreatest_reach {limit depth : Nat} {a : Annot} (h : a.Fits limit depth) :
    IsGreatest {n | n ∈ a.levels depth} (a.reach limit depth) := by
  have hreach := a.reach_reaches limit depth
  have hroot : depth ∈ a.levels depth := Annot.mem_levels.mpr (.inl rfl)
  refine ⟨?_, fun n hn => hreach.upper h n hn⟩
  rcases hreach.attained h with hmem | hzero
  · exact hmem
  · -- a reach of zero is the level of the root
    have := hreach.upper h depth hroot
    have hdepth : a.reach limit depth = depth := by omega
    rw [hdepth]
    exact hroot

theorem Annot.reach_le_iff {limit depth : Nat} {a : Annot} :
    a.reach limit depth ≤ limit ↔ a.Fits limit depth := by
  constructor
  · intro h
    by_contra hfits
    have := (a.reach_reaches limit depth).beyond hfits
    omega
  · intro h
    exact h _ (Annot.isGreatest_reach h).1

/-! ## §2 The check of nesting -/

/-- The verdict of the check of nesting. -/
theorem Check.run_nestingBounded (settings : Settings) (a : Annot) :
    Check.nestingBounded.run settings a = .ok
      (if a.Fits settings.maxDepth 0 then
        .withinBound (a.reach settings.maxDepth 0) settings.maxDepth
      else .beyondBound a.name settings.maxDepth) := by
  simp only [Check.run, Annot.reach_le_iff]

/-! ## §3 One bound for all walks -/

/-- **One bound for all walks**: for values and for annotations, rendering, serializing and
comparing give a result exactly at the levels where no array or annotation of the tree is beyond
the bound, always the same one, and otherwise stop at the bound. The check of nesting passes
exactly when all three give a result at level zero, and then reports the greatest level. -/
theorem walks_agree_on_nesting (settings : Settings) :
    (∀ v : Value, ∃ text payload key, ∀ depth : Nat,
      WalkSpec settings.maxDepth [.render] (∀ n ∈ v.levels depth, n ≤ settings.maxDepth)
        text (v.render settings depth) ∧
      WalkSpec settings.maxDepth [.serialize] (∀ n ∈ v.levels depth, n ≤ settings.maxDepth)
        payload (v.payload settings depth) ∧
      WalkSpec settings.maxDepth [.compare, .render]
        (∀ n ∈ v.levels depth, n ≤ settings.maxDepth) key (v.key settings depth)) ∧
    (∀ a : Annot, ∃ text payload key, ∀ depth : Nat,
      WalkSpec settings.maxDepth [.render] (∀ n ∈ a.levels depth, n ≤ settings.maxDepth)
        text (a.render settings depth) ∧
      WalkSpec settings.maxDepth [.serialize] (∀ n ∈ a.levels depth, n ≤ settings.maxDepth)
        payload (a.payload settings depth) ∧
      WalkSpec settings.maxDepth [.compare, .render]
        (∀ n ∈ a.levels depth, n ≤ settings.maxDepth) key (a.key settings depth)) ∧
    (∀ a : Annot, ∃ verdict, Check.nestingBounded.run settings a = .ok verdict ∧
      (verdict.passed = true ↔
        (∃ text, a.render settings 0 = .ok text) ∧
        (∃ payload, a.payload settings 0 = .ok payload) ∧
        ∃ key, a.key settings 0 = .ok key) ∧
      (verdict.passed = true → ∃ depth, verdict = .withinBound depth settings.maxDepth ∧
        IsGreatest {n | n ∈ a.levels 0} depth)) := by
  refine ⟨fun v => ?_, fun a => ?_, fun a => ?_⟩
  · exact ⟨v.fullText settings, v.fullPayload, v.fullKey settings, fun depth =>
      ⟨v.render_spec settings depth, v.payload_spec settings depth, v.key_spec settings depth⟩⟩
  · exact ⟨a.fullText settings, a.fullPayload, a.fullKey settings, fun depth =>
      ⟨a.render_spec settings depth, a.payload_spec settings depth, a.key_spec settings depth⟩⟩
  · refine ⟨_, Check.run_nestingBounded settings a, ?_, ?_⟩
    · rw [(a.render_spec settings 0).exists_ok_iff, (a.payload_spec settings 0).exists_ok_iff,
        (a.key_spec settings 0).exists_ok_iff]
      by_cases hfits : a.Fits settings.maxDepth 0
      · simp [hfits, Verdict.passed]
      · simp [hfits, Verdict.passed]
    · intro hpassed
      by_cases hfits : a.Fits settings.maxDepth 0
      · rw [if_pos hfits]
        exact ⟨_, rfl, Annot.isGreatest_reach hfits⟩
      · rw [if_neg hfits] at hpassed
        cases hpassed

end AnnoTree
