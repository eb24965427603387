import AnnoTree.Proofs.Nesting.Bound
import AnnoTree.Proofs.Order.Canonical

/-!
# Selected checks

A run of checks gives the verdicts of those that are selected, in their own order, and ends at the
check of nesting where that is among them and fails. Only the check of order can fail to give a
verdict: it renders the values of neighbours, and no rendering goes beyond the bound. The check of
nesting keeps it from such values, but only in a selection that has both.

## Main definitions

- `Check.selected`, `Check.ran`: the checks that a caller selects, and those of them that run.
- `ComesUponTooDeep`: the check of order comes upon a parameter that is nested too deep.

## Main statements

- `Check.run_eq_error_iff`: when a single check gives no verdict.
- `runChecks_eq_mapM`: a run without a verdict that ends it runs every check.
- `checks_stop_only_without_that_of_nesting`, `selected_checks_may_give_no_verdicts`
-/

namespace AnnoTree

variable {settings : Settings}

/-! ## §1 Comparisons that go too deep -/

/-- Comparing parameters stops at the bound exactly if one of them is nested too deep, and then as a
rendering. -/
theorem Parameter.compare_stops (p q : Parameter) :
    WalkSpec settings.maxDepth [.render]
      (p.value.Fits settings.maxDepth 0 ∧ q.value.Fits settings.maxDepth 0)
      ((p.fullKey settings).compare (q.fullKey settings)) (p.compare settings q) := by
  refine WalkSpec.congr ?_ (WalkSpec.bind (p.key_spec settings 0)
    (WalkSpec.bind (q.key_spec settings 0) (WalkSpec.pure _)))
  simp

theorem Parameter.compare_of_tooDeeplyNested {p q : Parameter}
    (h : p.TooDeeplyNested settings ∨ q.TooDeeplyNested settings) :
    p.compare settings q = .error ⟨settings.maxDepth, .render⟩ := by
  rw [Parameter.tooDeeplyNested_iff, Parameter.tooDeeplyNested_iff] at h
  obtain ⟨walk, hwalk, herror⟩ := (Parameter.compare_stops p q).tooDeep (by tauto)
  rw [List.mem_singleton.mp hwalk] at herror
  exact herror

/-- The check of order comes upon a parameter that is nested too deep: two neighbours have one, and
no neighbours before them are in the wrong order. -/
def ComesUponTooDeep (settings : Settings) (ps : List Parameter) : Prop :=
  ∃ i p q, ps[i]? = some p ∧ ps[i + 1]? = some q ∧
    (p.TooDeeplyNested settings ∨ q.TooDeeplyNested settings) ∧
    ∀ j < i, ∀ r s, ps[j]? = some r → ps[j + 1]? = some s →
      (Raw.parameter r).holds settings .greater (.parameter s) = .ok false

theorem ComesUponTooDeep.head {p q : Parameter} {rest : List Parameter}
    (h : p.TooDeeplyNested settings ∨ q.TooDeeplyNested settings) :
    ComesUponTooDeep settings (p :: q :: rest) :=
  ⟨0, p, q, rfl, rfl, h, fun _ hj => absurd hj (Nat.not_lt_zero _)⟩

theorem not_comesUponTooDeep_of_length_le_one {ps : List Parameter} (h : ps.length ≤ 1) :
    ¬ComesUponTooDeep settings ps := by
  rintro ⟨i, p, q, -, hq, -⟩
  obtain ⟨hi, -⟩ := List.getElem?_eq_some_iff.mp hq
  omega

/-- Past two neighbours that fit, the check goes on exactly if they are in order. -/
theorem comesUponTooDeep_cons_cons_iff {p q : Parameter} {rest : List Parameter}
    (hp : p.value.Fits settings.maxDepth 0) (hq : q.value.Fits settings.maxDepth 0) :
    ComesUponTooDeep settings (p :: q :: rest) ↔
      (Raw.parameter p).holds settings .greater (.parameter q) = .ok false ∧
        ComesUponTooDeep settings (q :: rest) := by
  constructor
  · rintro ⟨i, r, s, hr, hs, hdeep, hbefore⟩
    cases i with
    | zero =>
      -- the first two fit, so they are not the neighbours that were found
      cases hr
      cases hs
      rw [Parameter.tooDeeplyNested_iff, Parameter.tooDeeplyNested_iff] at hdeep
      rcases hdeep with hdeep | hdeep
      · exact absurd hp hdeep
      · exact absurd hq hdeep
    | succ i =>
      exact ⟨hbefore 0 (Nat.succ_pos i) p q rfl rfl, i, r, s, hr, hs, hdeep,
        fun j hj => hbefore (j + 1) (Nat.succ_lt_succ hj)⟩
  · rintro ⟨hfirst, i, r, s, hr, hs, hdeep, hbefore⟩
    refine ⟨i + 1, r, s, hr, hs, hdeep, fun j hj t u ht hu => ?_⟩
    cases j with
    | zero =>
      cases ht
      cases hu
      exact hfirst
    | succ j => exact hbefore j (Nat.lt_of_succ_lt_succ hj) t u ht hu

theorem firstDescent?_eq_error_iff (index : ℕ) {ps : List Parameter} {e : TooDeep} :
    firstDescent? settings index ps = .error e ↔
      e = ⟨settings.maxDepth, .render⟩ ∧ ComesUponTooDeep settings ps := by
  induction ps generalizing index with
  | nil => simp [firstDescent?, not_comesUponTooDeep_of_length_le_one]
  | cons p rest ih =>
    cases rest with
    | nil => simp [firstDescent?, not_comesUponTooDeep_of_length_le_one]
    | cons q rest =>
      by_cases hfits : p.value.Fits settings.maxDepth 0 ∧ q.value.Fits settings.maxDepth 0
      · have hcompare := (Parameter.compare_stops p q).ok hfits
        have hgreater := Parameter.holds_eq hfits.1 hfits.2 .greater
        rw [comesUponTooDeep_cons_cons_iff hfits.1 hfits.2, hgreater, firstDescent?, hcompare]
        cases hkeys : (p.fullKey settings).compare (q.fullKey settings) with
        | gt => simp [Raw.OrderRelation.accepts, pure, Except.pure, bind, Except.bind]
        | lt => simpa [Raw.OrderRelation.accepts, bind, Except.bind] using ih (index + 1)
        | eq => simpa [Raw.OrderRelation.accepts, bind, Except.bind] using ih (index + 1)
      · have hdeep : p.TooDeeplyNested settings ∨ q.TooDeeplyNested settings := by
          rw [Parameter.tooDeeplyNested_iff, Parameter.tooDeeplyNested_iff]
          tauto
        rw [firstDescent?, Parameter.compare_of_tooDeeplyNested hdeep,
          and_iff_left (ComesUponTooDeep.head hdeep)]
        simp [bind, Except.bind, eq_comm]

/-! ## §2 Single checks -/

namespace Check

section Runs

variable {a : Annot} {c : Check}

/-- **A single check** gives no verdict only if it is that of order and comes upon a parameter that
is nested too deep. -/
theorem run_eq_error_iff {e : TooDeep} :
    c.run settings a = .error e ↔
      c = .parametersSorted ∧ e = ⟨settings.maxDepth, .render⟩ ∧
        ComesUponTooDeep settings a.known := by
  cases c with
  | nestingBounded => simp [Check.run]
  | parametersSorted =>
    rw [← firstDescent?_eq_error_iff 0, Check.run]
    cases hdescent : firstDescent? settings 0 a.known with
    | error e' => simp [bind, Except.bind]
    | ok found =>
      rcases found with _ | ⟨index, p, q⟩ <;> simp [bind, Except.bind, pure, Except.pure]
  | namesUnique =>
    rw [Check.run]
    split <;> simp

/-- The verdict of a check is about that check. -/
theorem check_of_run {v : Verdict} (h : c.run settings a = .ok v) : v.check = c := by
  cases c with
  | nestingBounded =>
    rw [run_nestingBounded] at h
    split at h <;> (cases h; rfl)
  | parametersSorted =>
    rw [Check.run] at h
    obtain ⟨found, -, h⟩ := bind_eq_ok.mp h
    rcases found with _ | ⟨index, p, q⟩ <;> (cases h; rfl)
  | namesUnique =>
    rw [Check.run] at h
    split at h <;> (cases h; rfl)

/-- Whether a check gives a verdict and does not pass. -/
def fails (settings : Settings) (a : Annot) (c : Check) : Bool :=
  match c.run settings a with
  | .ok v => !v.passed
  | .error _ => false

/-- A verdict ends a run exactly if it is that of the check of nesting, and this fails. -/
theorem endsRun_iff {v : Verdict} (h : c.run settings a = .ok v) :
    v.endsRun = true ↔ c = .nestingBounded ∧ c.fails settings a = true := by
  have hverdict : v.endsRun = true ↔ v.check = .nestingBounded ∧ (!v.passed) = true := by
    cases v <;> simp [Verdict.endsRun, Verdict.check, Verdict.passed]
  rw [hverdict, check_of_run h, Check.fails, h]

theorem exists_run_nestingBounded : ∃ v, Check.nestingBounded.run settings a = .ok v :=
  ⟨_, run_nestingBounded settings a⟩

end Runs

/-! ## §3 Runs of checks -/

/-- The checks that a caller selects, in their order; all of them if nothing is selected. -/
def selected : Option (List Check) → List Check
  | none => all
  | some cs => all.filter cs.contains

/-- The selected checks that run: that of nesting alone if it is selected and fails. -/
def ran (settings : Settings) (a : Annot) (only : Option (List Check)) : List Check :=
  if .nestingBounded ∈ selected only ∧ fails settings a .nestingBounded then [.nestingBounded]
  else selected only

/-- The check of nesting comes first where it is selected. -/
theorem selected_eq_cons_of_mem {only : Option (List Check)}
    (h : .nestingBounded ∈ selected only) :
    ∃ rest, selected only = .nestingBounded :: rest := by
  cases only with
  | none => exact ⟨[.parametersSorted, .namesUnique], rfl⟩
  | some cs =>
    have hcontains : cs.contains Check.nestingBounded = true := (List.mem_filter.mp h).2
    exact ⟨_, List.filter_cons_of_pos hcontains⟩

end Check

section Selection

variable {a : Annot} {cs : List Check}

theorem runChecks_step (c : Check) (rest : List Check) :
    runChecks settings a (c :: rest) = (do
      let v ← c.run settings a
      if v.endsRun then return [v]
      else
        let vs ← runChecks settings a rest
        return v :: vs) := rfl

/-- A run in which no verdict ends it runs every check. -/
theorem runChecks_eq_mapM (hgo : ∀ c ∈ cs, c = .nestingBounded → c.fails settings a = false) :
    runChecks settings a cs = cs.mapM (Check.run settings a) := by
  induction cs with
  | nil => rfl
  | cons c rest ih =>
    rw [List.forall_mem_cons] at hgo
    rw [runChecks_step, List.mapM_cons, ih hgo.2]
    cases hrun : c.run settings a with
    | error e => rfl
    | ok v =>
      have hv : v.endsRun = false := by
        rw [Bool.eq_false_iff, Ne, Check.endsRun_iff hrun]
        rintro ⟨hc, hfails⟩
        rw [hgo.1 hc] at hfails
        cases hfails
      simp [hv, bind, Except.bind]

/-- A run ends at the check of nesting where it fails. -/
theorem runChecks_of_fails (rest : List Check)
    (h : Check.fails settings a .nestingBounded = true) :
    ∃ v, Check.nestingBounded.run settings a = .ok v ∧
      runChecks settings a (.nestingBounded :: rest) = .ok [v] := by
  obtain ⟨v, hv⟩ : ∃ v, Check.nestingBounded.run settings a = .ok v :=
    Check.exists_run_nestingBounded
  refine ⟨v, hv, ?_⟩
  rw [runChecks_step, hv]
  exact if_pos ((Check.endsRun_iff hv).mpr ⟨rfl, h⟩)

theorem Annot.check_eq (a : Annot) (only : Option (List Check)) :
    a.check settings only = runChecks settings a (Check.selected only) := by
  cases only <;> rfl

/-- **A run gives the verdicts of the checks that run**, one by one and in their order. -/
theorem Annot.check_eq_mapM (a : Annot) (only : Option (List Check)) :
    a.check settings only = (Check.ran settings a only).mapM (Check.run settings a) := by
  rw [Annot.check_eq, Check.ran]
  split
  case isTrue h =>
    obtain ⟨rest, hselected⟩ := Check.selected_eq_cons_of_mem h.1
    obtain ⟨v, hv, hrun⟩ := runChecks_of_fails rest h.2
    rw [hselected, hrun, List.mapM_cons, hv]
    rfl
  case isFalse h =>
    refine runChecks_eq_mapM fun c hc hnesting => ?_
    subst hnesting
    simpa using fun hfails => h ⟨hc, hfails⟩

end Selection

/-! ## §4 Runs that give no verdicts -/

section Failures

variable {a : Annot} {only : Option (List Check)}

/-- What the check of order comes upon, the check of nesting reports. -/
theorem ComesUponTooDeep.fails (h : ComesUponTooDeep settings a.known) :
    Check.fails settings a .nestingBounded = true := by
  obtain ⟨i, p, q, hp, hq, hdeep, -⟩ := h
  have hfits : ¬a.Fits settings.maxDepth 0 := by
    intro hfits
    have hknown := (Annot.fits_iff.mp hfits).2
    rw [Parameter.tooDeeplyNested_iff, Parameter.tooDeeplyNested_iff] at hdeep
    rcases hdeep with hdeep | hdeep
    · exact hdeep (hknown p (List.mem_of_getElem? hp))
    · exact hdeep (hknown q (List.mem_of_getElem? hq))
  rw [Check.fails, Check.run_nestingBounded, if_neg hfits]
  rfl

/-- The check of order runs into a parameter that is nested too deep only if the check of nesting
is not selected. -/
theorem Check.mem_ran_iff (hdeep : ComesUponTooDeep settings a.known) :
    .parametersSorted ∈ Check.ran settings a only ↔
      .parametersSorted ∈ Check.selected only ∧ .nestingBounded ∉ Check.selected only := by
  rw [Check.ran]
  split
  case isTrue h => simp [h.1]
  case isFalse h =>
    have hnesting : .nestingBounded ∉ Check.selected only := fun hmem => h ⟨hmem, hdeep.fails⟩
    exact (and_iff_left hnesting).symm

theorem Annot.check_eq_error_iff {e : TooDeep} :
    a.check settings only = .error e ↔
      e = ⟨settings.maxDepth, .render⟩ ∧ .parametersSorted ∈ Check.selected only ∧
        .nestingBounded ∉ Check.selected only ∧ ComesUponTooDeep settings a.known := by
  rw [Annot.check_eq_mapM]
  constructor
  · intro h
    obtain ⟨c, hc, hrun⟩ := exists_mem_of_mapM_eq_error h
    obtain ⟨rfl, he, hdeep⟩ := Check.run_eq_error_iff.mp hrun
    obtain ⟨hsorted, hnesting⟩ := (Check.mem_ran_iff hdeep).mp hc
    exact ⟨he, hsorted, hnesting, hdeep⟩
  · rintro ⟨he, hsorted, hnesting, hdeep⟩
    have hran := (Check.mem_ran_iff hdeep).mpr ⟨hsorted, hnesting⟩
    have hrun := Check.run_eq_error_iff.mpr ⟨rfl, he, hdeep⟩
    cases hall : (Check.ran settings a only).mapM (Check.run settings a) with
    | ok vs =>
      obtain ⟨v, hv⟩ := exists_ok_of_mapM_eq_ok hall _ hran
      rw [hrun] at hv
      cases hv
    | error e' =>
      obtain ⟨c, -, hc⟩ := exists_mem_of_mapM_eq_error hall
      rw [(Check.run_eq_error_iff.mp hc).2.1, he]

theorem Annot.Obtained.exists_check_eq_ok (h : a.Obtained settings) :
    ∃ vs, a.check settings only = .ok vs := by
  cases hcheck : a.check settings only with
  | ok vs => exact ⟨vs, rfl⟩
  | error e =>
    obtain ⟨he, -, -, hdeep⟩ := Annot.check_eq_error_iff.mp hcheck
    have hrun := Check.run_eq_error_iff.mpr ⟨rfl, he, hdeep⟩
    rw [(Annot.isCanonical_of_sorted h.sorted).checked] at hrun
    cases hrun

end Failures

/-- **Checks stop only without that of nesting.** A run gives no verdicts exactly if the check of
order is selected, that of nesting is not, and two neighbours are met one of which is nested too
deep; its failure is that of rendering at the bound. Any other run gives the verdicts of the
selected checks in their order, and of no check after that of nesting exactly if this is selected
and fails. An annotation that was built, loaded or merged always has verdicts. -/
theorem checks_stop_only_without_that_of_nesting (settings : Settings) (a : Annot)
    (only : Option (List Check)) :
    (∀ e, a.check settings only = .error e ↔
      e = ⟨settings.maxDepth, .render⟩ ∧ .parametersSorted ∈ Check.selected only ∧
        .nestingBounded ∉ Check.selected only ∧ ComesUponTooDeep settings a.known) ∧
    (∀ vs, a.check settings only = .ok vs →
      List.Forall₂ (fun c v => c.run settings a = .ok v) (Check.ran settings a only) vs) ∧
    (a.Obtained settings → ∃ vs, a.check settings only = .ok vs) := by
  refine ⟨fun e => Annot.check_eq_error_iff, fun vs hvs => ?_, Annot.Obtained.exists_check_eq_ok⟩
  rw [Annot.check_eq_mapM] at hvs
  exact forall₂_of_mapM_eq_ok hvs

/-- An annotation with a parameter that is nested too deep for a limit of one. -/
def Annot.nestedTwice : Annot :=
  ⟨"A", some [⟨"a", .array [.array [.array []]]⟩, ⟨"b", .absent⟩]⟩

/-- A case of it: where the check of nesting is selected too, it is the one that reports the
annotation whose parameters could not be compared. -/
theorem nesting_is_reported_first :
    ∃ v, Check.nestingBounded.run { maxDepth := 1 } .nestedTwice = .ok v ∧
      Annot.check { maxDepth := 1 } .nestedTwice none = .ok [v] := by
  obtain ⟨hfailure, hverdicts, -⟩ :=
    checks_stop_only_without_that_of_nesting { maxDepth := 1 } .nestedTwice none
  have hran : Check.ran { maxDepth := 1 } .nestedTwice none = [.nestingBounded] := by rfl
  cases hcheck : Annot.check { maxDepth := 1 } .nestedTwice none with
  | error e =>
    obtain ⟨-, -, hnesting, -⟩ := (hfailure e).mp hcheck
    exact absurd (by decide) hnesting
  | ok vs =>
    have hall := hverdicts vs hcheck
    rw [hran] at hall
    cases hall with
    | cons hv hrest =>
      cases hrest
      exact ⟨_, hv, rfl⟩

/-- It is not so that selected checks always give verdicts: that of order, selected alone, compares
two parameters one of which cannot be rendered. -/
theorem selected_checks_may_give_no_verdicts :
    ¬∀ (settings : Settings) (a : Annot) (only : Option (List Check)),
      ∃ vs, a.check settings only = .ok vs := by
  intro h
  obtain ⟨vs, hvs⟩ := h { maxDepth := 1 } .nestedTwice (some [.parametersSorted])
  cases hvs

end AnnoTree
