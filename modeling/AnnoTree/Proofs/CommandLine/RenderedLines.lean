import AnnoTree.Proofs.CommandLine.Outcomes
import AnnoTree.Proofs.Rendering.LineFeeds
import AnnoTree.Proofs.Storage.LastLine

/-!
# Lines of rendered annotations

The rendering of each annotation of a file is written and ended by a line feed. These are the lines
of the output as long as no rendering has a line feed itself, and a rendering has the line feeds of
its raw texts. Strings and characters never break a line; the names of annotations, parameters, enum
types and constants do, and so do descriptors without a signature.

## Main definitions

- `RendersEach`: what is known of a text that renders annotations.

## Main statements

- `Text.splitAt_lines_iff`: when the parts between line feeds are the texts that were ended by them.
- `Request.holdsAnnots_of_run`: what is known of a file that is answered by exit code zero.
- `raw_texts_break_lines`, `names_may_break_lines`
-/

namespace AnnoTree

open AnnoTree.Text
open CodePoint (char)

/-! ## §1 Lines of a text -/

namespace Text

theorem length_splitAt (separator : CodePoint) (cs : List CodePoint) :
    (splitAt separator cs).length = cs.count separator + 1 := by
  induction cs with
  | nil => rfl
  | cons c rest ih =>
    rw [splitAt]
    by_cases h : c = separator
    · rw [if_pos h, h, List.count_cons_self, List.length_cons, ih]
    · rw [if_neg h, List.count_cons_of_ne h]
      split
      next hnil => exact absurd hnil (splitAt_ne_nil separator rest)
      next part more hparts =>
        rw [hparts] at ih
        exact ih

/-- Texts that are ended have a line feed each, and their own. -/
theorem lineFeeds_lines (texts : List Str) :
    lineFeeds (Str.join (texts.map (· ++ "\n"))) = texts.length + totalFeeds texts := by
  induction texts with
  | nil => rfl
  | cons s rest ih =>
    have hfeed : lineFeeds "\n" = 1 := by decide
    rw [List.map_cons, Str.join_cons, lineFeeds_append, lineFeeds_append, ih, hfeed,
      totalFeeds_cons, List.length_cons]
    omega

/-- The parts between line feeds are the texts that were ended by them, and nothing after the last,
exactly if no text has a line feed. -/
theorem splitAt_lines_iff {texts : List Str} :
    splitAt (char '\n') (Str.join (texts.map (· ++ "\n"))).toList =
        texts.map Str.toList ++ [[]] ↔
      ∀ s ∈ texts, char '\n' ∉ s.toList := by
  constructor
  · intro hsplit
    -- there are as many parts as line feeds, and one more
    have hlength := congrArg List.length hsplit
    rw [length_splitAt, ← lineFeeds, lineFeeds_lines, List.length_append, List.length_map,
      List.length_singleton] at hlength
    exact totalFeeds_eq_zero.mp (by omega)
  · intro hnone
    induction texts with
    | nil => rfl
    | cons s rest ih =>
      obtain ⟨hs, hrest⟩ := List.forall_mem_cons.mp hnone
      have hline : (Str.join ((s :: rest).map (· ++ "\n"))).toList =
          s.toList ++ char '\n' :: (Str.join (rest.map (· ++ "\n"))).toList := by
        rw [List.map_cons, Str.join_cons, Str.append_assoc]
        rfl
      rw [hline, splitAt_append hs, ih hrest, List.map_cons, List.cons_append]

end Text

/-! ## §2 Outcomes -/

/-- No failure ends the program with exit code zero. -/
theorem Failure.ending?_ne_zero {f : Failure} {path : Path} {code : ℕ} {content : LogContent}
    (h : f.ending? path = some (code, content)) : code ≠ 0 := by
  unfold Failure.ending? at h
  split at h <;> cases h <;> decide

theorem Work.exitCode_ne_zero_of_fault {request : Request} {work : Work} {f : Failure}
    {o : Outcome} (hresult : work.result = .error f) (houtcome : work.outcome request = .ok o) :
    o.exitCode ≠ 0 := by
  rw [Work.outcome, hresult] at houtcome
  simp only at houtcome
  split at houtcome
  next => cases houtcome
  next hending =>
    cases houtcome
    exact Failure.ending?_ne_zero hending

/-- **A file that is answered by exit code zero** is there and holds annotations, and the command
has written about them. -/
theorem Request.holdsAnnots_of_run {settings : Settings} {request : Request}
    {content : Except StorageFault (List Octet)} {o : Outcome}
    (hrun : request.run settings content = .ok o) (hcode : o.exitCode = 0) :
    ∃ octets annots, content = .ok octets ∧ HoldsAnnots settings octets annots ∧
      request.command.Writes settings annots o.lines := by
  cases content with
  | error f =>
    -- nothing was delivered but the fault of the file
    have hresult : (Work.through settings request.command request.path (some (.storage f))
        []).result = .error (.storage f) := rfl
    exact absurd hcode (Work.exitCode_ne_zero_of_fault hresult hrun)
  | ok octets =>
    -- the outcome is known from what the file holds, and it is that of the run
    by_cases haccepted : IsAccepted settings octets
    · obtain ⟨annots, hannots⟩ := exists_holdsAnnots_iff.mpr haccepted
      obtain ⟨o', hrun', hanswered, hfaulty⟩ := Request.run_of_holdsAnnots hannots request
      rw [hrun] at hrun'
      cases hrun'
      have hanswers : ∀ a ∈ annots, request.command.Answers settings a := by
        by_contra hnot
        simp only [not_forall] at hnot
        obtain ⟨a, ha, hnone⟩ := hnot
        rw [(hfaulty ⟨a, ha, hnone⟩).1] at hcode
        cases hcode
      exact ⟨octets, annots, rfl, hannots, (hanswered hanswers).2.1⟩
    · obtain ⟨o', hrun', hcode', -⟩ := Request.run_of_not_isAccepted haccepted request
      rw [hrun] at hrun'
      cases hrun'
      rw [hcode] at hcode'
      cases hcode'

/-! ## §3 Rendered annotations -/

/-- What is known of a text that renders annotations. -/
structure RendersEach (settings : Settings) (annots : List Annot) (texts : List Str)
    (written : Str) : Prop where
  each : List.Forall₂ (fun a text => a.render settings 0 = .ok text) annots texts
  ended : written = Str.join (texts.map (· ++ "\n"))
  feeds : lineFeeds written =
    annots.length + (annots.map fun a => totalFeeds (a.rawTexts settings)).sum
  lines : splitAt (char '\n') written.toList = texts.map Str.toList ++ [[]] ↔
    ∀ a ∈ annots, ∀ s ∈ a.rawTexts settings, char '\n' ∉ s.toList

section Renderings

variable {settings : Settings} {annots : List Annot} {texts : List Str}

theorem eq_map_fullText
    (h : List.Forall₂ (fun a text => a.render settings 0 = .ok text) annots texts) :
    texts = annots.map (Annot.fullText settings) := by
  induction h with
  | nil => rfl
  | @cons a text annots texts hrender _ ih =>
    rw [List.map_cons, ih, ((a.render_spec settings 0).of_eq_ok hrender).2]

/-- **What renders annotations**: their renderings, each ended by a line feed. -/
theorem rendersEach_lines
    (heach : List.Forall₂ (fun a text => a.render settings 0 = .ok text) annots texts)
    {written : Str} (hended : written = Str.join (texts.map (· ++ "\n"))) :
    RendersEach settings annots texts written := by
  have htexts := eq_map_fullText heach
  refine ⟨heach, hended, ?_, ?_⟩
  · have hfeeds : annots.map (fun a => lineFeeds (a.fullText settings)) =
        annots.map fun a => totalFeeds (a.rawTexts settings) :=
      List.map_congr_left fun a _ => a.lineFeeds_fullText
    rw [← hfeeds, hended, lineFeeds_lines, htexts, List.length_map, totalFeeds, List.map_map]
    rfl
  · rw [hended, splitAt_lines_iff, htexts, List.forall_mem_map]
    exact forall₂_congr fun a _ => a.lineFeed_not_mem_fullText_iff

end Renderings

/-- **Raw texts break lines.** An annotation that is loaded has a rendering, and this has the line
feeds of the raw texts of the annotation and no others. So when annotations are rendered with exit
code zero, the output is the rendering of each, ended by a line feed. It has a line feed for each
annotation and those of the raw texts, and its lines are the renderings exactly if no raw text has
one. If writing does not fail, it is what is written. -/
theorem raw_texts_break_lines (settings : Settings) :
    (∀ (j : Json) (a : Annot), Annot.load settings 0 j = .ok a →
      ∃ text, a.render settings 0 = .ok text ∧
        lineFeeds text = totalFeeds (a.rawTexts settings)) ∧
    ∀ (request : Request) (content : Except StorageFault (List Octet)) (o : Outcome),
      request.command = .render → request.run settings content = .ok o → o.exitCode = 0 →
      ∃ octets annots texts, content = .ok octets ∧ HoldsAnnots settings octets annots ∧
        RendersEach settings annots texts o.text ∧ (o.written.2 = .ok () → o.IsWritten) := by
  constructor
  · intro j a hload
    have hsound := ((loadSpecs settings j).annot 0).of_eq_ok hload
    exact ⟨_, (a.render_spec settings 0).ok hsound.fits, a.lineFeeds_fullText⟩
  · intro request content o hcommand hrun hcode
    obtain ⟨octets, annots, hcontent, hannots, hwrites⟩ := Request.holdsAnnots_of_run hrun hcode
    rw [hcommand] at hwrites
    exact ⟨octets, annots, o.lines, hcontent, hannots, rendersEach_lines hwrites rfl,
      Outcome.isWritten_of_written⟩

/-! ## §4 A file of one annotation -/

/-- What rendering the file of a row writes. -/
theorem run_render_row {settings : Settings} {a : Annot} (ha : a.IsSound settings 0)
    (hwell : a.fullPayload.isWellFormed = true) (level : Severity) (path : Path) :
    ∃ o, Request.run settings ⟨level, .render, path⟩
        (.ok (encodeUtf8 a.fullPayload.row)) = .ok o ∧ o.exitCode = 0 ∧
      o.lines = [a.fullText settings] := by
  obtain ⟨o, hrun, hanswered, -⟩ :=
    Request.run_of_holdsAnnots (holdsAnnots_row ha hwell) ⟨level, .render, path⟩
  obtain ⟨hcode, hwrites, -⟩ := hanswered fun _ _ => trivial
  exact ⟨o, hrun, hcode, eq_map_fullText hwrites⟩

/-- A case of it: a string that has a line feed, under the name that is left out. -/
theorem strings_break_no_line :
    ∃ (a : Annot) (o : Outcome), a = ⟨"A", some [⟨"value", .string "x\ny"⟩]⟩ ∧
      (∃ text, a.render {} 0 = .ok text ∧ lineFeeds text = 0) ∧
      Request.run {} ⟨.warning, .render, .ofText "r"⟩ (.ok (encodeUtf8 a.fullPayload.row)) =
        .ok o ∧
      splitAt (char '\n') o.text.toList = [("@A(\"x\\ny\")" : Str).toList, []] := by
  let a : Annot := ⟨"A", some [⟨"value", .string "x\ny"⟩]⟩
  have hload : Annot.load {} 0 a.fullPayload = .ok a := rfl
  have hraw : a.rawTexts {} = ["A"] := rfl
  have ha := ((loadSpecs {} a.fullPayload).annot 0).of_eq_ok hload
  obtain ⟨o, hrun, hcode, -⟩ := run_render_row ha (by decide) .warning (.ofText "r")
  obtain ⟨hloaded, hwritten⟩ := raw_texts_break_lines {}
  obtain ⟨text, hrender, hfeeds⟩ := hloaded _ a hload
  obtain ⟨octets, annots, texts, hcontent, hannots, hrenders, -⟩ := hwritten _ _ o rfl hrun hcode
  cases hcontent
  obtain rfl := hannots.unique (holdsAnnots_row ha (by decide))
  refine ⟨a, o, rfl, ⟨text, hrender, ?_⟩, hrun, ?_⟩
  · rw [hfeeds, hraw]
    rfl
  · have hnone : ∀ b ∈ [a], ∀ s ∈ b.rawTexts {}, char '\n' ∉ s.toList := by simp [hraw]
    rw [hrenders.lines.mpr hnone, eq_map_fullText hrenders.each]
    rfl

/-- It is not so that each rendering is a line of the output: the name of an annotation may have a
line feed, and it is written as it is. -/
theorem names_may_break_lines :
    ¬∀ (settings : Settings) (request : Request) (content : Except StorageFault (List Octet))
      (o : Outcome), request.command = .render → request.run settings content = .ok o →
      o.exitCode = 0 →
      ∃ octets annots texts, content = .ok octets ∧ HoldsAnnots settings octets annots ∧
        List.Forall₂ (fun a text => a.render settings 0 = .ok text) annots texts ∧
        splitAt (char '\n') o.text.toList = texts.map Str.toList ++ [[]] := by
  intro halways
  have ha : (Annot.ofName "A\nB").IsSound {} 0 := Annot.isSound_ofName (by decide)
  obtain ⟨o, hrun, hcode, hlines⟩ := run_render_row ha (by decide) .warning (.ofText "r")
  obtain ⟨octets, annots, texts, hcontent, hannots, heach, hsplit⟩ :=
    halways {} _ _ o rfl hrun hcode
  cases hcontent
  obtain rfl := hannots.unique (holdsAnnots_row ha (by decide))
  have hended : o.text = Str.join (texts.map (· ++ "\n")) := by
    rw [Outcome.text, hlines, eq_map_fullText heach]
    rfl
  -- the lines would be the renderings only if the name had no line feed
  have hnone := (rendersEach_lines heach hended).lines.mp hsplit
  exact hnone _ (List.mem_singleton_self _) "A\nB" (List.mem_singleton_self _) (by simp)

end AnnoTree
