import AnnoTree.Proofs.CommandLine.Reports
import AnnoTree.Proofs.Order.Comparators
import AnnoTree.Proofs.Storage.Deliveries

/-!
# Outcomes of requests

A command comes to lines about all annotations of a file or about none. What is delivered of a file
was loaded, so a command answers it, but for the report of one in which half of a surrogate pair
stands alone, or of which an integer is too long to be written. A file that is not accepted is
refused by all commands alike.

The lines are written one after another. A line with half of a surrogate pair cannot be: writing
stops there, and the failure is none that the program expects.

## Main definitions

- `Command.Writes`: the lines that a command writes about annotations.
- `Outcome.IsSilent`, `Outcome.IsWritten`, `Outcome.IsWrittenInPart`: what is written of an outcome.

## Main statements

- `Work.result_through`, `Work.exists_fault_of_through`: what becomes of annotations that are taken
  one after another.
- `exists_writeLines`: what is written of lines.
- `Request.run_of_holdsAnnots`, `Request.run_of_not_isAccepted`: the outcome by what a file holds.
- `commands_agree_on_files`: the exit codes, and what is written.
- `commands_may_fail_on_halves`: accepted files on which commands fail.
-/

namespace AnnoTree

open AnnoTree.Text

variable {settings : Settings} {command : Command}

/-! ## §1 Lines about all annotations -/

/-- Each line tells of the annotation in its place. -/
abbrev Command.TellsEach (settings : Settings) (command : Command) (annots : List Annot)
    (lines : List Str) : Prop :=
  List.Forall₂ (fun a line => command.Tells settings a line) annots lines

/-- The lines that a command writes about annotations. The names are told once each, in strictly
ascending order of their code points; the other commands write a line about each annotation, in
their order. -/
def Command.Writes (settings : Settings) (annots : List Annot) (lines : List Str) :
    Command → Prop
  | .render => Command.render.TellsEach settings annots lines
  | .names => (lines.Pairwise fun s t => codePointOrder s t = .lt) ∧
      ∀ name, name ∈ lines ↔ ∃ a ∈ annots, a.name = name
  | .check => Command.check.TellsEach settings annots lines

theorem Command.mem_arrange {line : Str} {lines : List Str} :
    line ∈ command.arrange lines ↔ line ∈ lines := by
  cases command with
  | names => exact mem_sortedSet
  | _ => exact Iff.rfl

/-- Lines that tell of each annotation are arranged as a command writes them. -/
theorem Command.TellsEach.writes_arrange {annots : List Annot} {lines : List Str}
    (h : command.TellsEach settings annots lines) :
    command.Writes settings annots (command.arrange lines) := by
  cases command with
  | render => exact h
  | names =>
    refine ⟨pairwise_sortedSet lines, fun name => ?_⟩
    -- the line about an annotation is its name, so a sorted set of lines is one of names
    have hnames : lines = annots.map Annot.name := by
      induction h with
      | nil => rfl
      | cons hline _ ih => rw [hline, ih, List.map_cons]
    rw [Command.arrange, mem_sortedSet, hnames, List.mem_map]
  | check => exact h

/-! ## §2 Work -/

section Work

variable (command) (path : Path)

/-- An annotation that is answered adds the line about it to the work, and does not end it. -/
theorem Work.result_through_cons {x : StoredAnnot} {line : Str}
    (hline : (command.line settings x.annot).result = .ok line)
    (failure : Option Failure) (rest : List StoredAnnot) :
    (Work.through settings command path failure (x :: rest)).result =
      (Work.through settings command path failure rest).result.map (line :: ·) := by
  rw [Work.through]
  simp only [hline]

/-- **What becomes of annotations that are taken one after another**: a line about each, if each is
answered. The lines are well-formed if the annotations are. -/
theorem Work.result_through {items : List StoredAnnot}
    (hsound : ∀ x ∈ items, x.annot.IsSound settings 0)
    (hanswers : ∀ x ∈ items, command.Answers settings x.annot) :
    ∃ lines, (Work.through settings command path none items).result = .ok lines ∧
      command.TellsEach settings (items.map StoredAnnot.annot) lines ∧
      ((∀ x ∈ items, x.annot.fullPayload.isWellFormed = true) →
        ∀ line ∈ lines, line.isWellFormed = true) := by
  induction items with
  | nil => exact ⟨[], rfl, .nil, fun _ => List.forall_mem_nil _⟩
  | cons x rest ih =>
    obtain ⟨hx, hrest⟩ := List.forall_mem_cons.mp hsound
    obtain ⟨hanswer, hanswersRest⟩ := List.forall_mem_cons.mp hanswers
    obtain ⟨lines, hlines, htell, hwells⟩ := ih hrest hanswersRest
    obtain ⟨line, hline, htells, hwell⟩ := (hx.line command).1 hanswer
    refine ⟨line :: lines, ?_, .cons htells htell, fun hall => ?_⟩
    · rw [Work.result_through_cons command path hline, hlines]
      rfl
    · obtain ⟨hxwell, hrestwell⟩ := List.forall_mem_cons.mp hall
      exact List.forall_mem_cons.mpr ⟨hwell hxwell, hwells hrestwell⟩

/-- **Work ends with a fault of the content** if an annotation is not answered, or such a fault
follows the annotations: the first of them is met. -/
theorem Work.exists_fault_of_through {failure : Option Failure} {items : List StoredAnnot}
    (hsound : ∀ x ∈ items, x.annot.IsSound settings 0)
    (hfault : (∃ x ∈ items, ¬command.Answers settings x.annot) ∨
      ∃ f, failure = some f ∧ f.IsOfContent) :
    ∃ f, (Work.through settings command path failure items).result = .error f ∧
      f.IsOfContent := by
  induction items with
  | nil =>
    obtain ⟨x, hx, -⟩ | ⟨f, rfl, hcontent⟩ := hfault
    · cases hx
    · exact ⟨f, rfl, hcontent⟩
  | cons x rest ih =>
    obtain ⟨hx, hrest⟩ := List.forall_mem_cons.mp hsound
    by_cases hanswer : command.Answers settings x.annot
    · -- this one is answered, so the fault is met later
      have hlater : (∃ y ∈ rest, ¬command.Answers settings y.annot) ∨
          ∃ f, failure = some f ∧ f.IsOfContent := by
        obtain ⟨y, hy, hnot⟩ | hfailure := hfault
        · obtain rfl | hy := List.mem_cons.mp hy
          · exact absurd hanswer hnot
          · exact .inl ⟨y, hy, hnot⟩
        · exact .inr hfailure
      obtain ⟨f, hresult, hcontent⟩ := ih hrest hlater
      obtain ⟨line, hline, -⟩ := (hx.line command).1 hanswer
      refine ⟨f, ?_, hcontent⟩
      rw [Work.result_through_cons command path hline, hresult]
      rfl
    · obtain ⟨f, hline, hcontent⟩ := (hx.line command).2 hanswer
      refine ⟨f, ?_, hcontent⟩
      rw [Work.through]
      simp only [hline]

end Work

/-! ## §3 What is written -/

/-- Nothing is written of an outcome. -/
def Outcome.IsSilent (o : Outcome) : Prop :=
  o.text = "" ∧ o.written = ([], .ok ())

/-- An outcome is written as a whole. -/
def Outcome.IsWritten (o : Outcome) : Prop :=
  ∃ octets, o.text.encode = .ok octets ∧ o.written = (octets, .ok ())

/-- The lines of an outcome are written up to the first that is not well-formed, and writing fails
there if there is one. -/
def Outcome.IsWrittenInPart (o : Outcome) : Prop :=
  ∃ octets, (Str.join ((o.lines.takeWhile Str.isWellFormed).map (· ++ "\n"))).encode = .ok octets ∧
    o.written = (octets, if o.lines.all Str.isWellFormed then .ok () else .error .unencodable)

/-- **What is written of lines**, and how that ends. -/
theorem exists_writeLines (lines : List Str) :
    ∃ octets, (Str.join ((lines.takeWhile Str.isWellFormed).map (· ++ "\n"))).encode = .ok octets ∧
      writeLines lines =
        (octets, if lines.all Str.isWellFormed then .ok () else .error .unencodable) := by
  induction lines with
  | nil => exact ⟨[], rfl, rfl⟩
  | cons line rest ih =>
    rw [writeLines, List.takeWhile_cons, List.all_cons]
    cases hwell : line.isWellFormed with
    | true =>
      -- the line is written, and then as much of the rest as can be
      have hended : (line ++ ("\n" : Str)).isWellFormed = true :=
        Str.isWellFormed_append.mpr ⟨hwell, rfl⟩
      obtain ⟨front, hfront⟩ := Str.exists_encode_eq_ok hended
      obtain ⟨more, hmore, hrest⟩ := ih
      refine ⟨front ++ more, Str.encode_append hfront hmore, ?_⟩
      rw [hfront, hrest, Bool.true_and]
    | false =>
      -- a line is encoded before any of it is written
      have hended : (line ++ ("\n" : Str)).isWellFormed = false := by
        rw [← Bool.not_eq_true, Str.isWellFormed_append, hwell]
        simp
      refine ⟨[], rfl, ?_⟩
      rw [Str.encode_eq_error hended]
      rfl

theorem Outcome.isWrittenInPart (o : Outcome) : o.IsWrittenInPart :=
  exists_writeLines o.lines

/-- An outcome of well-formed lines is written as a whole. -/
theorem Outcome.isWritten_of_isWellFormed {o : Outcome}
    (h : ∀ line ∈ o.lines, line.isWellFormed = true) : o.IsWritten := by
  obtain ⟨octets, hencode, hwritten⟩ := o.isWrittenInPart
  rw [List.takeWhile_eq_self_iff.mpr h] at hencode
  rw [if_pos (List.all_eq_true.mpr h)] at hwritten
  exact ⟨octets, hencode, hwritten⟩

/-- An outcome is written as a whole if writing does not fail. -/
theorem Outcome.isWritten_of_written {o : Outcome} (h : o.written.2 = .ok ()) : o.IsWritten := by
  obtain ⟨octets, -, hwritten⟩ := o.isWrittenInPart
  refine Outcome.isWritten_of_isWellFormed (List.all_eq_true.mp ?_)
  by_contra hnot
  rw [hwritten, if_neg hnot] at h
  cases h

/-- Work that is done has its lines written. -/
theorem Work.outcome_of_lines (request : Request) {work : Work} {lines : List Str}
    (hresult : work.result = .ok lines) :
    ∃ o, work.outcome request = .ok o ∧ o.exitCode = 0 ∧
      o.lines = request.command.arrange lines := by
  rw [Work.outcome, hresult]
  exact ⟨_, rfl, rfl, rfl⟩

/-- Of work that failed nothing is written. -/
theorem Work.outcome_of_fault (request : Request) {work : Work} {f : Failure} {code : ℕ}
    {content : LogContent} (hresult : work.result = .error f)
    (hending : f.ending? request.path = some (code, content)) :
    ∃ o, work.outcome request = .ok o ∧ o.exitCode = code ∧ o.IsSilent := by
  rw [Work.outcome, hresult]
  simp only [hending]
  exact ⟨_, rfl, rfl, rfl, rfl⟩

/-! ## §4 Requests -/

/-- What a command makes of a file of annotations: the lines about them if it answers each, and
else exit code one, and nothing is written. -/
theorem Request.run_of_holdsAnnots {octets : List Octet} {annots : List Annot}
    (h : HoldsAnnots settings octets annots) (request : Request) :
    ∃ o, request.run settings (.ok octets) = .ok o ∧
      ((∀ a ∈ annots, request.command.Answers settings a) →
        o.exitCode = 0 ∧ request.command.Writes settings annots o.lines ∧
        ((∀ a ∈ annots, a.fullPayload.isWellFormed = true) → o.IsWritten)) ∧
      ((∃ a ∈ annots, ¬request.command.Answers settings a) → o.exitCode = 1 ∧ o.IsSilent) := by
  have hfile := deliversFile_storedAnnots settings request.path octets
  obtain ⟨rfl, hnone⟩ := hfile.whole annots h
  rw [Request.run, deliverFile, hnone]
  rw [List.forall_mem_map, List.forall_mem_map]
  simp only [List.mem_map, exists_exists_and_eq_and]
  by_cases hanswers : ∀ x ∈ (storedAnnots settings request.path octets).items,
      request.command.Answers settings x.annot
  · -- a line for each annotation, and then the lines as the command arranges them
    obtain ⟨lines, hlines, htell, hwells⟩ :=
      Work.result_through request.command request.path hfile.sound hanswers
    obtain ⟨o, houtcome, hcode, harranged⟩ := Work.outcome_of_lines request hlines
    refine ⟨o, houtcome, fun _ => ⟨hcode, ?_, fun hall => ?_⟩,
      fun ⟨x, hx, hnot⟩ => absurd (hanswers x hx) hnot⟩
    · rw [harranged]
      exact htell.writes_arrange
    · refine Outcome.isWritten_of_isWellFormed fun line hline => ?_
      rw [harranged, Command.mem_arrange] at hline
      exact hwells hall line hline
  · have hsome : ∃ x ∈ (storedAnnots settings request.path octets).items,
        ¬request.command.Answers settings x.annot := by
      simpa using hanswers
    obtain ⟨f, hresult, hcontent⟩ : ∃ f, (Work.through settings request.command request.path none
        (storedAnnots settings request.path octets).items).result = .error f ∧ f.IsOfContent :=
      Work.exists_fault_of_through request.command request.path hfile.sound (.inl hsome)
    obtain ⟨o, houtcome, hcode, hsilent⟩ :=
      Work.outcome_of_fault request hresult (hcontent request.path)
    exact ⟨o, houtcome, fun hall => absurd hall hanswers, fun _ => ⟨hcode, hsilent⟩⟩

/-- Any other file is answered by exit code one, and nothing is written, however many annotations
come before the fault. -/
theorem Request.run_of_not_isAccepted {octets : List Octet} (h : ¬IsAccepted settings octets)
    (request : Request) :
    ∃ o, request.run settings (.ok octets) = .ok o ∧ o.exitCode = 1 ∧ o.IsSilent := by
  have hfile := deliversFile_storedAnnots settings request.path octets
  obtain ⟨f, hresult, hcontent⟩ := Work.exists_fault_of_through request.command request.path
    hfile.sound (.inr (hfile.broken fun hsome => h (exists_holdsAnnots_iff.mp hsome)))
  exact Work.outcome_of_fault request hresult (hcontent request.path)

/-- A file that is not there is answered by exit code two. -/
theorem Request.run_of_fileNotFound (settings : Settings) (request : Request) :
    ∃ o, request.run settings (.error .fileNotFound) = .ok o ∧ o.exitCode = 2 ∧ o.IsSilent :=
  ⟨_, rfl, rfl, rfl, rfl⟩

/-- **Commands agree on files.** The exit code is two if there is no file, and one, with nothing
written, if the file is not UTF-8 or a line of it is neither blank nor holds an annotation. Any
other file holds annotations. If a command answers all of them, the code is zero and the lines about
them are written, each ended by a line feed: all of them if the annotations are well-formed, and in
any case those in front of the first line that is not, at which the program fails. If a command does
not answer all of them, the code is one and nothing is written. -/
theorem commands_agree_on_files (settings : Settings) :
    (∀ request : Request, ∃ o, request.run settings (.error .fileNotFound) = .ok o ∧
      o.exitCode = 2 ∧ o.IsSilent) ∧
    ∀ octets : List Octet,
      (¬IsAccepted settings octets → ∀ request : Request,
        ∃ o, request.run settings (.ok octets) = .ok o ∧ o.exitCode = 1 ∧ o.IsSilent) ∧
      (IsAccepted settings octets → ∃ annots, HoldsAnnots settings octets annots ∧
        ∀ request : Request, ∃ o, request.run settings (.ok octets) = .ok o ∧
          ((∀ a ∈ annots, request.command.Answers settings a) → o.exitCode = 0 ∧
            request.command.Writes settings annots o.lines ∧
            o.text = Str.join (o.lines.map (· ++ "\n")) ∧ o.IsWrittenInPart ∧
            ((∀ a ∈ annots, a.fullPayload.isWellFormed = true) → o.IsWritten)) ∧
          ((∃ a ∈ annots, ¬request.command.Answers settings a) →
            o.exitCode = 1 ∧ o.IsSilent)) := by
  refine ⟨Request.run_of_fileNotFound settings, fun octets =>
    ⟨fun hnot => Request.run_of_not_isAccepted hnot, fun haccepted => ?_⟩⟩
  obtain ⟨annots, hannots⟩ := exists_holdsAnnots_iff.mpr haccepted
  refine ⟨annots, hannots, fun request => ?_⟩
  obtain ⟨o, hrun, hanswered, hfaulty⟩ := Request.run_of_holdsAnnots hannots request
  refine ⟨o, hrun, fun hall => ?_, hfaulty⟩
  obtain ⟨hcode, hwrites, hwritten⟩ := hanswered hall
  exact ⟨hcode, hwrites, rfl, o.isWrittenInPart, hwritten⟩

/-- A row with a character that is half of a surrogate pair, spelled by an escape. -/
def halfRow : String :=
  "\x7b\"name\":\"A\",\"parameters\":" ++
    "[\x7b\"name\":\"c\",\"value\":\x7b\"char\":\"\\ud800\"\x7d\x7d]\x7d\n"

/-- The annotation that the row holds. -/
def halfAnnot : Annot :=
  ⟨"A", some [⟨"c", .scalar (.char (.half 0) (by decide))⟩]⟩

theorem holdsAnnots_halfRow : HoldsAnnots {} (encodeUtf8 halfRow) [halfAnnot] := by
  refine ⟨halfRow, rfl, ?_⟩
  have hlines : physicalLines halfRow.toList = [halfRow.toList.dropLast] := by cbv
  have hread : Json.readChars (stripChars halfRow.toList.dropLast) = .ok halfAnnot.fullPayload := by
    cbv
  have hload : Annot.load {} 0 halfAnnot.fullPayload = .ok halfAnnot := rfl
  rw [hlines]
  exact .row ⟨_, hread, hload⟩ .nil

/-- It is not so that commands answer every accepted file by exit code zero, nor that they do not
fail where they do: of half of a surrogate pair there is no report, and no rendering can be
written. -/
theorem commands_may_fail_on_halves :
    (¬∀ (settings : Settings) (octets : List Octet) (request : Request),
      IsAccepted settings octets →
      ∃ o, request.run settings (.ok octets) = .ok o ∧ o.exitCode = 0) ∧
    ¬∀ (settings : Settings) (octets : List Octet) (request : Request) (o : Outcome),
      IsAccepted settings octets → request.run settings (.ok octets) = .ok o → o.exitCode = 0 →
      o.written.2 = .ok () := by
  have haccepted : IsAccepted {} (encodeUtf8 halfRow) :=
    exists_holdsAnnots_iff.mp ⟨_, holdsAnnots_halfRow⟩
  constructor
  · intro halways
    obtain ⟨o, hrun, hcode⟩ := halways {} _ ⟨.warning, .check, .ofText "r"⟩ haccepted
    obtain ⟨o', hrun', -, hfaulty⟩ :=
      Request.run_of_holdsAnnots holdsAnnots_halfRow ⟨.warning, .check, .ofText "r"⟩
    rw [hrun] at hrun'
    cases hrun'
    -- no identifier can be made of the stored form
    have hnot : ¬halfAnnot.IsReportable {} := fun hreport => by
      cases hreport.wellFormed
    rw [(hfaulty ⟨halfAnnot, List.mem_singleton_self _, hnot⟩).1] at hcode
    cases hcode
  · intro halways
    obtain ⟨o, hrun, hanswered, -⟩ :=
      Request.run_of_holdsAnnots holdsAnnots_halfRow ⟨.warning, .render, .ofText "r"⟩
    obtain ⟨hcode, hwrites, -⟩ := hanswered fun _ _ => trivial
    have hdone := halways {} _ _ o haccepted hrun hcode
    -- the one line has the half in it
    obtain ⟨line, rest, hrender, hrest, hlines⟩ := List.forall₂_cons_left_iff.mp hwrites
    obtain rfl := List.forall₂_nil_left_iff.mp hrest
    cases hrender
    rw [Outcome.written, hlines] at hdone
    cases hdone

end AnnoTree
