import Manuscript.Proofs.CommandLine.TextFiles
import Manuscript.Proofs.Format

/-!
# Telling about an input

The counts of an input are given whenever its text can be read and its package can be made.  The
report says the format of a file too, which is told by the first bytes of the file and not by its
extension.  So there are files that are counted and not reported on: among text files, those that
are empty and those with a zero byte near the beginning.
-/

namespace Manuscript.CommandLine

open Archive (Codec)
open Synthesizer (referenceRoom)
open Utf8 (bytes)

def reportHead (path : String) : String :=
  ruled "Document Information" ++ "File: " ++ path ++ "\n"

def reportTail (package : Bytes) (stats : Stats) : String :=
  "Package: " ++ Text.showNat package.length ++ " bytes\n\n" ++ ruled "Content Statistics" ++
    statsLines stats

def Source.format (source : Source) (path : String) : Except Error Format :=
  match source.file path with
  | .ok content => Format.ofFile content
  | .error error => .error (.transfer (.system error))

theorem Source.format_of_tree (tree : FileTree) (input : Bytes) (path : String) :
    Source.format ⟨tree.read, input⟩ path = tree.formatOf path :=
  rfl

def told (source : Source) (path : String) (json : Bool) (package : Bytes) (stats : Stats) :
    Outcome :=
  if json then .success (Json.render .pretty stats.toJson ++ "\n")
  else if path = standardInput then .success (reportHead path ++ reportTail package stats)
  else
    match source.format path with
    | .ok format =>
      .success (reportHead path ++ "Format: " ++ format.name ++ "\n" ++ reportTail package stats)
    | .error error => .failure (reportHead path) (.error error)

theorem status_told {source : Source} {path : String} {json : Bool} {package : Bytes}
    {stats : Stats} :
    (told source path json package stats).status = 0 ↔
      json = true ∨ path = standardInput ∨ ∃ format, source.format path = .ok format := by
  unfold told
  split
  · simp [Outcome.success, *]
  split
  · simp [Outcome.success, *]
  split
  · simp [Outcome.success, *]
  · simp [Outcome.failure, *]

theorem packageWithStats_of_ok [Codec] {made : Synthesizer} {document : Document} {package : Bytes}
    (h : made.package document = .ok package) :
    made.packageWithStats document = .ok (package, Stats.ofDocument document) := by
  rw [Synthesizer.packageWithStats, h, ok_bind]

theorem packageWithStats_of_error [Codec] {made : Synthesizer} {document : Document} {error : Error}
    (h : made.package document = .error error) :
    made.packageWithStats document = .error error := by
  rw [Synthesizer.packageWithStats, h]
  rfl

section

variable {source : Source} {path : String} {json : Bool} {text : String} {package : Bytes}

theorem told_of_unknown {stats : Stats} (hpath : path ≠ standardInput) {error : Error}
    (h : source.format path = .error error) :
    told source path false package stats = .failure (reportHead path) (.error error) := by
  simp [told, hpath, h]

theorem info_of_text_error [Codec] {failure : Failure} (h : source.text path = .error failure) :
    info source path json = .error failure := by
  rw [info, h]
  rfl

-- The package of an unknown text must never be evaluated, so what makes it goes by another name.

theorem info_of_convert_error [Codec] {error : Error} (h : source.text path = .ok text)
    (hpackage : Synthesizer.reference.convert text = .error error) :
    info source path json = .error (.error error) := by
  have hmade := packageWithStats_of_error hpackage
  obtain ⟨packaged, hpackaged⟩ : ∃ packaged, Synthesizer.packageWithStats = packaged := ⟨_, rfl⟩
  rw [info, h, ok_bind]
  rw [hpackaged] at hmade ⊢
  simp only [hmade]

theorem info_of_converted [Codec] (h : source.text path = .ok text)
    (hpackage : Synthesizer.reference.convert text = .ok package) :
    info source path json = .ok (.done (told source path json package
      (Stats.ofDocument (Synthesizer.reference.document text)))) := by
  have hmade := packageWithStats_of_ok hpackage
  obtain ⟨packaged, hpackaged⟩ : ∃ packaged, Synthesizer.packageWithStats = packaged := ⟨_, rfl⟩
  rw [info, h, ok_bind]
  rw [hpackaged] at hmade ⊢
  simp only [hmade, told]
  split
  · rfl
  split
  · rfl
  unfold Source.format
  cases source.file path with
  | error error => rfl
  | ok content =>
      simp only
      cases Format.ofFile content <;> rfl

end

section

variable [Codec]

/-- An input that has a text, of which a package can be made in the reference style. -/
def Countable (source : Source) (path : String) : Prop :=
  ∃ text package, source.text path = .ok text ∧ Synthesizer.reference.convert text = .ok package

variable {environment : Option String} {words : List String} {path : String} {json : Bool}
  {input : Bytes} {tree : FileTree}

theorem run_info_of_converted
    (h : Command.ofArguments environment words = .ok (.info path json)) {text : String}
    {package : Bytes} (htext : Source.text ⟨tree.read, input⟩ path = .ok text)
    (hpackage : Synthesizer.reference.convert text = .ok package) :
    run environment words input tree = (tree, told ⟨tree.read, input⟩ path json package
      (Stats.ofDocument (Synthesizer.reference.document text))) := by
  rw [run_command h, Command.attempt, info_of_converted htext hpackage]
  exact Plan.perform_done _ tree

theorem failed_run_info (h : Command.ofArguments environment words = .ok (.info path json))
    (hnot : ¬ Countable ⟨tree.read, input⟩ path) :
    Failed tree (run environment words input tree) := by
  rw [run_command h, Command.attempt]
  cases htext : Source.text ⟨tree.read, input⟩ path with
  | error failure => exact ⟨failure, by rw [info_of_text_error htext]⟩
  | ok text =>
      cases hpackage : Synthesizer.reference.convert text with
      | error error => exact ⟨.error error, by rw [info_of_convert_error htext hpackage]⟩
      | ok package => exact absurd ⟨text, package, htext, hpackage⟩ hnot

theorem succeeds_info_iff (h : Command.ofArguments environment words = .ok (.info path json)) :
    Succeeds environment words input tree ↔
      Countable ⟨tree.read, input⟩ path ∧
        (json = true ∨ path = standardInput ∨ ∃ format, tree.formatOf path = .ok format) := by
  by_cases hcountable : Countable ⟨tree.read, input⟩ path
  · obtain ⟨text, package, htext, hpackage⟩ := id hcountable
    rw [Succeeds, run_info_of_converted h htext hpackage, status_told]
    exact (and_iff_right hcountable).symm
  · exact iff_of_false (failed_run_info h hcountable).not_succeeds fun hboth =>
      hcountable hboth.1

theorem succeeds_count_iff (h : Command.ofArguments environment words = .ok (.info path true)) :
    Succeeds environment words input tree ↔ Countable ⟨tree.read, input⟩ path := by
  rw [succeeds_info_iff h, and_iff_left (.inl rfl)]

theorem succeeds_report_iff (h : Command.ofArguments environment words = .ok (.info path false)) :
    Succeeds environment words input tree ↔
      Countable ⟨tree.read, input⟩ path ∧
        (path = standardInput ∨ ∃ format, tree.formatOf path = .ok format) := by
  rw [succeeds_info_iff h, or_iff_right Bool.false_ne_true]

theorem Ready.made_eq_reference {source : Source} {made : Synthesizer} {text : String}
    {package : Bytes} (h : Ready source path none false made text package) :
    made = Synthesizer.reference := by
  obtain ⟨chosen, hchosen, hmade⟩ := h.style
  cases hchosen
  exact Except.ok.inj (hmade.symm.trans synthesizer_reference)

theorem countable_of_succeeds {output : Option String} {handover : Handover}
    (h : Command.ofArguments environment words =
      .ok (.convert [path] output none false handover))
    (hsucceeds : Succeeds environment words input tree) :
    Countable ⟨tree.read, input⟩ path := by
  obtain ⟨⟨made, text, package, hready⟩, -⟩ := accepted_of_succeeds h hsucceeds
  obtain rfl := hready.made_eq_reference
  exact ⟨text, package, hready.reads, hready.converts⟩

/-! ## Reports on text files -/

theorem exists_formatOf_iff (hpath : IsTextPath path) {content : Bytes}
    (hread : tree.read path = .ok content) (hcountable : Countable ⟨tree.read, input⟩ path) :
    (∃ format, tree.formatOf path = .ok format) ↔
      content ≠ [] ∧ (Format.IsMarked content ∨ 0 ∉ content.take Format.headLength) := by
  obtain ⟨text, package, htext, -⟩ := hcountable
  obtain ⟨whole, rfl, -⟩ := (Source.text_eq_ok_iff_of_isTextPath hpath hread).mp htext
  rw [FileTree.formatOf_of_read hread]
  exact Format.exists_ofFile_bytes_iff whole

theorem report_of_textFile (h : Command.ofArguments environment words = .ok (.info path false))
    (hpath : IsTextPath path) {content : Bytes} (hread : tree.read path = .ok content)
    (hcountable : Countable ⟨tree.read, input⟩ path) :
    (Succeeds environment words input tree ↔ ∃ format, tree.formatOf path = .ok format) ∧
      (¬ Succeeds environment words input tree → run environment words input tree =
        (tree, .failure (reportHead path) (.error .unknownFormat))) := by
  have hstatus : Succeeds environment words input tree ↔
      ∃ format, tree.formatOf path = .ok format := by
    rw [succeeds_report_iff h, and_iff_right hcountable, or_iff_right hpath.ne_standardInput]
  refine ⟨hstatus, fun hnot => ?_⟩
  obtain ⟨text, package, htext, hpackage⟩ := hcountable
  rw [run_info_of_converted h htext hpackage]
  cases hformat : Source.format ⟨tree.read, input⟩ path with
  | ok format => exact absurd (hstatus.mpr ⟨format, hformat⟩) hnot
  | error error =>
      rw [told_of_unknown hpath.ne_standardInput hformat]
      rw [Source.format_of_tree, FileTree.formatOf_of_read hread] at hformat
      rw [Format.ofBytesOrHead_error hformat]

/-- An input is counted exactly if it has a text and its package can be made, and then whenever a
plain run converts it.  The report needs a format by the first bytes as well, so a text file that is
counted is reported on exactly if it is not empty, and if there is no zero byte in its head or it
begins as another format does.  Otherwise the report breaks off after its head. -/
theorem info_reports {reportWords countWords : List String}
    (hreport : Command.ofArguments environment reportWords = .ok (.info path false))
    (hcount : Command.ofArguments environment countWords = .ok (.info path true)) (input : Bytes)
    (tree : FileTree) :
    (Succeeds environment countWords input tree ↔ Countable ⟨tree.read, input⟩ path) ∧
    (∀ words output handover, Command.ofArguments environment words =
        .ok (.convert [path] output none false handover) →
      Succeeds environment words input tree → Succeeds environment countWords input tree) ∧
    (Succeeds environment reportWords input tree ↔
      Succeeds environment countWords input tree ∧
        (path = standardInput ∨ ∃ format, tree.formatOf path = .ok format)) ∧
    ∀ content, IsTextPath path → tree.read path = .ok content →
      Succeeds environment countWords input tree →
      (Succeeds environment reportWords input tree ↔
        content ≠ [] ∧ (Format.IsMarked content ∨ 0 ∉ content.take Format.headLength)) ∧
      (¬ Succeeds environment reportWords input tree →
        run environment reportWords input tree =
          (tree, .failure (reportHead path) (.error .unknownFormat))) := by
  rw [succeeds_count_iff hcount]
  refine ⟨.rfl, ?_, succeeds_report_iff hreport, ?_⟩
  · intro words output handover hconvert hsucceeds
    exact countable_of_succeeds hconvert hsucceeds
  · intro content hpath hread hcountable
    obtain ⟨hstatus, hbroken⟩ := report_of_textFile hreport hpath hread hcountable
    exact ⟨hstatus.trans (exists_formatOf_iff hpath hread hcountable), hbroken⟩

end

theorem command_report : Command.ofArguments none ["info", "f.md"] =
    .ok (.info "f.md" false) := by
  cbv

theorem command_count : Command.ofArguments none ["info", "--json", "f.md"] =
    .ok (.info "f.md" true) := by
  cbv

theorem ready_note {text : String} (hmark : Text.withoutMark text = text)
    (hroom : referenceRoom text ≤ 4000) :
    ∃ package, Ready ⟨(noteTree (bytes text)).read, []⟩ "f.md" none false Synthesizer.reference
      text package := by
  have hread : (noteTree (bytes text)).read "f.md" = .ok (bytes text) := by rfl
  exact ready_reference ((Source.text_eq_ok_iff_of_isTextPath isTextPath_note hread).mpr
    ⟨text, rfl, hmark.symm⟩) hroom

theorem succeeds_count_note {text : String} (hmark : Text.withoutMark text = text)
    (hroom : referenceRoom text ≤ 4000) :
    Succeeds none ["info", "--json", "f.md"] [] (noteTree (bytes text)) := by
  obtain ⟨package, hready⟩ := ready_note hmark hroom
  exact (succeeds_count_iff command_count).mpr ⟨text, package, hready.reads, hready.converts⟩

theorem info_reports_notes :
    Succeeds none ["info", "f.md"] [] (noteTree (bytes "two")) ∧
      run none ["info", "f.md"] [] (noteTree (bytes "\x00")) =
        (noteTree (bytes "\x00"), .failure (reportHead "f.md") (.error .unknownFormat)) := by
  constructor
  · obtain ⟨-, -, -, hnotes⟩ :=
      info_reports command_report command_count [] (noteTree (bytes "two"))
    have hcount : Succeeds none ["info", "--json", "f.md"] [] (noteTree (bytes "two")) :=
      succeeds_count_note rfl (referenceRoom_notes "two" (by simp))
    exact (hnotes (bytes "two") isTextPath_note rfl hcount).1.mpr
      ⟨by decide, .inr (by decide)⟩
  · obtain ⟨-, -, -, hnotes⟩ :=
      info_reports command_report command_count [] (noteTree (bytes "\x00"))
    have hcount : Succeeds none ["info", "--json", "f.md"] [] (noteTree (bytes "\x00")) :=
      succeeds_count_note rfl (referenceRoom_notes "\x00" (by simp))
    obtain ⟨hreports, hbroken⟩ := hnotes (bytes "\x00") isTextPath_note rfl hcount
    have hunknown : ¬ (bytes "\x00" ≠ [] ∧ (Format.IsMarked (bytes "\x00") ∨
        0 ∉ (bytes "\x00").take Format.headLength)) := by
      unfold Format.IsMarked
      decide
    exact hbroken (mt hreports.mp hunknown)

theorem counted_without_report :
    Succeeds none ["convert", "f.md"] [] (noteTree []) ∧
      Succeeds none ["info", "--json", "f.md"] [] (noteTree []) ∧
      ¬ Succeeds none ["info", "f.md"] [] (noteTree []) := by
  have hmark : Text.withoutMark "" = "" := by rfl
  have hroom := referenceRoom_notes "" (by simp)
  obtain ⟨package, hready⟩ := ready_note hmark hroom
  refine ⟨(handedOver_run command_note hready (canHandOver_note []).2).status,
    succeeds_count_note hmark hroom, ?_⟩
  intro hreport
  obtain ⟨-, hformat⟩ := (succeeds_report_iff command_report).mp hreport
  have hunknown : (noteTree []).formatOf "f.md" = .error .unknownFormat := by rfl
  rcases hformat with hinput | ⟨format, hformat⟩
  · exact isTextPath_note.ne_standardInput hinput
  · rw [hunknown] at hformat
    cases hformat

end Manuscript.CommandLine
