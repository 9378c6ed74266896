import Manuscript.Proofs.CommandLine.Options
import Manuscript.Proofs.CommandLine.Writing
import Manuscript.Proofs.Text.Utf8

/-!
# Where a style file is named

A command takes its style file from its own words, or else from the environment.  A style file that
is named before the command is accepted and left aside: the run is the one without it.  Named behind
the command, it takes the place of the environment, and nothing else changes.
-/

namespace Manuscript.CommandLine

open Archive (Codec)
open Command (convertForm handover inspectForm ofArguments ofName operand readAll styleFile
  styleOption topForm)

def Command.withStyle (style : Option String) : Command → Command
  | .convert inputs output _ noJustify handover => .convert inputs output style noJustify handover
  | .inspect input output _ compact lines => .inspect input output style compact lines
  | other => other

/-- The commands for which a style file can be named. -/
inductive Styled where
  | convert
  | inspect

namespace Styled

def name : Styled → String
  | convert => "convert"
  | inspect => "inspect"

def form : Styled → Form
  | convert => convertForm
  | inspect => inspectForm

def command (style : Option String) (given : Given) : Styled → Except Stop Command
  | convert =>
    if given.operands.isEmpty then .error .misuse
    else do
      .ok (.convert given.operands (given.value? "output") style (given.has "no-justify")
        (← handover given))
  | inspect => do
    .ok (.inspect (← operand given) (given.value? "output") style (given.has "compact")
      (given.has "lines"))

variable {kind : Styled} {style : Option String} {given : Given} {stop : Stop}

theorem isSpelledOut_form (kind : Styled) : kind.form.IsSpelledOut "config" := by
  cases kind <;>
    simp [Form.IsSpelledOut, form, convertForm, inspectForm, Command.outputOption, styleOption,
      Command.switch]

theorem handover_error (h : handover given = .error stop) : stop = .misuse := by
  unfold handover at h
  split at h <;> cases h
  rfl

theorem operand_error (h : operand given = .error stop) : stop = .misuse := by
  unfold operand at h
  split at h <;> cases h
  rfl

theorem command_error (h : kind.command style given = .error stop) : stop = .misuse := by
  cases kind with
  | convert =>
      simp only [command] at h
      split at h
      · cases h
        rfl
      · cases hhandover : handover given with
        | error other =>
            rw [hhandover] at h
            cases h
            exact handover_error hhandover
        | ok chosen =>
            rw [hhandover] at h
            cases h
  | inspect =>
      simp only [command] at h
      cases hoperand : operand given with
      | error other =>
          rw [hoperand] at h
          cases h
          exact operand_error hoperand
      | ok input =>
          rw [hoperand] at h
          cases h

theorem command_eq (style : Option String) :
    kind.command style given = (kind.command none given).map (·.withStyle style) := by
  cases kind with
  | convert =>
      simp only [command]
      split
      · rfl
      · cases handover given <;> rfl
  | inspect =>
      simp only [command]
      cases operand given <;> rfl

theorem command_withOption (path : String) :
    kind.command style (given.withOption "config" path) = kind.command style given := by
  have hvalue {other : String} (h : other ≠ "config") :
      (given.withOption "config" path).value? other = given.value? other :=
    Given.value?_withOption_of_ne h
  have hhas {other : String} (h : other ≠ "config") :
      (given.withOption "config" path).has other = given.has other :=
    Given.has_withOption_of_ne h
  cases kind with
  | convert =>
      simp only [command, handover, hvalue (by decide : "output" ≠ "config"),
        hvalue (by decide : "name" ≠ "config"), hhas (by decide : "no-justify" ≠ "config"),
        hhas (by decide : "base64" ≠ "config"), hhas (by decide : "payload" ≠ "config")]
      rfl
  | inspect =>
      simp only [command, hvalue (by decide : "output" ≠ "config"),
        hhas (by decide : "compact" ≠ "config"), hhas (by decide : "lines" ≠ "config")]
      rfl

end Styled

def environmentStyle (environment : Option String) : Except Stop (Option String) :=
  if environment = some "" then .error .misuse else .ok environment

section

variable {environment : Option String} {given : Given} {path : String}

theorem styleFile_of_none (h : given.value? "config" = none) :
    styleFile environment given = environmentStyle environment := by
  simp only [styleFile, styleOption, h, environmentStyle]
  split
  · simp_all
  · simp
  · simp_all

theorem styleFile_of_some (h : given.value? "config" = some path) :
    styleFile environment given = .ok (some path) := by
  simp only [styleFile, styleOption, h]

theorem styleFile_error {stop : Stop} (h : styleFile environment given = .error stop) :
    stop = .misuse := by
  unfold styleFile at h
  split at h <;> cases h
  rfl

theorem environmentStyle_cases (environment : Option String) :
    environmentStyle environment = .error .misuse ∨
      environmentStyle environment = .ok environment := by
  unfold environmentStyle
  split
  · exact .inl rfl
  · exact .inr rfl

end

def NamesFile (path : String) : Prop :=
  path ≠ "" ∧ isValue path = true

section

variable {environment : Option String} {kind : Styled} {path : String} {words : List String}
  {stop : Stop}

theorem Form.read_styleOption {form : Form}
    (hform : form.find (.named "config" none) = .ok (styleOption, none)) (hpath : NamesFile path) :
    form.read {} ("--config" :: path :: words) =
      form.read (Given.withOption {} "config" path) words := by
  have hword : Word.ofString "--config" = .named "config" none := by rfl
  have hadded : Given.addOption {} styleOption path = .ok (Given.withOption {} "config" path) := by
    simp [Given.addOption, Given.has, Given.value?, styleOption, Given.withOption, hpath.1]
  simp only [Form.read_cons, hword, Form.readOption, hform, bind, Except.bind]
  simp only [styleOption, Bool.not_true, hpath.2, ↓reduceIte] at hadded ⊢
  simp [hadded]

theorem Styled.find_styleOption (kind : Styled) :
    kind.form.find (.named "config" none) = .ok (styleOption, none) := by
  cases kind <;> rfl

theorem find_styleOption : topForm.find (.named "config" none) = .ok (styleOption, none) := by
  rfl

theorem read_command (kind : Styled) (given : Given) (words : List String) :
    topForm.read given (kind.name :: words) = .ok (given, some (kind.name, words)) := by
  rw [Form.read_cons]
  cases kind <;> rfl

theorem ofName_of_error (h : kind.form.read {} words = .error stop) :
    ofName environment kind.name words = .error stop := by
  cases kind <;> simp only [Styled.form] at h <;>
    simp [ofName, Styled.name, readAll, h, bind, Except.bind]

theorem ofName_of_read {given : Given} {following : Option (String × List String)}
    (h : kind.form.read {} words = .ok (given, following)) :
    ofName environment kind.name words =
      (styleFile environment given).bind (kind.command · given) := by
  cases kind with
  | convert =>
      have hread : readAll convertForm words = .ok given := by
        simp only [readAll, show convertForm.read {} words = _ from h, bind, Except.bind]
      simp only [ofName, Styled.name, hread, bind, Except.bind, Styled.command]
      cases hstyle : styleFile environment given with
      | error stop =>
          obtain rfl := styleFile_error hstyle
          split <;> rfl
      | ok style => rfl
  | inspect =>
      have hread : readAll inspectForm words = .ok given := by
        simp only [readAll, show inspectForm.read {} words = _ from h, bind, Except.bind]
      simp only [ofName, Styled.name, hread, bind, Except.bind, Styled.command]
      rfl

theorem ofArguments_command (kind : Styled) (words : List String) :
    ofArguments environment (kind.name :: words) =
      (ofName environment kind.name words).bind fun command =>
        (environmentStyle environment).bind fun _ => .ok command := by
  simp only [ofArguments, read_command, bind, Except.bind]
  rw [styleFile_of_none rfl]

/-- A style file before the command is taken for the program alone, which makes nothing of it. -/
theorem ofArguments_before (kind : Styled) (hpath : NamesFile path) (words : List String) :
    ofArguments environment ("--config" :: path :: kind.name :: words) =
      ofName environment kind.name words := by
  simp only [ofArguments, Form.read_styleOption find_styleOption hpath, read_command, bind,
    Except.bind]
  rw [styleFile_of_some Given.value?_withOption]
  cases ofName environment kind.name words <;> rfl

theorem placed (environment : Option String) (kind : Styled) (hpath : NamesFile path)
    (hwords : LacksOption "config" words) :
    ofArguments environment ("--config" :: path :: kind.name :: words) =
        ofArguments environment (kind.name :: words) ∧
      ((∃ stop, ofArguments environment (kind.name :: words) = .error stop ∧
        ofArguments environment (kind.name :: "--config" :: path :: words) = .error stop) ∨
      ∃ command, ofArguments environment (kind.name :: words) =
          .ok (Command.withStyle environment command) ∧
        ofArguments environment (kind.name :: "--config" :: path :: words) =
          .ok (command.withStyle (some path))) := by
  have hread := Form.read_beside kind.isSpelledOut_form path {} words hwords
  rw [← Form.read_styleOption kind.find_styleOption hpath] at hread
  rw [ofArguments_before kind hpath, ofArguments_command, ofArguments_command]
  generalize hplain : kind.form.read {} words = plain at hread
  generalize hbehind : kind.form.read {} ("--config" :: path :: words) = behind at hread
  cases hread with
  | stopped stop =>
      rw [ofName_of_error hplain, ofName_of_error hbehind]
      exact ⟨rfl, .inl ⟨stop, rfl, rfl⟩⟩
  | @found given following huntouched =>
      rw [ofName_of_read hplain, ofName_of_read hbehind, styleFile_of_none huntouched,
        styleFile_of_some Given.value?_withOption]
      simp only [Except.bind, Styled.command_withOption, Styled.command_eq (some path)]
      rcases environmentStyle_cases environment with henvironment | henvironment
      · rw [henvironment]
        refine ⟨rfl, .inl ⟨.misuse, rfl, ?_⟩⟩
        cases hcommand : kind.command none given with
        | error stop =>
            obtain rfl := Styled.command_error hcommand
            rfl
        | ok command => rfl
      · rw [henvironment]
        simp only [Styled.command_eq environment]
        cases hcommand : kind.command none given with
        | error stop => exact ⟨rfl, .inl ⟨stop, rfl, rfl⟩⟩
        | ok command => exact ⟨rfl, .inr ⟨command, rfl, rfl⟩⟩

end

/-! ## Runs -/

end Manuscript.CommandLine
