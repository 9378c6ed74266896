import Manuscript.Archive.Packing
import Manuscript.CommandLine.Command
import Manuscript.Document.Json
import Manuscript.Foreign
import Manuscript.Line.Json
import Manuscript.Stats.Json
/-!
# Plans

All reading comes before all writing. From what has been read, a command makes a plan: a
directory to be made, files to be written, and what is said once that has been tried.
-/

namespace Manuscript.CommandLine

open Archive (Codec)

variable [Codec]

structure Outcome where
  output : String
  complaint : String
  status : Nat
  deriving DecidableEq, Repr

inductive Failure where
  | error (error : Error)
  | system (error : SystemError)
  | inputNotText
  | severalInputs
  | sameTarget (first second target : String)
  | someFailed (failed total : Nat)
  deriving Repr

def Failure.message : Failure → String
  | error e => e.message
  | system e => e.message
  | inputNotText => TransferFault.notText.message
  | severalInputs => "--base64 and --payload take a single input"
  | sameTarget first second target =>
    first ++ " and " ++ second ++ " would both be written to " ++ target
  | someFailed failed total =>
    Text.showNat failed ++ " of " ++ Text.showNat total ++ " conversions failed"

def Outcome.success (output : String) : Outcome :=
  ⟨output, "", 0⟩

def Outcome.failure (output : String) (failure : Failure) : Outcome :=
  ⟨output, "Error: " ++ failure.message ++ "\n", 1⟩

structure Write where
  path : String
  content : Except Error Bytes

/-- What is to be done: a directory is made, if one is wanted; then files are written, whether
or not others could be. -/
structure Plan where
  directory : Option String
  writes : List Write
  conclude : Except SystemError Unit → List (Except Failure Unit) → Outcome

def Plan.done (outcome : Outcome) : Plan :=
  ⟨none, [], fun _ _ => outcome⟩

def Write.perform (tree : FileTree) (w : Write) : FileTree × Except Failure Unit :=
  match w.content with
  | .error error => (tree, .error (.error error))
  | .ok content =>
    match tree.write w.path content with
    | .ok tree => (tree, .ok ())
    | .error error => (tree, .error (.system error))

def Write.performAll (tree : FileTree) : List Write → FileTree × List (Except Failure Unit)
  | [] => (tree, [])
  | w :: ws =>
    let (tree, result) := w.perform tree
    let (tree, results) := performAll tree ws
    (tree, result :: results)

def Plan.perform (plan : Plan) (tree : FileTree) : FileTree × Outcome :=
  let (tree, made) :=
    match plan.directory with
    | some directory => tree.makeDirectories directory
    | none => (tree, .ok ())
  match made with
  | .error _ => (tree, plan.conclude made [])
  | .ok () =>
    let (tree, results) := Write.performAll tree plan.writes
    (tree, plan.conclude made results)

/-! ## Sources -/

structure Source where
  file : String → Except SystemError Bytes
  input : Bytes

def standardInput : String := "-"

/-- The text of an input: the standard input as it is, or a file told by its extension. -/
def Source.text (source : Source) (path : String) : Except Failure String :=
  if path = standardInput then
    match Utf8.decode source.input with
    | .ok text => .ok text
    | .error _ => .error .inputNotText
  else
    match Registry.reference.extractFile path (source.file path) with
    | .ok text => .ok text
    | .error error => .error (.error error)

def Source.style (source : Source) : Option String → Except Failure Style
  | none => .ok .reference
  | some path =>
    match Style.ofFile (source.file path) with
    | .ok style => .ok style
    | .error error => .error (.error error)

def synthesizer (style : Style) : Except Failure Synthesizer :=
  match Synthesizer.ofStyle style with
  | .ok synthesizer => .ok synthesizer
  | .error error => .error (.error error)

/-- Where the package of an input is written unless something else is asked for: beside the
input, but never in its place. -/
def defaultOutput (input : String) : String :=
  if input = standardInput then Delivery.defaultName
  else
    let candidate := Path.withExtension input "docx"
    if Path.same candidate input then
      Path.withFileName input ((Path.stem? input).getD "" ++ "_mdocx.docx")
    else candidate

def batchTarget (output : Option String) (input : String) : String :=
  match output with
  | some directory => Path.join directory ((Path.fileName? (defaultOutput input)).getD "")
  | none => defaultOutput input

/-- Where the packages of inputs are written, given the inputs before and their targets. No two
targets may be the same. -/
def targetsAfter (output : Option String) (claimed : List (String × String)) :
    List String → Except Failure (List String)
  | [] => .ok []
  | input :: inputs =>
    let target := batchTarget output input
    match claimed.find? fun (_, other) => Path.same other target with
    | some (previous, _) => .error (.sameTarget previous input target)
    | none => do
      .ok (target :: (← targetsAfter output (claimed ++ [(input, target)]) inputs))

def batchTargets (inputs : List String) (output : Option String) :
    Except Failure (List String) :=
  targetsAfter output [] inputs

/-! ## Converting -/

def savedTo (path : String) : String :=
  "Saved to " ++ path ++ "\n"

def saveOne (path : String) (content : Bytes) : Plan where
  directory := none
  writes := [⟨path, .ok content⟩]
  conclude := fun _ results =>
    match results with
    | .error failure :: _ => .failure "" failure
    | _ => .success (savedTo path)

def saveOrSay (output : Option String) (text : String) : Plan :=
  match output with
  | some path => saveOne path (Utf8.bytes text)
  | none => .done (.success (text ++ "\n"))

def convertOne (source : Source) (synthesizer : Synthesizer) (input : String)
    (output : Option String) (handover : Handover) : Except Failure Plan := do
  let text ← source.text input
  match synthesizer.convert text with
  | .error error => .error (.error error)
  | .ok content =>
    let delivery := Delivery.ofBytes content
    match handover with
    | .base64 => .ok (.done (.success (delivery.base64 ++ "\n")))
    | .payload name =>
      let name := name.getD ((Path.fileName? (defaultOutput input)).getD Delivery.defaultName)
      .ok (.done (.success ((delivery.withFileName name).payload ++ "\n")))
    | .file => .ok (saveOne (output.getD (defaultOutput input)) content)

def resultLines : List (String × String × Except Failure Unit) → String
  | [] => ""
  | (input, target, result) :: rest =>
    let branch := if rest.isEmpty then "└─" else "├─"
    let what :=
      match result with
      | .ok () => target
      | .error (.system error) => input ++ " " ++ (Error.transfer (.system error)).message
      | .error failure => input ++ " " ++ failure.message
    "  " ++ branch ++ " " ++ what ++ "\n" ++ resultLines rest

def batchOutcome (inputs targets : List String) (results : List (Except Failure Unit)) :
    Outcome :=
  let said := "\nOutput files:\n" ++ resultLines (inputs.zip (targets.zip results))
  match results.countP fun result => !result.isOk with
  | 0 => .success said
  | failed + 1 => .failure said (.someFailed (failed + 1) inputs.length)

def convertSeveral (source : Source) (synthesizer : Synthesizer) (inputs : List String)
    (output : Option String) : Except Failure Plan := do
  let targets ← batchTargets inputs output
  let texts ← inputs.mapM source.text
  let contents := synthesizer.convertAll texts
  .ok {
    directory := output
    writes := (targets.zip contents).map fun (path, content) => ⟨path, content⟩
    conclude := fun made results =>
      match made with
      | .error error => .failure "" (.system error)
      | .ok () => batchOutcome inputs targets results }

def convert (source : Source) (inputs : List String) (output style : Option String)
    (noJustify : Bool) (handover : Handover) : Except Failure Plan := do
  let style ← source.style style
  let synthesizer ← synthesizer (if noJustify then style.withJustifyBody false else style)
  match inputs with
  | [input] => convertOne source synthesizer input output handover
  | _ =>
    if handover ≠ .file then .error .severalInputs
    else convertSeveral source synthesizer inputs output

/-! ## Other commands -/

def extract (source : Source) (input : String) (output : Option String) :
    Except Failure Plan :=
  match Registry.reference.extractFile input (source.file input) with
  | .ok text => .ok (saveOrSay output text)
  | .error error => .error (.error error)

def inspect (source : Source) (input : String) (output style : Option String)
    (compact lines : Bool) : Except Failure Plan := do
  let synthesizer ← synthesizer (← source.style style)
  let text ← source.text input
  let json :=
    if lines then Line.listToJson (Line.ofText text) else (synthesizer.document text).toJson
  .ok (saveOrSay output (Json.render (.ofCompact compact) json))

def ruled (title : String) : String :=
  title ++ "\n" ++ String.ofList (List.replicate 40 '─') ++ "\n"

def statsLines (stats : Stats) : String :=
  let line (title : String) (count : UInt32) : String :=
    title ++ ": " ++ Text.showNat count.toNat ++ "\n"
  line "Paragraphs" stats.paragraphs ++ line "Titles" stats.titles ++
    line "Subtitles" stats.subtitles ++ line "Body" stats.bodies ++ line "Blank" stats.blanks ++
    line "Runs" stats.runs ++ line "Words" stats.words ++ line "Characters" stats.chars

def info (source : Source) (input : String) (json : Bool) : Except Failure Plan := do
  let text ← source.text input
  let synthesizer := Synthesizer.reference
  match synthesizer.packageWithStats (synthesizer.document text) with
  | .error error => .error (.error error)
  | .ok (content, stats) =>
    if json then .ok (.done (.success (Json.render .pretty stats.toJson ++ "\n")))
    else
      let head := ruled "Document Information" ++ "File: " ++ input ++ "\n"
      let tail := "Package: " ++ Text.showNat content.length ++ " bytes\n\n" ++
        ruled "Content Statistics" ++ statsLines stats
      if input = standardInput then .ok (.done (.success (head ++ tail)))
      else
        let format : Except Error Format :=
          match source.file input with
          | .ok content => Format.ofFile content
          | .error error => .error (.transfer (.system error))
        match format with
        | .ok format =>
          .ok (.done (.success (head ++ "Format: " ++ format.name ++ "\n" ++ tail)))
        | .error error => .ok (.done (.failure head (.error error)))

def config (source : Source) (check : Option String) : Except Failure Plan := do
  let style ← source.style check
  let said :=
    match check with
    | some path => "Valid configuration: " ++ path ++ "\n"
    | none => ""
  .ok (.done (.success (said ++ style.jsonText ++ "\n")))

def usageText : String :=
  "Usage: mdocx <FILE> [OUTPUT]\n       mdocx --help for more information\n"

def versionLine : String :=
  "mdocx " ++ Foreign.version ++ "\n"

def aboutText : String :=
  versionLine ++ "Markdown to Word document synthesis tool\n\n" ++
    "Repository: https://github.com/iyulab/mdocx\nLicense: MIT\n"

def Command.attempt (source : Source) : Command → Except Failure Plan
  | .usage => .ok (.done (.success usageText))
  | .convert inputs output style noJustify handover =>
    CommandLine.convert source inputs output style noJustify handover
  | .extract input output => CommandLine.extract source input output
  | .inspect input output style compact lines =>
    CommandLine.inspect source input output style compact lines
  | .info input json => CommandLine.info source input json
  | .config check => CommandLine.config source check
  | .version => .ok (.done (.success aboutText))

def Command.plan (source : Source) (command : Command) : Plan :=
  match command.attempt source with
  | .ok plan => plan
  | .error failure => .done (.failure "" failure)

def Command.files : Command → List String
  | .usage | .version => []
  | .convert inputs _ style _ _ => style.toList ++ inputs.filter (· != standardInput)
  | .extract input _ => [input]
  | .inspect input _ style _ _ => style.toList ++ [input].filter (· != standardInput)
  | .info input _ => [input].filter (· != standardInput)
  | .config check => check.toList

def Stop.outcome : Stop → Outcome
  | .misuse => ⟨"", "", 2⟩
  | .help => .success ""
  | .version => .success versionLine

def run (environment : Option String) (words : List String) (input : Bytes)
    (tree : FileTree) : FileTree × Outcome :=
  match Command.ofArguments environment words with
  | .error stop => (tree, stop.outcome)
  | .ok command => (command.plan ⟨tree.read, input⟩).perform tree

end Manuscript.CommandLine
