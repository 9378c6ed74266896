import Manuscript.CommandLine.Arguments
/-!
# Commands

What the program can be asked to do, and how it is asked. Without the name of a command, a file
is converted.
-/

namespace Manuscript.CommandLine

inductive Handover where
  | file
  | base64
  | payload (name : Option String)
  deriving DecidableEq, Repr

inductive Command where
  | usage
  | convert (inputs : List String) (output style : Option String) (noJustify : Bool)
      (handover : Handover)
  | extract (input : String) (output : Option String)
  | inspect (input : String) (output style : Option String) (compact lines : Bool)
  | info (input : String) (json : Bool)
  | config (check : Option String)
  | version
  deriving DecidableEq, Repr

namespace Command

def styleOption : Opt := { name := "config" }

def outputOption : Opt := { name := "output", letter := some 'o' }

def switch (name : String) : Opt := { name, takesValue := false }

def names : List String :=
  ["convert", "extract", "inspect", "info", "config", "version", "help"]

def topForm : Form :=
  { options := [styleOption], operands := some 2, commands := names, hasVersion := true }

def convertForm : Form :=
  { options := [outputOption, styleOption, switch "no-justify", switch "base64",
      switch "payload", { name := "name", allowsEmpty := true }]
    operands := none }

def extractForm : Form :=
  { options := [outputOption], operands := some 1 }

def inspectForm : Form :=
  { options := [outputOption, styleOption, switch "compact", switch "lines"]
    operands := some 1 }

def infoForm : Form :=
  { options := [switch "json"], operands := some 1 }

def configForm : Form :=
  { options := [{ name := "check" }], operands := some 0 }

def versionForm : Form :=
  { options := [], operands := some 0 }

/-- The style file of a command: the option, or else the environment, which must not give an
empty name. -/
def styleFile (environment : Option String) (given : Given) : Except Stop (Option String) :=
  match given.value? styleOption.name, environment with
  | some path, _ => .ok (some path)
  | none, some "" => .error .misuse
  | none, path => .ok path

def operand (given : Given) : Except Stop String :=
  match given.operands with
  | [input] => .ok input
  | _ => .error .misuse

def handover (given : Given) : Except Stop Handover :=
  match given.has "base64", given.has "payload" with
  | true, true => .error .misuse
  | true, false => .ok .base64
  | false, true => .ok (.payload (given.value? "name"))
  | false, false => .ok .file

def readAll (form : Form) (words : List String) : Except Stop Given := do
  let (given, _) ← form.read {} words
  .ok given

def ofName (environment : Option String) (name : String) (words : List String) :
    Except Stop Command :=
  match name with
  | "convert" => do
    let given ← readAll convertForm words
    if given.operands.isEmpty then .error .misuse
    else
      let style ← styleFile environment given
      .ok (.convert given.operands (given.value? outputOption.name) style
        (given.has "no-justify") (← handover given))
  | "extract" => do
    let given ← readAll extractForm words
    .ok (.extract (← operand given) (given.value? outputOption.name))
  | "inspect" => do
    let given ← readAll inspectForm words
    let style ← styleFile environment given
    .ok (.inspect (← operand given) (given.value? outputOption.name) style (given.has "compact")
      (given.has "lines"))
  | "info" => do
    let given ← readAll infoForm words
    .ok (.info (← operand given) (given.has "json"))
  | "config" => do
    let given ← readAll configForm words
    .ok (.config (given.value? "check"))
  | "version" => do
    let _ ← readAll versionForm words
    .ok .version
  | _ =>
    match words with
    | [] => .error .help
    | [topic] => if names.contains topic then .error .help else .error .misuse
    | _ => .error .misuse

def ofArguments (environment : Option String) (words : List String) : Except Stop Command := do
  let (given, following) ← topForm.read {} words
  match following with
  | some (name, words) => do
    let command ← ofName environment name words
    let _ ← styleFile environment given
    .ok command
  | none => do
    let style ← styleFile environment given
    match given.operands with
    | [] => .ok .usage
    | input :: rest => .ok (.convert [input] rest.head? style false .file)

end Command

end Manuscript.CommandLine
