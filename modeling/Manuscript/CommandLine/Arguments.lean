/-!
# Arguments

How the words of a command line are told apart: options with and without a value, and operands.
An option is given once at most. After two dashes alone everything is an operand.
-/

namespace Manuscript.CommandLine

structure Opt where
  name : String
  letter : Option Char := none
  takesValue : Bool := true
  allowsEmpty : Bool := false

structure Form where
  options : List Opt
  /-- The largest number of operands; none if there is no limit. -/
  operands : Option Nat
  /-- Words that end the form and begin another command. -/
  commands : List String := []
  hasVersion : Bool := false

inductive Stop where
  | misuse
  | help
  | version
  deriving DecidableEq, Repr

structure Given where
  /-- The options with their values, empty for those that take none. -/
  options : List (String × String) := []
  operands : List String := []

namespace Given

def value? (given : Given) (name : String) : Option String :=
  given.options.lookup name

def has (given : Given) (name : String) : Bool :=
  (given.value? name).isSome

def addOption (given : Given) (opt : Opt) (value : String) : Except Stop Given :=
  if given.has opt.name then .error .misuse
  else if opt.takesValue && !opt.allowsEmpty && value.isEmpty then .error .misuse
  else .ok { given with options := given.options ++ [(opt.name, value)] }

def addOperand (form : Form) (given : Given) (operand : String) : Except Stop Given :=
  let isFull :=
    match form.operands with
    | some n => decide (n ≤ given.operands.length)
    | none => false
  if isFull || operand.isEmpty then .error .misuse
  else .ok { given with operands := given.operands ++ [operand] }

end Given

inductive Word where
  | operand (word : String)
  | endOfOptions
  | named (name : String) (value : Option String)
  | lettered (letter : Char) (value : Option String)

/-- Tells what a word is. A dash alone is an operand. -/
def Word.ofString (word : String) : Word :=
  match word.toList with
  | ['-', '-'] => .endOfOptions
  | '-' :: '-' :: cs =>
    let name := String.ofList (cs.takeWhile (· != '='))
    match cs.dropWhile (· != '=') with
    | _ :: value => .named name (some (String.ofList value))
    | [] => .named name none
  | '-' :: c :: cs =>
    match cs with
    | [] => .lettered c none
    | '=' :: value => .lettered c (some (String.ofList value))
    | value => .lettered c (some (String.ofList value))
  | _ => .operand word

def isValue (word : String) : Bool :=
  match word.toList with
  | '-' :: _ :: _ => false
  | _ => true

def Form.find (form : Form) (word : Word) : Except Stop (Opt × Option String) :=
  let found (opt : Option Opt) (value : Option String) : Except Stop (Opt × Option String) :=
    match opt with
    | some opt => if !opt.takesValue && value.isSome then .error .misuse else .ok (opt, value)
    | none => .error .misuse
  match word with
  | .named "help" none => .error .help
  | .named "version" none =>
    if form.hasVersion then .error .version else .error .misuse
  | .lettered 'h' _ => .error .help
  | .lettered 'V' _ => if form.hasVersion then .error .version else .error .misuse
  | .named name value => found (form.options.find? (·.name == name)) value
  | .lettered letter value => found (form.options.find? (·.letter == some letter)) value
  | .operand _ | .endOfOptions => .error .misuse

/-- Reads the words of a command. Gives the command that follows too, with its words. -/
def Form.read (form : Form) (given : Given) :
    List String → Except Stop (Given × Option (String × List String))
  | [] => .ok (given, none)
  | word :: words =>
    match Word.ofString word with
    | .endOfOptions => do .ok (← words.foldlM (Given.addOperand form) given, none)
    | .operand operand =>
      if form.commands.contains operand then .ok (given, some (operand, words))
      else do form.read (← given.addOperand form operand) words
    | option => do
      let (opt, value) ← form.find option
      match value, words with
      | some value, words => form.read (← given.addOption opt value) words
      | none, [] =>
          if opt.takesValue then .error .misuse else form.read (← given.addOption opt "") []
      | none, next :: words =>
        if !opt.takesValue then form.read (← given.addOption opt "") (next :: words)
        else if isValue next then form.read (← given.addOption opt next) words
        else .error .misuse
termination_by words => words.length

end Manuscript.CommandLine
