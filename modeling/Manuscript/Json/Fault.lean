import Manuscript.Json.Value
import Manuscript.Text.Quoted
import Manuscript.Text.Utf8
/-!
# Faults of JSON texts

What can be wrong with a JSON text, and where. A reader knows a place as the number of bytes
that are left after it; only the whole text turns that into a line and a column.
-/

namespace Manuscript.Json

open Text

inductive Found where
  | null
  | boolean (b : Bool)
  | number (n : Number)
  | string (s : String)
  | sequence
  | map
  deriving Repr

def Found.text : Found → String
  | null => "null"
  | boolean b => "boolean `" ++ (if b then "true" else "false") ++ "`"
  | number (.real x) => "floating point `" ++ String.ofList x.text ++ "`"
  | number n => "integer `" ++ String.ofList n.text ++ "`"
  | string s => "string " ++ quote s
  | sequence => "sequence"
  | map => "map"

def Found.ofValue : Json → Found
  | .null => .null
  | .bool b => .boolean b
  | .number n => .number n
  | .string s => .string s
  | .array _ => .sequence
  | .object _ => .map

inductive Reason where
  | endInValue
  | endInString
  | endInList
  | endInObject
  | expectedColon
  | expectedListEnd
  | expectedObjectEnd
  | expectedWord
  | expectedValue
  | expectedKey
  | controlInString
  | invalidEscape
  | loneSurrogate
  | halfSurrogatePair
  | invalidNumber
  | numberOutOfRange
  | trailingComma
  | trailingCharacters
  | tooDeep
  | wrongType (found : Found) (expected : String)
  | wrongValue (found : Found) (expected : String)
  | wrongLength (length : Nat) (expected : String)
  | unknownVariant (name : String) (known : List String)
  | missingField (name : String)
  | duplicateField (name : String)
  | refused (message : String)
  deriving Repr

def nameList (names : List String) : String :=
  ", ".intercalate (names.map fun name => "`" ++ name ++ "`")

def Reason.message : Reason → String
  | endInValue => "EOF while parsing a value"
  | endInString => "EOF while parsing a string"
  | endInList => "EOF while parsing a list"
  | endInObject => "EOF while parsing an object"
  | expectedColon => "expected `:`"
  | expectedListEnd => "expected `,` or `]`"
  | expectedObjectEnd => "expected `,` or `\x7d`"
  | expectedWord => "expected ident"
  | expectedValue => "expected value"
  | expectedKey => "key must be a string"
  | controlInString =>
    "control character (\\u0000-\\u001F) found while parsing a string"
  | invalidEscape => "invalid escape"
  | loneSurrogate => "lone leading surrogate in hex escape"
  | halfSurrogatePair => "unexpected end of hex escape"
  | invalidNumber => "invalid number"
  | numberOutOfRange => "number out of range"
  | trailingComma => "trailing comma"
  | trailingCharacters => "trailing characters"
  | tooDeep => "recursion limit exceeded"
  | wrongType found expected => "invalid type: " ++ found.text ++ ", expected " ++ expected
  | wrongValue found expected => "invalid value: " ++ found.text ++ ", expected " ++ expected
  | wrongLength n expected => "invalid length " ++ showNat n ++ ", expected " ++ expected
  | unknownVariant name known =>
    "unknown variant `" ++ name ++ "`, expected one of " ++ nameList known
  | missingField name => "missing field `" ++ name ++ "`"
  | duplicateField name => "duplicate field `" ++ name ++ "`"
  | refused message => message

/-- A fault, with its place if it has one already. A fault of a whole value is placed by the
array or the object around it, which looks for its own end first. -/
inductive Fault where
  | placed (reason : Reason) (left : Nat)
  | unplaced (reason : Reason) (rest : List Char)
  deriving Repr

def Fault.before (reason : Reason) (rest : List Char) : Fault :=
  .placed reason (Utf8.size rest)

def Fault.next (reason : Reason) (rest : List Char) : Fault :=
  .placed reason (Utf8.size rest - 1)

/-- A line and a column, the column in bytes. Both are written, the line counted from one. -/
structure Position where
  line : Nat
  column : Nat
  deriving DecidableEq, Repr

def Position.ofPrefix (n : Nat) (bytes : Bytes) : Position :=
  let before := bytes.take n
  { line := before.count 10 + 1
    column := (before.reverse.takeWhile (· != 10)).length }

structure Report where
  reason : Reason
  position : Option Position
  deriving Repr

theorem ok_of_bind {α β : Type} {x : Except Fault α} {f : α → Except Fault β} {r : β}
    (h : x >>= f = .ok r) : ∃ a, x = .ok a ∧ f a = .ok r := by
  cases x with
  | error => cases h
  | ok a => exact ⟨a, rfl, h⟩

def Fault.report (text : String) : Fault → Report
  | placed reason left =>
    let bytes := Utf8.bytes text
    ⟨reason, some (Position.ofPrefix (bytes.length - left) bytes)⟩
  | unplaced reason _ => ⟨reason, none⟩

def Report.message (report : Report) : String :=
  match report.position with
  | some position =>
    report.reason.message ++ " at line " ++ showNat position.line ++ " column " ++
      showNat position.column
  | none => report.reason.message

end Manuscript.Json
