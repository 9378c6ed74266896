import Manuscript.Json.Value
/-!
# Printing JSON

Two layouts: one line without any space, or one item a line, indented by two spaces for each
level. Empty arrays and objects are always written without a break.
-/

namespace Manuscript.Json

inductive Layout where
  | pretty
  | compact
  deriving DecidableEq, Repr, Inhabited

def Layout.ofCompact (compact : Bool) : Layout :=
  if compact then .compact else .pretty

def Layout.newline (layout : Layout) (depth : Nat) : List Char :=
  match layout with
  | pretty => '\n' :: List.replicate (2 * depth) ' '
  | compact => []

def Layout.colon : Layout → List Char
  | pretty => [':', ' ']
  | compact => [':']

def escapeChar (c : Char) : List Char :=
  if c = '\x22' ∨ c = '\\' then ['\\', c]
  else if c = '\x08' then ['\\', 'b']
  else if c = '\x0c' then ['\\', 'f']
  else if c = '\n' then ['\\', 'n']
  else if c = '\r' then ['\\', 'r']
  else if c = '\t' then ['\\', 't']
  else if c.toNat < 0x20 then
    ['\\', 'u', '0', '0', Text.digit (c.toNat / 16), Text.digit (c.toNat % 16)]
  else [c]

def printString (s : String) : List Char :=
  '\x22' :: s.toList.flatMap escapeChar ++ ['\x22']

mutual

def print (layout : Layout) (depth : Nat) : Json → List Char
  | .null => "null".toList
  | .bool true => "true".toList
  | .bool false => "false".toList
  | .number n => n.text
  | .string s => printString s
  | .array [] => ['[', ']']
  | .array (item :: items) =>
    '[' :: layout.newline (depth + 1) ++ print layout (depth + 1) item ++
      printItems layout (depth + 1) items ++ layout.newline depth ++ [']']
  | .object [] => ['\x7b', '\x7d']
  | .object ((key, value) :: members) =>
    '\x7b' :: layout.newline (depth + 1) ++ printString key ++ layout.colon ++
      print layout (depth + 1) value ++ printMembers layout (depth + 1) members ++
      layout.newline depth ++ ['\x7d']

def printItems (layout : Layout) (depth : Nat) : List Json → List Char
  | [] => []
  | item :: items =>
    ',' :: layout.newline depth ++ print layout depth item ++ printItems layout depth items

def printMembers (layout : Layout) (depth : Nat) : List (String × Json) → List Char
  | [] => []
  | (key, value) :: members =>
    ',' :: layout.newline depth ++ printString key ++ layout.colon ++
      print layout depth value ++ printMembers layout depth members

end

def render (layout : Layout) (value : Json) : String :=
  String.ofList (print layout 0 value)

end Manuscript.Json
