import Manuscript.Json.Real
/-!
# JSON values

Values as JSON texts give them: integers are kept apart from other numbers, and the members of
an object keep their order.
-/

namespace Manuscript

inductive Json.Number where
  | natural (n : Nat)
  | negative (n : Nat)
  | real (x : Real64)
  deriving DecidableEq, Repr, Inhabited

def Json.Number.text : Json.Number → List Char
  | natural n => Text.decimal n
  | negative n => '-' :: Text.decimal n
  | real x => x.text

inductive Json where
  | null
  | bool (b : Bool)
  | number (n : Json.Number)
  | string (s : String)
  | array (items : List Json)
  | object (members : List (String × Json))
  deriving Inhabited, Repr

def Json.natural (n : Nat) : Json :=
  .number (.natural n)

end Manuscript
