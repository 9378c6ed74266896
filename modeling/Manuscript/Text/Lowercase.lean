import Manuscript.Text.Quoted
/-!
# Lower case

Full lower-case mapping of texts. Two characters need care: the dotted capital I becomes an i
with a dot above, and a capital sigma at the end of a word becomes a final sigma.
-/

namespace Manuscript.Text

def Table.Run.lower? (run : Table.Run) (n : Nat) : Option Nat :=
  if run.first ≤ n ∧ n ≤ run.last ∧ (n - run.first) % run.stride = 0 then
    some (n + run.distance).toNat
  else none

def lowerChar (c : Char) : List Char :=
  if c.toNat < 0x80 then [c.toLower]
  else if c = '\u0130' then ['i', '\u0307']
  else
    match Table.lowercase.findSome? fun run => run.lower? c.toNat with
    | some n => [Char.ofNat n]
    | none => [c]

def nextIsCased (cs : List Char) : Bool :=
  match cs.dropWhile (inRanges Table.caseIgnorable) with
  | [] => false
  | c :: _ => inRanges Table.cased c

/-- Lower-cases a text, given the characters before it, the nearest first. -/
def lowerAfter (before : List Char) : List Char → List Char
  | [] => []
  | c :: cs =>
    if c = '\u03a3' then
      (if nextIsCased before && !nextIsCased cs then '\u03c2' else '\u03c3') ::
        lowerAfter (c :: before) cs
    else lowerChar c ++ lowerAfter (c :: before) cs

def lowercase (s : String) : String :=
  String.ofList (lowerAfter [] s.toList)

end Manuscript.Text
