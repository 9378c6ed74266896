/-!
# Lines

A text is cut at every line feed, so it always has one line more than it has line feeds.
-/

namespace Manuscript.Text

/-- The lines of a text: the pieces between its line feeds. -/
def splitLines : List Char → List (List Char)
  | [] => [[]]
  | c :: cs =>
    if c = '\n' then [] :: splitLines cs
    else
      match splitLines cs with
      | [] => [[c]]
      | line :: rest => (c :: line) :: rest

def lines (s : String) : List String :=
  (splitLines s.toList).map String.ofList

def joinLines : List (List Char) → List Char
  | [] => []
  | [line] => line
  | line :: next :: rest => line ++ '\n' :: joinLines (next :: rest)

def unlines (ss : List String) : String :=
  String.ofList (joinLines (ss.map String.toList))

theorem splitLines_ne_nil (cs : List Char) : splitLines cs ≠ [] := by
  cases cs with
  | nil => simp [splitLines]
  | cons c cs =>
      unfold splitLines
      split
      · simp
      · split <;> simp

end Manuscript.Text
