/-!
# Blank characters

The white space of Unicode, and the wider class of characters that end a source line or part a
heading from its marks.
-/

namespace Manuscript.Text

def isBlank (c : Char) : Bool :=
  let n := c.toNat
  (0x09 ≤ n && n ≤ 0x0D) || n == 0x20 || n == 0x85 || n == 0xA0 || n == 0x1680 ||
    (0x2000 ≤ n && n ≤ 0x200A) || n == 0x2028 || n == 0x2029 || n == 0x202F ||
    n == 0x205F || n == 0x3000

/-- An information separator, U+001C to U+001F. -/
def isSeparator (c : Char) : Bool :=
  0x1C ≤ c.toNat && c.toNat ≤ 0x1F

/-- The space of a source line: white space and the information separators. -/
def isSpacing (c : Char) : Bool :=
  isBlank c || isSeparator c

def isControl (c : Char) : Bool :=
  c.toNat < 0x20 || (0x7F ≤ c.toNat && c.toNat ≤ 0x9F)

def trimEnd (p : Char → Bool) : List Char → List Char
  | [] => []
  | c :: cs =>
    match trimEnd p cs with
    | [] => if p c then [] else [c]
    | d :: ds => c :: d :: ds

/-- The number of blank-separated words, given whether a word is already under way. -/
def countWords (inWord : Bool) : List Char → Nat
  | [] => 0
  | c :: cs =>
    if isBlank c then countWords false cs
    else if inWord then countWords true cs
    else countWords true cs + 1

def wordCount (s : String) : Nat :=
  countWords false s.toList

def inkCount (s : String) : Nat :=
  s.toList.countP fun c => !isBlank c

end Manuscript.Text
