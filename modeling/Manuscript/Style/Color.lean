/-!
# Colors

A color is six hexadecimal digits, kept as they were written.
-/

namespace Manuscript

def Color.isDigit (c : Char) : Bool :=
  ('0' ≤ c && c ≤ '9') || ('a' ≤ c && c ≤ 'f') || ('A' ≤ c && c ≤ 'F')

def Color.accepts (s : String) : Bool :=
  s.toList.length == 6 && s.toList.all Color.isDigit

structure Color where
  digits : String
  accepted : Color.accepts digits = true
  deriving DecidableEq, Repr

namespace Color

def black : Color :=
  ⟨"000000", by decide⟩

instance : Inhabited Color := ⟨black⟩

def ofString? (s : String) : Option Color :=
  if h : accepts s = true then some ⟨s, h⟩ else none

theorem ofString?_digits (color : Color) : ofString? color.digits = some color := by
  simp [ofString?, color.accepted]

end Color

end Manuscript
