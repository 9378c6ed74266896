import Manuscript.Style.Color
import Manuscript.Text.Blank
import Manuscript.Text.Quoted
/-!
# Styles

How a document is to look: one font, a size and a color for titles, subtitles and body text, and
three switches. Sizes are counted in half-points. A style is fit for use if `Style.fault?` finds
nothing.
-/

namespace Manuscript

open Text

/-- The size, in half-points, and the color of one kind of text. -/
structure RoleStyle where
  size : UInt32
  color : Color
  deriving DecidableEq, Repr, Inhabited

/-- How a document is to look. The defaults are the reference style. -/
structure Style where
  fontFamily : String := "Century Schoolbook"
  title : RoleStyle := ⟨28, .black⟩
  subtitle : RoleStyle := ⟨24, .black⟩
  body : RoleStyle := ⟨24, .black⟩
  subtitleBold : Bool := true
  subtitleUnderline : Bool := true
  justifyBody : Bool := true
  deriving DecidableEq, Repr

namespace Style

def reference : Style := {}

instance : Inhabited Style := ⟨reference⟩

/-- The largest size that a style may ask for, in half-points. -/
def maxSize : UInt32 := 3276

def withFont (style : Style) (font : String) : Style :=
  { style with fontFamily := font }

def withSubtitleEmphasis (style : Style) (enabled : Bool) : Style :=
  { style with subtitleBold := enabled, subtitleUnderline := enabled }

def withJustifyBody (style : Style) (enabled : Bool) : Style :=
  { style with justifyBody := enabled }

inductive Sized where
  | title
  | subtitle
  | body
  deriving DecidableEq, Repr

def Sized.name : Sized → String
  | title => "title"
  | subtitle => "subtitle"
  | body => "body"

inductive Fault where
  | color (text : String)
  | blankFont
  | controlInFont (font : String)
  | size (of : Sized) (size : UInt32)
  deriving DecidableEq, Repr

def Fault.message : Fault → String
  | color text => "color must be exactly 6 hex digits, got " ++ quote text
  | blankFont => "font_family must not be empty"
  | controlInFont font => "font_family contains control characters: " ++ quote font
  | size of n =>
    of.name ++ ".size must be between 1 and " ++ showNat maxSize.toNat ++
      " half-points, got " ++ showNat n.toNat

def Fault.report (fault : Fault) : String :=
  "Invalid configuration: " ++ fault.message

def sizeFault? (of : Sized) (roleStyle : RoleStyle) : Option Fault :=
  if roleStyle.size = 0 ∨ maxSize < roleStyle.size then some (.size of roleStyle.size) else none

/-- The first fault of a style: the font is looked at before the sizes. -/
def fault? (style : Style) : Option Fault :=
  if style.fontFamily.toList.all isBlank then some .blankFont
  else if style.fontFamily.toList.any isControl then some (.controlInFont style.fontFamily)
  else
    sizeFault? .title style.title <|> sizeFault? .subtitle style.subtitle <|>
      sizeFault? .body style.body

end Style

def Color.parse (s : String) : Except Style.Fault Color :=
  match Color.ofString? s with
  | some color => .ok color
  | none => .error (.color s)

end Manuscript
