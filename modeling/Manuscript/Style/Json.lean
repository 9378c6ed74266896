import Manuscript.Json.Printer
import Manuscript.Json.Record
import Manuscript.Style
/-!
# Styles in JSON

A style is an object of seven members, each of which may be missing: what a text does not give
keeps its reference value. The size and the color of a kind of text must come together.
-/

namespace Manuscript

open Json (Reader Field Shape need)

def Color.toJson (color : Color) : Json :=
  .string color.digits

def RoleStyle.toJson (style : RoleStyle) : Json :=
  .object [("size", .natural style.size.toNat), ("color", style.color.toJson)]

def Style.toJson (style : Style) : Json :=
  .object [
    ("font_family", .string style.fontFamily),
    ("title", style.title.toJson),
    ("subtitle", style.subtitle.toJson),
    ("body", style.body.toJson),
    ("subtitle_bold", .bool style.subtitleBold),
    ("subtitle_underline", .bool style.subtitleUnderline),
    ("justify_body", .bool style.justifyBody)]

def Style.jsonText (style : Style) : String :=
  Json.render .pretty style.toJson

def Color.reader : Reader Color := fun room => {
  scan := fun cs => do
    let (s, rest) ← Reader.string room cs
    match Color.parse s with
    | .ok color => .ok (color, rest)
    | .error fault => .error (.unplaced (.refused fault.report) rest)
  takes := by
    intro cs rest color h
    obtain ⟨⟨_, _⟩, hs, h⟩ := Json.ok_of_bind h
    dsimp only at h
    split at h
    · cases h; exact (Reader.string room).takes hs
    · cases h }

structure RoleStyle.Draft where
  size : Option UInt32 := none
  color : Option Color := none

def RoleStyle.shape : Shape RoleStyle.Draft RoleStyle where
  name := "RoleStyle"
  fields := [
    .of "size" (·.size) (fun v d => { d with size := some v }) Reader.word32,
    .of "color" (·.color) (fun v d => { d with color := some v }) Color.reader]
  start := {}
  finish := fun d => do .ok ⟨← need "size" d.size, ← need "color" d.color⟩

def RoleStyle.reader : Reader RoleStyle :=
  RoleStyle.shape.read

structure Style.Draft where
  fontFamily : Option String := none
  title : Option RoleStyle := none
  subtitle : Option RoleStyle := none
  body : Option RoleStyle := none
  subtitleBold : Option Bool := none
  subtitleUnderline : Option Bool := none
  justifyBody : Option Bool := none

/-- The style of a draft: what is not known is taken from the reference style. -/
def Style.Draft.style (draft : Style.Draft) : Style where
  fontFamily := draft.fontFamily.getD Style.reference.fontFamily
  title := draft.title.getD Style.reference.title
  subtitle := draft.subtitle.getD Style.reference.subtitle
  body := draft.body.getD Style.reference.body
  subtitleBold := draft.subtitleBold.getD Style.reference.subtitleBold
  subtitleUnderline := draft.subtitleUnderline.getD Style.reference.subtitleUnderline
  justifyBody := draft.justifyBody.getD Style.reference.justifyBody

def Style.shape : Shape Style.Draft Style where
  name := "StyleConfig"
  fields := [
    .of "font_family" (·.fontFamily) (fun v d => { d with fontFamily := some v }) Reader.string,
    .of "title" (·.title) (fun v d => { d with title := some v }) RoleStyle.reader,
    .of "subtitle" (·.subtitle) (fun v d => { d with subtitle := some v }) RoleStyle.reader,
    .of "body" (·.body) (fun v d => { d with body := some v }) RoleStyle.reader,
    .of "subtitle_bold" (·.subtitleBold) (fun v d => { d with subtitleBold := some v })
      Reader.boolean,
    .of "subtitle_underline" (·.subtitleUnderline)
      (fun v d => { d with subtitleUnderline := some v }) Reader.boolean,
    .of "justify_body" (·.justifyBody) (fun v d => { d with justifyBody := some v })
      Reader.boolean]
  start := {}
  finish := fun d => .ok d.style

def Style.reader : Reader Style :=
  Style.shape.read

end Manuscript
