import Manuscript.Document
import Manuscript.Style.Json
/-!
# Documents in JSON

A document is an object with its paragraphs, and these and their runs are objects too. All
members must be given.
-/

namespace Manuscript

open Json (Reader Shape need)

def Alignment.name : Alignment → String
  | left => "left"
  | center => "center"
  | right => "right"
  | justify => "justify"

def Alignment.names : List (String × Alignment) :=
  [.left, .center, .right, .justify].map fun alignment => (alignment.name, alignment)

def Role.name : Role → String
  | title => "title"
  | subtitle => "subtitle"
  | body => "body"
  | blank => "blank"

def Role.names : List (String × Role) :=
  [.title, .subtitle, .body, .blank].map fun role => (role.name, role)

def Run.toJson (run : Run) : Json :=
  .object [
    ("text", .string run.text),
    ("bold", .bool run.bold),
    ("italic", .bool run.italic),
    ("underline", .bool run.underline),
    ("font_size_half_points", .natural run.size.toNat),
    ("color", run.color.toJson)]

def Paragraph.toJson (paragraph : Paragraph) : Json :=
  .object [
    ("runs", .array (paragraph.runs.map Run.toJson)),
    ("alignment", .string paragraph.alignment.name),
    ("role", .string paragraph.role.name)]

def Document.toJson (document : Document) : Json :=
  .object [("paragraphs", .array (document.paragraphs.map Paragraph.toJson))]

structure Run.Draft where
  text : Option String := none
  bold : Option Bool := none
  italic : Option Bool := none
  underline : Option Bool := none
  size : Option UInt32 := none
  color : Option Color := none

def Run.shape : Shape Run.Draft Run where
  name := "StyledRun"
  fields := [
    .of "text" (·.text) (fun v d => { d with text := some v }) Reader.string,
    .of "bold" (·.bold) (fun v d => { d with bold := some v }) Reader.boolean,
    .of "italic" (·.italic) (fun v d => { d with italic := some v }) Reader.boolean,
    .of "underline" (·.underline) (fun v d => { d with underline := some v }) Reader.boolean,
    .of "font_size_half_points" (·.size) (fun v d => { d with size := some v }) Reader.word32,
    .of "color" (·.color) (fun v d => { d with color := some v }) Color.reader]
  start := {}
  finish := fun d => do
    .ok {
      text := ← need "text" d.text
      bold := ← need "bold" d.bold
      italic := ← need "italic" d.italic
      underline := ← need "underline" d.underline
      size := ← need "font_size_half_points" d.size
      color := ← need "color" d.color }

def Run.reader : Reader Run :=
  Run.shape.read

structure Paragraph.Draft where
  runs : Option (List Run) := none
  alignment : Option Alignment := none
  role : Option Role := none

def Paragraph.shape : Shape Paragraph.Draft Paragraph where
  name := "ParagraphSpec"
  fields := [
    .of "runs" (·.runs) (fun v d => { d with runs := some v }) (Reader.list Run.reader),
    .of "alignment" (·.alignment) (fun v d => { d with alignment := some v })
      (Reader.name Alignment.names),
    .of "role" (·.role) (fun v d => { d with role := some v }) (Reader.name Role.names)]
  start := {}
  finish := fun d => do
    .ok ⟨← need "runs" d.runs, ← need "alignment" d.alignment, ← need "role" d.role⟩

def Paragraph.reader : Reader Paragraph :=
  Paragraph.shape.read

structure Document.Draft where
  paragraphs : Option (List Paragraph) := none

def Document.shape : Shape Document.Draft Document where
  name := "DocumentModel"
  fields := [
    .of "paragraphs" (·.paragraphs) (fun v d => { d with paragraphs := some v })
      (Reader.list Paragraph.reader)]
  start := {}
  finish := fun d => do .ok ⟨← need "paragraphs" d.paragraphs⟩

def Document.reader : Reader Document :=
  Document.shape.read

end Manuscript
