import Manuscript.Inline
import Manuscript.Json.Record
/-!
# Spans in JSON

A span is an object with its text and its emphasis.
-/

namespace Manuscript.Span

open Json (Reader Shape need)

structure Draft where
  text : Option String := none
  bold : Option Bool := none
  italic : Option Bool := none

def shape : Shape Draft Span where
  name := "InlineSpan"
  fields := [
    .of "text" (·.text) (fun v d => { d with text := some v }) Reader.string,
    .of "bold" (·.bold) (fun v d => { d with bold := some v }) Reader.boolean,
    .of "italic" (·.italic) (fun v d => { d with italic := some v }) Reader.boolean]
  start := {}
  finish := fun d => do
    .ok ⟨← need "text" d.text, ← need "bold" d.bold, ← need "italic" d.italic⟩

def reader : Reader Span :=
  shape.read

end Manuscript.Span
