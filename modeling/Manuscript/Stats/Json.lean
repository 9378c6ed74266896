import Manuscript.Json.Printer
import Manuscript.Json.Record
import Manuscript.Stats
/-!
# Statistics in JSON

Statistics are an object of eight counts, all of which must be given.
-/

namespace Manuscript.Stats

open Json (Reader Shape need)

def toJson (stats : Stats) : Json :=
  .object [
    ("paragraph_count", .natural stats.paragraphs.toNat),
    ("title_count", .natural stats.titles.toNat),
    ("subtitle_count", .natural stats.subtitles.toNat),
    ("body_count", .natural stats.bodies.toNat),
    ("blank_count", .natural stats.blanks.toNat),
    ("run_count", .natural stats.runs.toNat),
    ("word_count", .natural stats.words.toNat),
    ("char_count", .natural stats.chars.toNat)]

structure Draft where
  paragraphs : Option UInt32 := none
  titles : Option UInt32 := none
  subtitles : Option UInt32 := none
  bodies : Option UInt32 := none
  blanks : Option UInt32 := none
  runs : Option UInt32 := none
  words : Option UInt32 := none
  chars : Option UInt32 := none

def shape : Shape Draft Stats where
  name := "SynthesisStats"
  fields := [
    .of "paragraph_count" (·.paragraphs) (fun v d => { d with paragraphs := some v })
      Reader.word32,
    .of "title_count" (·.titles) (fun v d => { d with titles := some v }) Reader.word32,
    .of "subtitle_count" (·.subtitles) (fun v d => { d with subtitles := some v })
      Reader.word32,
    .of "body_count" (·.bodies) (fun v d => { d with bodies := some v }) Reader.word32,
    .of "blank_count" (·.blanks) (fun v d => { d with blanks := some v }) Reader.word32,
    .of "run_count" (·.runs) (fun v d => { d with runs := some v }) Reader.word32,
    .of "word_count" (·.words) (fun v d => { d with words := some v }) Reader.word32,
    .of "char_count" (·.chars) (fun v d => { d with chars := some v }) Reader.word32]
  start := {}
  finish := fun d => do
    .ok {
      paragraphs := ← need "paragraph_count" d.paragraphs
      titles := ← need "title_count" d.titles
      subtitles := ← need "subtitle_count" d.subtitles
      bodies := ← need "body_count" d.bodies
      blanks := ← need "blank_count" d.blanks
      runs := ← need "run_count" d.runs
      words := ← need "word_count" d.words
      chars := ← need "char_count" d.chars }

def reader : Reader Stats :=
  shape.read

end Manuscript.Stats
