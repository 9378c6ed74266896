import Manuscript.Assembly
import Manuscript.Stats
import Manuscript.Style.Json
import Manuscript.Wordprocessing.Package
/-!
# Synthesis

A synthesizer holds a style that is fit for use, and makes documents and packages of texts.
-/

namespace Manuscript

open Archive (Codec)

variable [Codec]

def Style.validate (style : Style) : Except Error Unit :=
  match style.fault? with
  | none => .ok ()
  | some fault => .error (.style (.unfit fault))

/-- The style in a JSON text, which must be fit for use. -/
def Style.ofJsonText (text : String) : Except Error Style :=
  match Json.read Style.reader text with
  | .error report => .error (.style (.unreadable report))
  | .ok style => do
    style.validate
    .ok style

def Style.ofFile (content : Except SystemError Bytes) : Except Error Style :=
  match content with
  | .error error => .error (.transfer (.system error))
  | .ok bytes =>
    match Utf8.decode bytes with
    | .error _ => .error (.transfer .notText)
    | .ok text => ofJsonText text

/-- A style that is fit for use. -/
structure Synthesizer where
  style : Style
  isFit : style.fault? = none

namespace Synthesizer

def ofStyle (style : Style) : Except Error Synthesizer :=
  match h : style.fault? with
  | none => .ok ⟨style, h⟩
  | some fault => .error (.style (.unfit fault))

def reference : Synthesizer :=
  ⟨.reference, by decide⟩

def document (synthesizer : Synthesizer) (text : String) : Document :=
  synthesizer.style.document text

def package (synthesizer : Synthesizer) (document : Document) : Except Error Bytes :=
  Wordprocessing.package synthesizer.style.fontFamily document

def convert (synthesizer : Synthesizer) (text : String) : Except Error Bytes :=
  synthesizer.package (synthesizer.document text)

def packageWithStats (synthesizer : Synthesizer) (document : Document) :
    Except Error (Bytes × Stats) := do
  .ok (← synthesizer.package document, Stats.ofDocument document)

def convertAll (synthesizer : Synthesizer) (texts : List String) :
    List (Except Error Bytes) :=
  texts.map synthesizer.convert

end Synthesizer

end Manuscript
