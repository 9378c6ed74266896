import Manuscript.Archive.Writer
import Manuscript.Error
import Manuscript.Wordprocessing.Reading
/-!
# Packages

A word-processing package is an archive of the parts of a document. Reading one back only looks
at the document part, and only at as much of it as a limit allows.
-/

namespace Manuscript.Wordprocessing

open Archive (Codec)

variable [Codec]

def items (font : String) (document : Document) : List Archive.Item :=
  (parts font document).map fun (name, content) => ⟨Utf8.bytes name, Utf8.bytes content⟩

def archive (items : List Archive.Item) : Except Error Bytes :=
  match Archive.write items with
  | .ok bytes => .ok bytes
  | .error .content => .error (.transfer .tooLarge)
  | .error .packed => .error (.archive .largePacked)

/-- The document part is measured before it is written out: no archive holds one that is larger than
the largest number. -/
def package (font : String) (document : Document) : Except Error Bytes :=
  if Archive.maxNumber < documentSize font document then .error (.transfer .tooLarge)
  else archive (items font document)

/-- The largest document part that is read unless a reader is told otherwise. -/
def maxPartSize : Nat := 64 * 1024 * 1024

/-- The bytes of the document part of a package, if there are at most `limit`. The size that the
package claims for the part is only a hint for the buffer. -/
def documentPartBytes (limit : Nat) (bs : Bytes) : Except Error Bytes :=
  match Archive.openBytes bs with
  | .error fault => .error (.package (.archive fault))
  | .ok entries =>
    match Archive.find? (Utf8.bytes documentPart) entries with
    | none => .error (.package .missingPart)
    | some entry =>
      match entry.open bs with
      | .error fault => .error (.archive fault)
      | .ok stream =>
        match stream.readWithin (min (min entry.size limit) maxPartSize) limit with
        | .ok content => .ok content
        | .error .tooLong => .error (.package (.largePart limit))
        | .error (.stream fault) => .error (.package (.unreadablePart fault))

def documentPartXml (limit : Nat) (bs : Bytes) : Except Error String := do
  let content ← documentPartBytes limit bs
  match Utf8.decode content with
  | .ok xml => .ok xml
  | .error fault => .error (.encoding .documentPart fault)

/-- The text of a package, a line for each paragraph, with the warnings on the way. -/
def extract (limit : Nat) (bs : Bytes) : Noted (Except Error String) :=
  match documentPartXml limit bs with
  | .error error => ⟨.error error, []⟩
  | .ok xml =>
    let texts := paragraphTexts xml
    match texts.value with
    | .error fault => ⟨.error (.markup fault), texts.warnings⟩
    | .ok paragraphs => ⟨.ok (Text.unlines paragraphs), texts.warnings⟩

end Manuscript.Wordprocessing
