import Manuscript.Text.Lowercase
import Manuscript.Wordprocessing.Package
/-!
# Extractors

An extractor finds the text in a byte string. It has a name, and declares the extensions of the
files that it is meant for.
-/

namespace Manuscript

open Archive (Codec)

structure Extractor where
  name : String
  extensions : List String
  extract : Bytes → Except Error String

namespace Extractor

def supports (extractor : Extractor) (extension : String) : Bool :=
  extractor.extensions.contains (Text.lowercase extension)

def extractFile (extractor : Extractor) (content : Except SystemError Bytes) :
    Except Error String :=
  match content with
  | .error error => .error (.transfer (.system error))
  | .ok bytes => extractor.extract bytes

/-- Plain text, without the byte order mark that it may begin with. -/
def plainText (bs : Bytes) : Except Error String :=
  match Utf8.decode bs with
  | .error fault => .error (.encoding .input fault)
  | .ok text =>
    match text.toList with
    | '\ufeff' :: cs => .ok (String.ofList cs)
    | _ => .ok text

def plain : Extractor where
  name := "text"
  extensions := ["txt", "md", "markdown"]
  extract := plainText

def packageWithin [Codec] (limit : Nat) : Extractor where
  name := "docx"
  extensions := ["docx"]
  extract := fun bs => (Wordprocessing.extract limit bs).value

def package [Codec] : Extractor :=
  packageWithin Wordprocessing.maxPartSize

end Extractor

end Manuscript
