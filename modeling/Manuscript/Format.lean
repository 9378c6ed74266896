import Manuscript.Error
/-!
# Source formats

What kind of source a byte string is, told from its first bytes: a word-processing package, a
PDF file, or plain text without NUL. The beginning of a file is enough to tell; a character that
is cut off at the end of it does not count against text.
-/

namespace Manuscript

inductive Format where
  | package
  | pdf
  | plainText
  deriving DecidableEq, Repr

namespace Format

def extension : Format → String
  | package => "docx"
  | pdf => "pdf"
  | plainText => "txt"

def name : Format → String
  | package => "DOCX"
  | pdf => "PDF"
  | plainText => "plain text"

def packageMark : Bytes := Archive.localMark

def pdfMark : Bytes := [0x25, 0x50, 0x44, 0x46, 0x2D]

def headLength : Nat := 4096

def isPackage (bs : Bytes) : Bool :=
  packageMark.isPrefixOf bs

/-- Whether a byte string is text without NUL. In a head the last character may be cut off. -/
def isText (head : Bool) (bs : Bytes) : Bool :=
  match Utf8.decodeFrom 0 bs with
  | .ok cs => !cs.contains '\x00'
  | .error ⟨validUpTo, none⟩ => head && !(bs.take validUpTo).contains 0
  | .error _ => false

def ofBytesOrHead (head : Bool) (bs : Bytes) : Except Error Format :=
  if bs.isEmpty then .error .unknownFormat
  else if isPackage bs then .ok package
  else if pdfMark.isPrefixOf bs then .ok pdf
  else if isText head bs then .ok plainText
  else .error .unknownFormat

def ofBytes (bs : Bytes) : Except Error Format :=
  ofBytesOrHead false bs

def ofFile (content : Bytes) : Except Error Format :=
  ofBytesOrHead true (content.take headLength)

end Format

end Manuscript
