import Manuscript.Base64
import Manuscript.Json.Printer
import Manuscript.Path
import Manuscript.Wordprocessing.Parts
/-!
# Delivery

A package is handed over under a file name, which is given the extension of packages, or in a
JSON envelope with its media type and its bytes in base 64.
-/

namespace Manuscript

structure Delivery where
  fileName : String
  content : Bytes
  deriving DecidableEq, Repr

namespace Delivery

def defaultName : String := "document.docx"

def ofBytes (content : Bytes) : Delivery :=
  ⟨defaultName, content⟩

def isPackageName (name : String) : Bool :=
  match Path.extension? name with
  | some extension => extension.toList.map Char.toLower == ['d', 'o', 'c', 'x']
  | none => false

/-- A file name with the extension of packages, which is added if it is missing. -/
def packageName (name : String) : String :=
  if isPackageName name then name else name ++ ".docx"

def withFileName (delivery : Delivery) (name : String) : Delivery :=
  { delivery with fileName := packageName name }

def base64 (delivery : Delivery) : String :=
  String.ofList (Base64.encode delivery.content)

def envelope (delivery : Delivery) : Json :=
  .object [
    ("success", .bool true),
    ("fileName", .string delivery.fileName),
    ("mimeType", .string Wordprocessing.mediaType),
    ("data", .string delivery.base64)]

def payload (delivery : Delivery) : String :=
  Json.render .compact delivery.envelope

end Delivery

end Manuscript
