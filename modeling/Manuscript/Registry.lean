import Manuscript.Extractor
import Manuscript.Format
import Manuscript.Path
import Std.Data.TreeMap
/-!
# Registries

A registry finds extractors by extension and by name, without regard to case. Of several that
claim the same extension or name, the one registered last is found.
-/

namespace Manuscript

open Archive (Codec)

/-- Extractors by extension and by name, both in lower case. -/
structure Registry where
  byExtension : Std.TreeMap String Extractor
  byName : Std.TreeMap String Extractor

namespace Registry

def empty : Registry := ⟨∅, ∅⟩

def register (registry : Registry) (extractor : Extractor) : Registry where
  byExtension := extractor.extensions.foldl
    (fun map extension => map.insert (Text.lowercase extension) extractor) registry.byExtension
  byName := registry.byName.insert (Text.lowercase extractor.name) extractor

def reference [Codec] : Registry :=
  (empty.register Extractor.plain).register Extractor.package

def forExtension? (registry : Registry) (extension : String) : Option Extractor :=
  registry.byExtension[Text.lowercase extension]?

def named? (registry : Registry) (name : String) : Option Extractor :=
  registry.byName[Text.lowercase name]?

def supports (registry : Registry) (extension : String) : Bool :=
  registry.byExtension.contains (Text.lowercase extension)

/-- The extensions for which there is an extractor, in increasing order. -/
def extensions (registry : Registry) : List String :=
  registry.byExtension.keys

def require (registry : Registry) (extension : String) : Except Error Extractor :=
  match registry.forExtension? extension with
  | some extractor => .ok extractor
  | none => .error (.unsupportedFormat (Text.lowercase extension))

def extract (registry : Registry) (extension : String) (bs : Bytes) : Except Error String := do
  (← registry.require extension).extract bs

def extractDetected (registry : Registry) (bs : Bytes) : Except Error String := do
  match ← Format.ofBytes bs with
  | .pdf => .error (.unsupportedFormat Format.pdf.extension)
  | format => registry.extract format.extension bs

def extractFile (registry : Registry) (path : String) (content : Except SystemError Bytes) :
    Except Error String :=
  match Path.extension? path with
  | none => .error .noExtension
  | some extension => do (← registry.require extension).extractFile content

end Registry

end Manuscript
