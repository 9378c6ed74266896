import Manuscript.Delivery
import Manuscript.FileTree
import Manuscript.Registry
import Manuscript.Synthesis
/-!
# Working on files

The operations of the library on the files of a tree. An operation that fails leaves the tree as
it is.
-/

namespace Manuscript

open Archive (Codec)

variable [Codec]

structure Synthesized where
  synthesizer : Synthesizer
  document : Document

namespace Synthesized

def ofText (style : Style) (text : String) : Except Error Synthesized := do
  let synthesizer ← Synthesizer.ofStyle style
  .ok ⟨synthesizer, synthesizer.document text⟩

def package (synthesized : Synthesized) : Except Error Bytes :=
  synthesized.synthesizer.package synthesized.document

end Synthesized

namespace FileTree

def save (tree : FileTree) (path : String) (content : Bytes) : Except Error FileTree :=
  match tree.write path content with
  | .ok tree => .ok tree
  | .error error => .error (.transfer (.system error))

def saveText (tree : FileTree) (synthesizer : Synthesizer) (path text : String) :
    Except Error FileTree := do
  tree.save path (← synthesizer.convert text)

def extractText (tree : FileTree) (path : String) : Except Error String :=
  Registry.reference.extractFile path (tree.read path)

def formatOf (tree : FileTree) (path : String) : Except Error Format :=
  match tree.read path with
  | .ok content => Format.ofFile content
  | .error error => .error (.transfer (.system error))

def styleOf (tree : FileTree) (path : String) : Except Error Style :=
  Style.ofFile (tree.read path)

def parseFile (tree : FileTree) (style : Style) (path : String) :
    Except Error Synthesized := do
  Synthesized.ofText style (← tree.extractText path)

end FileTree

end Manuscript
