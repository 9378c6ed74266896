import Manuscript.Path
import Manuscript.SystemError
import Manuscript.Text.Utf8
/-!
# File trees

Files and directories, and the directory among them that paths start from. Paths are followed piece
by piece, so every directory that a path mentions must exist. What fails, fails before a file is
opened: a medium that runs full in the middle of a file is left out.
-/

namespace Manuscript

inductive FileNode where
  | file (content : Bytes)
  | directory
  deriving DecidableEq, Repr

abbrev Location := List (List Char)

structure FileTree where
  nodes : List (Location × FileNode)
  here : Location
  deriving Repr

namespace FileTree

/-- Nothing but the root, which is the working directory too. -/
def empty : FileTree := ⟨[], []⟩

def node? (tree : FileTree) (location : Location) : Option FileNode :=
  if location = [] then some .directory else tree.nodes.lookup location

def put (tree : FileTree) (location : Location) (node : FileNode) : FileTree :=
  { tree with nodes := (location, node) :: tree.nodes.filter fun entry => entry.1 != location }

def erase (tree : FileTree) (location : Location) : FileTree :=
  { tree with nodes := tree.nodes.filter fun entry => entry.1 != location }

def maxName : Nat := 255

def maxPath : Nat := 4096

def expectDirectory (tree : FileTree) (location : Location) : Except SystemError Unit :=
  match tree.node? location with
  | some .directory => .ok ()
  | some (.file _) => .error .notDirectory
  | none => .error .notFound

def follow (tree : FileTree) (location : Location) (piece : List Char) :
    Except SystemError Location := do
  tree.expectDirectory location
  if Path.isSilent piece then .ok location
  else if piece = Path.upward then .ok location.dropLast
  else if maxName < Utf8.size piece then .error .nameTooLong
  else .ok (location ++ [piece])

def followAll (tree : FileTree) : Location → List (List Char) → Except SystemError Location
  | location, [] => .ok location
  | location, piece :: pieces => do followAll tree (← tree.follow location piece) pieces

def piecesOf (path : String) : Except SystemError (List (List Char)) :=
  if path.toList.contains '\x00' then .error .nulInPath
  else if path.isEmpty then .error .notFound
  else if maxPath ≤ Utf8.size path.toList then .error .nameTooLong
  else .ok (Path.split path.toList)

def start (tree : FileTree) : List (List Char) → Location
  | [] :: _ => []
  | _ => tree.here

/-- The location that a path leads to. Something need not be there, but it must be a directory
if the path ends in a slash or a dot. -/
def locate (tree : FileTree) (path : String) : Except SystemError Location := do
  let pieces ← piecesOf path
  tree.followAll (tree.start pieces) pieces

structure LastStep where
  directory : Location
  name? : Option (List Char)
  slashed : Bool

def approach (tree : FileTree) (path : String) : Except SystemError LastStep := do
  let pieces ← piecesOf path
  let visible := (pieces.reverse.dropWhile (· == [])).reverse
  let directory ← tree.followAll (tree.start pieces) visible.dropLast
  tree.expectDirectory directory
  let name? := visible.getLast?.filter fun piece => !Path.isSilent piece && piece != Path.upward
  .ok ⟨directory, name?, visible.length < pieces.length⟩

def read (tree : FileTree) (path : String) : Except SystemError Bytes := do
  match tree.node? (← tree.locate path) with
  | some (.file content) => .ok content
  | some .directory => .error .isDirectory
  | none => .error .notFound

def write (tree : FileTree) (path : String) (content : Bytes) :
    Except SystemError FileTree := do
  let last ← tree.approach path
  match last.slashed, last.name? with
  | true, _ | false, none => .error .isDirectory
  | false, some name => do
    let location ← tree.follow last.directory name
    match tree.node? location with
    | some .directory => .error .isDirectory
    | some (.file _) | none => .ok (tree.put location (.file content))

def remove (tree : FileTree) (path : String) : Except SystemError FileTree := do
  let location ← tree.locate path
  match tree.node? location with
  | some (.file _) => .ok (tree.erase location)
  | some .directory => .error .isDirectory
  | none => .error .notFound

def isDirectory (tree : FileTree) (path : String) : Bool :=
  match tree.locate path with
  | .ok location => tree.node? location == some .directory
  | .error _ => false

def makeDirectory (tree : FileTree) (path : String) : Except SystemError FileTree := do
  let last ← tree.approach path
  match last.name? with
  | none => .error .alreadyExists
  | some name => do
    let location ← tree.follow last.directory name
    match tree.node? location with
    | some _ => .error .alreadyExists
    | none => .ok (tree.put location .directory)

/-- Makes a directory and those that enclose it, as far as they are missing. What has been made
stays, even if the rest fails. -/
def makeDirectories (tree : FileTree) (path : String) : FileTree × Except SystemError Unit :=
  if path.isEmpty then (tree, .ok ())
  else
    match tree.makeDirectory path with
    | .ok made => (made, .ok ())
    | .error .notFound =>
      match _h : Path.parent? path with
      | none => (tree, .error .notFound)
      | some parent =>
        match makeDirectories tree parent with
        | (tree, .error error) => (tree, .error error)
        | (tree, .ok ()) =>
          match tree.makeDirectory path with
          | .ok made => (made, .ok ())
          | .error error => (tree, if tree.isDirectory path then .ok () else .error error)
    | .error error => (tree, if tree.isDirectory path then .ok () else .error error)
termination_by path.length
decreasing_by exact Path.length_parent? _h

end FileTree

end Manuscript
