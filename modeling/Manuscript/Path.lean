/-!
# Paths

A path is a text of pieces between slashes. Empty pieces do not count, nor does a dot, except at
the start. Functions on paths keep the text before what they change as it is.
-/

namespace Manuscript.Path

def split : List Char → List (List Char)
  | [] => [[]]
  | c :: cs =>
    if c = '/' then [] :: split cs
    else
      match split cs with
      | [] => [[c]]
      | piece :: pieces => (c :: piece) :: pieces

theorem split_ne_nil (cs : List Char) : split cs ≠ [] := by
  cases cs with
  | nil => simp [split]
  | cons c cs =>
    unfold split
    split
    · simp
    · split <;> simp

def unsplit : List (List Char) → List Char
  | [] => []
  | [piece] => piece
  | piece :: next :: pieces => piece ++ '/' :: unsplit (next :: pieces)

theorem unsplit_split (cs : List Char) : unsplit (split cs) = cs := by
  induction cs with
  | nil => rfl
  | cons c cs ih =>
    unfold split
    split
    · next hc =>
      rw [hc]
      cases h : split cs with
      | nil => exact absurd h (split_ne_nil cs)
      | cons piece pieces =>
        rw [h] at ih
        exact congrArg _ ih
    · split
      · next h => exact absurd h (split_ne_nil cs)
      · next piece pieces h =>
        rw [h] at ih
        rw [← ih]
        cases pieces with
        | nil => rfl
        | cons => rfl

def extent : List (List Char) → Nat
  | [] => 0
  | piece :: pieces => piece.length + 1 + extent pieces

theorem extent_append (pieces pieces' : List (List Char)) :
    extent (pieces ++ pieces') = extent pieces + extent pieces' := by
  induction pieces with
  | nil => simp [extent]
  | cons piece pieces ih => simp only [List.cons_append, extent, ih, Nat.add_assoc]

theorem length_unsplit (first : List Char) (pieces : List (List Char)) :
    (unsplit (first :: pieces)).length = first.length + extent pieces := by
  induction pieces generalizing first with
  | nil => rfl
  | cons next pieces ih =>
    simp only [unsplit, List.length_append, List.length_cons, ih, extent]
    omega

/-- A piece that does not count: nothing, or a dot. -/
def isSilent (piece : List Char) : Bool :=
  piece == [] || piece == ['.']

def upward : List Char := ['.', '.']

inductive Component where
  | root
  | here
  | up
  | name (name : List Char)
  deriving DecidableEq, Repr

def components (path : String) : List Component :=
  let pieces := split path.toList
  let head :=
    match pieces with
    | [] :: _ :: _ => [.root]
    | ['.'] :: _ => [.here]
    | _ => []
  head ++ (pieces.filter (!isSilent ·)).map fun piece =>
    if piece = upward then .up else .name piece

def same (a b : String) : Bool :=
  components a == components b

/-- The pieces before the last one that counts, and that one, if it is a name. -/
def splitName? (path : String) : Option (List (List Char) × List Char) :=
  match (split path.toList).reverse.dropWhile isSilent with
  | [] => none
  | piece :: before => if piece = upward then none else some (before.reverse, piece)

def fileName? (path : String) : Option String :=
  (splitName? path).map fun (_, name) => String.ofList name

/-- A file name before and after its last dot. A dot at the start does not count. -/
def splitExtension (name : List Char) : List Char × Option (List Char) :=
  let after := (name.reverse.takeWhile (· != '.')).reverse
  match (name.reverse.dropWhile (· != '.')).drop 1 with
  | [] => (name, none)
  | c :: before => ((c :: before).reverse, some after)

def extension? (path : String) : Option String := do
  let (_, name) ← splitName? path
  let extension ← (splitExtension name).2
  some (String.ofList extension)

def stem? (path : String) : Option String :=
  (splitName? path).map fun (_, name) => String.ofList (splitExtension name).1

def join (directory name : String) : String :=
  if directory.isEmpty || directory.toList.getLast? == some '/' then directory ++ name
  else directory ++ "/" ++ name

/-- Whether a path ends in a name whose stem is a dot. -/
def hasDotStem (path : String) : Bool :=
  match (split path.toList).getLast? with
  | some ('.' :: '.' :: extension) => !extension.isEmpty && !extension.contains '.'
  | _ => false

/-- The path with another extension in place of its own, or behind the name if it has none. The old
one is cut off at the end of the path first; what that leaves of a dot and an extension leads upward
and can have no other. A path without a file name stays as it is. -/
def withExtension (path extension : String) : String :=
  match splitName? path with
  | none => path
  | some (before, name) =>
    let changed :=
      if hasDotStem path then upward else (splitExtension name).1 ++ '.' :: extension.toList
    String.ofList (unsplit (before ++ [changed]))

def directoryOf : List (List Char) → List Char
  | [] => []
  | first :: pieces =>
    match (pieces.reverse.dropWhile isSilent).reverse with
    | [] => if first = [] then ['/'] else first
    | piece :: pieces => unsplit (first :: piece :: pieces)

theorem length_directoryOf (first : List Char) (pieces : List (List Char)) :
    (directoryOf (first :: pieces)).length ≤ first.length + extent pieces + 1 := by
  obtain ⟨silent, hs⟩ := List.dropWhile_suffix (l := pieces.reverse) isSilent
  have hp : pieces = (pieces.reverse.dropWhile isSilent).reverse ++ silent.reverse := by
    rw [← List.reverse_append, hs, List.reverse_reverse]
  have he := congrArg extent hp
  rw [extent_append] at he
  change (match (pieces.reverse.dropWhile isSilent).reverse with
    | [] => if first = [] then ['/'] else first
    | piece :: pieces => unsplit (first :: piece :: pieces)).length ≤ _
  split
  · split
    · simp only [List.length_cons, List.length_nil]
      omega
    · omega
  · next h =>
    rw [h] at he
    rw [length_unsplit]
    omega

/-- The path with another file name. It is put behind a path without a file name. -/
def withFileName (path name : String) : String :=
  match splitName? path with
  | none => join path name
  | some (before, _) => join (String.ofList (directoryOf before)) name

def parent? (path : String) : Option String :=
  match split path.toList with
  | [] => none
  | first :: pieces =>
    match pieces.reverse.dropWhile isSilent with
    | _ :: before => some (String.ofList (directoryOf (first :: before.reverse)))
    | [] => if first = [] then none else some ""

theorem length_parent? {path parent : String} (h : parent? path = some parent) :
    parent.length < path.length := by
  have hu := congrArg List.length (unsplit_split path.toList)
  unfold parent? at h
  split at h
  · cases h
  next first pieces hp =>
  rw [hp, length_unsplit, String.length_toList] at hu
  split at h
  · next x before hd =>
    cases h
    obtain ⟨silent, hs⟩ := List.dropWhile_suffix (l := pieces.reverse) isSilent
    have hx : isSilent x = false := by
      have := List.head_dropWhile_not isSilent (l := pieces.reverse) (by rw [hd]; simp)
      simpa [hd] using this
    have hl : 0 < x.length := by
      cases x with
      | nil => simp [isSilent] at hx
      | cons => simp
    have he : pieces = before.reverse ++ x :: silent.reverse := by
      have := congrArg List.reverse hs
      rw [hd, List.reverse_reverse] at this
      simp [← this]
    have hn := congrArg extent he
    rw [extent_append] at hn
    have hd := length_directoryOf first before.reverse
    simp only [extent] at hn hd hu
    rw [String.length_ofList]
    omega
  · split at h
    · cases h
    · next hf =>
      cases h
      have := List.length_pos_iff.2 hf
      have : "".length = 0 := rfl
      omega

end Manuscript.Path
