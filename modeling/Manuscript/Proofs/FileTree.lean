import Manuscript.FileTree
import Manuscript.Proofs.Path
import Mathlib.Data.List.Basic

/-!
# Where paths lead, and what changes there

A path is followed through directories only, so where it leads depends on the directories of a tree
and not on its files.  Writing changes the file at one location and no directory.  Making
directories puts them where nothing was.
-/

namespace Manuscript.FileTree

theorem node?_nil (tree : FileTree) : tree.node? [] = some .directory :=
  rfl

theorem lookup_filter_ne {entries : List (Location × FileNode)} {location other : Location}
    (h : other ≠ location) :
    (entries.filter fun entry => entry.1 != location).lookup other = entries.lookup other := by
  induction entries with
  | nil => rfl
  | cons entry entries ih =>
      rcases entry with ⟨key, node⟩
      by_cases hkey : key = location
      · subst hkey
        have hother : (other == key) = false := beq_false_of_ne h
        simpa [List.lookup_cons, hother] using ih
      · simp [hkey, List.lookup_cons, ih]

theorem node?_put {tree : FileTree} {location : Location} (node : FileNode) (h : location ≠ []) :
    (tree.put location node).node? location = some node := by
  simp [node?, put, h]

theorem node?_put_of_ne {tree : FileTree} {location other : Location} (node : FileNode)
    (h : other ≠ location) : (tree.put location node).node? other = tree.node? other := by
  by_cases hnil : other = []
  · rw [hnil, node?_nil, node?_nil]
  · have hother : (other == location) = false := beq_false_of_ne h
    simp [node?, put, hnil, hother, List.lookup_cons, lookup_filter_ne h]

/-- The end of a step from a location, if the step can be taken from a directory there. -/
def advance? (location : Location) (piece : List Char) : Option Location :=
  if Path.isSilent piece then some location
  else if piece = Path.upward then some location.dropLast
  else if maxName < Utf8.size piece then none
  else some (location ++ [piece])

theorem expectDirectory_eq_ok_iff {tree : FileTree} {location : Location} :
    tree.expectDirectory location = .ok () ↔ tree.node? location = some .directory := by
  unfold expectDirectory
  split <;> simp_all

theorem follow_eq_ok_iff {tree : FileTree} {location next : Location} {piece : List Char} :
    tree.follow location piece = .ok next ↔
      tree.node? location = some .directory ∧ advance? location piece = some next := by
  rw [← expectDirectory_eq_ok_iff]
  unfold follow advance?
  cases tree.expectDirectory location with
  | error error => simp [bind, Except.bind]
  | ok =>
      simp only [bind, Except.bind, true_and]
      split
      · simp
      split
      · simp
      split <;> simp

theorem followAll_append (tree : FileTree) (location : Location)
    (pieces more : List (List Char)) :
    tree.followAll location (pieces ++ more) =
      (tree.followAll location pieces).bind fun next => tree.followAll next more := by
  induction pieces generalizing location with
  | nil => rfl
  | cons piece pieces ih =>
      simp only [List.cons_append, followAll, bind, Except.bind]
      cases tree.follow location piece with
      | error error => rfl
      | ok next => exact ih next

structure KeepsDirectories (tree after : FileTree) : Prop where
  here : after.here = tree.here
  kept : ∀ location, tree.node? location = some .directory →
    after.node? location = some .directory

theorem KeepsDirectories.start {tree after : FileTree} (h : tree.KeepsDirectories after)
    (pieces : List (List Char)) : after.start pieces = tree.start pieces := by
  rw [FileTree.start.eq_def, FileTree.start.eq_def, h.here]

theorem KeepsDirectories.follow {tree after : FileTree} (h : tree.KeepsDirectories after)
    {location next : Location} {piece : List Char}
    (hfollow : tree.follow location piece = .ok next) :
    after.follow location piece = .ok next := by
  rw [follow_eq_ok_iff] at hfollow ⊢
  exact ⟨h.kept location hfollow.1, hfollow.2⟩

theorem KeepsDirectories.followAll {tree after : FileTree} (h : tree.KeepsDirectories after)
    {location next : Location} {pieces : List (List Char)}
    (hfollow : tree.followAll location pieces = .ok next) :
    after.followAll location pieces = .ok next := by
  induction pieces generalizing location with
  | nil => exact hfollow
  | cons piece pieces ih =>
      simp only [FileTree.followAll, bind, Except.bind] at hfollow ⊢
      cases hstep : tree.follow location piece with
      | error error =>
          rw [hstep] at hfollow
          cases hfollow
      | ok middle =>
          rw [hstep] at hfollow
          rw [h.follow hstep]
          exact ih hfollow

theorem locate_eq_ok_iff {tree : FileTree} {path : String} {location : Location} :
    tree.locate path = .ok location ↔
      ∃ pieces, piecesOf path = .ok pieces ∧
        tree.followAll (tree.start pieces) pieces = .ok location := by
  unfold locate
  cases piecesOf path <;> simp [bind, Except.bind]

theorem read_eq_ok_iff {tree : FileTree} {path : String} {content : Bytes} :
    tree.read path = .ok content ↔
      ∃ location, tree.locate path = .ok location ∧
        tree.node? location = some (.file content) := by
  unfold read
  cases tree.locate path with
  | error error => simp [bind, Except.bind]
  | ok location =>
      simp only [bind, Except.bind, Except.ok.injEq, exists_eq_left']
      split <;> simp_all

theorem KeepsDirectories.locate {tree after : FileTree} (h : tree.KeepsDirectories after)
    {path : String} {location : Location} (hlocate : tree.locate path = .ok location) :
    after.locate path = .ok location := by
  rw [locate_eq_ok_iff] at hlocate ⊢
  obtain ⟨pieces, hpieces, hfollow⟩ := hlocate
  refine ⟨pieces, hpieces, ?_⟩
  rw [h.start]
  exact h.followAll hfollow

theorem KeepsDirectories.read {tree after : FileTree} (h : tree.KeepsDirectories after)
    {path : String} {content : Bytes} {location : Location}
    (hlocate : tree.locate path = .ok location)
    (hnode : after.node? location = some (.file content)) : after.read path = .ok content :=
  read_eq_ok_iff.mpr ⟨location, h.locate hlocate, hnode⟩

/-- A path leads to a place for a file: its last piece is a name, and the pieces before it lead to
a directory. -/
def Leads (tree : FileTree) (path : String) (location : Location) : Prop :=
  ∃ before directory name, piecesOf path = .ok (before ++ [name]) ∧
    Path.isSilent name = false ∧ name ≠ Path.upward ∧
    tree.followAll (tree.start (before ++ [name])) before = .ok directory ∧
    tree.follow directory name = .ok location

theorem Leads.eq_append {tree : FileTree} {path : String} {location : Location}
    (h : tree.Leads path location) :
    ∃ before directory name, piecesOf path = .ok (before ++ [name]) ∧
      Path.isSilent name = false ∧ name ≠ Path.upward ∧
      tree.followAll (tree.start (before ++ [name])) before = .ok directory ∧
      location = directory ++ [name] := by
  obtain ⟨before, directory, name, hpieces, hsilent, hup, hbefore, hname⟩ := h
  refine ⟨before, directory, name, hpieces, hsilent, hup, hbefore, ?_⟩
  obtain ⟨-, hadvance⟩ := follow_eq_ok_iff.mp hname
  simp only [advance?, hsilent, hup, Bool.false_eq_true, if_false] at hadvance
  split at hadvance
  · cases hadvance
  · exact (Option.some.inj hadvance).symm

theorem Leads.ne_nil {tree : FileTree} {path : String} {location : Location}
    (h : tree.Leads path location) : location ≠ [] := by
  obtain ⟨-, directory, name, -, -, -, -, hlocation⟩ := h.eq_append
  rw [hlocation]
  exact List.concat_ne_nil name directory

theorem Leads.locate {tree : FileTree} {path : String} {location : Location}
    (h : tree.Leads path location) : tree.locate path = .ok location := by
  obtain ⟨before, directory, name, hpieces, -, -, hbefore, hname⟩ := h
  refine locate_eq_ok_iff.mpr ⟨before ++ [name], hpieces, ?_⟩
  rw [followAll_append, hbefore]
  simp only [Except.bind, followAll, bind, hname]

theorem KeepsDirectories.leads {tree after : FileTree} (h : tree.KeepsDirectories after)
    {path : String} {location : Location} (hleads : tree.Leads path location) :
    after.Leads path location := by
  obtain ⟨before, directory, name, hpieces, hsilent, hup, hbefore, hname⟩ := hleads
  refine ⟨before, directory, name, hpieces, hsilent, hup, ?_, h.follow hname⟩
  rw [h.start]
  exact h.followAll hbefore

theorem approach_of_leads {tree : FileTree} {before : List (List Char)} {path : String}
    {directory location : Location} {name : List Char}
    (hpieces : piecesOf path = .ok (before ++ [name])) (hsilent : Path.isSilent name = false)
    (hup : name ≠ Path.upward)
    (hbefore : tree.followAll (tree.start (before ++ [name])) before = .ok directory)
    (hname : tree.follow directory name = .ok location) :
    tree.approach path = .ok ⟨directory, some name, false⟩ := by
  have hne : name ≠ [] := by
    rintro rfl
    simp [Path.isSilent] at hsilent
  have hdirectory := expectDirectory_eq_ok_iff.mpr (follow_eq_ok_iff.mp hname).1
  simp [approach, hpieces, bind, Except.bind, hne, hbefore, hdirectory, hsilent, hup,
    Option.filter]

theorem leads_of_approach {tree : FileTree} {path : String} {directory location : Location}
    {name : List Char} (happroach : tree.approach path = .ok ⟨directory, some name, false⟩)
    (hname : tree.follow directory name = .ok location) : tree.Leads path location := by
  unfold approach at happroach
  cases hpieces : piecesOf path with
  | error error => simp [hpieces, bind, Except.bind] at happroach
  | ok pieces =>
      simp only [hpieces, bind, Except.bind] at happroach
      generalize hvisible : (pieces.reverse.dropWhile (· == [])).reverse = visible at happroach
      cases hbefore : tree.followAll (tree.start pieces) visible.dropLast with
      | error error => simp [hbefore] at happroach
      | ok reached =>
          simp only [hbefore] at happroach
          cases hdirectory : tree.expectDirectory reached with
          | error error => simp [hdirectory] at happroach
          | ok =>
              simp only [hdirectory, Except.ok.injEq, LastStep.mk.injEq, decide_eq_false_iff_not,
                Nat.not_lt, Option.filter_eq_some_iff, Bool.and_eq_true, Bool.not_eq_true',
                bne_iff_ne] at happroach
              obtain ⟨rfl, ⟨hlast, hsilent, hup⟩, hlength⟩ := happroach
              -- no slash follows, so no piece has been dropped
              have hpre : visible <+: pieces := by
                rw [← hvisible]
                simpa using List.reverse_prefix.mpr
                  (List.dropWhile_suffix (l := pieces.reverse) (· == []))
              have heq := hpre.eq_of_length_le hlength
              have hsplit := List.dropLast_append_getLast? name hlast
              rw [heq] at hsplit hbefore
              refine ⟨pieces.dropLast, reached, name, by rw [hsplit, hpieces], hsilent, hup, ?_,
                hname⟩
              rw [hsplit]
              exact hbefore

theorem write_eq_ok_iff {tree after : FileTree} {path : String} {content : Bytes} :
    tree.write path content = .ok after ↔
      ∃ location, tree.Leads path location ∧ tree.node? location ≠ some .directory ∧
        after = tree.put location (.file content) := by
  constructor
  · intro h
    unfold write at h
    cases happroach : tree.approach path with
    | error error => simp [happroach, bind, Except.bind] at h
    | ok last =>
        rcases last with ⟨directory, _ | name, _ | _⟩ <;>
          simp only [happroach, bind, Except.bind, reduceCtorEq] at h
        cases hname : tree.follow directory name with
        | error error => simp [hname] at h
        | ok location =>
            simp only [hname] at h
            refine ⟨location, leads_of_approach happroach hname, ?_⟩
            split at h <;> simp_all
  · rintro ⟨location, hleads, hnode, rfl⟩
    obtain ⟨before, directory, name, hpieces, hsilent, hup, hbefore, hname⟩ := hleads
    have happroach := approach_of_leads hpieces hsilent hup hbefore hname
    simp only [write, happroach, bind, Except.bind, hname]
    split <;> simp_all

def HasRoom (tree : FileTree) (path : String) : Prop :=
  ∃ location, tree.Leads path location ∧ tree.node? location ≠ some .directory

theorem exists_write_iff {tree : FileTree} {path : String} {content : Bytes} :
    (∃ after, tree.write path content = .ok after) ↔ tree.HasRoom path := by
  constructor
  · rintro ⟨after, hwrite⟩
    obtain ⟨location, hleads, hnode, -⟩ := write_eq_ok_iff.mp hwrite
    exact ⟨location, hleads, hnode⟩
  · rintro ⟨location, hleads, hnode⟩
    exact ⟨_, write_eq_ok_iff.mpr ⟨location, hleads, hnode, rfl⟩⟩

/-! ## The names of a location -/

theorem piecesOf_eq_ok {path : String} {pieces : List (List Char)}
    (h : piecesOf path = .ok pieces) : pieces = Path.split path.toList := by
  unfold piecesOf at h
  split at h
  · cases h
  split at h
  · cases h
  split at h
  · cases h
  · exact (Except.ok.inj h).symm

theorem followAll_of_down {tree : FileTree} {location next : Location} {pieces : List (List Char)}
    (hdown : Path.upward ∉ pieces) (h : tree.followAll location pieces = .ok next) :
    next = location ++ pieces.filter (!Path.isSilent ·) := by
  induction pieces generalizing location with
  | nil =>
      rw [followAll, Except.ok.injEq] at h
      simp [h]
  | cons piece pieces ih =>
      rw [List.mem_cons, not_or] at hdown
      simp only [followAll, bind, Except.bind] at h
      cases hstep : tree.follow location piece with
      | error error =>
          rw [hstep] at h
          cases h
      | ok middle =>
          rw [hstep] at h
          rw [ih hdown.2 h]
          obtain ⟨-, hadvance⟩ := follow_eq_ok_iff.mp hstep
          unfold advance? at hadvance
          split at hadvance
          · rename_i hsilent
            cases hadvance
            simp [hsilent]
          · rename_i hsilent
            rw [if_neg (Ne.symm hdown.1)] at hadvance
            split at hadvance
            · cases hadvance
            · cases hadvance
              simp [hsilent]

theorem getLast?_of_locate {tree : FileTree} {path name : String} {location : Location}
    (h : tree.locate path = .ok location) (hname : Path.fileName? path = some name) :
    location.getLast? = some name.toList := by
  obtain ⟨⟨before, last⟩, hsplit, rfl⟩ := Option.map_eq_some_iff.mp hname
  obtain ⟨hlast, silent, hpath, hsilent⟩ := Path.splitName?_eq_some_iff.mp hsplit
  obtain ⟨pieces, hpieces, hfollow⟩ := locate_eq_ok_iff.mp h
  rw [piecesOf_eq_ok hpieces, hpath, followAll_append] at hfollow
  cases hbefore : tree.followAll (tree.start (before ++ last :: silent)) before with
  | error error => simp [hbefore, Except.bind] at hfollow
  | ok directory =>
      have hdown : Path.upward ∉ last :: silent := by
        rw [List.mem_cons, not_or]
        exact ⟨Ne.symm hlast.down, fun hmem => absurd (hsilent _ hmem) (by decide)⟩
      have hnone : silent.filter (!Path.isSilent ·) = [] := by simpa using hsilent
      simp only [hbefore, Except.bind] at hfollow
      simp [followAll_of_down hdown hfollow, hlast.counts, hnone]

theorem Leads.fileName? {tree : FileTree} {path : String} {location : Location}
    (h : tree.Leads path location) :
    ∃ name, Path.fileName? path = some name ∧ location.getLast? = some name.toList := by
  obtain ⟨before, directory, name, hpieces, hcounts, hdown, -, hlocation⟩ := h.eq_append
  have hsplit := piecesOf_eq_ok hpieces
  have hmem : name ∈ Path.split path.toList := by simp [← hsplit]
  have hwhole := Path.not_mem_of_mem_split hmem
  have hname : Path.splitName? path = some (before, name) :=
    Path.splitName?_eq_some_iff.mpr ⟨⟨hwhole, hcounts, hdown⟩, [], hsplit.symm, by simp⟩
  refine ⟨String.ofList name, Path.fileName?_of_splitName? hname, ?_⟩
  simp [hlocation]

theorem piecesOf_ne_empty {path : String} {pieces : List (List Char)}
    (h : piecesOf path = .ok pieces) : path ≠ "" := by
  rintro rfl
  simp [piecesOf] at h

theorem start_split {path : String} (h : path ≠ "") (tree : FileTree) :
    tree.start (Path.split path.toList) = if Path.isRooted path then [] else tree.here := by
  obtain ⟨first, rest, hpieces⟩ := List.exists_cons_of_ne_nil (Path.split_ne_nil path.toList)
  obtain ⟨hroot, -⟩ := Path.head?_counted (first :: rest)
  rw [Path.isRooted, Path.components_eq_mark h, hpieces]
  cases first with
  | nil => simp [start, Path.mark]
  | cons c cs =>
      rw [start.eq_def]
      by_cases hdot : c :: cs = ['.']
      · simp [Path.mark, hdot]
      · simp [Path.mark, hdot, hroot]

theorem Leads.exists_names {tree : FileTree} {path : String} {location : Location}
    (h : tree.Leads path location) (hdown : .up ∉ Path.components path) :
    ∃ names, location = (if Path.isRooted path then [] else tree.here) ++ names ∧
      names.map Path.Component.name = Path.steps path := by
  obtain ⟨pieces, hpieces, hfollow⟩ := locate_eq_ok_iff.mp h.locate
  have hempty := piecesOf_ne_empty hpieces
  have hsplit := piecesOf_eq_ok hpieces
  have hup : Path.upward ∉ pieces := by
    intro hmem
    apply hdown
    rw [Path.components_eq_mark hempty, ← hsplit, List.mem_append]
    refine .inr (List.mem_map.mpr ⟨Path.upward, ?_, if_pos rfl⟩)
    exact List.mem_filter.mpr ⟨hmem, by decide⟩
  refine ⟨pieces.filter (!Path.isSilent ·), ?_, ?_⟩
  · rw [← start_split hempty, ← hsplit]
    exact followAll_of_down hup hfollow
  · rw [Path.steps_eq_counted hempty, ← hsplit, Path.counted]
    apply List.map_congr_left
    intro piece hpiece
    have hne : piece ≠ Path.upward := by
      rintro rfl
      exact hup (List.mem_filter.mp hpiece).1
    rw [if_neg hne]

/-- Paths that lead to one location take the same steps, if both or none start at the root and
neither leads upward. -/
theorem Leads.steps_eq {tree : FileTree} {path other : String} {location : Location}
    (h : tree.Leads path location) (h' : tree.Leads other location)
    (hdown : .up ∉ Path.components path) (hdown' : .up ∉ Path.components other)
    (hroot : Path.isRooted path = Path.isRooted other) : Path.steps path = Path.steps other := by
  obtain ⟨names, hlocation, hnames⟩ := h.exists_names hdown
  obtain ⟨names', hlocation', hnames'⟩ := h'.exists_names hdown'
  rw [hlocation, hroot] at hlocation'
  rw [← hnames, ← hnames', List.append_cancel_left hlocation']

/-- From a working directory, three paths with one name lead to three files. -/
example :
    let tree : FileTree := ⟨[(["w".toList], .directory), (["w".toList, "v".toList], .directory)],
      ["w".toList, "v".toList]⟩
    ["a", "../a", "/a"].map (fun path => (tree.locate path).toOption) =
      [some ["w".toList, "v".toList, "a".toList], some ["w".toList, "a".toList],
        some ["a".toList]] := by
  decide +kernel

structure SameDirectories (tree after : FileTree) : Prop where
  here : after.here = tree.here
  directories : ∀ location,
    tree.node? location = some .directory ↔ after.node? location = some .directory

namespace SameDirectories

variable {tree middle after : FileTree}

theorem refl (tree : FileTree) : tree.SameDirectories tree :=
  ⟨rfl, fun _ => .rfl⟩

theorem trans (h : tree.SameDirectories middle) (h' : middle.SameDirectories after) :
    tree.SameDirectories after :=
  ⟨h'.here.trans h.here, fun location => (h.directories location).trans (h'.directories location)⟩

theorem keeps (h : tree.SameDirectories after) : tree.KeepsDirectories after :=
  ⟨h.here, fun location => (h.directories location).mp⟩

theorem keeps_back (h : tree.SameDirectories after) : after.KeepsDirectories tree :=
  ⟨h.here.symm, fun location => (h.directories location).mpr⟩

theorem leads_iff (h : tree.SameDirectories after) {path : String} {location : Location} :
    tree.Leads path location ↔ after.Leads path location :=
  ⟨h.keeps.leads, h.keeps_back.leads⟩

theorem put_file {location : Location} (h : tree.node? location ≠ some .directory)
    (content : Bytes) : tree.SameDirectories (tree.put location (.file content)) := by
  refine ⟨rfl, fun other => ?_⟩
  by_cases hother : other = location
  · subst hother
    have hnil : other ≠ [] := by
      rintro rfl
      exact h tree.node?_nil
    simp [h, node?_put _ hnil]
  · rw [node?_put_of_ne _ hother]

end SameDirectories

theorem read_of_write {tree after : FileTree} {path : String} {content : Bytes}
    (h : tree.write path content = .ok after) : after.read path = .ok content := by
  obtain ⟨location, hleads, hnode, rfl⟩ := write_eq_ok_iff.mp h
  have hsame := SameDirectories.put_file hnode content
  exact hsame.keeps.read hleads.locate (node?_put _ hleads.ne_nil)

/-! ## Making directories -/

structure Grows (tree after : FileTree) : Prop where
  here : after.here = tree.here
  nodes : ∀ location, after.node? location = tree.node? location ∨
    tree.node? location = none ∧ after.node? location = some .directory

namespace Grows

variable {tree middle after : FileTree}

theorem refl (tree : FileTree) : tree.Grows tree :=
  ⟨rfl, fun _ => .inl rfl⟩

theorem trans (h : tree.Grows middle) (h' : middle.Grows after) : tree.Grows after := by
  refine ⟨h'.here.trans h.here, fun location => ?_⟩
  rcases h.nodes location with hsame | ⟨hnone, hdirectory⟩
  · rw [← hsame]
    exact h'.nodes location
  · rcases h'.nodes location with hsame' | ⟨hnone', -⟩
    · exact .inr ⟨hnone, by rw [hsame', hdirectory]⟩
    · rw [hdirectory] at hnone'
      cases hnone'

theorem node?_of_some (h : tree.Grows after) {location : Location} {node : FileNode}
    (hnode : tree.node? location = some node) : after.node? location = some node := by
  rcases h.nodes location with hsame | ⟨hnone, -⟩
  · rw [hsame, hnode]
  · rw [hnone] at hnode
    cases hnode

theorem keeps (h : tree.Grows after) : tree.KeepsDirectories after :=
  ⟨h.here, fun _ => h.node?_of_some⟩

theorem read (h : tree.Grows after) {path : String} {content : Bytes}
    (hread : tree.read path = .ok content) : after.read path = .ok content := by
  obtain ⟨location, hlocate, hnode⟩ := read_eq_ok_iff.mp hread
  exact h.keeps.read hlocate (h.node?_of_some hnode)

theorem put_directory {location : Location} (h : tree.node? location = none) :
    tree.Grows (tree.put location .directory) := by
  refine ⟨rfl, fun other => ?_⟩
  by_cases hother : other = location
  · subst hother
    have hnil : other ≠ [] := by
      rintro rfl
      cases h
    exact .inr ⟨h, node?_put _ hnil⟩
  · exact .inl (node?_put_of_ne _ hother)

end Grows

theorem grows_makeDirectory {tree after : FileTree} {path : String}
    (h : tree.makeDirectory path = .ok after) : tree.Grows after := by
  unfold makeDirectory at h
  cases happroach : tree.approach path with
  | error error => simp [happroach, bind, Except.bind] at h
  | ok last =>
      rcases last with ⟨directory, _ | name, slashed⟩ <;>
        simp only [happroach, bind, Except.bind, reduceCtorEq] at h
      cases hname : tree.follow directory name with
      | error error => simp [hname] at h
      | ok location =>
          simp only [hname] at h
          split at h
          · cases h
          · rename_i hnone
            cases h
            exact .put_directory hnone

theorem grows_makeDirectories (tree : FileTree) (path : String) :
    tree.Grows (tree.makeDirectories path).1 := by
  fun_induction makeDirectories tree path with
  | case1 => exact .refl _
  | case2 _ _ _ hmade => exact grows_makeDirectory hmade
  | case3 => exact .refl _
  | case4 _ _ _ _ _ _ _ hparents ih =>
      rw [hparents] at ih
      exact ih
  | case5 _ _ _ _ _ _ hparents _ hmade ih =>
      rw [hparents] at ih
      exact ih.trans (grows_makeDirectory hmade)
  | case6 _ _ _ _ _ _ hparents _ _ ih =>
      rw [hparents] at ih
      exact ih
  | case7 => exact .refl _

end Manuscript.FileTree
