import Manuscript.CommandLine.Plan
import Manuscript.Proofs.Delivery.FileName
import Manuscript.Proofs.Path.Parent

/-!
# The default output lies beside the input

The default output is never its input: it has the name of a package, and that is another name than
the input's.  It lies in the directory of the input, or in the input itself if that has no file
name.  Only where the stem of the input is a dot, nothing is left of its name, and the output is the
directory of the input.
-/

namespace Manuscript.CommandLine

open Manuscript.Path (components fileName? parent?)
open Delivery (toList_dot_docx isName_append_docx)

theorem same_iff {path other : String} :
    Path.same path other = true ↔ components path = components other := by
  simp [Path.same]

/-- A package's name that is not the name of the input. -/
structure IsTargetName (input : String) (name : List Char) : Prop where
  isName : Path.IsName name
  extension : (Path.splitExtension name).2 = some "docx".toList
  ne_input : Path.fileName? input ≠ some (String.ofList name)

theorem IsTargetName.of_stem {input : String} {stem : List Char} (hstem : stem ≠ [])
    (hwhole : '/' ∉ stem)
    (hinput : Path.fileName? input ≠ some (String.ofList (stem ++ ".docx".toList))) :
    IsTargetName input (stem ++ ".docx".toList) where
  isName := isName_append_docx hwhole
  extension := by rw [toList_dot_docx, Path.splitExtension_append hstem (by decide)]
  ne_input := hinput

theorem stem_of_splitName? {input : String} {before : List (List Char)} {name : List Char}
    (h : Path.splitName? input = some (before, name)) :
    Path.stem? input = some (String.ofList (Path.splitExtension name).1) ∧
      (Path.splitExtension name).1 ≠ [] ∧ '/' ∉ (Path.splitExtension name).1 := by
  obtain ⟨hname, -⟩ := Path.splitName?_eq_some_iff.mp h
  obtain ⟨hstart, hne⟩ := Path.stem_prefix hname.ne_nil
  refine ⟨by rw [Path.stem?, h, Option.map_some], hne, ?_⟩
  intro hmem
  exact hname.whole (hstart.subset hmem)

theorem components_candidate {input : String} {before : List (List Char)} {name : List Char}
    (h : Path.splitName? input = some (before, name)) (hstem : Path.hasDotStem input = false) :
    components (Path.withExtension input "docx") =
      Path.mark before ++ Path.counted before ++
        [.name ((Path.splitExtension name).1 ++ ".docx".toList)] := by
  obtain ⟨-, -, hwhole⟩ := stem_of_splitName? h
  have hname := isName_append_docx hwhole
  rw [toList_dot_docx] at hname ⊢
  exact Path.components_withExtension h hstem hname

theorem same_candidate_of_hasDotStem {input : String} (h : Path.hasDotStem input = true) :
    Path.same (Path.withExtension input "docx") input = false := by
  obtain ⟨before, name, hname, hsplit⟩ := Path.split_withExtension_of_hasDotStem h "docx"
  rw [Path.same, beq_eq_false_iff_ne, Path.components_of_upward hsplit,
    Path.components_of_splitName? hname]
  simp

theorem isTargetName_second {input : String}
    (h : Path.same (Path.withExtension input "docx") input = true) :
    IsTargetName input
      (((Path.stem? input).getD "").toList ++ "_mdocx".toList ++ ".docx".toList) := by
  cases hsplit : Path.splitName? input with
  | none =>
      have hstem : Path.stem? input = none := by simp [Path.stem?, hsplit]
      rw [hstem]
      apply IsTargetName.of_stem (by decide) (by decide)
      simp [Path.fileName?, hsplit]
  | some parts =>
      rcases parts with ⟨before, name⟩
      obtain ⟨hstem, -, hwhole⟩ := stem_of_splitName? hsplit
      have hdot : Path.hasDotStem input = false := by
        by_contra hdot
        rw [same_candidate_of_hasDotStem (eq_true_of_ne_false hdot)] at h
        cases h
      have hlast : (Path.splitExtension name).1 ++ ".docx".toList = name := by
        have hsame := same_iff.mp h
        rw [components_candidate hsplit hdot, Path.components_of_splitName? hsplit] at hsame
        simpa using hsame
      rw [hstem, Option.getD_some, String.toList_ofList]
      apply IsTargetName.of_stem (by simp)
      · rw [List.mem_append, not_or]
        exact ⟨hwhole, by decide⟩
      · have hmore : "_mdocx".toList.length = 6 := by decide
        intro hinput
        rw [Path.fileName?_of_splitName? hsplit, Option.some_inj, String.ofList_inj] at hinput
        have hlengths := congrArg List.length (hlast.trans hinput)
        simp only [List.length_append] at hlengths
        omega

/-! ## The place of an output -/

/-- The components of a path beside the input, up to its name.  An input without a file name has
nothing beside it: the path lies inside. -/
structure LiesBeside (input : String) (front : List Path.Component) : Prop where
  named (name : String) : fileName? input = some name →
    components input = front ++ [.name name.toList]
  unnamed : fileName? input = none → components input = front

theorem components_withFileName_beside (input : String) {name : List Char} (h : Path.IsName name) :
    ∃ front, components (Path.withFileName input (String.ofList name)) = front ++ [.name name] ∧
      LiesBeside input front := by
  cases hsplit : Path.splitName? input with
  | none =>
      have hnone : fileName? input = none := by simp [fileName?, hsplit]
      refine ⟨components input, ?_, ⟨fun name hname => ?_, fun _ => rfl⟩⟩
      · simpa only [Path.withFileName, hsplit] using Path.components_join input h
      · simp [hnone] at hname
  | some parts =>
      obtain ⟨front, hfront, hnamed⟩ := Path.components_withFileName input h
      refine ⟨front, hfront, ⟨hnamed, fun hnone => ?_⟩⟩
      simp [fileName?, hsplit] at hnone

theorem components_second {input : String}
    (h : Path.same (Path.withExtension input "docx") input = true) :
    ∃ front name, components (Path.withFileName input
        ((Path.stem? input).getD "" ++ "_mdocx.docx")) = front ++ [.name name] ∧
      IsTargetName input name ∧ LiesBeside input front := by
  have hname := isTargetName_second h
  obtain ⟨front, hfront, hbeside⟩ := components_withFileName_beside input hname.isName
  have hsuffix : "_mdocx.docx".toList = "_mdocx".toList ++ ".docx".toList := by decide
  have htext : (Path.stem? input).getD "" ++ "_mdocx.docx" = String.ofList
      (((Path.stem? input).getD "").toList ++ "_mdocx".toList ++ ".docx".toList) := by
    apply String.toList_inj.mp
    rw [String.toList_append, hsuffix, ← List.append_assoc]
    exact String.toList_ofList.symm
  rw [htext]
  exact ⟨front, _, hfront, hname, hbeside⟩

theorem components_first {input : String} (hstem : Path.hasDotStem input = false)
    (h : ¬ Path.same (Path.withExtension input "docx") input = true) :
    ∃ front name, components (Path.withExtension input "docx") = front ++ [.name name] ∧
      IsTargetName input name ∧ LiesBeside input front := by
  cases hsplit : Path.splitName? input with
  | none =>
      have hcandidate : Path.withExtension input "docx" = input := by
        simp only [Path.withExtension, hsplit]
      rw [hcandidate, same_iff] at h
      exact absurd rfl h
  | some parts =>
      rcases parts with ⟨before, name⟩
      obtain ⟨-, hne, hwhole⟩ := stem_of_splitName? hsplit
      have hcandidate := components_candidate hsplit hstem
      have hinput := Path.components_of_splitName? hsplit
      have hfile := Path.fileName?_of_splitName? hsplit
      refine ⟨_, _, hcandidate, IsTargetName.of_stem hne hwhole ?_, ⟨?_, ?_⟩⟩
      · intro hsame
        rw [hfile, Option.some_inj, String.ofList_inj] at hsame
        exact h (same_iff.mpr (by rw [hcandidate, hinput, ← hsame]))
      · intro old hold
        rw [hfile, Option.some_inj] at hold
        rw [hinput, ← hold, String.toList_ofList]
      · intro hnone
        rw [hfile] at hnone
        cases hnone

/-- The default output is a file with the name of a package, beside the input.  The standard input
counts as a file of the working directory. -/
theorem components_defaultOutput {input : String} (h : Path.hasDotStem input = false) :
    ∃ front name, components (defaultOutput input) = front ++ [.name name] ∧
      IsTargetName input name ∧ LiesBeside input front := by
  unfold defaultOutput
  by_cases hinput : input = standardInput
  · have hfile : fileName? standardInput = some standardInput := by decide +kernel
    have hname : IsTargetName standardInput ("document".toList ++ ".docx".toList) :=
      IsTargetName.of_stem (by decide) (by decide) (by decide +kernel)
    rw [if_pos hinput, hinput]
    refine ⟨[], _, by decide +kernel, hname, ⟨?_, ?_⟩⟩
    · intro name heq
      rw [hfile, Option.some_inj] at heq
      rw [← heq]
      decide +kernel
    · simp [hfile]
  · rw [if_neg hinput]
    simp only
    split
    · next hsame => exact components_second hsame
    · next hother => exact components_first h hother

theorem split_defaultOutput_of_hasDotStem {input : String} (h : Path.hasDotStem input = true) :
    ∃ before name, Path.splitName? input = some (before, name) ∧
      Path.split (defaultOutput input).toList = before ++ [Path.upward] := by
  have hinput : input ≠ standardInput := by
    rintro rfl
    exact absurd h (by decide)
  have houtput : defaultOutput input = Path.withExtension input "docx" := by
    simp [defaultOutput, hinput, same_candidate_of_hasDotStem h]
  rw [houtput]
  exact Path.split_withExtension_of_hasDotStem h "docx"

theorem IsTargetName.extension?_of_fileName? {input path : String} {name : List Char}
    (h : IsTargetName input name) (hpath : fileName? path = some (String.ofList name)) :
    fileName? path ≠ fileName? input ∧ Path.extension? path = some "docx" := by
  constructor
  · rw [hpath]
    exact h.ne_input.symm
  · rw [Path.extension?_eq, hpath, Option.bind_some, String.toList_ofList, h.extension,
      Option.map_some, String.ofList_toList]

theorem exists_parent?_defaultOutput (input : String) :
    ∃ directory, parent? (defaultOutput input) = some directory ∧
      (∀ name, fileName? input = some name →
        ∃ parent, parent? input = some parent ∧ components directory = components parent) ∧
      (fileName? input = none → components directory = components input) := by
  by_cases hdot : Path.hasDotStem input = true
  · obtain ⟨before, name, hname, hsplit⟩ := split_defaultOutput_of_hasDotStem hdot
    obtain ⟨directory, hdirectory, hfront⟩ := Path.parent?_of_split hsplit (by decide) (by simp)
    obtain ⟨parent, hparent, hcomponents⟩ := Path.parent?_of_splitName? hname
    refine ⟨directory, hdirectory, ?_, ?_⟩
    · exact fun _ _ => ⟨parent, hparent, hfront.trans hcomponents.symm⟩
    · simp [Path.fileName?_of_splitName? hname]
  · obtain ⟨front, name, houtput, -, hbeside⟩ :=
      components_defaultOutput (eq_false_of_ne_true hdot)
    obtain ⟨directory, hdirectory, hfront⟩ := Path.exists_parent? houtput
    refine ⟨directory, hdirectory, ?_, ?_⟩
    · intro old hold
      obtain ⟨parent, hparent, hcomponents⟩ := Path.exists_parent? (hbeside.named old hold)
      exact ⟨parent, hparent, hfront.trans hcomponents.symm⟩
    · exact fun hnone => hfront.trans (hbeside.unnamed hnone).symm

/-- Whatever path an input has, its default output is another path with the parent of the input, or
lies in the input if that has no file name.  It has the extension of packages unless the stem of the
input is a dot: then it leads upward. -/
theorem defaultOutput_beside (input : String) :
    components (defaultOutput input) ≠ components input ∧
      (Path.hasDotStem input = false → Path.extension? (defaultOutput input) = some "docx") ∧
      (Path.hasDotStem input = true → (components (defaultOutput input)).getLast? = some .up) ∧
      ∃ directory, parent? (defaultOutput input) = some directory ∧
        (∀ name, fileName? input = some name →
          ∃ parent, parent? input = some parent ∧ components directory = components parent) ∧
        (fileName? input = none → components directory = components input) := by
  by_cases hdot : Path.hasDotStem input = true
  · obtain ⟨before, name, hname, hsplit⟩ := split_defaultOutput_of_hasDotStem hdot
    have hup := Path.components_of_upward hsplit
    refine ⟨?_, ?_, ?_, exists_parent?_defaultOutput input⟩
    · rw [hup, Path.components_of_splitName? hname]
      simp
    · simp [hdot]
    · simp [hup]
  · have hnot := eq_false_of_ne_true hdot
    obtain ⟨front, name, houtput, hname, -⟩ := components_defaultOutput hnot
    obtain ⟨hne, hextension⟩ :=
      hname.extension?_of_fileName? (Path.fileName?_of_components houtput)
    exact ⟨fun hsame => hne (Path.fileName?_of_same hsame), fun _ => hextension,
      fun h => absurd h hdot, exists_parent?_defaultOutput input⟩

/-- The default output of a name with a dot as its stem has no extension. -/
theorem defaultOutput_dot_stem :
    defaultOutput "..md" = ".." ∧ Path.extension? (defaultOutput "..md") ≠ some "docx" := by
  decide +kernel

example : ["..", "in/.docx", "./letter.docx/", "a.b.", "a_mdocx.docx"].map defaultOutput =
    ["../_mdocx.docx", "in/.docx.docx", "./letter_mdocx.docx", "a.b.docx",
      "a_mdocx_mdocx.docx"] := by
  decide +kernel

end Manuscript.CommandLine
