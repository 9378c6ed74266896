import Manuscript.Proofs.CommandLine.Batch

/-!
# The inputs of a batch afterwards

A target that can be a file never has the file name of its own input.  So a batch writes over an
input only where the target of another input is the same file, and then that input is a package.
-/

namespace Manuscript.CommandLine

open Archive (Codec)

/-- Only paths with an extension are extracted from, and these have a file name. -/
theorem Source.exists_fileName? [Codec] {source : Source} {path text : String}
    (h : source.text path = .ok text) : ∃ name, Path.fileName? path = some name := by
  unfold Source.text at h
  split at h
  · rename_i hinput
    rw [hinput]
    exact ⟨"-", by decide +kernel⟩
  · cases hname : Path.fileName? path with
    | some name => exact ⟨name, rfl⟩
    | none =>
        have hextension : Path.extension? path = none := by
          rw [Path.extension?_eq, hname, Option.bind_none]
        rw [Registry.extractFile, hextension] at h
        cases h

/-- An input that another input's package is written over, which has the extension of a package. -/
structure Overwritten (tree : FileTree) (output : Option String) (inputs : List String)
    (path : String) : Prop where
  isPackage : Path.extension? path = some "docx"
  byOther : ∃ other ∈ inputs, other ≠ path ∧ ∃ location,
    tree.locate path = .ok location ∧ tree.Leads (batchTarget output other) location

theorem overwritten_of_leads {tree : FileTree} {output : Option String} {inputs : List String}
    {path input : String} {location : Location} (hinput : input ∈ inputs)
    (hname : ∃ name, Path.fileName? path = some name) (hlocate : tree.locate path = .ok location)
    (hleads : tree.Leads (batchTarget output input) location) :
    Overwritten tree output inputs path := by
  obtain ⟨name, hname⟩ := hname
  obtain ⟨target, htarget, hlast⟩ := hleads.fileName?
  have hsame : Path.fileName? path = Path.fileName? (batchTarget output input) := by
    rw [FileTree.getLast?_of_locate hlocate hname, Option.some_inj, String.toList_inj] at hlast
    rw [hname, htarget, hlast]
  obtain ⟨hne, hpackage⟩ := extension?_of_fileName? (not_hasDotStem_of_leads hleads) hsame
  exact ⟨hpackage, input, hinput, hne.symm, location, hlocate, hleads⟩

theorem read_performAll_batch [Codec] {start : FileTree} {made : Synthesizer}
    {output : Option String} {inputs : List String} {read : String → String} {path : String}
    {content : Bytes} (hname : ∃ name, Path.fileName? path = some name)
    (hread : start.read path = .ok content) :
    let after := (Write.performAll start (inputs.map (batchWrite made output read))).1
    after.read path = .ok content ∨ Overwritten after output inputs path := by
  intro after
  have hsame : start.SameDirectories after :=
    Write.sameDirectories_performAll start (inputs.map (batchWrite made output read))
  obtain ⟨location, hlocate, hnode⟩ := FileTree.read_eq_ok_iff.mp hread
  by_cases hclash : ∃ input ∈ inputs, start.Leads (batchTarget output input) location
  · obtain ⟨input, hinput, hleads⟩ := hclash
    exact .inr (overwritten_of_leads hinput hname (hsame.keeps.locate hlocate)
      (hsame.leads_iff.mp hleads))
  · left
    apply hsame.keeps.read hlocate
    rw [← hnode]
    apply Write.node?_performAll
    intro w hw package hplaces
    obtain ⟨input, hinput, rfl⟩ := List.mem_map.mp hw
    exact hclash ⟨input, hinput, hplaces.leads⟩

theorem read_run_batch [Codec] {environment : Option String} {words inputs : List String}
    {output style : Option String} {noJustify : Bool} {handover : Handover}
    (h : Command.ofArguments environment words =
      .ok (.convert inputs output style noJustify handover)) (hseveral : 2 ≤ inputs.length)
    (input : Bytes) {tree : FileTree} {path : String} {content : Bytes} (hgiven : path ∈ inputs)
    (hread : tree.read path = .ok content) :
    (run environment words input tree).1.read path = .ok content ∨
      Overwritten (run environment words input tree).1 output inputs path := by
  by_cases hrefused : BatchRefused ⟨tree.read, input⟩ inputs output style noJustify handover
  · rw [(run_of_refused h hseveral hrefused).1]
    exact .inl hread
  · obtain ⟨chosen, made, read, -, -, htexts, hrun⟩ := run_of_accepted h hseveral hrefused
    have hstart := (grows_makeOutput tree output).read hread
    rw [hrun]
    rcases hmake : makeOutput tree output with ⟨start, error | ⟨⟩⟩
    · rw [hmake] at hstart
      exact .inl hstart
    · rw [hmake] at hstart
      exact read_performAll_batch (Source.exists_fileName? (htexts path hgiven)) hstart

/-- If the targets of a batch are accepted, no target that can be a file is its own input.  It can
be another input, but only a package.  Where the stem of an input is a dot, nothing can be written
to its target.  So a run leaves all inputs as they are but packages that are the targets of
others. -/
theorem targets_spare_sources [Codec] {inputs targets : List String} {output : Option String}
    (h : batchTargets inputs output = .ok targets) :
    (∀ (i : Nat) (input target : String), inputs[i]? = some input → targets[i]? = some target →
      (Path.hasDotStem input = false → ∀ (j : Nat) (path : String), inputs[j]? = some path →
        Path.same target path = true → i ≠ j ∧ Path.extension? path = some "docx") ∧
      (Path.hasDotStem input = true → ∀ (tree after : FileTree) (content : Bytes),
        tree.write target content ≠ .ok after)) ∧
    ∀ environment words style noJustify handover,
      Command.ofArguments environment words =
        .ok (.convert inputs output style noJustify handover) → 2 ≤ inputs.length →
      ∀ (input : Bytes) (tree : FileTree) (path : String) (content : Bytes), path ∈ inputs →
        tree.read path = .ok content →
        (run environment words input tree).1.read path = .ok content ∨
          Overwritten (run environment words input tree).1 output inputs path := by
  obtain ⟨rfl, -⟩ := batchTargets_eq_ok_iff.mp h
  constructor
  · intro i input target hinput htarget
    rw [List.getElem?_map, hinput, Option.map_some, Option.some_inj] at htarget
    subst htarget
    constructor
    · intro hstem j path hpath hsame
      obtain ⟨hne, hpackage⟩ :=
        extension?_of_fileName? hstem (Path.fileName?_of_same (same_iff.mp hsame)).symm
      refine ⟨?_, hpackage⟩
      rintro rfl
      exact hne (Option.some_inj.mp (hpath.symm.trans hinput))
    · intro hstem tree after content hwrite
      obtain ⟨location, hleads, -⟩ := FileTree.write_eq_ok_iff.mp hwrite
      rw [not_hasDotStem_of_leads hleads] at hstem
      cases hstem
  · intro environment words style noJustify handover hcommand hseveral input tree path content
      hgiven hread
    exact read_run_batch hcommand hseveral input hgiven hread

theorem batchTargets_package :
    batchTargets ["a.md", "a.docx"] none = .ok ["a.docx", "a_mdocx.docx"] :=
  batchTargets_eq_ok_iff.mpr ⟨by decide +kernel, by decide +kernel⟩

theorem targets_spare_sources_text :
    Path.extension? "a.docx" = some "docx" ∧
      (run none ["convert", "a.md", "b.txt"] [] blockedTree).1.read "b.txt" =
        .ok (Utf8.bytes "two") := by
  constructor
  · obtain ⟨htargets, -⟩ := targets_spare_sources batchTargets_package
    obtain ⟨hfile, -⟩ := htargets 0 "a.md" "a.docx" rfl rfl
    exact (hfile (by decide +kernel) 1 "a.docx" rfl (by simp [Path.same])).2
  · have haccepted : batchTargets ["a.md", "b.txt"] none = .ok ["a.docx", "b.docx"] :=
      batchTargets_eq_ok_iff.mpr ⟨by decide +kernel, by decide +kernel⟩
    have hread : blockedTree.read "b.txt" = .ok (Utf8.bytes "two") := by rfl
    obtain ⟨-, hruns⟩ := targets_spare_sources haccepted
    rcases hruns none _ none false .file command_blocked (by decide) [] blockedTree "b.txt" _
      (by simp) hread with hsame | hover
    · exact hsame
    · have htext : Path.extension? "b.txt" ≠ some "docx" := by decide +kernel
      exact absurd hover.isPackage htext

theorem accepted_target_input :
    ∃ targets, batchTargets ["a.md", "a.docx"] none = .ok targets ∧
      ∃ target ∈ targets, ∃ path ∈ ["a.md", "a.docx"], Path.same target path = true := by
  refine ⟨_, batchTargets_package, "a.docx", ?_, "a.docx", ?_, ?_⟩
  · simp
  · simp
  · simp [Path.same]

end Manuscript.CommandLine
