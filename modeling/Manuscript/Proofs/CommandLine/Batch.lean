import Manuscript.Proofs.CommandLine.Targets
import Manuscript.Proofs.CommandLine.Writing
import Manuscript.Proofs.Synthesis

/-!
# Runs over several inputs

A batch is refused before anything is written, or all that can be written is.  Everything is read
before, so every package is made of what its input held at first, even where the target of one input
is another input.
-/

namespace Manuscript.CommandLine

open Archive (Codec)
open Manuscript.Path (components)
open Synthesizer (documentPartXml_of_convert exists_convert length_reference_two_le)
open Wordprocessing (documentXml documentPartXml)

section

variable [Codec]

/-- Why a batch is given up before anything is written. -/
inductive BatchRefused (source : Source) (inputs : List String) (output style : Option String)
    (noJustify : Bool) (handover : Handover) : Prop where
  | style {failure : Failure} (unread : source.style style = .error failure)
  | unfit {chosen : Style} {failure : Failure} (read : source.style style = .ok chosen)
      (rejected : synthesizer (if noJustify then chosen.withJustifyBody false else chosen) =
        .error failure)
  | handover (unlike : handover ≠ .file)
  | targets {first second : String} (ordered : [first, second].Sublist inputs)
      (same : Path.same (batchTarget output first) (batchTarget output second) = true)
  | input {input : String} {failure : Failure} (given : input ∈ inputs)
      (unread : source.text input = .error failure)

variable {source : Source} {inputs : List String} {output style : Option String}
  {noJustify : Bool} {handover : Handover}

theorem mapM_text {read : String → String}
    (h : ∀ input ∈ inputs, source.text input = .ok (read input)) :
    inputs.mapM source.text = .ok (inputs.map read) := by
  induction inputs with
  | nil => rfl
  | cons input inputs ih =>
      rw [List.forall_mem_cons] at h
      rw [List.mapM_cons, h.1, ih h.2]
      rfl

theorem mapM_text_error {input : String} {failure : Failure} (hmem : input ∈ inputs)
    (h : source.text input = .error failure) :
    ∃ failure, inputs.mapM source.text = .error failure := by
  induction inputs with
  | nil => cases hmem
  | cons first inputs ih =>
      rw [List.mapM_cons]
      cases hfirst : source.text first with
      | error failure => exact ⟨failure, rfl⟩
      | ok text =>
          rcases List.mem_cons.mp hmem with rfl | hmem
          · rw [h] at hfirst
            cases hfirst
          · obtain ⟨failure, hrest⟩ := ih hmem
            exact ⟨failure, by rw [hrest]; rfl⟩

theorem convert_several (h : 2 ≤ inputs.length) :
    convert source inputs output style noJustify handover = (do
      let chosen ← source.style style
      let made ← synthesizer (if noJustify then chosen.withJustifyBody false else chosen)
      if handover ≠ .file then .error .severalInputs
      else convertSeveral source made inputs output) :=
  match inputs, h with
  | _ :: _ :: _, _ => rfl

theorem convertSeveral_of_targets {first second : String} (made : Synthesizer)
    (hordered : [first, second].Sublist inputs)
    (hsame : Path.same (batchTarget output first) (batchTarget output second) = true) :
    ∃ failure, convertSeveral source made inputs output = .error failure := by
  cases htargets : batchTargets inputs output with
  | error failure => exact ⟨failure, by simp [convertSeveral, htargets, bind, Except.bind]⟩
  | ok targets =>
      obtain ⟨-, hpairs⟩ := batchTargets_eq_ok_iff.mp htargets
      exact absurd (same_iff.mp hsame) (List.pairwise_iff_forall_sublist.mp hpairs hordered)

theorem convertSeveral_of_input {input : String} {failure : Failure} (made : Synthesizer)
    (hmem : input ∈ inputs) (h : source.text input = .error failure) :
    ∃ failure, convertSeveral source made inputs output = .error failure := by
  obtain ⟨failure, htexts⟩ := mapM_text_error hmem h
  cases htargets : batchTargets inputs output with
  | error failure => exact ⟨failure, by simp [convertSeveral, htargets, bind, Except.bind]⟩
  | ok targets => exact ⟨failure, by simp [convertSeveral, htargets, htexts, bind, Except.bind]⟩

theorem convert_of_refused (hseveral : 2 ≤ inputs.length)
    (h : BatchRefused source inputs output style noJustify handover) :
    ∃ failure, convert source inputs output style noJustify handover = .error failure := by
  rw [convert_several hseveral]
  cases hstyle : source.style style with
  | error failure => exact ⟨failure, rfl⟩
  | ok chosen =>
      simp only [bind, Except.bind]
      cases hmade : synthesizer (if noJustify then chosen.withJustifyBody false else chosen) with
      | error failure => exact ⟨failure, rfl⟩
      | ok made =>
          simp only
          split
          · exact ⟨_, rfl⟩
          · rename_i hfile
            cases h with
            | style unread =>
                rw [hstyle] at unread
                cases unread
            | unfit read rejected =>
                rw [hstyle] at read
                cases read
                rw [hmade] at rejected
                cases rejected
            | handover unlike => exact absurd unlike hfile
            | targets ordered same => exact convertSeveral_of_targets made ordered same
            | input given unread => exact convertSeveral_of_input made given unread

def batchWrite (made : Synthesizer) (output : Option String) (read : String → String)
    (input : String) : Write :=
  ⟨batchTarget output input, made.convert (read input)⟩

def batchPlan (made : Synthesizer) (inputs : List String) (output : Option String)
    (read : String → String) : Plan where
  directory := output
  writes := inputs.map (batchWrite made output read)
  conclude := fun directory results =>
    match directory with
    | .error error => .failure "" (.system error)
    | .ok () => batchOutcome inputs (inputs.map (batchTarget output)) results

theorem convertSeveral_of_read {made : Synthesizer} {read : String → String}
    (htargets : batchTargets inputs output = .ok (inputs.map (batchTarget output)))
    (hread : ∀ input ∈ inputs, source.text input = .ok (read input)) :
    convertSeveral source made inputs output = .ok (batchPlan made inputs output read) := by
  have hwrites : ((inputs.map (batchTarget output)).zip
      (made.convertAll (inputs.map read))).map (fun pair => Write.mk pair.1 pair.2) =
      inputs.map (batchWrite made output read) := by
    simp [Synthesizer.convertAll, List.zip_map', batchWrite, Function.comp_def]
  simp only [convertSeveral, htargets, mapM_text hread, bind, Except.bind]
  exact congrArg (fun writes => Except.ok { batchPlan made inputs output read with writes }) hwrites

theorem convert_of_not_refused (hseveral : 2 ≤ inputs.length)
    (h : ¬ BatchRefused source inputs output style noJustify handover) :
    ∃ chosen made read, source.style style = .ok chosen ∧
      synthesizer (if noJustify then chosen.withJustifyBody false else chosen) = .ok made ∧
      (∀ input ∈ inputs, source.text input = .ok (read input)) ∧
      convert source inputs output style noJustify handover =
        .ok (batchPlan made inputs output read) := by
  have hfile : ¬ handover ≠ .file := fun unlike => h (.handover unlike)
  have htargets : batchTargets inputs output = .ok (inputs.map (batchTarget output)) := by
    refine batchTargets_eq_ok_iff.mpr ⟨rfl, List.pairwise_iff_forall_sublist.mpr ?_⟩
    intro first second ordered same
    exact h (.targets ordered (same_iff.mpr same))
  have htext : ∀ input, ∃ text, input ∈ inputs → source.text input = .ok text := by
    intro input
    cases htext : source.text input with
    | error failure => exact ⟨"", fun given => absurd (.input given htext) h⟩
    | ok text => exact ⟨text, fun _ => rfl⟩
  choose read hread using htext
  cases hstyle : source.style style with
  | error failure => exact absurd (.style hstyle) h
  | ok chosen =>
      cases hmade : synthesizer (if noJustify then chosen.withJustifyBody false else chosen) with
      | error failure => exact absurd (.unfit hstyle hmade) h
      | ok made =>
          refine ⟨chosen, made, read, rfl, hmade, hread, ?_⟩
          rw [convert_several hseveral, hstyle]
          simp only [bind, Except.bind, hmade, if_neg hfile]
          exact convertSeveral_of_read htargets hread

end

def makeOutput (tree : FileTree) : Option String → FileTree × Except SystemError Unit
  | some directory => tree.makeDirectories directory
  | none => (tree, .ok ())

theorem grows_makeOutput (tree : FileTree) (output : Option String) :
    tree.Grows (makeOutput tree output).1 := by
  cases output with
  | none => exact .refl tree
  | some directory => exact FileTree.grows_makeDirectories tree directory

/-- No two inputs have targets that lead to one place. -/
def TargetsApart (tree : FileTree) (output : Option String) (inputs : List String) : Prop :=
  inputs.Pairwise fun first second => ∀ location,
    tree.Leads (batchTarget output first) location →
      ¬ tree.Leads (batchTarget output second) location

/-- What becomes of the inputs of a batch, given the tree from which the writes start. -/
structure BatchWritten [Codec] (source : Source) (made : Synthesizer) (output : Option String)
    (start after : FileTree) (inputs : List String) (results : List (Except Failure Unit)) :
    Prop where
  length : results.length = inputs.length
  /-- Each write succeeds or fails as it would if it were the only one. -/
  alone : ∀ input result, (input, result) ∈ inputs.zip results →
    ∃ text, source.text input = .ok text ∧
      (result.isOk = true ↔ ∃ package written, made.convert text = .ok package ∧
        start.write (batchTarget output input) package = .ok written)
  /-- After a successful write the target holds a package with the input's document. -/
  held : ∀ input result, (input, result) ∈ inputs.zip results → result.isOk = true →
    ∃ text package, source.text input = .ok text ∧ made.convert text = .ok package ∧
      after.read (batchTarget output input) = .ok package ∧
      ∀ limit, (Utf8.bytes (documentXml made.style.fontFamily (made.document text))).length ≤
        limit → documentPartXml limit package =
          .ok (documentXml made.style.fontFamily (made.document text))
  /-- Nothing else changes. -/
  others : ∀ location, (∀ input result, (input, result) ∈ inputs.zip results →
      result.isOk = true → ¬ start.Leads (batchTarget output input) location) →
    after.node? location = start.node? location

theorem node?_performAll_batch [Codec] {made : Synthesizer} {output : Option String}
    {start : FileTree} {inputs : List String} {read : String → String}
    (hapart : TargetsApart start output inputs) {input : String} (hmem : input ∈ inputs)
    {location : Location} {package : Bytes}
    (h : (batchWrite made output read input).Places start location package) :
    (Write.performAll start (inputs.map (batchWrite made output read))).1.node? location =
      some (.file package) := by
  obtain ⟨before, rest, rfl⟩ := List.append_of_mem hmem
  rw [TargetsApart, List.pairwise_append, List.pairwise_cons] at hapart
  obtain ⟨-, ⟨hlater, -⟩, -⟩ := hapart
  rw [List.map_append, List.map_cons]
  -- whatever the writes before it have done, no later one leads to its place
  apply Write.node?_performAll_last _ h
  intro other hother content hplaces
  obtain ⟨later, hmem, rfl⟩ := List.mem_map.mp hother
  exact hlater later hmem location h.leads hplaces.leads

/-- Every result belongs to its input, and every package stays, if the targets are different
files. -/
theorem batchWritten_performAll [Codec] {source : Source} (made : Synthesizer)
    {output : Option String} {start : FileTree} {inputs : List String} {read : String → String}
    (hread : ∀ input ∈ inputs, source.text input = .ok (read input))
    (hapart : TargetsApart start output inputs) :
    let written := Write.performAll start (inputs.map (batchWrite made output read))
    BatchWritten source made output start written.1 inputs written.2 := by
  intro written
  obtain ⟨hlength, hresults⟩ := List.forall₂_iff_zip.mp
    (List.forall₂_map_left_iff.mp
      (Write.isOk_performAll start (inputs.map (batchWrite made output read))))
  have hsame : start.SameDirectories written.1 :=
    Write.sameDirectories_performAll start (inputs.map (batchWrite made output read))
  refine ⟨hlength.symm, ?_, ?_, ?_⟩
  · intro input result hmem
    refine ⟨read input, hread input (List.of_mem_zip hmem).1, ?_⟩
    rw [hresults hmem, Write.exists_places_iff]
    simp only [batchWrite]
  · intro input result hmem hok
    have hinput := (List.of_mem_zip hmem).1
    obtain ⟨location, package, hplaces⟩ := (hresults hmem).mp hok
    have hnode := node?_performAll_batch hapart hinput hplaces
    have hpackage : made.convert (read input) = .ok package := by
      simpa only [batchWrite] using hplaces.content
    refine ⟨read input, package, hread input hinput, hpackage, ?_, ?_⟩
    · exact hsame.keeps.read hplaces.leads.locate hnode
    · intro limit hlimit
      exact documentPartXml_of_convert hpackage hlimit
  · intro location hfree
    apply Write.node?_performAll
    intro w hw package hplaces
    -- a write that could be carried out at first has succeeded, and its target leads elsewhere
    obtain ⟨input, hinput, rfl⟩ := List.mem_map.mp hw
    rw [← List.map_fst_zip hlength.le] at hinput
    obtain ⟨⟨given, result⟩, hmem, rfl⟩ := List.mem_map.mp hinput
    exact hfree given result hmem ((hresults hmem).mpr ⟨location, package, hplaces⟩) hplaces.leads

theorem status_batchOutcome (inputs targets : List String)
    (results : List (Except Failure Unit)) :
    (batchOutcome inputs targets results).status =
      if results.all fun result => result.isOk then 0 else 1 := by
  have hcount : (results.countP fun result => !result.isOk) = 0 ↔
      (results.all fun result => result.isOk) = true := by
    simp [List.countP_eq_zero]
  unfold batchOutcome
  cases hfailed : results.countP fun result => !result.isOk with
  | zero =>
      rw [if_pos (hcount.mp hfailed)]
      rfl
  | succ failed =>
      rw [if_neg (mt hcount.mpr (by omega))]
      rfl

/-! ## Runs -/

theorem perform_batchPlan [Codec] (made : Synthesizer) (inputs : List String)
    (output : Option String) (read : String → String) (tree : FileTree) :
    (batchPlan made inputs output read).perform tree =
      match makeOutput tree output with
      | (start, .ok ()) =>
        let written := Write.performAll start (inputs.map (batchWrite made output read))
        (written.1, batchOutcome inputs (inputs.map (batchTarget output)) written.2)
      | (start, .error error) => (start, .failure "" (.system error)) := by
  simp only [Plan.perform, batchPlan, makeOutput]
  cases output with
  | none => rfl
  | some directory =>
      simp only
      rcases tree.makeDirectories directory with ⟨start, error | ⟨⟩⟩
      · rfl
      · rfl

section

variable [Codec] {environment : Option String} {words inputs : List String}
  {output style : Option String} {noJustify : Bool} {handover : Handover}

theorem run_convert
    (h : Command.ofArguments environment words =
      .ok (.convert inputs output style noJustify handover)) (input : Bytes) (tree : FileTree) :
    run environment words input tree =
      match convert ⟨tree.read, input⟩ inputs output style noJustify handover with
      | .ok plan => plan.perform tree
      | .error failure => (tree, .failure "" failure) :=
  run_command h input tree

theorem run_of_refused
    (h : Command.ofArguments environment words =
      .ok (.convert inputs output style noJustify handover)) (hseveral : 2 ≤ inputs.length)
    {input : Bytes} {tree : FileTree}
    (hrefused : BatchRefused ⟨tree.read, input⟩ inputs output style noJustify handover) :
    (run environment words input tree).1 = tree ∧
      (run environment words input tree).2.status = 1 := by
  obtain ⟨failure, hconvert⟩ := convert_of_refused hseveral hrefused
  rw [run_convert h, hconvert]
  exact ⟨rfl, rfl⟩

theorem run_of_accepted
    (h : Command.ofArguments environment words =
      .ok (.convert inputs output style noJustify handover)) (hseveral : 2 ≤ inputs.length)
    {input : Bytes} {tree : FileTree}
    (haccepted : ¬ BatchRefused ⟨tree.read, input⟩ inputs output style noJustify handover) :
    ∃ chosen made read, Source.style ⟨tree.read, input⟩ style = .ok chosen ∧
      synthesizer (if noJustify then chosen.withJustifyBody false else chosen) = .ok made ∧
      (∀ path ∈ inputs, Source.text ⟨tree.read, input⟩ path = .ok (read path)) ∧
      run environment words input tree =
        match makeOutput tree output with
        | (start, .ok ()) =>
          let written := Write.performAll start (inputs.map (batchWrite made output read))
          (written.1, batchOutcome inputs (inputs.map (batchTarget output)) written.2)
        | (start, .error error) => (start, .failure "" (.system error)) := by
  obtain ⟨chosen, made, read, hstyle, hmade, hread, hconvert⟩ :=
    convert_of_not_refused hseveral haccepted
  refine ⟨chosen, made, read, hstyle, hmade, hread, ?_⟩
  rw [run_convert h, hconvert]
  exact perform_batchPlan made inputs output read tree

/-- A batch that is refused leaves the tree as it is.  Otherwise, if the output directory can be
made and the targets are different files, every input has a write of its own, of what the input held
before the run. -/
theorem run_batch
    (h : Command.ofArguments environment words =
      .ok (.convert inputs output style noJustify handover)) (hseveral : 2 ≤ inputs.length)
    (input : Bytes) (tree : FileTree) :
    let source : Source := ⟨tree.read, input⟩
    let after := (run environment words input tree).1
    let outcome := (run environment words input tree).2
    (BatchRefused source inputs output style noJustify handover →
      after = tree ∧ outcome.status = 1) ∧
    (¬ BatchRefused source inputs output style noJustify handover →
      ∀ start, makeOutput tree output = (start, .ok ()) → TargetsApart start output inputs →
        ∃ chosen made results, source.style style = .ok chosen ∧
          synthesizer (if noJustify then chosen.withJustifyBody false else chosen) = .ok made ∧
          tree.Grows start ∧ BatchWritten source made output start after inputs results ∧
          outcome = batchOutcome inputs (inputs.map (batchTarget output)) results ∧
          outcome.status = if results.all fun result => result.isOk then 0 else 1) := by
  intro source after outcome
  constructor
  · intro hrefused
    exact run_of_refused h hseveral hrefused
  · intro haccepted start hstart hapart
    obtain ⟨chosen, made, read, hstyle, hmade, hread, hrun⟩ := run_of_accepted h hseveral haccepted
    have hgrows := grows_makeOutput tree output
    simp only [hstart] at hgrows hrun
    refine ⟨chosen, made, _, hstyle, hmade, hgrows, ?_, congrArg Prod.snd hrun, ?_⟩
    · have hafter : after = _ := congrArg Prod.fst hrun
      rw [hafter]
      exact batchWritten_performAll made hread hapart
    · have houtcome : outcome = _ := congrArg Prod.snd hrun
      rw [houtcome]
      exact status_batchOutcome _ _ _

end

def blockedTree : FileTree :=
  ⟨[(["a.md".toList], .file (Utf8.bytes "one")), (["b.txt".toList], .file (Utf8.bytes "two")),
    (["a.docx".toList], .directory)], []⟩

theorem command_blocked : Command.ofArguments none ["convert", "a.md", "b.txt"] =
    .ok (.convert ["a.md", "b.txt"] none none false .file) := by
  cbv

theorem batchTarget_blocked :
    batchTarget none "a.md" = "a.docx" ∧ batchTarget none "b.txt" = "b.docx" := by
  decide +kernel

theorem text_blocked : Source.text ⟨blockedTree.read, []⟩ "a.md" = .ok "one" ∧
    Source.text ⟨blockedTree.read, []⟩ "b.txt" = .ok "two" :=
  ⟨rfl, rfl⟩

theorem synthesizer_reference : synthesizer Style.reference = .ok Synthesizer.reference :=
  rfl

theorem accepted_blocked :
    ¬ BatchRefused ⟨blockedTree.read, []⟩ ["a.md", "b.txt"] none none false .file := by
  intro hrefused
  cases hrefused with
  | style unread => cases unread
  | unfit read rejected =>
      cases read
      cases synthesizer_reference.symm.trans rejected
  | handover unlike => exact unlike rfl
  | targets ordered same =>
      cases ordered.eq_of_length rfl
      rw [batchTarget_blocked.1, batchTarget_blocked.2] at same
      revert same
      decide +kernel
  | input given unread =>
      rcases List.mem_pair.mp given with rfl | rfl
      · cases text_blocked.1.symm.trans unread
      · cases text_blocked.2.symm.trans unread

theorem targetsApart_blocked : TargetsApart blockedTree none ["a.md", "b.txt"] := by
  have hnames : Path.fileName? "a.docx" ≠ Path.fileName? "b.docx" := by decide +kernel
  refine List.pairwise_pair.mpr fun location hfirst hsecond => hnames ?_
  rw [batchTarget_blocked.1] at hfirst
  rw [batchTarget_blocked.2] at hsecond
  obtain ⟨name, hname, hlast⟩ := hfirst.fileName?
  obtain ⟨name', hname', hlast'⟩ := hsecond.fileName?
  rw [hlast, Option.some_inj, String.toList_inj] at hlast'
  rw [hname, hname', hlast']

theorem run_batch_blocked :
    (run none ["convert", "a.md", "b.txt"] [] blockedTree).2.status = 1 ∧
      ∃ package, (run none ["convert", "a.md", "b.txt"] [] blockedTree).1.read "b.docx" =
        .ok package ∧
      documentPartXml Wordprocessing.maxPartSize package =
        .ok (documentXml Synthesizer.reference.style.fontFamily
          (Synthesizer.reference.document "two")) := by
  obtain ⟨-, hrun⟩ := run_batch command_blocked (by decide) [] blockedTree
  obtain ⟨_, _, results, hchosen, hmade, -, hwritten, -, hstatus⟩ :=
    hrun accepted_blocked blockedTree rfl targetsApart_blocked
  cases hchosen
  cases synthesizer_reference.symm.trans hmade
  obtain ⟨first, second, rfl⟩ := List.length_eq_two.mp hwritten.length
  have hfirst : ¬ first.isOk = true := by
    intro hok
    obtain ⟨text, -, halone⟩ := hwritten.alone "a.md" first (by simp)
    obtain ⟨package, written, -, hwrite⟩ := halone.mp hok
    have hblocked : blockedTree.write "a.docx" package = .error .isDirectory := by rfl
    rw [batchTarget_blocked.1, hblocked] at hwrite
    cases hwrite
  have hsecond : second.isOk = true := by
    obtain ⟨text, htext, halone⟩ := hwritten.alone "b.txt" second (by simp)
    cases text_blocked.2.symm.trans htext
    obtain ⟨package, hpackage⟩ := exists_convert Synthesizer.reference
      (length_reference_two_le.trans (by decide))
    have hwrite : blockedTree.write "b.docx" package =
        .ok (blockedTree.put ["b.docx".toList] (.file package)) := by rfl
    rw [← batchTarget_blocked.2] at hwrite
    exact halone.mpr ⟨package, _, hpackage, hwrite⟩
  constructor
  · rw [hstatus]
    simp [hfirst]
  · obtain ⟨text, package, htext, -, hread, hxml⟩ := hwritten.held "b.txt" second (by simp) hsecond
    cases text_blocked.2.symm.trans htext
    rw [batchTarget_blocked.2] at hread
    have hlimit : 5000 ≤ Wordprocessing.maxPartSize := by simp [Wordprocessing.maxPartSize]
    exact ⟨package, hread, hxml _ (length_reference_two_le.trans hlimit)⟩

end Manuscript.CommandLine
