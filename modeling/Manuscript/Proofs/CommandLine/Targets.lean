import Manuscript.Proofs.CommandLine.DefaultOutput
import Manuscript.Proofs.FileTree

/-!
# The targets of a batch

A target is a package's name in some directory, and never the name of its own input.  If the stem of
the input is a dot, the target is a directory, and nothing is written there.  The targets of
an accepted batch differ as paths.  Two of them may still be one file: paths that differ in a dot at
the start are not the same, but they lead to the same place.
-/

namespace Manuscript.CommandLine

open Manuscript.Path (components)

theorem targetsAfter_cons {output : Option String} {claimed : List (String × String)}
    {input : String} {inputs targets : List String} :
    targetsAfter output claimed (input :: inputs) = .ok targets ↔
      (∀ claim ∈ claimed, components claim.2 ≠ components (batchTarget output input)) ∧
        ∃ rest, targetsAfter output (claimed ++ [(input, batchTarget output input)]) inputs =
          .ok rest ∧ targets = batchTarget output input :: rest := by
  rw [targetsAfter]
  cases hfind : claimed.find? fun claim => Path.same claim.2 (batchTarget output input) with
  | some claim =>
      have hfound : Path.same claim.2 (batchTarget output input) = true := by
        simpa using List.find?_some hfind
      have hmem := List.mem_of_find?_eq_some hfind
      constructor
      · intro h
        cases h
      · rintro ⟨hfree, -⟩
        exact absurd (same_iff.mp hfound) (hfree claim hmem)
  | none =>
      have hfree : ∀ claim ∈ claimed,
          components claim.2 ≠ components (batchTarget output input) := by
        intro claim hmem hsame
        exact List.find?_eq_none.mp hfind claim hmem (same_iff.mpr hsame)
      cases hrest : targetsAfter output (claimed ++ [(input, batchTarget output input)]) inputs with
      | error failure => simp [bind, Except.bind]
      | ok rest => simpa [bind, Except.bind, hrest, eq_comm] using fun _ => hfree

/-- Nothing that has been claimed before is given to an input, and no two inputs are given the
same. -/
theorem targetsAfter_eq_ok_iff {output : Option String} {claimed : List (String × String)}
    {inputs targets : List String} :
    targetsAfter output claimed inputs = .ok targets ↔
      targets = inputs.map (batchTarget output) ∧
        (∀ claim ∈ claimed, ∀ input ∈ inputs,
          components claim.2 ≠ components (batchTarget output input)) ∧
        inputs.Pairwise fun first second =>
          components (batchTarget output first) ≠ components (batchTarget output second) := by
  induction inputs generalizing claimed targets with
  | nil => simp [targetsAfter, eq_comm]
  | cons input inputs ih =>
      simp only [targetsAfter_cons, ih, List.map_cons, List.forall_mem_cons, List.pairwise_cons,
        List.forall_mem_append, List.not_mem_nil, false_implies, implies_true, and_true]
      constructor
      · rintro ⟨hfree, rest, ⟨rfl, ⟨hclaimed, hfirst⟩, hpairs⟩, rfl⟩
        exact ⟨rfl, fun claim hclaim => ⟨hfree claim hclaim, hclaimed claim hclaim⟩, hfirst, hpairs⟩
      · rintro ⟨rfl, hclaimed, hfirst, hpairs⟩
        exact ⟨fun claim hclaim => (hclaimed claim hclaim).1, _,
          ⟨rfl, ⟨fun claim hclaim => (hclaimed claim hclaim).2, hfirst⟩, hpairs⟩, rfl⟩

theorem batchTargets_eq_ok_iff {inputs targets : List String} {output : Option String} :
    batchTargets inputs output = .ok targets ↔
      targets = inputs.map (batchTarget output) ∧
        inputs.Pairwise fun first second =>
          components (batchTarget output first) ≠ components (batchTarget output second) := by
  simp [batchTargets, targetsAfter_eq_ok_iff]

theorem components_batchTarget (output : Option String) {input : String}
    (h : Path.hasDotStem input = false) :
    ∃ front name, components (batchTarget output input) = front ++ [.name name] ∧
      IsTargetName input name ∧
      ∀ directory, output = some directory → front = components directory := by
  obtain ⟨front, name, hcomponents, hname, -⟩ := components_defaultOutput h
  cases output with
  | none => exact ⟨front, name, hcomponents, hname, by simp⟩
  | some directory =>
      have hfile := Path.fileName?_of_components hcomponents
      refine ⟨components directory, name, ?_, hname, ?_⟩
      · rw [batchTarget, hfile, Option.getD_some, Path.components_join directory hname.isName]
      · rintro _ ⟨⟩
        rfl

theorem batchTarget_of_hasDotStem (directory : String) {input : String}
    (h : Path.hasDotStem input = true) :
    batchTarget (some directory) input = Path.join directory "" := by
  obtain ⟨before, name, -, hsplit⟩ := split_defaultOutput_of_hasDotStem h
  have hnone : Path.fileName? (defaultOutput input) = none := by
    apply Option.eq_none_iff_forall_ne_some.mpr
    intro file hfile
    rw [Path.fileName?_eq_some_iff, Path.components_of_upward hsplit] at hfile
    simp at hfile
  rw [batchTarget, hnone, Option.getD_none]

theorem not_hasDotStem_of_leads {output : Option String} {input : String} {tree : FileTree}
    {location : Location} (h : tree.Leads (batchTarget output input) location) :
    Path.hasDotStem input = false := by
  by_contra hdot
  have hstem := eq_true_of_ne_false hdot
  obtain ⟨before, directory, name, hpieces, hcounts, hdown, -⟩ := h
  have hpath := FileTree.piecesOf_eq_ok hpieces
  cases output with
  | none =>
      obtain ⟨front, old, -, hsplit⟩ := split_defaultOutput_of_hasDotStem hstem
      rw [batchTarget, hsplit] at hpath
      exact hdown (List.append_inj_right' hpath rfl |> List.singleton_inj.mp)
  | some outputs =>
      rw [batchTarget_of_hasDotStem outputs hstem] at hpieces hpath
      have hne : outputs ≠ "" := by
        rintro rfl
        exact FileTree.piecesOf_ne_empty hpieces rfl
      obtain ⟨front, -, hsplit, -⟩ := Path.split_join hne (List.not_mem_nil (a := '/'))
      rw [String.ofList_nil] at hsplit
      rw [hsplit] at hpath
      obtain rfl := List.singleton_inj.mp (List.append_inj_right' hpath rfl)
      cases hcounts

theorem extension?_of_fileName? {output : Option String} {input path : String}
    (hstem : Path.hasDotStem input = false)
    (h : Path.fileName? path = Path.fileName? (batchTarget output input)) :
    path ≠ input ∧ Path.extension? path = some "docx" := by
  obtain ⟨front, name, hcomponents, hname, -⟩ := components_batchTarget output hstem
  rw [Path.fileName?_of_components hcomponents] at h
  obtain ⟨hne, hextension⟩ := hname.extension?_of_fileName? h
  refine ⟨?_, hextension⟩
  rintro rfl
  exact hne rfl

theorem beginsHere_batchTarget (directory input : String) :
    Path.beginsHere (batchTarget (some directory) input) = Path.beginsHere directory := by
  cases hstem : Path.hasDotStem input with
  | true =>
      rw [batchTarget_of_hasDotStem directory hstem, Path.beginsHere, Path.components_join_empty,
        Path.beginsHere]
  | false =>
      obtain ⟨front, name, hcomponents, -, hfront⟩ := components_batchTarget (some directory) hstem
      rw [Path.beginsHere, hcomponents, hfront directory rfl, Path.beginsHere]
      cases components directory <;> rfl

theorem beginsHere_ne_of_steps {output : Option String} {first second : String}
    (h : components (batchTarget output first) ≠ components (batchTarget output second))
    (hroot : Path.isRooted (batchTarget output first) = Path.isRooted (batchTarget output second))
    (hsteps : Path.steps (batchTarget output first) = Path.steps (batchTarget output second)) :
    output = none ∧ Path.beginsHere (batchTarget output first) ≠
      Path.beginsHere (batchTarget output second) := by
  have hhere : Path.beginsHere (batchTarget output first) ≠
      Path.beginsHere (batchTarget output second) := by
    intro hhere
    exact h (Path.components_eq_of_steps hsteps hroot hhere)
  cases output with
  | none => exact ⟨rfl, hhere⟩
  | some directory =>
      rw [beginsHere_batchTarget, beginsHere_batchTarget] at hhere
      exact absurd rfl hhere

/-- The targets of an accepted batch are different paths.  They stay different without their dots
unless one of them begins with a dot and the other does not.  Otherwise only paths that lead upward,
or an absolute path and a relative one, can lead to one file. -/
theorem targets_apart {inputs targets : List String} {output : Option String}
    (h : batchTargets inputs output = .ok targets) :
    targets.Pairwise fun first second =>
      components first ≠ components second ∧
        (Path.withoutDots first = Path.withoutDots second →
          output = none ∧ Path.beginsHere first ≠ Path.beginsHere second) ∧
        ∀ (tree : FileTree) (location : Location),
          tree.Leads first location → tree.Leads second location →
            .up ∈ components first ∨ .up ∈ components second ∨
              Path.isRooted first ≠ Path.isRooted second ∨
              output = none ∧ Path.beginsHere first ≠ Path.beginsHere second := by
  obtain ⟨rfl, hpairs⟩ := batchTargets_eq_ok_iff.mp h
  rw [List.pairwise_map]
  apply hpairs.imp
  intro first second hne
  refine ⟨hne, ?_, ?_⟩
  · intro hdots
    obtain ⟨hroot, hsteps⟩ := Path.withoutDots_inj.mp hdots
    exact beginsHere_ne_of_steps hne hroot hsteps
  · intro tree location hfirst hsecond
    by_cases hup : .up ∈ components (batchTarget output first)
    · exact .inl hup
    by_cases hup' : .up ∈ components (batchTarget output second)
    · exact .inr (.inl hup')
    by_cases hroot : Path.isRooted (batchTarget output first) =
        Path.isRooted (batchTarget output second)
    · have hsteps := hfirst.steps_eq hsecond hup hup' hroot
      exact .inr (.inr (.inr (beginsHere_ne_of_steps hne hroot hsteps)))
    · exact .inr (.inr (.inl hroot))

theorem batchTargets_dotted :
    batchTargets ["a.md", "./a.txt"] none = .ok ["a.docx", "./a.docx"] :=
  batchTargets_eq_ok_iff.mpr ⟨by decide +kernel, by decide +kernel⟩

theorem targets_apart_dotted :
    components "a.docx" ≠ components "./a.docx" ∧
      Path.beginsHere "a.docx" ≠ Path.beginsHere "./a.docx" := by
  have hdots : Path.withoutDots "a.docx" = Path.withoutDots "./a.docx" := by decide +kernel
  obtain ⟨hne, hhere, -⟩ := List.rel_of_pairwise_cons (targets_apart batchTargets_dotted)
    (List.mem_singleton_self "./a.docx")
  exact ⟨hne, (hhere hdots).2⟩

/-- Two accepted targets can be one file. -/
theorem accepted_targets_one_file :
    ∃ targets, batchTargets ["a.md", "./a.txt"] none = .ok targets ∧
      ¬ targets.Pairwise (Path.withoutDots · ≠ Path.withoutDots ·) ∧
      ∀ target ∈ targets, FileTree.empty.Leads target ["a.docx".toList] := by
  refine ⟨_, batchTargets_dotted, by decide +kernel, ?_⟩
  rw [List.forall_mem_cons, List.forall_mem_singleton]
  constructor
  · exact ⟨[], [], "a.docx".toList, rfl, by decide, by decide, rfl, rfl⟩
  · exact ⟨[['.']], [], "a.docx".toList, rfl, by decide, by decide, rfl, rfl⟩

end Manuscript.CommandLine
