import Manuscript.CommandLine.Plan
import Manuscript.Proofs.FileTree
import Mathlib.Data.List.Forall2

/-!
# Carrying out writes

Writes change files and no directories.  So whether a write succeeds can be told before any of them
is carried out, and a failure stops none of the others.  Of several writes to one place, the last
one stays.
-/

namespace Manuscript.CommandLine

open Archive (Codec)

variable {tree after : FileTree} {w : Write} {ws : List Write}

/-- A write that can be carried out: there is something to write, and there is a place for it. -/
structure Write.Places (w : Write) (tree : FileTree) (location : Location) (content : Bytes) :
    Prop where
  content : w.content = .ok content
  leads : tree.Leads w.path location
  free : tree.node? location ≠ some .directory

theorem Write.perform_of_places {location : Location} {content : Bytes}
    (h : w.Places tree location content) :
    w.perform tree = (tree.put location (.file content), .ok ()) := by
  have hwrite : tree.write w.path content = .ok (tree.put location (.file content)) :=
    FileTree.write_eq_ok_iff.mpr ⟨location, h.leads, h.free, rfl⟩
  simp only [Write.perform, h.content, hwrite]

theorem Write.perform_of_not (w : Write) (tree : FileTree)
    (h : ¬ ∃ location content, w.Places tree location content) :
    ∃ failure, w.perform tree = (tree, .error failure) := by
  unfold Write.perform
  cases hcontent : w.content with
  | error error => exact ⟨.error error, rfl⟩
  | ok content =>
      simp only
      cases hwrite : tree.write w.path content with
      | error error => exact ⟨.system error, rfl⟩
      | ok written =>
          obtain ⟨location, hleads, hfree, -⟩ := FileTree.write_eq_ok_iff.mp hwrite
          exact absurd ⟨location, content, hcontent, hleads, hfree⟩ h

theorem Write.Places.iff_of_same (h : tree.SameDirectories after) {location : Location}
    {content : Bytes} : w.Places tree location content ↔ w.Places after location content := by
  constructor
  · rintro ⟨hcontent, hleads, hfree⟩
    exact ⟨hcontent, h.leads_iff.mp hleads, fun hnode => hfree ((h.directories location).mpr hnode)⟩
  · rintro ⟨hcontent, hleads, hfree⟩
    exact ⟨hcontent, h.leads_iff.mpr hleads, fun hnode => hfree ((h.directories location).mp hnode)⟩

theorem Write.sameDirectories_perform (w : Write) (tree : FileTree) :
    tree.SameDirectories (w.perform tree).1 := by
  by_cases h : ∃ location content, w.Places tree location content
  · obtain ⟨location, content, hplaces⟩ := h
    rw [Write.perform_of_places hplaces]
    exact .put_file hplaces.free content
  · obtain ⟨failure, hfailed⟩ := w.perform_of_not tree h
    rw [hfailed]
    exact .refl tree

theorem Write.isOk_perform (w : Write) (tree : FileTree) :
    (w.perform tree).2.isOk = true ↔ ∃ location content, w.Places tree location content := by
  by_cases h : ∃ location content, w.Places tree location content
  · obtain ⟨location, content, hplaces⟩ := h
    rw [Write.perform_of_places hplaces]
    exact iff_of_true rfl ⟨location, content, hplaces⟩
  · obtain ⟨failure, hfailed⟩ := w.perform_of_not tree h
    rw [hfailed]
    exact iff_of_false Bool.false_ne_true h

theorem Write.node?_perform {location : Location}
    (h : ∀ content, ¬ w.Places tree location content) :
    (w.perform tree).1.node? location = tree.node? location := by
  by_cases hplace : ∃ place content, w.Places tree place content
  · obtain ⟨place, content, hplaces⟩ := hplace
    have hne : location ≠ place := by
      rintro rfl
      exact h content hplaces
    rw [Write.perform_of_places hplaces]
    exact FileTree.node?_put_of_ne _ hne
  · obtain ⟨failure, hfailed⟩ := w.perform_of_not tree hplace
    rw [hfailed]

theorem Write.exists_places_iff :
    (∃ location content, w.Places tree location content) ↔
      ∃ content written, w.content = .ok content ∧ tree.write w.path content = .ok written := by
  constructor
  · rintro ⟨location, content, hcontent, hleads, hfree⟩
    exact ⟨content, _, hcontent, FileTree.write_eq_ok_iff.mpr ⟨location, hleads, hfree, rfl⟩⟩
  · rintro ⟨content, written, hcontent, hwrite⟩
    obtain ⟨location, hleads, hfree, -⟩ := FileTree.write_eq_ok_iff.mp hwrite
    exact ⟨location, content, hcontent, hleads, hfree⟩

namespace Write

theorem performAll_cons (tree : FileTree) (w : Write) (ws : List Write) :
    performAll tree (w :: ws) =
      ((performAll (w.perform tree).1 ws).1,
        (w.perform tree).2 :: (performAll (w.perform tree).1 ws).2) :=
  rfl

theorem performAll_append (tree : FileTree) (ws more : List Write) :
    (performAll tree (ws ++ more)).1 = (performAll (performAll tree ws).1 more).1 := by
  induction ws generalizing tree with
  | nil => rfl
  | cons w ws ih =>
      rw [List.cons_append, performAll_cons, performAll_cons]
      exact ih (w.perform tree).1

theorem sameDirectories_performAll (tree : FileTree) (ws : List Write) :
    tree.SameDirectories (performAll tree ws).1 := by
  induction ws generalizing tree with
  | nil => exact .refl tree
  | cons w ws ih =>
      rw [performAll_cons]
      exact (w.sameDirectories_perform tree).trans (ih (w.perform tree).1)

theorem isOk_performAll (tree : FileTree) (ws : List Write) :
    List.Forall₂ (fun w result => result.isOk = true ↔ ∃ location content,
      w.Places tree location content) ws (performAll tree ws).2 := by
  induction ws generalizing tree with
  | nil => exact .nil
  | cons w ws ih =>
      rw [performAll_cons]
      refine .cons (w.isOk_perform tree) ((ih (w.perform tree).1).imp ?_)
      intro other result h
      simpa only [Places.iff_of_same (w.sameDirectories_perform tree)] using h

/-- What no write places anything at stays as it was. -/
theorem node?_performAll {location : Location}
    (h : ∀ w ∈ ws, ∀ content, ¬ w.Places tree location content) :
    (performAll tree ws).1.node? location = tree.node? location := by
  induction ws generalizing tree with
  | nil => rfl
  | cons w ws ih =>
      rw [List.forall_mem_cons] at h
      rw [performAll_cons, ← Write.node?_perform h.1]
      apply ih
      intro other hother content
      rw [← Places.iff_of_same (w.sameDirectories_perform tree)]
      exact h.2 other hother content

/-- The last write to a place stays. -/
theorem node?_performAll_last (before : List Write) {location : Location} {content : Bytes}
    (h : w.Places tree location content)
    (hlast : ∀ other ∈ ws, ∀ content, ¬ other.Places tree location content) :
    (performAll tree (before ++ w :: ws)).1.node? location = some (.file content) := by
  have hbefore := sameDirectories_performAll tree before
  rw [performAll_append, performAll_cons]
  have hplaces := (Places.iff_of_same hbefore).mp h
  have hsame := hbefore.trans (w.sameDirectories_perform (performAll tree before).1)
  rw [node?_performAll]
  · rw [Write.perform_of_places hplaces]
    exact FileTree.node?_put _ hplaces.leads.ne_nil
  · intro other hother content
    rw [← Places.iff_of_same hsame]
    exact hlast other hother content

end Write

theorem Plan.perform_done (outcome : Outcome) (tree : FileTree) :
    (Plan.done outcome).perform tree = (tree, outcome) :=
  rfl

theorem perform_saveOne_of_write {path : String} {content : Bytes}
    (h : tree.write path content = .ok after) :
    (saveOne path content).perform tree = (after, .success (savedTo path)) := by
  simp only [saveOne, Plan.perform, Write.performAll, Write.perform, h]

theorem perform_saveOne_of_error {path : String} {content : Bytes} {error : SystemError}
    (h : tree.write path content = .error error) :
    (saveOne path content).perform tree = (tree, .failure "" (.system error)) := by
  simp only [saveOne, Plan.perform, Write.performAll, Write.perform, h]

/-- A run carries out the plan of its command, or says why there is none. -/
theorem run_command [Codec] {environment : Option String} {words : List String} {command : Command}
    (h : Command.ofArguments environment words = .ok command) (input : Bytes) (tree : FileTree) :
    run environment words input tree =
      match command.attempt ⟨tree.read, input⟩ with
      | .ok plan => plan.perform tree
      | .error failure => (tree, .failure "" failure) := by
  simp only [run, h, Command.plan]
  cases command.attempt ⟨tree.read, input⟩ with
  | error failure => rfl
  | ok plan => rfl

end Manuscript.CommandLine
