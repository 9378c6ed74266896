import Manuscript.Proofs.CommandLine.Batch
import Manuscript.Proofs.Text.Utf8Heads

/-!
# Runs over one input

A run over one input hands a package over, or it fails and leaves the tree as it is.  It needs a
style that is fit for use, a text, a package that is not too large and, if this goes to a file, a
place for it; nothing else can go wrong.
-/

namespace Manuscript.CommandLine

open Archive (Codec)
open Synthesizer (documentPartXml_of_convert)
open Wordprocessing (documentXml documentPartXml)

/-- The document part that a package has for every reader that takes so many bytes. -/
def HasDocument [Codec] (package : Bytes) (xml : String) : Prop :=
  ∀ limit, (Utf8.bytes xml).length ≤ limit → documentPartXml limit package = .ok xml

theorem hasDocument_of_convert [Codec] {made : Synthesizer} {text : String} {package : Bytes}
    (h : made.convert text = .ok package) :
    HasDocument package (documentXml made.style.fontFamily (made.document text)) :=
  fun _ hlimit => documentPartXml_of_convert h hlimit

/-- What is read for a run over one input, and the package that is made of it. -/
structure Ready [Codec] (source : Source) (input : String) (style : Option String)
    (noJustify : Bool) (made : Synthesizer) (text : String) (package : Bytes) : Prop where
  style : ∃ chosen, source.style style = .ok chosen ∧
    synthesizer (if noJustify then chosen.withJustifyBody false else chosen) = .ok made
  reads : source.text input = .ok text
  converts : made.convert text = .ok package

def singleTarget (output : Option String) (input : String) : String :=
  output.getD (defaultOutput input)

/-- A package that is to be written to a file needs a place for it. -/
def CanHandOver (tree : FileTree) (output : Option String) (input : String)
    (handover : Handover) : Prop :=
  handover = .file → tree.HasRoom (singleTarget output input)

def Accepted [Codec] (input : Bytes) (tree : FileTree) (path : String)
    (output style : Option String) (noJustify : Bool) (handover : Handover) : Prop :=
  (∃ made text package, Ready ⟨tree.read, input⟩ path style noJustify made text package) ∧
    CanHandOver tree output path handover

def payloadName (input : String) (name : Option String) : String :=
  name.getD ((Path.fileName? (defaultOutput input)).getD Delivery.defaultName)

/-- A run has handed over a package in the way that was asked for. -/
def HandedOver (handover : Handover) (output : Option String) (input : String) (package : Bytes)
    (ran : FileTree × Outcome) : Prop :=
  match handover with
  | .file =>
    ran.1.read (singleTarget output input) = .ok package ∧
      ran.2 = .success (savedTo (singleTarget output input))
  | .base64 => ran.2 = .success ((Delivery.ofBytes package).base64 ++ "\n")
  | .payload name =>
    ran.2 = .success
      (((Delivery.ofBytes package).withFileName (payloadName input name)).payload ++ "\n")

theorem HandedOver.status {handover : Handover} {output : Option String} {input : String}
    {package : Bytes} {ran : FileTree × Outcome}
    (h : HandedOver handover output input package ran) : ran.2.status = 0 := by
  cases handover with
  | file => exact congrArg Outcome.status h.2
  | base64 | payload => exact congrArg Outcome.status h

/-- A run has failed: it says why, and the tree is as it was. -/
def Failed (tree : FileTree) (ran : FileTree × Outcome) : Prop :=
  ∃ failure, ran = (tree, .failure "" failure)

theorem Failed.status {tree : FileTree} {ran : FileTree × Outcome} (h : Failed tree ran) :
    ran.2.status = 1 := by
  obtain ⟨failure, rfl⟩ := h
  rfl

def Succeeds [Codec] (environment : Option String) (words : List String) (input : Bytes)
    (tree : FileTree) : Prop :=
  (run environment words input tree).2.status = 0

theorem Failed.not_succeeds [Codec] {environment : Option String} {words : List String}
    {input : Bytes} {tree : FileTree} (h : Failed tree (run environment words input tree)) :
    ¬ Succeeds environment words input tree := by
  rw [Succeeds, h.status]
  exact Nat.one_ne_zero

section

variable {source : Source} {environment : Option String} {words : List String} {path : String}
  {output style : Option String} {noJustify : Bool} {handover : Handover} {made : Synthesizer}
  {text : String} {package : Bytes}

theorem convert_single [Codec] :
    convert source [path] output style noJustify handover = (do
      let chosen ← source.style style
      let made ← synthesizer (if noJustify then chosen.withJustifyBody false else chosen)
      convertOne source made path output handover) :=
  rfl

def handOver (handover : Handover) (output : Option String) (input : String)
    (package : Bytes) : Plan :=
  match handover with
  | .base64 => .done (.success ((Delivery.ofBytes package).base64 ++ "\n"))
  | .payload name =>
    .done (.success
      (((Delivery.ofBytes package).withFileName (payloadName input name)).payload ++ "\n"))
  | .file => saveOne (singleTarget output input) package

-- An equation says what the package is, and each step is taken by rewriting, so that it is never
-- evaluated.
theorem convertOne_eq_ok_iff [Codec] {plan : Plan} :
    convertOne source made path output handover = .ok plan ↔
      ∃ text package, source.text path = .ok text ∧ made.convert text = .ok package ∧
        plan = handOver handover output path package := by
  unfold convertOne
  cases htext : source.text path with
  | error failure => simp [bind, Except.bind]
  | ok text =>
      rw [ok_bind]
      cases hpackage : made.convert text with
      | error error => simp [hpackage]
      | ok package =>
          cases handover <;> simp [hpackage, handOver, payloadName, singleTarget, eq_comm]

theorem convert_single_eq_ok_iff [Codec] {plan : Plan} :
    convert source [path] output style noJustify handover = .ok plan ↔
      ∃ made text package, Ready source path style noJustify made text package ∧
        plan = handOver handover output path package := by
  rw [convert_single]
  constructor
  · intro h
    cases hstyle : source.style style with
    | error failure => simp [hstyle, bind, Except.bind] at h
    | ok chosen =>
        simp only [hstyle, bind, Except.bind] at h
        cases hmade : synthesizer (if noJustify then chosen.withJustifyBody false else chosen) with
        | error failure => simp [hmade] at h
        | ok made =>
            simp only [hmade] at h
            obtain ⟨text, package, htext, hpackage, hplan⟩ := convertOne_eq_ok_iff.mp h
            exact ⟨made, text, package, ⟨⟨chosen, hstyle, hmade⟩, htext, hpackage⟩, hplan⟩
  · rintro ⟨made, text, package, hready, hplan⟩
    obtain ⟨chosen, hstyle, hmade⟩ := hready.style
    simp only [hstyle, bind, Except.bind, hmade]
    exact convertOne_eq_ok_iff.mpr ⟨text, package, hready.reads, hready.converts, hplan⟩

theorem handedOver_perform {tree : FileTree} (package : Bytes)
    (hroom : CanHandOver tree output path handover) :
    HandedOver handover output path package
      ((handOver handover output path package).perform tree) := by
  cases handover with
  | base64 | payload => rfl
  | file =>
      obtain ⟨after, hwrite⟩ := FileTree.exists_write_iff.mpr (hroom rfl)
      rw [handOver, perform_saveOne_of_write hwrite]
      exact ⟨FileTree.read_of_write hwrite, rfl⟩

theorem failed_perform {tree : FileTree} (package : Bytes)
    (hroom : ¬ CanHandOver tree output path handover) :
    Failed tree ((handOver handover output path package).perform tree) := by
  simp only [CanHandOver, Classical.not_imp] at hroom
  obtain ⟨rfl, hroom⟩ := hroom
  cases hwrite : tree.write (singleTarget output path) package with
  | ok after => exact absurd (FileTree.exists_write_iff.mp ⟨after, hwrite⟩) hroom
  | error error =>
      rw [handOver, perform_saveOne_of_error hwrite]
      exact ⟨_, rfl⟩

theorem handedOver_run [Codec]
    (h : Command.ofArguments environment words =
      .ok (.convert [path] output style noJustify handover)) {input : Bytes} {tree : FileTree}
    (hready : Ready ⟨tree.read, input⟩ path style noJustify made text package)
    (hroom : CanHandOver tree output path handover) :
    HandedOver handover output path package (run environment words input tree) := by
  rw [run_convert h, convert_single_eq_ok_iff.mpr ⟨made, text, package, hready, rfl⟩]
  exact handedOver_perform package hroom

theorem failed_run [Codec]
    (h : Command.ofArguments environment words =
      .ok (.convert [path] output style noJustify handover)) {input : Bytes} {tree : FileTree}
    (hnot : ¬ Accepted input tree path output style noJustify handover) :
    Failed tree (run environment words input tree) := by
  rw [run_convert h]
  cases hconvert : convert ⟨tree.read, input⟩ [path] output style noJustify handover with
  | error failure => exact ⟨failure, rfl⟩
  | ok plan =>
      obtain ⟨made, text, package, hready, rfl⟩ := convert_single_eq_ok_iff.mp hconvert
      exact failed_perform package fun hroom => hnot ⟨⟨made, text, package, hready⟩, hroom⟩

theorem accepted_of_succeeds [Codec]
    (h : Command.ofArguments environment words =
      .ok (.convert [path] output style noJustify handover)) {input : Bytes} {tree : FileTree}
    (hsucceeds : Succeeds environment words input tree) :
    Accepted input tree path output style noJustify handover := by
  by_contra hnot
  exact (failed_run h hnot).not_succeeds hsucceeds

end

end Manuscript.CommandLine
