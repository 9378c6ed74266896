import Mathlib.Data.List.Perm.Basic
import Manuscript.Proofs.Wordprocessing.Nesting

/-!
# What becomes of the text of a damaged document

Paragraphs may be left open, and text elements may stand outside of them or go on after their end.
A ledger of the events tells where every text goes: to the innermost open paragraph or, if there is
none, nowhere.  What is read is exactly what the ledger gives to the paragraphs, and there is one
warning for each text that goes nowhere.
-/

namespace Manuscript.Wordprocessing

open Xml (Event)

/-- What becomes of some text. -/
inductive Posting where
  | given (paragraph : Nat) (cs : List Char)
  | stray (cs : List Char)
  deriving DecidableEq, Repr

namespace Posting

def share (i : Nat) : Posting → List Char
  | given j cs => if j = i then cs else []
  | stray _ => []

def warning? : Posting → Option Warning
  | given _ _ => none
  | stray _ => some .strayText

end Posting

@[simp]
theorem Progress.warnings_add (progress : Progress) (cs : List Char) :
    (progress.add cs).warnings = progress.warnings := by
  unfold add
  split <;> rfl

namespace Outline

/-- A text goes to the innermost open paragraph. -/
def posted (outline : Outline) (cs : List Char) : Posting :=
  match outline.opened with
  | [] => .stray cs
  | i :: _ => .given i cs

/-- So does a character that an element stands for, but outside of all paragraphs it stands for
nothing. -/
def postedChar? (outline : Outline) (c : Char) : Option Posting :=
  outline.opened.head?.map fun i => .given i [c]

/-- The posting for an event: texts count only in text elements. -/
def posting? (outline : Outline) : Event → Option Posting
  | .start name | .empty name =>
    match meaning name with
    | .char c => outline.postedChar? c
    | .paragraph | .text | .nothing => none
  | .finish _ => none
  | .text content =>
    if outline.inText then
      some (outline.posted ((Xml.unescape content).toOption.getD []))
    else none

def ledgerFrom (outline : Outline) : List Event → List Posting
  | [] => []
  | event :: events => (outline.posting? event).toList ++ ledgerFrom (outline.step event) events

def begins : Event → Bool
  | .start name | .empty name => meaning name = .paragraph
  | .finish _ | .text _ => false

variable {outline : Outline} {event : Event} {i : Nat}

theorem ledgerFrom_append (outline : Outline) (events events' : List Event) :
    ledgerFrom outline (events ++ events') =
      ledgerFrom outline events ++ ledgerFrom (events.foldl step outline) events' := by
  induction events generalizing outline with
  | nil => rfl
  | cons event events ih =>
      rw [List.cons_append, ledgerFrom, ledgerFrom, ih, List.append_assoc, List.foldl_cons]

@[simp]
theorem begun_add (outline : Outline) (cs : List Char) :
    (outline.add cs).begun = outline.begun := by
  unfold add
  split <;> rfl

theorem begun_step (outline : Outline) (event : Event) :
    (outline.step event).begun = outline.begun + if begins event then 1 else 0 := by
  cases event with
  | start name => cases hname : meaning name <;> simp [step, begins, hname]
  | empty name => cases hname : meaning name <;> simp [step, begins, hname]
  | finish name =>
      cases hname : meaning name <;> cases hopened : outline.opened <;>
        simp [step, begins, hname, hopened]
  | text content =>
      simp only [step]
      split <;> simp [begins]

theorem begun_foldl (outline : Outline) (events : List Event) :
    (events.foldl step outline).begun = outline.begun + events.countP begins := by
  induction events generalizing outline with
  | nil => rfl
  | cons event events ih =>
      rw [List.foldl_cons, ih, begun_step, List.countP_cons]
      omega

theorem textOf_add (outline : Outline) (cs : List Char) (i : Nat) :
    textOf (outline.add cs).pieces i =
      textOf outline.pieces i ++ (outline.posted cs).share i := by
  cases hopened : outline.opened with
  | nil => simp [add, posted, Posting.share, hopened]
  | cons j outer =>
      simp only [add, posted, Posting.share, hopened, textOf_cons]
      split <;> simp

theorem share_postedChar? (outline : Outline) (c : Char) (i : Nat) :
    (outline.postedChar? c).toList.flatMap (Posting.share i) =
      (outline.posted [c]).share i := by
  cases hopened : outline.opened <;> simp [postedChar?, posted, Posting.share, hopened]

theorem textOf_step (outline : Outline) (event : Event) (i : Nat) :
    textOf (outline.step event).pieces i =
      textOf outline.pieces i ++ (outline.posting? event).toList.flatMap (Posting.share i) := by
  cases event with
  | start name =>
      cases hname : meaning name <;> simp [step, posting?, hname, textOf_add, share_postedChar?]
  | empty name =>
      cases hname : meaning name <;> simp [step, posting?, hname, textOf_add, share_postedChar?]
  | finish name =>
      cases hname : meaning name <;> cases hopened : outline.opened <;>
        simp [step, posting?, hname, hopened]
  | text content =>
      simp only [step, posting?]
      split <;> simp [textOf_add]

theorem textOf_foldl (outline : Outline) (events : List Event) (i : Nat) :
    textOf (events.foldl step outline).pieces i =
      textOf outline.pieces i ++ (ledgerFrom outline events).flatMap (Posting.share i) := by
  induction events generalizing outline with
  | nil => simp [ledgerFrom]
  | cons event events ih =>
      rw [List.foldl_cons, ih, textOf_step, ledgerFrom, List.flatMap_append, List.append_assoc]

theorem mem_opened_of_posted {cs cs' : List Char} (h : outline.posted cs = .given i cs') :
    i ∈ outline.opened := by
  unfold posted at h
  split at h
  · cases h
  · next j outer hopened =>
      cases h
      simp [hopened]

theorem mem_opened_of_postedChar? {c : Char} {cs : List Char}
    (h : outline.postedChar? c = some (.given i cs)) : i ∈ outline.opened := by
  obtain ⟨j, hj, heq⟩ := Option.map_eq_some_iff.mp h
  cases heq
  exact List.mem_of_head? hj

theorem mem_opened_of_posting? {cs : List Char} (h : outline.posting? event = some (.given i cs)) :
    i ∈ outline.opened := by
  cases event with
  | start name | empty name =>
      simp only [posting?] at h
      split at h
      · exact mem_opened_of_postedChar? h
      all_goals cases h
  | finish name => cases h
  | text content =>
      simp only [posting?] at h
      split at h
      · exact mem_opened_of_posted (Option.some_inj.mp h)
      · cases h

theorem IsNumbered.lt_of_mem_ledgerFrom (h : IsNumbered outline) {events : List Event}
    {cs : List Char} (hmem : .given i cs ∈ ledgerFrom outline events) :
    i < (events.foldl step outline).begun := by
  induction events generalizing outline with
  | nil => cases hmem
  | cons event events ih =>
      rw [ledgerFrom, List.mem_append, Option.mem_toList] at hmem
      rcases hmem with hposting | hlater
      · have hlt : i < outline.begun := (h.mem_iff i).mp (.inr (mem_opened_of_posting? hposting))
        rw [begun_foldl]
        exact Nat.lt_add_right _ hlt
      · exact ih (h.moves (moves_step outline event)) hlater

/-! ## Warnings -/

theorem filterMap_postedChar? (outline : Outline) (c : Char) :
    (outline.postedChar? c).toList.filterMap Posting.warning? = [] := by
  cases hopened : outline.opened <;> simp [postedChar?, Posting.warning?, hopened]

namespace Numbers

variable {progress after : Progress}

theorem allWarnings (h : Numbers outline progress) :
    progress.allWarnings = progress.warnings.reverse ++
      if outline.opened = [] then [] else [.unclosed outline.opened.length] := by
  rw [Progress.allWarnings, h.opened, List.length_map]
  cases outline.opened <;> rfl

theorem warnings_addText (h : Numbers outline progress) (cs : List Char) :
    (progress.addText cs).warnings.reverse =
      progress.warnings.reverse ++ (outline.posted cs).warning?.toList := by
  have hopened := h.opened
  cases hlist : outline.opened with
  | nil => simp [Progress.addText, posted, Posting.warning?, hopened, hlist]
  | cons i outer =>
      simp [Progress.addText, Progress.add, posted, Posting.warning?, hopened, hlist]

theorem warnings_step (h : Numbers outline progress) (hstep : progress.step event = .ok after) :
    after.warnings.reverse =
      progress.warnings.reverse ++ (outline.posting? event).toList.filterMap Posting.warning? := by
  cases event with
  | start name | empty name =>
      cases hname : meaning name <;>
        simp only [Progress.step, hname, Except.ok.injEq] at hstep <;> subst hstep <;>
        simp [posting?, hname, filterMap_postedChar?]
  | finish name =>
      cases hname : meaning name <;> simp only [Progress.step, hname] at hstep
      case paragraph =>
        split at hstep <;> cases hstep <;> simp [posting?]
      all_goals
        cases hstep
        simp [posting?]
  | text content =>
      rw [posting?]
      split
      · next hinText =>
          obtain ⟨cs, hcontent, rfl⟩ :=
            Progress.exists_of_step_text hstep (h.inText.trans hinText)
          rw [hcontent, h.warnings_addText]
          rfl
      · next hinText =>
          rw [← h.inText] at hinText
          rw [Progress.step, if_neg hinText] at hstep
          cases hstep
          simp

theorem warnings_run (h : Numbers outline progress) (hnumbered : IsNumbered outline)
    {events : List Event} (hrun : progress.run events = (after, none)) :
    after.warnings.reverse =
      progress.warnings.reverse ++ (ledgerFrom outline events).filterMap Posting.warning? := by
  induction events generalizing outline progress with
  | nil =>
      cases hrun
      simp [ledgerFrom]
  | cons event events ih =>
      rw [Progress.run] at hrun
      split at hrun
      · next next hstep =>
          have hlater := ih (h.step hnumbered hstep) (hnumbered.moves (moves_step _ _)) hrun
          rw [hlater, h.warnings_step hstep, ledgerFrom, List.filterMap_append, List.append_assoc]
      · cases hrun

theorem exists_unescape (h : Numbers outline progress) (hnumbered : IsNumbered outline)
    {front back : List Event} {content : List Char}
    (hrun : progress.run (front ++ .text content :: back) = (after, none))
    (hinText : (front.foldl Outline.step outline).inText = true) :
    ∃ cs, Xml.unescape content = .ok cs := by
  induction front generalizing outline progress with
  | nil =>
      rw [List.nil_append, Progress.run] at hrun
      split at hrun
      · next next hstep =>
          obtain ⟨cs, hcontent, -⟩ :=
            Progress.exists_of_step_text hstep (h.inText.trans hinText)
          exact ⟨cs, hcontent⟩
      · cases hrun
  | cons event front ih =>
      rw [List.cons_append, Progress.run] at hrun
      split at hrun
      · next next hstep =>
          exact ih (h.step hnumbered hstep) (hnumbered.moves (moves_step _ _)) hrun hinText
      · cases hrun

end Numbers

theorem ledgerFrom_text {content cs : List Char} (hinText : outline.inText = true)
    (hcontent : Xml.unescape content = .ok cs) (events : List Event) :
    ledgerFrom outline (.text content :: events) =
      outline.posted cs :: ledgerFrom (outline.step (.text content)) events := by
  rw [ledgerFrom, posting?, if_pos hinText, hcontent]
  rfl

end Outline

/-! ## Whole documents -/

open Outline (begins begun_foldl isNumbered_ofEvents isNumbered_start ledgerFrom ledgerFrom_append
  ledgerFrom_text ofEvents textOf_foldl)

def ledger (xml : String) : List Posting :=
  ledgerFrom {} (Xml.events xml).1

theorem textOf_pieces_outline (xml : String) (i : Nat) :
    Outline.textOf (outline xml).pieces i = (ledger xml).flatMap (Posting.share i) :=
  textOf_foldl {} _ i

theorem begun_outline (xml : String) :
    (outline xml).begun = (Xml.events xml).1.countP begins := by
  rw [outline, ofEvents, begun_foldl, Nat.zero_add]

theorem perm_order_outline (xml : String) :
    (outline xml).order.Perm (List.range (outline xml).begun) := by
  have hnumbered := isNumbered_ofEvents (Xml.events xml).1
  refine (List.perm_ext_iff_of_nodup hnumbered.nodup_order List.nodup_range).mpr fun i => ?_
  rw [List.mem_range]
  exact hnumbered.mem_order i

theorem mem_order_of_mem_ledger {xml : String} {i : Nat} {cs : List Char}
    (h : .given i cs ∈ ledger xml) : i ∈ (outline xml).order :=
  ((isNumbered_ofEvents (Xml.events xml).1).mem_order i).mpr
    (isNumbered_start.lt_of_mem_ledgerFrom h)

theorem value_paragraphTexts_ledger {xml : String} {texts : List String}
    (h : (paragraphTexts xml).value = .ok texts) :
    texts = (outline xml).order.map fun i =>
      String.ofList ((ledger xml).flatMap (Posting.share i)) := by
  simpa only [textOf_pieces_outline] using value_paragraphTexts h

/-- Whenever the paragraphs of a document are read, closed or not, each that begins gives one text.
The texts hold what the ledger gives to the paragraphs and nothing else, and every posting that is
given has its paragraph among them.  Each text in a text element has one posting, for the innermost
open paragraph if there is one, or else with a warning of its own.  One more warning tells how many
paragraphs are left open, if there are any. -/
theorem paragraphTexts_ledger {xml : String} {texts : List String}
    (h : (paragraphTexts xml).value = .ok texts) :
    texts.length = (Xml.events xml).1.countP begins ∧
      (outline xml).order.Perm (List.range texts.length) ∧
      (texts = (outline xml).order.map fun i =>
        String.ofList ((ledger xml).flatMap (Posting.share i))) ∧
      (∀ i cs, .given i cs ∈ ledger xml → i ∈ (outline xml).order) ∧
      (∀ front content back, (Xml.events xml).1 = front ++ .text content :: back →
        (ofEvents front).inText = true →
        ∃ cs, Xml.unescape content = .ok cs ∧
          ledger xml = ledgerFrom {} front ++ (ofEvents front).posted cs ::
            ledgerFrom (ofEvents (front ++ [.text content])) back) ∧
      (paragraphTexts xml).warnings = (ledger xml).filterMap Posting.warning? ++
        if (outline xml).opened = [] then [] else [.unclosed (outline xml).opened.length] := by
  have hlength : texts.length = (outline xml).begun := by
    rw [value_paragraphTexts h, List.length_map, (perm_order_outline xml).length_eq,
      List.length_range]
  obtain ⟨progress, hrun, -, hwarnings⟩ := exists_run_of_value h
  have hstart : Outline.Numbers {} {} := ⟨rfl, rfl, rfl⟩
  refine ⟨by rw [hlength, begun_outline], by rw [hlength]; exact perm_order_outline xml,
    value_paragraphTexts_ledger h, fun i cs => mem_order_of_mem_ledger,
    fun front content back hevents hinText => ?_, ?_⟩
  · rw [hevents] at hrun
    obtain ⟨cs, hcontent⟩ := hstart.exists_unescape isNumbered_start hrun hinText
    refine ⟨cs, hcontent, ?_⟩
    rw [ledger, hevents, ledgerFrom_append]
    change _ ++ ledgerFrom (ofEvents front) _ = _
    rw [ledgerFrom_text hinText hcontent, ofEvents, ofEvents, List.foldl_append]
    rfl
  · rw [hwarnings, (numbers_outline hrun).allWarnings, hstart.warnings_run isNumbered_start hrun]
    rfl

theorem paragraphTexts_ledger_damaged :
    (paragraphTexts "<t>x<p>a<p/><tab/></p></t><p><t>b").value = .ok ["", "a\t", "b"] ∧
      ledger "<t>x<p>a<p/><tab/></p></t><p><t>b" =
        [.stray ['x'], .given 0 ['a'], .given 0 ['\t'], .given 2 ['b']] ∧
      (outline "<t>x<p>a<p/><tab/></p></t><p><t>b").order.Perm [0, 1, 2] ∧
      (paragraphTexts "<t>x<p>a<p/><tab/></p></t><p><t>b").warnings =
        [.strayText, .unclosed 1] := by
  have hevents : Xml.events "<t>x<p>a<p/><tab/></p></t><p><t>b" =
      ([.start ['t'], .text ['x'], .start ['p'], .text ['a'], .empty ['p'],
        .empty ['t', 'a', 'b'], .finish ['p'], .finish ['t'], .start ['p'], .start ['t'],
        .text ['b']], none) := by
    decide +kernel
  have hvalue : (paragraphTexts "<t>x<p>a<p/><tab/></p></t><p><t>b").value =
      .ok ["", "a\t", "b"] := by
    simp only [paragraphTexts, hevents]
    cbv
  have hledger : ledger "<t>x<p>a<p/><tab/></p></t><p><t>b" =
      [.stray ['x'], .given 0 ['a'], .given 0 ['\t'], .given 2 ['b']] := by
    rw [ledger, hevents]
    cbv
  have hopened : (outline "<t>x<p>a<p/><tab/></p></t><p><t>b").opened = [2] := by
    rw [outline, hevents]
    rfl
  obtain ⟨-, horder, -, -, -, hwarnings⟩ := paragraphTexts_ledger hvalue
  refine ⟨hvalue, hledger, horder, ?_⟩
  rw [hwarnings, hledger, hopened]
  rfl

end Manuscript.Wordprocessing
