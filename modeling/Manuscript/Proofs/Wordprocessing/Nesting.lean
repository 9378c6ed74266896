import Mathlib.Data.List.Nodup
import Manuscript.Proofs.Wordprocessing.RoundTrip

/-!
# The order of paragraphs

Paragraphs are numbered in the order in which they begin, so that each of the texts that are read
can be traced to its paragraph, whether the tags of the document are balanced or not.  A paragraph
that begins inside of another one is given before it.  The exception are paragraphs that never
end: of two of them the outer one is given first.
-/

namespace Manuscript.Wordprocessing

open Xml (Event)

theorem Progress.exists_of_step_text {progress after : Progress} {content : List Char}
    (h : progress.step (.text content) = .ok after) (hinText : progress.inText = true) :
    ∃ cs, Xml.unescape content = .ok cs ∧ after = progress.addText cs := by
  rw [step, if_pos hinText] at h
  cases hcontent : Xml.unescape content with
  | error fault =>
      rw [hcontent] at h
      cases h
  | ok cs =>
      rw [hcontent] at h
      cases h
      exact ⟨cs, rfl, rfl⟩

/-- The paragraphs of some events, by their numbers, and the pieces of text that belong to them. -/
structure Outline where
  begun : Nat := 0
  /-- The paragraphs that have ended, the latest first. -/
  ended : List Nat := []
  /-- The open paragraphs, the innermost first. -/
  opened : List Nat := []
  inText : Bool := false
  /-- The pieces of text with their paragraphs, the latest first. -/
  pieces : List (Nat × List Char) := []

namespace Outline

def add (outline : Outline) (cs : List Char) : Outline :=
  match outline.opened with
  | [] => outline
  | i :: _ => { outline with pieces := (i, cs) :: outline.pieces }

def step (outline : Outline) : Event → Outline
  | .start name =>
    match meaning name with
    | .paragraph =>
      { outline with begun := outline.begun + 1, opened := outline.begun :: outline.opened }
    | .text => { outline with inText := true }
    | .char c => outline.add [c]
    | .nothing => outline
  | .empty name =>
    match meaning name with
    | .paragraph =>
      { outline with begun := outline.begun + 1, ended := outline.begun :: outline.ended }
    | .char c => outline.add [c]
    | .text | .nothing => outline
  | .finish name =>
    match meaning name with
    | .paragraph =>
      match outline.opened with
      | [] => outline
      | i :: outer => { outline with ended := i :: outline.ended, opened := outer }
    | .text => { outline with inText := false }
    | .char _ | .nothing => outline
  | .text content =>
    if outline.inText then outline.add ((Xml.unescape content).toOption.getD []) else outline

def ofEvents (events : List Event) : Outline :=
  events.foldl step {}

def order (outline : Outline) : List Nat :=
  outline.ended.reverse ++ outline.opened.reverse

def textOf (pieces : List (Nat × List Char)) (i : Nat) : List Char :=
  (pieces.reverse.filter (·.1 = i)).flatMap (·.2)

def BeginsIn (events : List Event) (i j : Nat) : Prop :=
  ∃ front event back name, events = front ++ event :: back ∧
    (event = .start name ∨ event = .empty name) ∧ meaning name = .paragraph ∧
    i ∈ (ofEvents front).opened ∧ j = (ofEvents front).begun

structure IsNumbered (outline : Outline) : Prop where
  nodup : (outline.ended ++ outline.opened).Nodup
  mem_iff : ∀ i, i ∈ outline.ended ∨ i ∈ outline.opened ↔ i < outline.begun
  pieces_lt : ∀ piece ∈ outline.pieces, piece.1 < outline.begun

/-- What a single event does to the lists of paragraphs. -/
inductive Moves (outline next : Outline) : Prop
  | stay (hbegun : next.begun = outline.begun) (hended : next.ended = outline.ended)
      (hopened : next.opened = outline.opened)
      (hpieces : next.pieces = outline.pieces ∨
        ∃ i ∈ outline.opened, ∃ cs, next.pieces = (i, cs) :: outline.pieces)
  | begin (hbegun : next.begun = outline.begun + 1) (hended : next.ended = outline.ended)
      (hopened : next.opened = outline.begun :: outline.opened)
      (hpieces : next.pieces = outline.pieces)
  | pass (hbegun : next.begun = outline.begun + 1)
      (hended : next.ended = outline.begun :: outline.ended)
      (hopened : next.opened = outline.opened) (hpieces : next.pieces = outline.pieces)
  | finish (i : Nat) (hbegun : next.begun = outline.begun)
      (hended : next.ended = i :: outline.ended) (hopened : outline.opened = i :: next.opened)
      (hpieces : next.pieces = outline.pieces)

theorem moves_add (outline : Outline) (cs : List Char) : Moves outline (outline.add cs) := by
  unfold add
  split
  · exact .stay rfl rfl rfl (.inl rfl)
  · next i outer hopened => exact .stay rfl rfl rfl (.inr ⟨i, by simp [hopened], cs, rfl⟩)

theorem moves_step (outline : Outline) (event : Event) : Moves outline (outline.step event) := by
  have hstay : ∀ flag, Moves outline { outline with inText := flag } := fun flag =>
    .stay rfl rfl rfl (.inl rfl)
  cases event with
  | start name =>
      simp only [step]
      split
      · exact .begin rfl rfl rfl rfl
      · exact hstay true
      · exact moves_add outline _
      · exact hstay outline.inText
  | empty name =>
      simp only [step]
      split
      · exact .pass rfl rfl rfl rfl
      · exact moves_add outline _
      · exact hstay outline.inText
      · exact hstay outline.inText
  | finish name =>
      simp only [step]
      split
      · split
        · exact hstay outline.inText
        · next i outer hopened => exact .finish i rfl rfl hopened rfl
      · exact hstay false
      · exact hstay outline.inText
      · exact hstay outline.inText
  | text content =>
      simp only [step]
      split
      · exact moves_add outline _
      · exact hstay outline.inText

variable {outline next : Outline} {i j : Nat}

theorem isNumbered_start : IsNumbered {} := by
  constructor <;> simp

theorem IsNumbered.not_mem (h : IsNumbered outline) :
    outline.begun ∉ outline.ended ∧ outline.begun ∉ outline.opened := by
  rw [← not_or, h.mem_iff]
  exact lt_irrefl _

theorem IsNumbered.moves (h : IsNumbered outline) (hmoves : Moves outline next) :
    IsNumbered next := by
  obtain ⟨hnodup, hmem, hpieces⟩ := h
  have hfresh : outline.begun ∉ outline.ended ++ outline.opened := by
    simpa using IsNumbered.not_mem ⟨hnodup, hmem, hpieces⟩
  have hlater : ∀ piece ∈ outline.pieces, piece.1 < outline.begun + 1 := fun piece hpiece =>
    Nat.lt_succ_of_lt (hpieces piece hpiece)
  cases hmoves with
  | stay hbegun hended hopened hmore =>
      refine ⟨by rwa [hended, hopened], by rwa [hended, hopened, hbegun], ?_⟩
      rw [hbegun]
      rcases hmore with hsame | ⟨i, hi, cs, hmore⟩
      · rwa [hsame]
      · rw [hmore]
        exact List.forall_mem_cons.mpr ⟨(hmem i).mp (.inr hi), hpieces⟩
  | begin hbegun hended hopened hsame =>
      refine ⟨?_, fun i => ?_, by rwa [hsame, hbegun]⟩
      · rw [hended, hopened]
        exact List.nodup_middle.mpr (List.nodup_cons.mpr ⟨hfresh, hnodup⟩)
      · rw [hended, hopened, hbegun, List.mem_cons, Nat.lt_succ_iff_lt_or_eq, ← hmem i]
        tauto
  | pass hbegun hended hopened hsame =>
      refine ⟨?_, fun i => ?_, by rwa [hsame, hbegun]⟩
      · rw [hended, hopened, List.cons_append]
        exact List.nodup_cons.mpr ⟨hfresh, hnodup⟩
      · rw [hended, hopened, hbegun, List.mem_cons, Nat.lt_succ_iff_lt_or_eq, ← hmem i]
        tauto
  | finish i hbegun hended hopened hsame =>
      refine ⟨?_, fun k => ?_, by rwa [hsame, hbegun]⟩
      · rw [hopened] at hnodup
        rw [hended, List.cons_append]
        exact List.nodup_middle.mp hnodup
      · have := hmem k
        rw [hopened, List.mem_cons] at this
        rw [hended, hbegun, List.mem_cons]
        tauto

theorem isNumbered_ofEvents (events : List Event) : IsNumbered (ofEvents events) := by
  induction events using List.reverseRecOn with
  | nil => exact isNumbered_start
  | append_singleton events event ih =>
      rw [ofEvents, List.foldl_append]
      exact ih.moves (moves_step _ event)

theorem IsNumbered.nodup_order (h : IsNumbered outline) : outline.order.Nodup := by
  rw [order, ← List.reverse_append, List.nodup_reverse]
  exact List.nodup_append_comm.mp h.nodup

theorem IsNumbered.mem_order (h : IsNumbered outline) (i : Nat) :
    i ∈ outline.order ↔ i < outline.begun := by
  rw [order, List.mem_append, List.mem_reverse, List.mem_reverse, h.mem_iff]

/-! ## Inner paragraphs end first -/

/-- Of an inner paragraph and an outer one, either both are open, or the inner one has ended, or
both have ended, the inner one first. -/
def IsNested (outline : Outline) (outer inner : Nat) : Prop :=
  [inner, outer].Sublist outline.opened ∨ inner ∈ outline.ended ∧ outer ∈ outline.opened ∨
    [outer, inner].Sublist outline.ended

theorem IsNested.moves (h : IsNested outline i j) (hmoves : Moves outline next) :
    IsNested next i j := by
  cases hmoves with
  | stay hbegun hended hopened hmore => rwa [IsNested, hended, hopened]
  | begin hbegun hended hopened hsame =>
      rw [IsNested, hended, hopened]
      rcases h with h | ⟨hj, hi⟩ | h
      · exact .inl (h.cons _)
      · exact .inr (.inl ⟨hj, by simp [hi]⟩)
      · exact .inr (.inr h)
  | pass hbegun hended hopened hsame =>
      rw [IsNested, hended, hopened]
      rcases h with h | ⟨hj, hi⟩ | h
      · exact .inl h
      · exact .inr (.inl ⟨by simp [hj], hi⟩)
      · exact .inr (.inr (h.cons _))
  | finish k hbegun hended hopened hsame =>
      rw [IsNested, hended]
      rw [IsNested, hopened] at h
      rcases h with h | ⟨hj, hi⟩ | h
      · -- If the innermost paragraph is one of the two, it is the inner one.
        rcases List.sublist_cons_iff.mp h with h | ⟨rest, heq, hrest⟩
        · exact .inl h
        · cases heq
          exact .inr (.inl ⟨by simp, List.singleton_sublist.mp hrest⟩)
      · rcases List.mem_cons.mp hi with rfl | hi
        · exact .inr (.inr ((List.singleton_sublist.mpr hj).cons_cons i))
        · exact .inr (.inl ⟨by simp [hj], hi⟩)
      · exact .inr (.inr (h.cons k))

theorem IsNested.foldl (h : IsNested outline i j) (events : List Event) :
    IsNested (events.foldl step outline) i j := by
  induction events generalizing outline with
  | nil => exact h
  | cons event events ih => exact ih (h.moves (moves_step outline event))

theorem BeginsIn.isNested {events : List Event} (h : BeginsIn events i j) :
    IsNested (ofEvents events) i j := by
  obtain ⟨front, event, back, name, rfl, hevent, hname, hi, rfl⟩ := h
  rw [ofEvents, List.foldl_append, List.foldl_cons]
  apply IsNested.foldl
  change IsNested (step (ofEvents front) event) i (ofEvents front).begun
  rcases hevent with rfl | rfl
  · exact .inl (by simpa [step, hname] using hi)
  · exact .inr (.inl (by simpa [step, hname] using hi))

/-- The inner paragraph is given first, unless both are left open. -/
theorem IsNested.order (h : IsNested outline i j) (hnumbered : IsNumbered outline) :
    if i ∈ outline.opened ∧ j ∈ outline.opened then [i, j].Sublist outline.order
    else [j, i].Sublist outline.order := by
  have hdisjoint := List.disjoint_of_nodup_append hnumbered.nodup
  rcases h with h | ⟨hj, hi⟩ | h
  · have hboth : i ∈ outline.opened ∧ j ∈ outline.opened :=
      ⟨h.subset (by simp), h.subset (by simp)⟩
    rw [if_pos hboth]
    exact h.reverse.trans (List.sublist_append_right _ _)
  · have hended : ¬ (i ∈ outline.opened ∧ j ∈ outline.opened) := fun hboth =>
      hdisjoint hj hboth.2
    rw [if_neg hended]
    exact (List.singleton_sublist.mpr (List.mem_reverse.mpr hj)).append
      (List.singleton_sublist.mpr (List.mem_reverse.mpr hi))
  · have hended : ¬ (i ∈ outline.opened ∧ j ∈ outline.opened) := fun hboth =>
      hdisjoint (h.subset (by simp)) hboth.2
    rw [if_neg hended]
    exact h.reverse.trans (List.sublist_append_left _ _)

/-! ## The texts of the paragraphs -/

theorem textOf_cons (pieces : List (Nat × List Char)) (k : Nat) (cs : List Char) (i : Nat) :
    textOf ((k, cs) :: pieces) i = if k = i then textOf pieces i ++ cs else textOf pieces i := by
  rw [textOf, textOf, List.reverse_cons, List.filter_append, List.flatMap_append]
  by_cases hk : k = i <;> simp [hk]

theorem map_textOf_cons {pieces : List (Nat × List Char)} {k : Nat} {numbers : List Nat}
    (h : k ∉ numbers) (cs : List Char) :
    numbers.map (textOf ((k, cs) :: pieces)) = numbers.map (textOf pieces) := by
  apply List.map_congr_left
  intro i hi
  have hne : k ≠ i := fun heq => h (heq ▸ hi)
  rw [textOf_cons, if_neg hne]

theorem IsNumbered.textOf_begun (h : IsNumbered outline) :
    textOf outline.pieces outline.begun = [] := by
  rw [textOf, List.flatMap_eq_nil_iff]
  intro piece hpiece
  rw [List.mem_filter, List.mem_reverse, decide_eq_true_eq] at hpiece
  have := h.pieces_lt piece hpiece.1
  omega

structure Numbers (outline : Outline) (progress : Progress) : Prop where
  done : progress.done = outline.ended.map (textOf outline.pieces)
  opened : progress.opened = outline.opened.map (textOf outline.pieces)
  inText : progress.inText = outline.inText

namespace Numbers

variable {progress after : Progress}

theorem add (h : Numbers outline progress) (hnumbered : IsNumbered outline) (cs : List Char) :
    Numbers (outline.add cs) (progress.add cs) := by
  obtain ⟨begun, ended, opened, inText, pieces⟩ := outline
  obtain ⟨done, open', inText', warnings⟩ := progress
  obtain ⟨hdone, hopened, hinText⟩ := h
  dsimp only at hdone hopened hinText
  subst hdone hopened hinText
  cases opened with
  | nil => exact ⟨rfl, rfl, rfl⟩
  | cons i outer =>
      -- The piece changes the text of no paragraph but the innermost one.
      have hnodup := hnumbered.nodup
      rw [List.nodup_middle, List.nodup_cons, List.mem_append, not_or] at hnodup
      obtain ⟨⟨hended, houter⟩, -⟩ := hnodup
      refine ⟨(map_textOf_cons hended cs).symm, ?_, rfl⟩
      simp only [Progress.add, Outline.add, List.map_cons, map_textOf_cons houter,
        textOf_cons, if_pos]

theorem addText (h : Numbers outline progress) (hnumbered : IsNumbered outline)
    (cs : List Char) : Numbers (outline.add cs) (progress.addText cs) := by
  have hadd := h.add hnumbered cs
  unfold Progress.addText
  split
  · next hnone =>
      -- Stray text is only warned of.
      have hsame : progress.add cs = progress := by simp [Progress.add, hnone]
      rw [hsame] at hadd
      exact ⟨hadd.done, hadd.opened, hadd.inText⟩
  · exact hadd

theorem step (h : Numbers outline progress) (hnumbered : IsNumbered outline) {event : Event}
    (hstep : progress.step event = .ok after) : Numbers (outline.step event) after := by
  have hempty := hnumbered.textOf_begun
  cases event with
  | start name =>
      cases hname : meaning name <;>
        simp only [Progress.step, Outline.step, hname, Except.ok.injEq] at hstep ⊢ <;> subst hstep
      case paragraph => exact ⟨h.done, by simp [h.opened, hempty], h.inText⟩
      case text => exact ⟨h.done, h.opened, rfl⟩
      case char c => exact h.add hnumbered [c]
      case nothing => exact h
  | empty name =>
      cases hname : meaning name <;>
        simp only [Progress.step, Outline.step, hname, Except.ok.injEq] at hstep ⊢ <;> subst hstep
      case paragraph => exact ⟨by simp [h.done, hempty], h.opened, h.inText⟩
      case char c => exact h.add hnumbered [c]
      case text | nothing => exact h
  | finish name =>
      cases hname : meaning name <;> simp only [Progress.step, Outline.step, hname] at hstep ⊢
      case paragraph =>
        have hopened := h.opened
        cases hlist : outline.opened with
        | nil =>
            simp only [hopened, hlist, List.map_nil] at hstep
            cases hstep
            exact h
        | cons i outer =>
            simp only [hopened, hlist, List.map_cons] at hstep
            cases hstep
            exact ⟨by simp [h.done], rfl, h.inText⟩
      case text =>
        cases hstep
        exact ⟨h.done, h.opened, rfl⟩
      case char | nothing =>
        cases hstep
        exact h
  | text content =>
      rw [Outline.step]
      split
      · next hinText =>
          obtain ⟨cs, hcontent, rfl⟩ :=
            Progress.exists_of_step_text hstep (h.inText.trans hinText)
          rw [hcontent]
          exact h.addText hnumbered cs
      · next hinText =>
          rw [← h.inText] at hinText
          rw [Progress.step, if_neg hinText] at hstep
          cases hstep
          exact h

theorem run (h : Numbers outline progress) (hnumbered : IsNumbered outline)
    {events : List Event} (hrun : progress.run events = (after, none)) :
    Numbers (events.foldl Outline.step outline) after := by
  induction events generalizing outline progress with
  | nil =>
      cases hrun
      exact h
  | cons event events ih =>
      rw [Progress.run] at hrun
      split at hrun
      · next next hstep => exact ih (h.step hnumbered hstep) (hnumbered.moves (moves_step _ _)) hrun
      · cases hrun

theorem texts (h : Numbers outline progress) :
    progress.texts = outline.order.map (textOf outline.pieces) := by
  rw [Progress.texts, h.done, h.opened, order, List.map_append, List.map_reverse,
    List.map_reverse]

end Numbers

end Outline

/-! ## Whole documents -/

open Outline (BeginsIn IsNumbered Numbers isNumbered_ofEvents isNumbered_start textOf)

def outline (xml : String) : Outline :=
  .ofEvents (Xml.events xml).1

/-- Paragraphs are read only if the run over the events comes to its end. -/
theorem exists_run_of_value {xml : String} {texts : List String}
    (h : (paragraphTexts xml).value = .ok texts) :
    ∃ progress, Progress.run {} (Xml.events xml).1 = (progress, none) ∧
      texts = progress.texts.map String.ofList ∧
      (paragraphTexts xml).warnings = progress.allWarnings := by
  rw [paragraphTexts] at h ⊢
  split at h
  next events fault hevents =>
  split at h
  · cases h
  · next progress hrun =>
      split at h
      · cases h
      · cases h
        exact ⟨progress, by rw [hevents, hrun], rfl, rfl⟩

theorem numbers_outline {xml : String} {progress : Progress}
    (hrun : Progress.run {} (Xml.events xml).1 = (progress, none)) :
    Numbers (outline xml) progress :=
  Numbers.run ⟨rfl, rfl, rfl⟩ isNumbered_start hrun

/-- The texts that are read are those of the numbered paragraphs in their order. -/
theorem value_paragraphTexts {xml : String} {texts : List String}
    (h : (paragraphTexts xml).value = .ok texts) :
    texts = (outline xml).order.map fun i => String.ofList (textOf (outline xml).pieces i) := by
  obtain ⟨progress, hrun, rfl, -⟩ := exists_run_of_value h
  rw [(numbers_outline hrun).texts, List.map_map]
  rfl

/-- Whenever the paragraphs of a document are read, every paragraph that begins gives one text, and
a paragraph that begins inside of another one is given before it, unless both are left open at the
end of the document: then the outer one is given first. -/
theorem paragraphTexts_order {xml : String} {texts : List String}
    (h : (paragraphTexts xml).value = .ok texts) :
    (texts = (outline xml).order.map fun i => String.ofList (textOf (outline xml).pieces i)) ∧
      (outline xml).order.Nodup ∧
      (∀ i, i ∈ (outline xml).order ↔ i < (outline xml).begun) ∧
      ∀ i j, BeginsIn (Xml.events xml).1 i j →
        if i ∈ (outline xml).opened ∧ j ∈ (outline xml).opened then
          [i, j].Sublist (outline xml).order
        else [j, i].Sublist (outline xml).order := by
  have hnumbered : IsNumbered (outline xml) := isNumbered_ofEvents _
  exact ⟨value_paragraphTexts h, hnumbered.nodup_order, hnumbered.mem_order,
    fun i j hbegins => hbegins.isNested.order hnumbered⟩

theorem paragraphTexts_order_textBox :
    (paragraphTexts "<p><t>a</t><box><p><t>b</t></p></box></p>").value = .ok ["b", "a"] ∧
      BeginsIn (Xml.events "<p><t>a</t><box><p><t>b</t></p></box></p>").1 0 1 ∧
      [1, 0].Sublist (outline "<p><t>a</t><box><p><t>b</t></p></box></p>").order := by
  have hevents : Xml.events "<p><t>a</t><box><p><t>b</t></p></box></p>" =
      ([.start ['p'], .start ['t'], .text ['a'], .finish ['t'], .start ['b', 'o', 'x'],
        .start ['p'], .start ['t'], .text ['b'], .finish ['t'], .finish ['p'],
        .finish ['b', 'o', 'x'], .finish ['p']], none) := by
    decide +kernel
  have hvalue : (paragraphTexts "<p><t>a</t><box><p><t>b</t></p></box></p>").value =
      .ok ["b", "a"] := by
    simp only [paragraphTexts, hevents]
    decide +kernel
  have hbegins : BeginsIn (Xml.events "<p><t>a</t><box><p><t>b</t></p></box></p>").1 0 1 := by
    rw [hevents]
    exact ⟨[.start ['p'], .start ['t'], .text ['a'], .finish ['t'], .start ['b', 'o', 'x']],
      .start ['p'], _, ['p'], rfl, .inl rfl, rfl, by decide, rfl⟩
  have hclosed : 0 ∉ (outline "<p><t>a</t><box><p><t>b</t></p></box></p>").opened := by
    rw [outline, hevents]
    decide
  have horder := (paragraphTexts_order hvalue).2.2.2 0 1 hbegins
  rw [if_neg fun hboth => hclosed hboth.1] at horder
  exact ⟨hvalue, hbegins, horder⟩

/-- Of two paragraphs that are left open, the one around the other is given first. -/
theorem value_paragraphTexts_unclosed :
    (paragraphTexts "<p><t>a</t><p><t>b</t>").value = .ok ["a", "b"] ∧
      BeginsIn (Xml.events "<p><t>a</t><p><t>b</t>").1 0 1 ∧
      textOf (outline "<p><t>a</t><p><t>b</t>").pieces 0 = ['a'] ∧
      textOf (outline "<p><t>a</t><p><t>b</t>").pieces 1 = ['b'] ∧
      ¬ [1, 0].Sublist (outline "<p><t>a</t><p><t>b</t>").order := by
  have hevents : Xml.events "<p><t>a</t><p><t>b</t>" =
      ([.start ['p'], .start ['t'], .text ['a'], .finish ['t'], .start ['p'], .start ['t'],
        .text ['b'], .finish ['t']], none) := by
    decide +kernel
  refine ⟨?_, ?_, ?_, ?_, ?_⟩
  · simp only [paragraphTexts, hevents]
    decide +kernel
  · rw [hevents]
    exact ⟨[.start ['p'], .start ['t'], .text ['a'], .finish ['t']], .start ['p'], _, ['p'], rfl,
      .inl rfl, rfl, by decide, rfl⟩
  · rw [outline, hevents]
    decide +kernel
  · rw [outline, hevents]
    decide +kernel
  · rw [outline, hevents]
    decide

end Manuscript.Wordprocessing
