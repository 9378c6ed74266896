import Manuscript.Proofs.Wordprocessing.Markup

/-!
# Extraction undoes writing

The markup of a document is read back as its own events.  While these are taken, the text of a
paragraph grows by the legal characters of one run after another, and all other markup leaves it
as it is.
-/

namespace Manuscript.Wordprocessing

open Xml (Event Piece escapeChars isLegal legal)

namespace Progress

theorem run_cons {progress next : Progress} {event : Event} (h : progress.step event = .ok next)
    (events : List Event) : progress.run (event :: events) = next.run events := by
  simp [run, h]

theorem run_silent {progress : Progress} {pieces : List Piece}
    (h : ∀ piece ∈ pieces, ∀ events, progress.run (piece.events ++ events) = progress.run events)
    (rest : List Event) :
    progress.run (pieces.flatMap Piece.events ++ rest) = progress.run rest := by
  induction pieces with
  | nil => rfl
  | cons piece pieces ih =>
      rw [List.flatMap_cons, List.append_assoc, h piece (by simp)]
      exact ih fun other hother => h other (by simp [hother])

theorem run_runProperties (progress : Progress) (font : String) (r : Run) (rest : List Event) :
    progress.run ((runProperties font r).flatMap Piece.events ++ rest) = progress.run rest := by
  apply run_silent
  intro piece hpiece events
  obtain ⟨name, attributes, rfl, -, hmeaning⟩ := mem_runProperties hpiece
  exact run_cons (by simp [step, hmeaning]) events

theorem run_textPiece (done outer : List (List Char)) (current : List Char)
    (warnings : List Warning) (content : String) (rest : List Event) :
    run ⟨done, current :: outer, true, warnings⟩ ((Piece.text content).events ++ rest) =
      run ⟨done, (current ++ content.toList.filter isLegal) :: outer, true, warnings⟩ rest := by
  by_cases hnone : escapeChars content.toList = []
  · have hempty := (Xml.escapeChars_eq_nil_iff _).mp hnone
    simp [Piece.events, hnone, hempty]
  · have hevents : (Piece.text content).events = [.text (escapeChars content.toList)] := by
      simp [Piece.events, hnone]
    rw [hevents, List.singleton_append]
    apply run_cons
    simp only [step, ↓reduceIte, Xml.unescape_escapeChars]
    rfl

theorem run_runPieces (done outer : List (List Char)) (current : List Char)
    (warnings : List Warning) (font : String) (r : Run) (rest : List Event) :
    run ⟨done, current :: outer, false, warnings⟩
        ((runPieces font r).flatMap Piece.events ++ rest) =
      run ⟨done, (current ++ r.text.toList.filter isLegal) :: outer, false, warnings⟩ rest := by
  have hproperties := fun events => run_runProperties
    ⟨done, current :: outer, false, warnings⟩ font r events
  have htext := fun events => run_textPiece done outer current warnings r.text events
  simp only [runPieces, List.flatMap_append, List.flatMap_cons, List.flatMap_nil,
    List.append_assoc, List.append_nil]
  calc
    _ = run ⟨done, current :: outer, false, warnings⟩ (_ ++ _) := rfl
    _ = run ⟨done, current :: outer, true, warnings⟩ (_ ++ _) := hproperties _
    _ = run ⟨done, (current ++ r.text.toList.filter isLegal) :: outer, true, warnings⟩ _ :=
      htext _
    _ = run ⟨done, (current ++ r.text.toList.filter isLegal) :: outer, false, warnings⟩ rest :=
      rfl

theorem run_runs (done outer : List (List Char)) (current : List Char)
    (warnings : List Warning) (font : String) (runs : List Run) (rest : List Event) :
    run ⟨done, current :: outer, false, warnings⟩
        ((runs.flatMap (runPieces font)).flatMap Piece.events ++ rest) =
      run ⟨done, (current ++ (runs.flatMap (·.text.toList)).filter isLegal) :: outer, false,
        warnings⟩ rest := by
  induction runs generalizing current with
  | nil => simp
  | cons r runs ih =>
      rw [List.flatMap_cons, List.flatMap_append, List.append_assoc, run_runPieces, ih]
      simp

theorem run_paragraphPieces (done outer : List (List Char)) (warnings : List Warning)
    (font : String) (paragraph : Paragraph) (rest : List Event) :
    run ⟨done, outer, false, warnings⟩
        ((paragraphPieces font paragraph).flatMap Piece.events ++ rest) =
      run ⟨paragraph.plainText.toList.filter isLegal :: done, outer, false, warnings⟩ rest := by
  have hruns := fun events => run_runs done outer [] warnings font paragraph.runs events
  have htext : paragraph.plainText.toList = paragraph.runs.flatMap (·.text.toList) := by
    simp [Paragraph.plainText, List.flatMap_map]
  simp only [paragraphPieces, valued, List.flatMap_append, List.flatMap_cons, List.flatMap_nil,
    List.append_assoc, List.append_nil, htext]
  calc
    _ = run ⟨done, [] :: outer, false, warnings⟩ (_ ++ _) := rfl
    _ = run ⟨done, ([] ++ (paragraph.runs.flatMap (·.text.toList)).filter isLegal) :: outer,
        false, warnings⟩ _ := hruns _
    _ = run ⟨(paragraph.runs.flatMap (·.text.toList)).filter isLegal :: done, outer, false,
        warnings⟩ rest := rfl

theorem run_bodyPieces (done outer : List (List Char)) (warnings : List Warning)
    (font : String) (document : Document) (rest : List Event) :
    run ⟨done, outer, false, warnings⟩
        ((bodyPieces font document).flatMap Piece.events ++ rest) =
      run ⟨(document.paragraphs.map (·.plainText.toList.filter isLegal)).reverse ++ done, outer,
        false, warnings⟩ rest := by
  unfold bodyPieces
  -- every paragraph is put in front of those done before it, whatever they are
  induction document.paragraphs generalizing done with
  | nil => rfl
  | cons paragraph paragraphs ih =>
      rw [List.flatMap_cons, List.flatMap_append, List.append_assoc, run_paragraphPieces, ih]
      simp

theorem run_documentPieces (font : String) (document : Document) :
    run {} (.text ['\n'] :: (documentPieces font document).flatMap Piece.events) =
      (⟨(document.paragraphs.map (·.plainText.toList.filter isLegal)).reverse, [], false, []⟩,
        none) := by
  have hbody := run_bodyPieces [] [] [] font document
    (Piece.events (.finish "w:body") ++ Piece.events (.finish "w:document"))
  simp only [documentPieces, List.flatMap_append, List.flatMap_cons, List.flatMap_nil,
    List.append_assoc, List.append_nil] at hbody ⊢
  exact hbody

end Progress

theorem paragraphTexts_of_run {xml : String} {events : List Event} {progress : Progress}
    (hevents : Xml.events xml = (events, none))
    (hrun : Progress.run {} events = (progress, none)) :
    paragraphTexts xml = ⟨.ok (progress.texts.map String.ofList), progress.allWarnings⟩ := by
  simp only [paragraphTexts, hevents, hrun]

theorem events_documentXml (font : String) (document : Document) :
    Xml.events (documentXml font document) =
      (.text ['\n'] :: (documentPieces font document).flatMap Piece.events, none) :=
  Xml.events_renderText (isWellFormed_documentPieces font document)

/-- Reading the markup of a document gives the legal characters of each paragraph, and nothing is
strange about it. -/
theorem paragraphTexts_documentXml (font : String) (document : Document) :
    paragraphTexts (documentXml font document) =
      ⟨.ok (document.paragraphs.map fun paragraph => legal paragraph.plainText), []⟩ := by
  rw [paragraphTexts_of_run (events_documentXml font document)
    (Progress.run_documentPieces font document)]
  simp [Progress.texts, Progress.allWarnings, legal, Function.comp_def]

end Manuscript.Wordprocessing
