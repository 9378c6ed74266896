import Manuscript.Proofs.Text.Decimal
import Manuscript.Proofs.Wordprocessing.Markup
import Manuscript.Proofs.Xml.Distinct

/-!
# Documents that look different have different markup

The markup of a document shows the alignment of each paragraph and the text and the properties of
each run, up to characters that XML forbids, and the font of the runs.  It shows nothing else.
-/

namespace Manuscript

open Xml (Piece legal isLegal)

def Run.visible (run : Run) : Run :=
  { run with text := legal run.text }

/-- Roles are not written. -/
def Paragraph.visible (paragraph : Paragraph) : Paragraph :=
  { paragraph with runs := paragraph.runs.map Run.visible, role := .body }

def Document.visible (document : Document) : Document :=
  ⟨document.paragraphs.map Paragraph.visible⟩

theorem Color.eq_of_digits_eq {color color' : Color} (h : color.digits = color'.digits) :
    color = color' := by
  cases color
  cases color'
  subst h
  rfl

namespace Wordprocessing

theorem legal_of_forall {s : String} (h : ∀ c ∈ s.toList, 0x20 ≤ c.toNat ∧ c.toNat < 0x7F) :
    legal s = s := by
  have hlegal : ∀ c ∈ s.toList, isLegal c = true := by
    intro c hc
    have hrange := h c hc
    simp only [isLegal, Bool.or_eq_true, Bool.and_eq_true, beq_iff_eq, decide_eq_true_eq]
    omega
  rw [legal, List.filter_eq_self.mpr hlegal, String.ofList_toList]

theorem legal_digits (color : Color) : legal color.digits = color.digits := by
  apply legal_of_forall
  intro c hc
  have haccepted := color.accepted
  simp only [Color.accepts, Bool.and_eq_true, List.all_eq_true] at haccepted
  have hdigit := haccepted.2 c hc
  simp only [Color.isDigit, Bool.or_eq_true, Bool.and_eq_true, decide_eq_true_eq] at hdigit
  have hrange : 48 ≤ c.toNat ∧ c.toNat ≤ 57 ∨ 97 ≤ c.toNat ∧ c.toNat ≤ 102 ∨
      65 ≤ c.toNat ∧ c.toNat ≤ 70 := or_assoc.mp hdigit
  omega

theorem legal_showNat (n : Nat) : legal (Text.showNat n) = Text.showNat n := by
  apply legal_of_forall
  intro c hc
  rw [Text.showNat, String.toList_ofList] at hc
  have hrange := Text.toNat_of_isSome_decimalValue? (Text.isSome_of_mem_decimal hc)
  omega

theorem visible_runProperties (font : String) (run : Run) :
    (runProperties font run).flatMap Piece.visible = runProperties (legal font) run := by
  have hsingle : legal "single" = "single" := by decide
  cases hbold : run.bold <;> cases hitalic : run.italic <;> cases hunderline : run.underline <;>
    simp [runProperties, valued, hbold, hitalic, hunderline, Piece.visible, Xml.Attribute.visible,
      legal_digits, legal_showNat, hsingle]

theorem optional_eq {first : Piece} {others rest rest' : List Piece} {b b' : Bool}
    (hrest : rest.head? ≠ some first) (hrest' : rest'.head? ≠ some first)
    (h : (if b then first :: others else []) ++ rest =
      (if b' then first :: others else []) ++ rest') : b = b' ∧ rest = rest' := by
  cases b with
  | true =>
      cases b' with
      | true => exact ⟨rfl, List.append_cancel_left h⟩
      | false =>
          apply absurd _ hrest'
          simpa using (congrArg List.head? h).symm
  | false =>
      cases b' with
      | true =>
          apply absurd _ hrest
          simpa using congrArg List.head? h
      | false => exact ⟨rfl, h⟩

theorem runProperties_eq {font font' : String} {run run' : Run} {rest rest' : List Piece}
    (hrest : rest.head? ≠ some (valued "w:u" "single"))
    (hrest' : rest'.head? ≠ some (valued "w:u" "single"))
    (h : runProperties font run ++ rest = runProperties font' run' ++ rest') :
    font = font' ∧ { run with text := run'.text } = run' ∧ rest = rest' := by
  simp only [runProperties, List.cons_append, List.append_assoc, List.nil_append, List.cons.injEq,
    Piece.empty.injEq, Xml.Attribute.mk.injEq, true_and, and_true, and_self] at h
  obtain ⟨rfl, h⟩ := h
  obtain ⟨hbold, h⟩ := optional_eq (by cases run.italic <;> simp [valued])
    (by cases run'.italic <;> simp [valued]) h
  obtain ⟨hitalic, h⟩ := optional_eq (by simp [valued]) (by simp [valued]) h
  simp only [valued, List.cons.injEq, Piece.empty.injEq, Xml.Attribute.mk.injEq, true_and,
    and_true] at h
  obtain ⟨hcolor, hsize, -, h⟩ := h
  obtain ⟨hunderline, h⟩ := optional_eq hrest hrest' h
  have hcolor := Color.eq_of_digits_eq hcolor
  have hsize := UInt32.toNat_inj.mp (Text.showNat_injective hsize)
  refine ⟨rfl, ?_, h⟩
  rw [hbold, hitalic, hunderline, hsize, hcolor]

theorem text_visible_eq {content content' : String} {next : Piece} {rest rest' : List Piece}
    (hnext : next.isText = false)
    (h : (Piece.text content).visible ++ next :: rest =
      (Piece.text content').visible ++ next :: rest') :
    legal content = legal content' ∧ rest = rest' := by
  have hne (t : String) : next ≠ .text t := by
    rintro rfl
    cases hnext
  by_cases hnone : legal content = "" <;> by_cases hnone' : legal content' = "" <;>
    simp only [Piece.visible, hnone, hnone', ↓reduceIte, List.nil_append, List.singleton_append,
      List.cons.injEq] at h
  · exact ⟨hnone.trans hnone'.symm, h.2⟩
  · exact absurd h.1 (hne _)
  · exact absurd h.1.symm (hne _)
  · exact ⟨Piece.text.inj h.1, h.2.2⟩

theorem visible_runPieces (font : String) (run : Run) :
    (runPieces font run).flatMap Piece.visible =
      .start "w:r" [] :: .start "w:rPr" [] :: (runProperties (legal font) run ++
        .finish "w:rPr" :: .start "w:t" [⟨"xml:space", "preserve"⟩] ::
          ((Piece.text run.text).visible ++ [.finish "w:t", .finish "w:r"])) := by
  have hpreserve : legal "preserve" = "preserve" := by decide
  have htags : ([.finish "w:rPr", .start "w:t" [⟨"xml:space", "preserve"⟩], .text run.text,
      .finish "w:t", .finish "w:r"] : List Piece).flatMap Piece.visible =
      .finish "w:rPr" :: .start "w:t" [⟨"xml:space", "preserve"⟩] ::
        ((Piece.text run.text).visible ++ [.finish "w:t", .finish "w:r"]) := by
    change _ :: Piece.start "w:t" [⟨"xml:space", legal "preserve"⟩] :: (_ ++ _) = _
    rw [hpreserve]
    rfl
  rw [runPieces, List.flatMap_append, List.flatMap_append, visible_runProperties, htags]
  rfl

theorem runPieces_eq {font font' : String} {run run' : Run} {rest rest' : List Piece}
    (h : (runPieces font run).flatMap Piece.visible ++ rest =
      (runPieces font' run').flatMap Piece.visible ++ rest') :
    legal font = legal font' ∧ run.visible = run'.visible ∧ rest = rest' := by
  simp only [visible_runPieces, List.cons_append, List.append_assoc, List.cons.injEq,
    true_and, List.nil_append] at h
  obtain ⟨hfont, hrun, h⟩ := runProperties_eq (by simp [valued]) (by simp [valued]) h
  simp only [List.cons.injEq, true_and] at h
  obtain ⟨htext, h⟩ := text_visible_eq rfl h
  refine ⟨hfont, ?_, (List.cons.inj h).2⟩
  rw [Run.visible, Run.visible, ← hrun, htext]

theorem runs_eq {font font' : String} {runs runs' : List Run} {rest rest' : List Piece}
    (h : (runs.flatMap (runPieces font)).flatMap Piece.visible ++ .finish "w:p" :: rest =
      (runs'.flatMap (runPieces font')).flatMap Piece.visible ++ .finish "w:p" :: rest') :
    runs.map Run.visible = runs'.map Run.visible ∧ (runs = [] ∨ legal font = legal font') ∧
      rest = rest' := by
  have hstart (font : String) (run : Run) (runs : List Run) (rest : List Piece) :
      ((run :: runs).flatMap (runPieces font)).flatMap Piece.visible ++ rest =
        (runPieces font run).flatMap Piece.visible ++
          ((runs.flatMap (runPieces font)).flatMap Piece.visible ++ rest) := by
    rw [List.flatMap_cons, List.flatMap_append, List.append_assoc]
  induction runs generalizing runs' with
  | nil =>
      cases runs' with
      | nil => exact ⟨rfl, .inl rfl, (List.cons.inj h).2⟩
      | cons run' runs' =>
          rw [hstart, visible_runPieces] at h
          simp at h
  | cons run runs ih =>
      cases runs' with
      | nil =>
          rw [hstart, visible_runPieces] at h
          simp at h
      | cons run' runs' =>
          rw [hstart, hstart] at h
          obtain ⟨hfont, hrun, h⟩ := runPieces_eq h
          obtain ⟨hruns, -, hrest⟩ := ih h
          exact ⟨by rw [List.map_cons, List.map_cons, hrun, hruns], .inr hfont, hrest⟩

theorem keyword_injective : Function.Injective Alignment.keyword := by
  intro alignment alignment' h
  cases alignment <;> cases alignment' <;> first | rfl | simp [Alignment.keyword] at h

theorem legal_keyword (alignment : Alignment) : legal alignment.keyword = alignment.keyword := by
  cases alignment <;> decide

theorem visible_paragraphPieces (font : String) (paragraph : Paragraph) :
    (paragraphPieces font paragraph).flatMap Piece.visible =
      .start "w:p" [] :: .start "w:pPr" [] :: valued "w:jc" paragraph.alignment.keyword ::
        .finish "w:pPr" :: ((paragraph.runs.flatMap (runPieces font)).flatMap Piece.visible ++
          [.finish "w:p"]) := by
  simp [paragraphPieces, valued, Piece.visible, Xml.Attribute.visible, legal_keyword]

theorem paragraphs_eq {font font' : String} {paragraphs paragraphs' : List Paragraph}
    {rest rest' : List Piece}
    (h : (paragraphs.flatMap (paragraphPieces font)).flatMap Piece.visible ++
        .finish "w:body" :: rest =
      (paragraphs'.flatMap (paragraphPieces font')).flatMap Piece.visible ++
        .finish "w:body" :: rest') :
    paragraphs.map Paragraph.visible = paragraphs'.map Paragraph.visible ∧
      ((∀ paragraph ∈ paragraphs, paragraph.runs = []) ∨ legal font = legal font') := by
  have hstart (font : String) (paragraph : Paragraph) (paragraphs : List Paragraph)
      (rest : List Piece) :
      ((paragraph :: paragraphs).flatMap (paragraphPieces font)).flatMap Piece.visible ++ rest =
        (paragraphPieces font paragraph).flatMap Piece.visible ++
          ((paragraphs.flatMap (paragraphPieces font)).flatMap Piece.visible ++ rest) := by
    rw [List.flatMap_cons, List.flatMap_append, List.append_assoc]
  induction paragraphs generalizing paragraphs' with
  | nil =>
      cases paragraphs' with
      | nil => exact ⟨rfl, .inl (by simp)⟩
      | cons paragraph' paragraphs' =>
          rw [hstart, visible_paragraphPieces] at h
          simp at h
  | cons paragraph paragraphs ih =>
      cases paragraphs' with
      | nil =>
          rw [hstart, visible_paragraphPieces] at h
          simp at h
      | cons paragraph' paragraphs' =>
          rw [hstart, hstart, visible_paragraphPieces, visible_paragraphPieces] at h
          simp only [valued, List.cons_append, List.append_assoc, List.cons.injEq, true_and,
            Piece.empty.injEq, Xml.Attribute.mk.injEq, and_true, List.nil_append] at h
          obtain ⟨halignment, h⟩ := h
          obtain ⟨hruns, hfont, h⟩ := runs_eq h
          obtain ⟨hparagraphs, hfonts⟩ := ih h
          have hparagraph : paragraph.visible = paragraph'.visible := by
            rw [Paragraph.visible, Paragraph.visible, keyword_injective halignment, hruns]
          refine ⟨by rw [List.map_cons, List.map_cons, hparagraph, hparagraphs], ?_⟩
          rcases hfont with hnone | hfont
          · rcases hfonts with hnones | hfont
            · exact .inl (List.forall_mem_cons.mpr ⟨hnone, hnones⟩)
            · exact .inr hfont
          · exact .inr hfont

/-! ## Documents -/

theorem visible_bodyPieces (font : String) (document : Document) :
    (bodyPieces font document).flatMap Piece.visible =
      (bodyPieces (legal font) document.visible).flatMap Piece.visible := by
  have htext (content : String) :
      (Piece.text (legal content)).visible = (Piece.text content).visible := by
    simp only [Piece.visible, Xml.legal_legal]
  have hrun (run : Run) : (runPieces (legal font) run.visible).flatMap Piece.visible =
      (runPieces font run).flatMap Piece.visible := by
    rw [visible_runPieces, visible_runPieces, Xml.legal_legal, Run.visible, htext]
    rfl
  have hparagraph (paragraph : Paragraph) :
      (paragraphPieces (legal font) paragraph.visible).flatMap Piece.visible =
        (paragraphPieces font paragraph).flatMap Piece.visible := by
    simp only [visible_paragraphPieces, Paragraph.visible, List.flatMap_map, List.flatMap_assoc,
      hrun]
  simp only [bodyPieces, Document.visible, List.flatMap_map, List.flatMap_assoc, hparagraph]

theorem bodyPieces_of_no_runs {document : Document}
    (h : ∀ paragraph ∈ document.paragraphs, paragraph.runs = []) (font font' : String) :
    bodyPieces font document = bodyPieces font' document := by
  apply List.flatMap_congr
  intro paragraph hparagraph
  simp [paragraphPieces, h paragraph hparagraph]

/-- Two documents are written alike exactly if they agree in what can be seen of them, and in
what can be seen of the font, unless neither has a run. -/
theorem documentXml_eq_iff (font font' : String) (document document' : Document) :
    documentXml font document = documentXml font' document' ↔
      document.visible = document'.visible ∧
        ((∀ paragraph ∈ document.paragraphs, paragraph.runs = []) ∨ legal font = legal font') := by
  have hmarkup : documentXml font document = documentXml font' document' ↔
      (documentPieces font document).flatMap Piece.visible =
        (documentPieces font' document').flatMap Piece.visible := by
    rw [← Xml.renderPieces_eq_iff (isWellFormed_documentPieces font document)
      (isWellFormed_documentPieces font' document'), documentXml, documentXml, Xml.renderText,
      Xml.renderText, String.ofList_inj, List.append_cancel_left_eq]
  rw [hmarkup]
  constructor
  · intro h
    simp only [documentPieces, List.flatMap_append, List.append_assoc] at h
    obtain ⟨hparagraphs, hfont⟩ := paragraphs_eq (List.append_cancel_left h)
    exact ⟨congrArg Document.mk hparagraphs, hfont⟩
  · rintro ⟨hdocument, hfont⟩
    have hbody : (bodyPieces font document).flatMap Piece.visible =
        (bodyPieces font' document').flatMap Piece.visible := by
      rcases hfont with hnone | hfont
      · rw [bodyPieces_of_no_runs hnone font font', visible_bodyPieces, hdocument,
          ← visible_bodyPieces]
      · rw [visible_bodyPieces, hfont, hdocument, ← visible_bodyPieces]
    simp only [documentPieces, List.flatMap_append, hbody]

end Wordprocessing

end Manuscript
