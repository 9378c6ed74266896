import Manuscript.Proofs.Style.RoundTrip
import Manuscript.Proofs.Wordprocessing.Tags
import Manuscript.Proofs.Xml.Attributes

/-!
# The fonts of runs

The fonts of each run are read off the tags of a document part.  Every run of a document names the
font of the style twice, without the characters that XML forbids.  The check of a style refuses
control characters, but not U+FFFE and U+FFFF: an accepted font reaches the runs without these two,
and a font of nothing else reaches them as an empty name.
-/

namespace Manuscript

open Xml (Piece)

namespace Wordprocessing

def runStart : List Char := "<w:r>".toList

def runFinish : List Char := "</w:r>".toList

def runTags : List (List Char) → List (List (List Char))
  | [] => []
  | tag :: tags =>
      if tag = runStart then tags.takeWhile (· != runFinish) :: runTags tags else runTags tags

def isFontsTag (tag : List Char) : Bool :=
  "<w:rFonts ".toList.isPrefixOf tag

/-- For each run of a document part, what the attributes of its font tags stand for. -/
def runFonts (xml : String) : List (List (String × Except Xml.EntityFault String)) :=
  (runTags (Xml.tags xml.toList)).map fun inside =>
    (inside.filter isFontsTag).flatMap Xml.attributesOf

theorem runTags_skip {front : List (List Char)} (h : runStart ∉ front) (rest : List (List Char)) :
    runTags (front ++ rest) = runTags rest := by
  induction front with
  | nil => rfl
  | cons tag front ih =>
      rw [List.mem_cons, not_or] at h
      rw [List.cons_append, runTags, if_neg (Ne.symm h.1), ih h.2]

theorem runTags_run {inside : List (List Char)} (hstart : runStart ∉ inside)
    (hfinish : runFinish ∉ inside) (rest : List (List Char)) :
    runTags (runStart :: (inside ++ runFinish :: rest)) = inside :: runTags rest := by
  have hend : runStart ∉ [runFinish] := by decide
  have hafter : runTags (runFinish :: rest) = runTags rest := runTags_skip hend rest
  rw [runTags, if_pos rfl, runTags_skip hstart, hafter, Xml.takeWhile_mark hfinish]

def propertyTags (font : String) (run : Run) : List (List Char) :=
  (runProperties font run).flatMap Piece.tags

def tagsInRun (font : String) (run : Run) : List (List Char) :=
  "<w:rPr>".toList :: (propertyTags font run ++
    ["</w:rPr>".toList, "<w:t xml:space=\"preserve\">".toList, "</w:t>".toList])

theorem tags_runPieces (font : String) (run : Run) :
    (runPieces font run).flatMap Piece.tags =
      runStart :: (tagsInRun font run ++ [runFinish]) := by
  rw [runPieces, List.flatMap_append, List.flatMap_append, tagsInRun, List.cons_append,
    List.append_assoc, List.append_assoc]
  rfl

theorem mem_tagsInRun {font : String} {run : Run} {tag : List Char}
    (h : tag ∈ tagsInRun font run) :
    tag ∈ ["<w:rPr>".toList, "</w:rPr>".toList, "<w:t xml:space=\"preserve\">".toList,
        "</w:t>".toList] ∨ ['/', '>'] <:+ tag := by
  rw [tagsInRun, List.mem_cons, List.mem_append] at h
  rcases h with rfl | h | h
  · exact .inl List.mem_cons_self
  · obtain ⟨piece, hpiece, htag⟩ := List.mem_flatMap.mp h
    obtain ⟨name, attributes, rfl, -, -⟩ := mem_runProperties hpiece
    rw [Piece.tags, Piece.inside?, List.mem_singleton] at htag
    subst htag
    exact .inr ⟨'<' :: (name.toList ++ attributes.flatMap Xml.Attribute.render), by simp⟩
  · exact .inl (List.mem_cons_of_mem _ h)

theorem runStart_not_mem (font : String) (run : Run) : runStart ∉ tagsInRun font run :=
  fun h => absurd (mem_tagsInRun h) (by decide)

theorem runFinish_not_mem (font : String) (run : Run) : runFinish ∉ tagsInRun font run :=
  fun h => absurd (mem_tagsInRun h) (by decide)

theorem filter_isFontsTag (font : String) (run : Run) :
    (tagsInRun font run).filter isFontsTag = (fonts font).tags := by
  have hothers : ∀ piece ∈ (runProperties font run).tail, piece.tags.filter isFontsTag = [] := by
    intro piece hpiece
    simp only [runProperties, valued, List.cons_append, List.tail_cons, List.mem_append,
      List.mem_ite_nil_right, List.mem_cons, List.not_mem_nil, or_false] at hpiece
    rcases hpiece with ((⟨-, rfl | rfl⟩ | ⟨-, rfl | rfl⟩) | rfl | rfl | rfl) | ⟨-, rfl⟩ <;> rfl
  have htail : ((runProperties font run).tail.flatMap Piece.tags).filter isFontsTag = [] := by
    rw [List.filter_flatMap, List.flatMap_eq_nil_iff]
    exact hothers
  calc (tagsInRun font run).filter isFontsTag
      _ = (propertyTags font run).filter isFontsTag ++ [] := by
        rw [tagsInRun, List.filter_cons_of_neg (by decide), List.filter_append]
        rfl
      _ = ((fonts font).tags ++ (runProperties font run).tail.flatMap Piece.tags).filter
            isFontsTag := List.append_nil _
      _ = (fonts font).tags.filter isFontsTag := by
        rw [List.filter_append, htail, List.append_nil]
      _ = (fonts font).tags := rfl

theorem attributesOf_fonts (font : String) :
    (fonts font).tags.flatMap Xml.attributesOf =
      [("w:ascii", .ok (Xml.legal font)), ("w:hAnsi", .ok (Xml.legal font))] := by
  have hnames : Xml.hasNames "w:rFonts" [⟨"w:ascii", font⟩, ⟨"w:hAnsi", font⟩] = true := by
    simp only [Xml.hasNames, List.all_cons, List.all_nil]
    rfl
  have htags : (fonts font).tags = [(fonts font).render] := by
    rw [Xml.Piece.render_of_inside? rfl]
    rfl
  rw [htags, List.flatMap_singleton, fonts, Xml.attributesOf_empty hnames]
  rfl

theorem runTags_runs (font : String) (runs : List Run) (rest : List (List Char)) :
    runTags ((runs.flatMap (runPieces font)).flatMap Piece.tags ++ rest) =
      runs.map (tagsInRun font) ++ runTags rest := by
  induction runs with
  | nil => rfl
  | cons run runs ih =>
      rw [List.flatMap_cons, List.flatMap_append, tags_runPieces, List.append_assoc,
        List.cons_append, List.append_assoc, List.singleton_append,
        runTags_run (runStart_not_mem font run) (runFinish_not_mem font run), ih, List.map_cons,
        List.cons_append]

theorem runTags_paragraph (font : String) (paragraph : Paragraph) (rest : List (List Char)) :
    runTags ((paragraphPieces font paragraph).flatMap Piece.tags ++ rest) =
      paragraph.runs.map (tagsInRun font) ++ runTags rest := by
  have hopen : runStart ∉ List.flatMap Piece.tags [.start "w:p" [], .start "w:pPr" [],
      valued "w:jc" paragraph.alignment.keyword, .finish "w:pPr"] := by
    cases paragraph.alignment <;> decide
  have hclose : runStart ∉ List.flatMap Piece.tags [.finish "w:p"] := by decide
  rw [paragraphPieces, List.flatMap_append, List.flatMap_append, List.append_assoc,
    List.append_assoc, runTags_skip hopen, runTags_runs, runTags_skip hclose]

theorem runTags_body (font : String) (paragraphs : List Paragraph) (rest : List (List Char)) :
    runTags ((paragraphs.flatMap (paragraphPieces font)).flatMap Piece.tags ++ rest) =
      (paragraphs.flatMap Paragraph.runs).map (tagsInRun font) ++ runTags rest := by
  induction paragraphs with
  | nil => rfl
  | cons paragraph paragraphs ih =>
      rw [List.flatMap_cons, List.flatMap_append, List.append_assoc, runTags_paragraph, ih,
        List.flatMap_cons, List.map_append, List.append_assoc]

theorem runTags_document (font : String) (document : Document) :
    runTags ((documentPieces font document).flatMap Piece.tags) =
      (document.paragraphs.flatMap Paragraph.runs).map (tagsInRun font) := by
  have hopen : runStart ∉ List.flatMap Piece.tags
      [.start "w:document" [⟨"xmlns:w", mainNamespace⟩, ⟨"xmlns:r", relationshipsNamespace⟩],
        .start "w:body" []] := by
    decide
  have hclose : runStart ∉ List.flatMap Piece.tags [.finish "w:body", .finish "w:document"] := by
    decide
  rw [documentPieces, bodyPieces, List.flatMap_append, List.flatMap_append, List.append_assoc,
    runTags_skip hopen, runTags_body, ← List.append_nil (List.flatMap Piece.tags [.finish _, _]),
    runTags_skip hclose, runTags, List.append_nil]

/-- Every run of a document names its font twice, without what XML forbids in it. -/
theorem runFonts_eq (font : String) (document : Document) :
    runFonts (documentXml font document) = List.replicate document.runCount
      [("w:ascii", .ok (Xml.legal font)), ("w:hAnsi", .ok (Xml.legal font))] := by
  have hnames := Xml.hasNames_of_isWellFormed (isWellFormed_documentPieces font document)
  obtain ⟨inside, htags⟩ := Xml.tags_renderText hnames
  have hdeclaration : runStart ∉ ['<' :: '?' :: inside] := by
    simp [runStart]
  have hruns : runTags (Xml.tags (documentXml font document).toList) =
      (document.paragraphs.flatMap Paragraph.runs).map (tagsInRun font) := by
    rw [documentXml, htags, ← List.singleton_append, runTags_skip hdeclaration, runTags_document]
  rw [runFonts, hruns, List.map_map, Document.runCount]
  apply List.eq_replicate_iff.mpr
  refine ⟨List.length_map _, ?_⟩
  intro attributes hattributes
  obtain ⟨run, -, rfl⟩ := List.mem_map.mp hattributes
  rw [Function.comp_apply, filter_isFontsTag, attributesOf_fonts]

/-- A font that holds nothing but U+FFFE is accepted, and the run has no font. -/
theorem runFonts_noncharacter :
    (Style.reference.withFont "\ufffe").validate = .ok () ∧
      runFonts (documentXml (Style.reference.withFont "\ufffe").fontFamily
          ((Style.reference.withFont "\ufffe").document "x")) =
        [[("w:ascii", .ok ""), ("w:hAnsi", .ok "")]] := by
  have hlegal : Xml.legal (Style.reference.withFont "\ufffe").fontFamily = "" := by decide
  have hruns : ((Style.reference.withFont "\ufffe").document "x").runCount = 1 := by
    with_unfolding_all rfl
  refine ⟨rfl, ?_⟩
  rw [runFonts_eq, hlegal, hruns, List.replicate_one]

end Wordprocessing

/-! ## Accepted fonts -/

theorem Xml.isLegal_of_not_isControl {c : Char} (h : Text.isControl c = false) :
    isLegal c = (c != '\ufffe' && c != '\uffff') := by
  have hspace : 0x20 ≤ c.toNat := by
    simp only [Text.isControl, Bool.or_eq_false_iff, decide_eq_false_iff_not] at h
    omega
  rw [← isAllowed_eq_isLegal]
  simp [isAllowed, hspace, bne]

namespace Style

open Wordprocessing

def shownFont (style : Style) : String :=
  String.ofList (style.fontFamily.toList.filter fun c => c != '\ufffe' && c != '\uffff')

theorem legal_font {style : Style} (h : style.IsFit) :
    Xml.legal style.fontFamily = style.shownFont := by
  rw [Xml.legal, shownFont]
  congr 1
  exact List.filter_congr fun c hc => Xml.isLegal_of_not_isControl (h.font_plain c hc)

theorem shownFont_eq_iff (style : Style) :
    style.shownFont = style.fontFamily ↔
      '\ufffe' ∉ style.fontFamily.toList ∧ '\uffff' ∉ style.fontFamily.toList := by
  rw [shownFont, ← String.toList_inj, String.toList_ofList, List.filter_eq_self]
  constructor
  · intro h
    constructor <;> intro hmem <;> exact absurd (h _ hmem) (by decide)
  · rintro ⟨hreversed, hlast⟩ c hc
    simp only [Bool.and_eq_true, bne_iff_ne]
    constructor <;> rintro rfl <;> contradiction

theorem shownFont_eq_empty_iff (style : Style) :
    style.shownFont = "" ↔ ∀ c ∈ style.fontFamily.toList, c = '\ufffe' ∨ c = '\uffff' := by
  rw [shownFont, ← String.toList_inj, String.toList_ofList, String.toList_empty,
    List.filter_eq_nil_iff]
  simp [or_iff_not_imp_left]

/-- The check of a style refuses a font without a name, and each run of a document then names the
font twice, without U+FFFE and U+FFFF.  These two alone come between the font and its runs. -/
theorem runFonts_documentXml {style : Style} (h : style.validate = .ok ()) (text : String) :
    style.fontFamily ≠ "" ∧
      runFonts (documentXml style.fontFamily (style.document text)) =
        List.replicate (style.document text).runCount
          [("w:ascii", .ok style.shownFont), ("w:hAnsi", .ok style.shownFont)] ∧
      (style.shownFont = style.fontFamily ↔
        '\ufffe' ∉ style.fontFamily.toList ∧ '\uffff' ∉ style.fontFamily.toList) ∧
      (style.shownFont = "" ↔
        ∀ c ∈ style.fontFamily.toList, c = '\ufffe' ∨ c = '\uffff') := by
  have hfit := (validate_eq_ok_iff style).mp h
  refine ⟨?_, ?_, style.shownFont_eq_iff, style.shownFont_eq_empty_iff⟩
  · intro hempty
    obtain ⟨c, hc, -⟩ := hfit.font_visible
    rw [hempty] at hc
    cases hc
  · rw [runFonts_eq, legal_font hfit]

theorem runFonts_documentXml_markup :
    (Style.reference.withFont "A&\"<B>\uffff").validate = .ok () ∧
      runFonts (documentXml "A&\"<B>\uffff"
          ((Style.reference.withFont "A&\"<B>\uffff").document "# a\nb **c**")) =
        List.replicate 3 [("w:ascii", .ok "A&\"<B>"), ("w:hAnsi", .ok "A&\"<B>")] := by
  have hvalid : (Style.reference.withFont "A&\"<B>\uffff").validate = .ok () :=
    (validate_eq_ok_iff _).mpr ((fault?_eq_none_iff _).mp (by decide))
  have hruns :
      ((Style.reference.withFont "A&\"<B>\uffff").document "# a\nb **c**").runCount = 3 := by
    with_unfolding_all rfl
  have hshown : (Style.reference.withFont "A&\"<B>\uffff").shownFont = "A&\"<B>" := by decide
  obtain ⟨-, hfonts, -⟩ := runFonts_documentXml hvalid "# a\nb **c**"
  rw [hruns, hshown] at hfonts
  exact ⟨hvalid, hfonts⟩

end Style

end Manuscript
