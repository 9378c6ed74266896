import Manuscript.Proofs.Wordprocessing.Markup
import Manuscript.Proofs.Xml.Distinct

/-!
# Texts and fonts add no tags to a document

The tags of a document are nested, and there is one paragraph tag for each paragraph and one run
tag for each run.  With the names of fonts left out, the tags are the same for all documents that
differ in nothing but the texts of runs, the roles of paragraphs and the font.
-/

namespace Manuscript

open Xml (Attribute Piece)

def Run.look (run : Run) : Run :=
  { run with text := "" }

def Paragraph.look (paragraph : Paragraph) : Paragraph :=
  { paragraph with runs := paragraph.runs.map Run.look, role := .body }

/-- A document without texts and roles: alignments, switches, sizes and colors are left. -/
def Document.look (document : Document) : Document :=
  ⟨document.paragraphs.map Paragraph.look⟩

namespace Wordprocessing

def withoutQuoted (quoted : Bool) : List Char → List Char
  | [] => []
  | c :: cs =>
      if c = '\x22' then c :: withoutQuoted (!quoted) cs
      else if quoted then withoutQuoted quoted cs
      else c :: withoutQuoted quoted cs

/-- A tag, without the values of its attributes if it names fonts. -/
def maskFonts (tag : List Char) : List Char :=
  if "<w:rFonts ".toList.isPrefixOf tag then withoutQuoted false tag else tag

def afterDeclaration (xml : String) : List Char :=
  xml.toList.drop Xml.declaration.toList.length

theorem withoutQuoted_append {cs : List Char} (h : '\x22' ∉ cs) (rest : List Char) :
    withoutQuoted false (cs ++ rest) = cs ++ withoutQuoted false rest := by
  induction cs with
  | nil => rfl
  | cons c cs ih =>
      rw [List.mem_cons, not_or] at h
      rw [List.cons_append, withoutQuoted, if_neg (Ne.symm h.1), ih h.2]
      rfl

theorem withoutQuoted_value {cs : List Char} (h : '\x22' ∉ cs) (rest : List Char) :
    withoutQuoted true (cs ++ '\x22' :: rest) = '\x22' :: withoutQuoted false rest := by
  induction cs with
  | nil => rfl
  | cons c cs ih =>
      rw [List.mem_cons, not_or] at h
      rw [List.cons_append, withoutQuoted, if_neg (Ne.symm h.1), ih h.2]
      rfl

theorem withoutQuoted_attribute {a : Attribute} (hname : '\x22' ∉ a.name.toList)
    (rest : List Char) :
    withoutQuoted false (a.render ++ rest) =
      (Attribute.mk a.name "").render ++ withoutQuoted false rest := by
  have hfront : '\x22' ∉ ' ' :: (a.name.toList ++ ['=']) := by simpa using hname
  have hshape : a.render ++ rest = ' ' :: (a.name.toList ++ ['=']) ++
      '\x22' :: (Xml.escapeChars a.value.toList ++ '\x22' :: rest) := by
    simp [Attribute.render]
  rw [hshape, withoutQuoted_append hfront, withoutQuoted, if_pos rfl, Bool.not_false,
    withoutQuoted_value (Xml.quote_not_mem_escapeChars _)]
  simp [Attribute.render]

def fonts (font : String) : Piece :=
  .empty "w:rFonts" [⟨"w:ascii", font⟩, ⟨"w:hAnsi", font⟩]

theorem maskFonts_fonts (font : String) :
    (fonts font).tags.map maskFonts = (fonts "").tags.map maskFonts := by
  have htags (font : String) : (fonts font).tags =
      ["<w:rFonts".toList ++ ((Attribute.mk "w:ascii" font).render ++
        ((Attribute.mk "w:hAnsi" font).render ++ ['/', '>']))] := by
    simp [fonts, Piece.tags, Piece.inside?]
  have hmask (font : String) : (fonts font).tags.map maskFonts =
      ["<w:rFonts".toList ++ ((Attribute.mk "w:ascii" "").render ++
        ((Attribute.mk "w:hAnsi" "").render ++ ['/', '>']))] := by
    have hnamed : "<w:rFonts ".toList.isPrefixOf ("<w:rFonts".toList ++
        ((Attribute.mk "w:ascii" font).render ++
          ((Attribute.mk "w:hAnsi" font).render ++ ['/', '>']))) = true := rfl
    have hascii : '\x22' ∉ "w:ascii".toList := by decide
    have hansi : '\x22' ∉ "w:hAnsi".toList := by decide
    rw [htags, List.map_singleton, maskFonts, if_pos hnamed, withoutQuoted_append (by decide),
      withoutQuoted_attribute hascii, withoutQuoted_attribute hansi]
    rfl
  rw [hmask, hmask]

def maskedTags (pieces : List Piece) : List (List Char) :=
  (pieces.flatMap Piece.tags).map maskFonts

@[simp] theorem maskedTags_append (pieces others : List Piece) :
    maskedTags (pieces ++ others) = maskedTags pieces ++ maskedTags others := by
  simp [maskedTags]

theorem maskedTags_runProperties (font : String) (run : Run) :
    maskedTags (runProperties font run) = maskedTags (runProperties "" run.look) := by
  have hfonts : maskedTags [fonts font] = maskedTags [fonts ""] := by
    simpa [maskedTags] using maskFonts_fonts font
  -- only the first property names the font
  calc maskedTags (runProperties font run)
      _ = maskedTags ([fonts font] ++ (runProperties font run).tail) := rfl
      _ = maskedTags ([fonts ""] ++ (runProperties "" run.look).tail) := by
        rw [maskedTags_append, maskedTags_append, hfonts]
        rfl
      _ = maskedTags (runProperties "" run.look) := rfl

theorem maskedTags_runPieces (font : String) (run : Run) :
    maskedTags (runPieces font run) = maskedTags (runPieces "" run.look) := by
  simp only [runPieces, maskedTags_append, maskedTags_runProperties font run]
  rfl

theorem maskedTags_flatMap {α β : Type} {items : List α} {look : α → β} {write : α → List Piece}
    {write' : β → List Piece}
    (h : ∀ item, maskedTags (write item) = maskedTags (write' (look item))) :
    maskedTags (items.flatMap write) = maskedTags ((items.map look).flatMap write') := by
  induction items with
  | nil => rfl
  | cons item items ih => simp [ih, h]

theorem maskedTags_paragraphPieces (font : String) (paragraph : Paragraph) :
    maskedTags (paragraphPieces font paragraph) =
      maskedTags (paragraphPieces "" paragraph.look) := by
  simp only [paragraphPieces, Paragraph.look, maskedTags_append]
  rw [maskedTags_flatMap (maskedTags_runPieces font)]

theorem maskedTags_documentPieces (font : String) (document : Document) :
    maskedTags (documentPieces font document) = maskedTags (documentPieces "" document.look) := by
  simp only [documentPieces, bodyPieces, Document.look, maskedTags_append]
  rw [maskedTags_flatMap (maskedTags_paragraphPieces font)]

theorem count_runPieces (font : String) (run : Run) :
    (runPieces font run).count (.start "w:p" []) = 0 ∧
      (runPieces font run).count (.start "w:r" []) = 1 := by
  have hnone (name : String) : (runProperties font run).count (.start name []) = 0 := by
    apply List.count_eq_zero_of_not_mem
    intro hmem
    obtain ⟨_, _, hempty, -, -⟩ := mem_runProperties hmem
    cases hempty
  constructor <;> simp [runPieces, hnone]

theorem count_paragraphPieces (font : String) (paragraph : Paragraph) :
    (paragraphPieces font paragraph).count (.start "w:p" []) = 1 ∧
      (paragraphPieces font paragraph).count (.start "w:r" []) = paragraph.runs.length := by
  constructor
  · simp [paragraphPieces, valued, List.count_flatMap, Function.comp_def,
      count_runPieces]
  · simp [paragraphPieces, valued, List.count_flatMap, Function.comp_def,
      count_runPieces]

theorem count_documentPieces (font : String) (document : Document) :
    (documentPieces font document).count (.start "w:p" []) = document.paragraphCount ∧
      (documentPieces font document).count (.start "w:r" []) = document.runCount := by
  constructor
  · simp [documentPieces, bodyPieces, List.count_flatMap, Function.comp_def,
      count_paragraphPieces, Document.paragraphCount]
  · simp [documentPieces, bodyPieces, List.count_flatMap, Function.comp_def,
      count_paragraphPieces, Document.runCount]

/-! ## Whole documents -/

theorem tags_afterDeclaration (font : String) (document : Document) :
    Xml.tags (afterDeclaration (documentXml font document)) =
      (documentPieces font document).flatMap Piece.tags := by
  have hnames := Xml.hasNames_of_isWellFormed (isWellFormed_documentPieces font document)
  rw [afterDeclaration, documentXml, Xml.renderText, String.toList_ofList, List.drop_left,
    Xml.tags_renderPieces hnames]

theorem occurrences_documentXml (font : String) (document : Document) {name : String}
    (hname : Xml.isName name = true) :
    Xml.occurrences ('<' :: (name.toList ++ ['>'])) (documentXml font document).toList =
      (documentPieces font document).count (.start name []) := by
  have hnames := Xml.hasNames_of_isWellFormed (isWellFormed_documentPieces font document)
  have hdeclaration (inside : List Char) :
      '<' :: '?' :: inside ≠ '<' :: (name.toList ++ ['>']) := by
    obtain ⟨d, tail, hcons, -, hd, -⟩ := Xml.name_cons hname
    rw [hcons]
    intro heq
    simp only [List.cons_append, List.cons.injEq, true_and] at heq
    exact hd heq.1.symm
  obtain ⟨inside, htags⟩ := Xml.tags_renderText hnames
  rw [Xml.occurrences_tag fun c hc => (Xml.noTag_name hname c hc).2, documentXml, htags,
    List.count_cons_of_ne (hdeclaration inside), Xml.count_tags hnames hname]

/-- The tags of a document are nested and count its paragraphs and runs.  Up to the names of
fonts they do not depend on the texts, the roles and the font. -/
theorem tags_documentXml (font : String) (document : Document) :
    let xml := documentXml font document
    Xml.declaration.toList <+: xml.toList ∧
      Xml.isNested [] (Xml.tags (afterDeclaration xml)) = true ∧
      (∀ (font' : String) (document' : Document), document'.look = document.look →
        (Xml.tags (afterDeclaration (documentXml font' document'))).map maskFonts =
          (Xml.tags (afterDeclaration xml)).map maskFonts) ∧
      Xml.occurrences "<w:p>".toList xml.toList = document.paragraphCount ∧
      Xml.occurrences "<w:r>".toList xml.toList = document.runCount := by
  intro xml
  refine ⟨?_, ?_, ?_, ?_, ?_⟩
  · exact ⟨Xml.renderPieces (documentPieces font document), String.toList_ofList.symm⟩
  · rw [tags_afterDeclaration]
    exact Xml.isNested_tags (isWellFormed_documentPieces font document)
  · intro font' document' hlook
    rw [tags_afterDeclaration, tags_afterDeclaration]
    calc maskedTags (documentPieces font' document')
        _ = maskedTags (documentPieces "" document'.look) := maskedTags_documentPieces _ _
        _ = maskedTags (documentPieces "" document.look) := by rw [hlook]
        _ = maskedTags (documentPieces font document) := (maskedTags_documentPieces _ _).symm
  · have hname : Xml.isName "w:p" = true := rfl
    exact (occurrences_documentXml font document hname).trans (count_documentPieces font document).1
  · have hname : Xml.isName "w:r" = true := rfl
    exact (occurrences_documentXml font document hname).trans (count_documentPieces font document).2

theorem tags_documentXml_markup_in_text :
    let plain : Document := ⟨[⟨[⟨"a", true, false, false, 24, .black⟩], .left, .title⟩]⟩
    let other : Document :=
      ⟨[⟨[⟨"</w:t><w:p>", true, false, false, 24, .black⟩], .left, .body⟩]⟩
    other.look = plain.look ∧
      (Xml.tags (afterDeclaration (documentXml "\"/><w:p>" other))).map maskFonts =
        (Xml.tags (afterDeclaration (documentXml "Arial" plain))).map maskFonts :=
  ⟨rfl, (tags_documentXml "Arial" _).2.2.1 _ _ rfl⟩

end Wordprocessing

end Manuscript
