import Manuscript.Wordprocessing.Markup

/-!
# The body of a document's markup

The body is what stands between the tag that opens it and the tag that closes it.  It is made of the
paragraphs alone, one after another, so it grows with the list of paragraphs.
-/

namespace Manuscript.Wordprocessing

def afterMark? (mark : List Char) : List Char → Option (List Char)
  | [] => none
  | c :: cs =>
    if mark.isPrefixOf (c :: cs) then some ((c :: cs).drop mark.length) else afterMark? mark cs

/-- What stands between the first occurrence of one mark and the last occurrence of another one
after it. -/
def betweenMarks? (opening closing cs : List Char) : Option (List Char) := do
  let opened ← afterMark? opening cs
  let reversed ← afterMark? closing.reverse opened.reverse
  some reversed.reverse

theorem length_le_of_afterMark? {mark cs rest : List Char} (h : afterMark? mark cs = some rest) :
    mark.length ≤ cs.length := by
  induction cs with
  | nil => cases h
  | cons c cs ih =>
      rw [afterMark?] at h
      split at h
      · rename_i hprefix
        exact (List.isPrefixOf_iff_prefix.mp hprefix).length_le
      · rw [List.length_cons]
        exact Nat.le_succ_of_le (ih h)

theorem afterMark?_append {mark front : List Char} (h : afterMark? mark front = some [])
    (rest : List Char) : afterMark? mark (front ++ rest) = some rest := by
  induction front with
  | nil => cases h
  | cons c front ih =>
      rw [afterMark?] at h
      rw [List.cons_append, afterMark?]
      split at h
      · rename_i hprefix
        have hprefix := List.isPrefixOf_iff_prefix.mp hprefix
        have hwhole : mark = c :: front := by
          rw [Option.some_inj, List.drop_eq_nil_iff] at h
          exact hprefix.eq_of_length_le h
        have hmark : mark.isPrefixOf (c :: (front ++ rest)) = true := by
          rw [hwhole, ← List.cons_append, List.isPrefixOf_iff_prefix]
          exact List.prefix_append _ _
        rw [if_pos hmark, hwhole, ← List.cons_append, List.drop_left]
      · rename_i hprefix
        have hlength := length_le_of_afterMark? h
        have hmark : ¬ mark.isPrefixOf (c :: (front ++ rest)) = true := by
          rw [← List.cons_append]
          intro hlonger
          rw [List.isPrefixOf_iff_prefix] at hprefix hlonger
          -- the mark is no longer than the text, so nothing of what follows is compared with it
          exact hprefix (List.prefix_of_prefix_length_le hlonger (List.prefix_append _ rest)
            (Nat.le_succ_of_le hlength))
        rw [if_neg hmark, ih h]

theorem betweenMarks?_append {opening closing front back : List Char}
    (hfront : afterMark? opening front = some [])
    (hback : afterMark? closing.reverse back.reverse = some []) (inner : List Char) :
    betweenMarks? opening closing (front ++ inner ++ back) = some inner := by
  have hopened := afterMark?_append hfront (inner ++ back)
  have hclosed := afterMark?_append hback inner.reverse
  rw [← List.reverse_append] at hclosed
  rw [List.append_assoc, betweenMarks?, hopened]
  simp only [Option.bind_eq_bind, Option.bind_some, hclosed, List.reverse_reverse]

def bodyMarkup? (xml : String) : Option (List Char) :=
  betweenMarks? "<w:body>".toList "</w:body>".toList xml.toList

def frontMarkup : List Char :=
  Xml.declaration.toList ++ Xml.renderPieces
    [.start "w:document" [⟨"xmlns:w", mainNamespace⟩, ⟨"xmlns:r", relationshipsNamespace⟩],
      .start "w:body" []]

def backMarkup : List Char :=
  Xml.renderPieces [.finish "w:body", .finish "w:document"]

theorem toList_documentXml (font : String) (document : Document) :
    (documentXml font document).toList =
      frontMarkup ++ Xml.renderPieces (bodyPieces font document) ++ backMarkup := by
  simp only [documentXml, Xml.renderText, documentPieces, Xml.renderPieces, frontMarkup, backMarkup,
    String.toList_ofList, List.flatMap_append, List.append_assoc]

theorem bodyMarkup?_documentXml (font : String) (document : Document) :
    bodyMarkup? (documentXml font document) =
      some (Xml.renderPieces (bodyPieces font document)) := by
  rw [bodyMarkup?, toList_documentXml]
  apply betweenMarks?_append
  · decide +kernel
  · decide +kernel

theorem bodyPieces_append (font : String) (paragraphs more : List Paragraph) :
    bodyPieces font ⟨paragraphs ++ more⟩ =
      bodyPieces font ⟨paragraphs⟩ ++ bodyPieces font ⟨more⟩ := by
  simp only [bodyPieces, List.flatMap_append]

/-- The body of two lists of paragraphs is the body of the first and then that of the second. -/
theorem bodyMarkup?_append (font : String) (document other : Document) :
    ∃ body otherBody, bodyMarkup? (documentXml font document) = some body ∧
      bodyMarkup? (documentXml font other) = some otherBody ∧
      bodyMarkup? (documentXml font ⟨document.paragraphs ++ other.paragraphs⟩) =
        some (body ++ otherBody) := by
  refine ⟨_, _, bodyMarkup?_documentXml font document, bodyMarkup?_documentXml font other, ?_⟩
  rw [bodyMarkup?_documentXml, bodyPieces_append, Xml.renderPieces, List.flatMap_append]
  rfl

end Manuscript.Wordprocessing
