import Manuscript.Proofs.Stats
import Manuscript.Proofs.Text.Words

/-!
# Words counted run by run

The statistics of a document count the words of each run by itself.  That is at least the number of
words of the document's text, and at most one more for every seam between two runs of a paragraph.
-/

namespace Manuscript

open Text (wordCount)

def Paragraph.runWords (paragraph : Paragraph) : Nat :=
  (paragraph.runs.map fun run => wordCount run.text).sum

def Document.runWords (document : Document) : Nat :=
  (document.paragraphs.map Paragraph.runWords).sum

/-- The places where two runs meet; a paragraph without runs has none. -/
def Paragraph.seams (paragraph : Paragraph) : Nat :=
  paragraph.runs.length - 1

def Document.seams (document : Document) : Nat :=
  (document.paragraphs.map Paragraph.seams).sum

theorem Paragraph.runWords_near (paragraph : Paragraph) :
    wordCount paragraph.plainText ≤ paragraph.runWords ∧
      paragraph.runWords ≤ wordCount paragraph.plainText + paragraph.seams := by
  have hwords : paragraph.runWords = ((paragraph.runs.map Run.text).map wordCount).sum := by
    rw [runWords, List.map_map]
    rfl
  have hseams : paragraph.seams = (paragraph.runs.map Run.text).length - 1 := by
    rw [seams, List.length_map]
  rw [hwords, hseams]
  exact ⟨Text.wordCount_join_le _, Text.sum_wordCount_le _⟩

/-- Paragraphs stand on lines of their own, so words are cut inside paragraphs only. -/
theorem Document.wordCount_plainText (document : Document) :
    wordCount document.plainText =
      (document.paragraphs.map fun paragraph => wordCount paragraph.plainText).sum := by
  rw [plainText, Text.wordCount_unlines, List.map_map]
  rfl

theorem Document.runWords_near (document : Document) :
    wordCount document.plainText ≤ document.runWords ∧
      document.runWords ≤ wordCount document.plainText + document.seams := by
  rw [document.wordCount_plainText, runWords, seams]
  induction document.paragraphs with
  | nil => simp
  | cons paragraph paragraphs ih =>
      obtain ⟨hless, hmore⟩ := paragraph.runWords_near
      simp only [List.map_cons, List.sum_cons]
      omega

namespace Stats

theorem words_ofDocument (document : Document) :
    (ofDocument document).words = UInt32.ofNat document.runWords := by
  rcases document with ⟨paragraphs⟩
  induction paragraphs with
  | nil => rfl
  | cons paragraph paragraphs ih =>
      have hcons : Document.runWords ⟨paragraph :: paragraphs⟩ =
          paragraph.runWords + Document.runWords ⟨paragraphs⟩ := by
        simp [Document.runWords]
      have hwords : (empty.countParagraph paragraph).words = UInt32.ofNat paragraph.runWords := by
        rw [countParagraph_eq_addParagraph]
        cases paragraph.role <;> exact UInt32.zero_add _
      rw [ofDocument_cons, hcons, UInt32.ofNat_add, ← ih, ← hwords]
      rfl

/-- As long as the counter does not overflow, it exceeds the number of words of the text by no more
than the number of seams, and it never falls short of it. -/
theorem words_ofDocument_near (document : Document) (hsize : document.runWords < UInt32.size) :
    (Text.words document.plainText).length ≤ (ofDocument document).words.toNat ∧
      (ofDocument document).words.toNat ≤
        (Text.words document.plainText).length + document.seams := by
  rw [← Text.wordCount_eq_length_words, words_ofDocument, UInt32.toNat_ofNat_of_lt' hsize]
  exact document.runWords_near

theorem words_ofDocument_near_cut :
    let document : Document :=
      ⟨[⟨["ab", "", "c d", " "].map fun text => ⟨text, false, false, false, 24, .black⟩,
          .left, .body⟩, .blank]⟩
    document.runWords < UInt32.size ∧ (Text.words document.plainText).length = 2 ∧
      (ofDocument document).words.toNat = 3 ∧ document.seams = 3 ∧
      (Text.words document.plainText).length ≤ (ofDocument document).words.toNat ∧
      (ofDocument document).words.toNat ≤
        (Text.words document.plainText).length + document.seams := by
  intro document
  have hwords : document.runWords = 3 := by decide
  have hsize : document.runWords < UInt32.size := by
    rw [hwords]
    decide
  exact ⟨hsize, by decide, by decide, by decide, words_ofDocument_near document hsize⟩

end Stats

end Manuscript
