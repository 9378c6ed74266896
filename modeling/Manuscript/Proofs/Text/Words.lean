import Manuscript.Text.Blank
import Manuscript.Text.Lines
import Mathlib.Algebra.Ring.Nat
import Mathlib.Data.List.Basic

/-!
# Words of texts put together

The words of a text are its longest parts without white space, and they are as many as counting
gives.  Where two texts meet, one word may have been cut into two, so the words of texts in a row
are never fewer than those of the whole, and at most one too many for each place where two of them
meet.  At a line feed no word is cut.
-/

namespace Manuscript.Text

def words (s : String) : List (List Char) :=
  (s.toList.splitOnP isBlank).filter (· ≠ [])

theorem countWords_eq_length_filter (cs : List Char) :
    countWords false cs = ((cs.splitOnP isBlank).filter (· ≠ [])).length ∧
      countWords true cs = ((cs.splitOnP isBlank).tail.filter (· ≠ [])).length := by
  induction cs with
  | nil => simp [countWords]
  | cons c cs ih =>
      obtain ⟨hstart, hunder⟩ := ih
      obtain ⟨piece, pieces, hpieces⟩ :=
        List.exists_cons_of_ne_nil (List.splitOnP_ne_nil isBlank cs)
      rw [hpieces] at hstart hunder
      rw [List.splitOnP_cons_eq_if_modifyHead, hpieces]
      by_cases hblank : isBlank c = true
      · simpa [countWords, hblank] using hstart
      · simpa [countWords, hblank] using hunder

theorem wordCount_eq_length_words (s : String) : wordCount s = (words s).length :=
  (countWords_eq_length_filter s.toList).1

theorem countWords_near (cs : List Char) :
    countWords true cs ≤ countWords false cs ∧ countWords false cs ≤ countWords true cs + 1 := by
  cases cs with
  | nil => simp [countWords]
  | cons c cs => by_cases hblank : isBlank c = true <;> simp [countWords, hblank]

theorem exists_countWords_append (inWord : Bool) (cs ds : List Char) :
    ∃ inWord', countWords inWord (cs ++ ds) = countWords inWord cs + countWords inWord' ds := by
  induction cs generalizing inWord with
  | nil => exact ⟨inWord, by simp [countWords]⟩
  | cons c cs ih =>
      by_cases hblank : isBlank c = true
      · obtain ⟨inWord', h⟩ := ih false
        exact ⟨inWord', by simp [countWords, hblank, h]⟩
      · obtain ⟨inWord', h⟩ := ih true
        refine ⟨inWord', ?_⟩
        cases inWord <;> simp [countWords, hblank, h, Nat.add_right_comm]

theorem wordCount_append_near (s t : String) :
    wordCount (s ++ t) ≤ wordCount s + wordCount t ∧
      wordCount s + wordCount t ≤ wordCount (s ++ t) + 1 := by
  obtain ⟨inWord, h⟩ := exists_countWords_append false s.toList t.toList
  obtain ⟨hless, hmore⟩ := countWords_near t.toList
  rw [wordCount, wordCount, wordCount, String.toList_append, h]
  cases inWord <;> omega

theorem wordCount_join_le (ss : List String) :
    wordCount (String.join ss) ≤ (ss.map wordCount).sum := by
  induction ss with
  | nil => simp [wordCount, countWords]
  | cons s ss ih =>
      have hmeet := (wordCount_append_near s (String.join ss)).1
      rw [String.join_cons, List.map_cons, List.sum_cons]
      omega

theorem sum_wordCount_le (ss : List String) :
    (ss.map wordCount).sum ≤ wordCount (String.join ss) + (ss.length - 1) := by
  induction ss with
  | nil => simp
  | cons s ss ih =>
      cases ss with
      | nil => simp
      | cons t ss =>
          have hmeet := (wordCount_append_near s (String.join (t :: ss))).2
          rw [String.join_cons, List.map_cons, List.sum_cons]
          simp only [List.length_cons, Nat.add_sub_cancel] at ih ⊢
          omega

theorem countWords_feed (inWord : Bool) (cs : List Char) :
    countWords inWord ('\n' :: cs) = countWords false cs := by
  have hfeed : isBlank '\n' = true := rfl
  simp [countWords, hfeed]

theorem countWords_joinLines (lines : List (List Char)) :
    countWords false (joinLines lines) = (lines.map (countWords false)).sum := by
  induction lines with
  | nil => rfl
  | cons line lines ih =>
      cases lines with
      | nil => simp [joinLines]
      | cons next rest =>
          obtain ⟨inWord, h⟩ :=
            exists_countWords_append false line ('\n' :: joinLines (next :: rest))
          rw [joinLines, h, countWords_feed, ih]
          rfl

theorem wordCount_unlines (ss : List String) :
    wordCount (unlines ss) = (ss.map wordCount).sum := by
  rw [wordCount, unlines, String.toList_ofList, countWords_joinLines, List.map_map]
  rfl

end Manuscript.Text
