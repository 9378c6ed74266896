import Manuscript.Text.Lines
import Mathlib.Data.List.Basic

/-!
# Cutting a text into lines

Lines contain no line feed, and joining them gives back the text.  Conversely lines without line
feeds survive joining and cutting, unless there is none.
-/

namespace Manuscript.Text

theorem splitLines_of_not_mem {line : List Char} (h : '\n' ∉ line) :
    splitLines line = [line] := by
  induction line with
  | nil => rfl
  | cons c line ih =>
      simp only [List.mem_cons, not_or] at h
      simp [splitLines, Ne.symm h.1, ih h.2]

theorem splitLines_append {line : List Char} (h : '\n' ∉ line) (rest : List Char) :
    splitLines (line ++ '\n' :: rest) = line :: splitLines rest := by
  induction line with
  | nil => simp [splitLines]
  | cons c line ih =>
      simp only [List.mem_cons, not_or] at h
      simp [splitLines, Ne.symm h.1, ih h.2]

theorem splitLines_append_feed (cs ds : List Char) :
    splitLines (cs ++ '\n' :: ds) = splitLines cs ++ splitLines ds := by
  induction cs with
  | nil => simp [splitLines]
  | cons c cs ih =>
      rw [List.cons_append, splitLines, splitLines]
      split
      · rw [ih, List.cons_append]
      · rw [ih]
        cases hcs : splitLines cs with
        | nil => exact absurd hcs (splitLines_ne_nil cs)
        | cons line rest => rfl

theorem splitLines_joinLines {lines : List (List Char)} (hne : lines ≠ [])
    (h : ∀ line ∈ lines, '\n' ∉ line) : splitLines (joinLines lines) = lines := by
  induction lines with
  | nil => exact absurd rfl hne
  | cons line lines ih =>
      have hline : '\n' ∉ line := h line (by simp)
      cases lines with
      | nil => exact splitLines_of_not_mem hline
      | cons next rest =>
          have htail := ih (by simp) fun other hother => h other (by simp [hother])
          rw [joinLines, splitLines_append hline, htail]

theorem not_mem_of_mem_splitLines {cs line : List Char} (h : line ∈ splitLines cs) :
    '\n' ∉ line := by
  induction cs generalizing line with
  | nil =>
      simp only [splitLines, List.mem_singleton] at h
      simp [h]
  | cons c cs ih =>
      unfold splitLines at h
      split at h
      · rcases List.mem_cons.mp h with rfl | h
        · simp
        · exact ih h
      · rename_i hc
        split at h
        · rename_i hnil
          exact absurd hnil (splitLines_ne_nil cs)
        · rename_i first rest hcons
          rcases List.mem_cons.mp h with rfl | h
          · have hfirst : '\n' ∉ first := ih (by simp [hcons])
            simp [hfirst, Ne.symm hc]
          · exact ih (by simp [hcons, h])

theorem joinLines_cons {line : List Char} {lines : List (List Char)} (hne : lines ≠ []) :
    joinLines (line :: lines) = line ++ '\n' :: joinLines lines := by
  rcases List.exists_cons_of_ne_nil hne with ⟨next, rest, rfl⟩
  rfl

theorem joinLines_splitLines (cs : List Char) : joinLines (splitLines cs) = cs := by
  induction cs with
  | nil => rfl
  | cons c cs ih =>
      unfold splitLines
      split
      · rename_i hc
        rw [joinLines_cons (splitLines_ne_nil cs), ih, hc]
        rfl
      · split
        · rename_i hnil
          exact absurd hnil (splitLines_ne_nil cs)
        · rename_i first rest hcons
          rw [hcons] at ih
          rw [← ih]
          cases rest <;> rfl

theorem length_splitLines (cs : List Char) : (splitLines cs).length = cs.count '\n' + 1 := by
  induction cs with
  | nil => rfl
  | cons c cs ih =>
      unfold splitLines
      split
      · rename_i hc
        simp [ih, hc]
      · rename_i hc
        rw [List.count_cons_of_ne hc]
        split
        · rename_i hnil
          exact absurd hnil (splitLines_ne_nil cs)
        · rename_i first rest hcons
          rw [← ih, hcons]
          rfl

theorem filter_joinLines {p : Char → Bool} (hfeed : p '\n') (lines : List (List Char)) :
    (joinLines lines).filter p = joinLines (lines.map (List.filter p)) := by
  induction lines with
  | nil => rfl
  | cons line lines ih =>
      cases lines with
      | nil => rfl
      | cons next rest =>
          rw [joinLines, List.filter_append, List.filter_cons_of_pos hfeed, ih]
          rfl

theorem lines_ne_nil (s : String) : lines s ≠ [] := by
  simp [lines, splitLines_ne_nil]

theorem length_lines (s : String) : (lines s).length = s.toList.count '\n' + 1 := by
  simp [lines, length_splitLines]

theorem lines_append_feed (s t : String) : lines (s ++ "\n" ++ t) = lines s ++ lines t := by
  have hfeed : "\n".toList = ['\n'] := by decide
  simp [lines, hfeed, splitLines_append_feed]

theorem not_mem_of_mem_lines {s line : String} (h : line ∈ lines s) : '\n' ∉ line.toList := by
  rcases List.mem_map.mp h with ⟨cs, hcs, rfl⟩
  simpa using not_mem_of_mem_splitLines hcs

theorem lines_unlines {ss : List String} (hne : ss ≠ []) (h : ∀ s ∈ ss, '\n' ∉ s.toList) :
    lines (unlines ss) = ss := by
  have hsplit : splitLines (joinLines (ss.map String.toList)) = ss.map String.toList := by
    apply splitLines_joinLines
    · simpa using hne
    · simpa using h
  simp [lines, unlines, hsplit, Function.comp_def]

theorem unlines_lines (s : String) : unlines (lines s) = s := by
  simp [lines, unlines, Function.comp_def, joinLines_splitLines]

end Manuscript.Text
