import Manuscript.Proofs.Path

/-!
# Parents of paths

The parent of a path with a file name has all its components but the last, however the path is
written.
-/

namespace Manuscript.Path

theorem parent?_of_split {path : String} {before silent : List (List Char)} {last : List Char}
    (hsplit : split path.toList = before ++ last :: silent) (hlast : isSilent last = false)
    (hsilent : ∀ piece ∈ silent, isSilent piece) :
    ∃ parent, parent? path = some parent ∧ components parent = mark before ++ counted before := by
  have hdrop (pieces : List (List Char)) :
      (silent.reverse ++ pieces).dropWhile isSilent = pieces.dropWhile isSilent :=
    List.dropWhile_append_of_pos (by simpa using hsilent)
  cases before with
  | nil =>
      have hne : last ≠ [] := by
        rintro rfl
        cases hlast
      have hnone : silent.reverse.dropWhile isSilent = [] := by simpa using hdrop []
      refine ⟨"", ?_, components_empty⟩
      simp [parent?, hsplit, hnone, hne]
  | cons first before =>
      have hshown : (silent.reverse ++ last :: before.reverse).dropWhile isSilent =
          last :: before.reverse := by
        simp [hdrop, hlast]
      refine ⟨String.ofList (directoryOf (first :: before)), ?_,
        components_directoryOf (whole_of_mem_before hsplit)⟩
      simp [parent?, hsplit, hshown]

theorem parent?_of_splitName? {path : String} {before : List (List Char)} {name : List Char}
    (h : splitName? path = some (before, name)) :
    ∃ parent, parent? path = some parent ∧ components parent = mark before ++ counted before := by
  obtain ⟨hname, silent, hsplit, hsilent⟩ := splitName?_eq_some_iff.mp h
  exact parent?_of_split hsplit hname.counts hsilent

theorem exists_parent? {path : String} {front : List Component} {name : List Char}
    (h : components path = front ++ [.name name]) :
    ∃ parent, parent? path = some parent ∧ components parent = front := by
  have hfile := fileName?_of_components h
  cases hsplit : splitName? path with
  | none => simp [fileName?, hsplit] at hfile
  | some parts =>
      rcases parts with ⟨before, last⟩
      obtain ⟨parent, hparent, hcomponents⟩ := parent?_of_splitName? hsplit
      rw [components_of_splitName? hsplit] at h
      exact ⟨parent, hparent, hcomponents.trans (List.append_inj_left' h rfl)⟩

end Manuscript.Path
