import Manuscript.Delivery
import Manuscript.Proofs.Path

/-!
# File names of packages

A file name is looked at as a path, but mended as a text.  The mark that is put behind a name makes
an extension of it only where a name stands before it: behind nothing or behind a slash it gives a
file whose whole name is the mark, and that has no extension.  Such a name is mended once more when
it is set again, and then it stays.  A name with the extension of packages stays as it is, also
where slashes or dots follow that do not count.
-/

namespace Manuscript

namespace Path

theorem unsplit_concat {pieces : List (List Char)} (h : pieces ≠ []) (last : List Char) :
    unsplit (pieces ++ [last]) = unsplit pieces ++ '/' :: last := by
  induction pieces with
  | nil => exact absurd rfl h
  | cons piece pieces ih =>
      cases pieces with
      | nil => rfl
      | cons next pieces =>
          have hrest := ih (by simp)
          simp only [List.cons_append, unsplit, List.append_assoc] at hrest ⊢
          rw [hrest]

theorem not_mem_last_of_split {cs last : List Char} {before : List (List Char)}
    (h : split cs = before ++ [last]) : '/' ∉ last :=
  not_mem_of_mem_split (by rw [h]; simp)

theorem split_append {cs ds last : List Char} {before : List (List Char)}
    (h : split cs = before ++ [last]) (hds : '/' ∉ ds) :
    split (cs ++ ds) = before ++ [last ++ ds] := by
  have hback : unsplit (before ++ [last ++ ds]) = cs ++ ds := by
    rw [← unsplit_split cs, h]
    by_cases hbefore : before = []
    · simp [hbefore, unsplit]
    · rw [unsplit_concat hbefore, unsplit_concat hbefore, List.append_assoc, List.cons_append]
  have hlast := not_mem_last_of_split h
  have hwhole : ∀ piece ∈ before ++ [last ++ ds], '/' ∉ piece := by
    rw [List.forall_mem_append, List.forall_mem_singleton, List.mem_append, not_or]
    exact ⟨whole_of_mem_before h, hlast, hds⟩
  rw [← hback, split_unsplit (by simp) hwhole]

theorem exists_split_concat (cs : List Char) : ∃ before last, split cs = before ++ [last] := by
  obtain hnil | ⟨before, last, h⟩ := List.eq_nil_or_concat (split cs)
  · exact absurd hnil (split_ne_nil cs)
  · exact ⟨before, last, by rw [h, List.concat_eq_append]⟩

theorem eq_of_split_concat {cs last : List Char} {before : List (List Char)}
    (h : split cs = before ++ [last]) : cs = last ∨ ∃ front, cs = front ++ '/' :: last := by
  rw [← unsplit_split cs, h]
  by_cases hbefore : before = []
  · exact .inl (by rw [hbefore]; rfl)
  · exact .inr ⟨_, unsplit_concat hbefore last⟩

theorem eq_append_of_splitExtension {name extension : List Char}
    (h : (splitExtension name).2 = some extension) :
    name = (splitExtension name).1 ++ '.' :: extension := by
  have hreverse := List.takeWhile_append_dropWhile (p := (· != '.')) (l := name.reverse)
  unfold splitExtension at h ⊢
  split at h
  · cases h
  · next c before hbefore =>
    cases h
    have hdot : name.reverse.dropWhile (· != '.') = '.' :: c :: before := by
      cases hdrop : name.reverse.dropWhile (· != '.') with
      | nil => simp [hdrop] at hbefore
      | cons d rest =>
          have hhead := List.head?_dropWhile_not (· != '.') name.reverse
          simp [hdrop] at hhead hbefore
          rw [hhead, hbefore]
    rw [hdot] at hreverse
    have hname := congrArg List.reverse hreverse
    simpa using hname.symm

theorem exists_splitName?_of_extension? {path extension : String}
    (h : extension? path = some extension) :
    ∃ before name, splitName? path = some (before, name) ∧
      (splitExtension name).2 = some extension.toList := by
  rw [extension?_eq, Option.bind_eq_some_iff] at h
  obtain ⟨file, hfile, h⟩ := h
  rw [fileName?, Option.map_eq_some_iff] at hfile
  obtain ⟨⟨before, name⟩, hsplit, rfl⟩ := hfile
  rw [String.toList_ofList, Option.map_eq_some_iff] at h
  obtain ⟨letters, hletters, rfl⟩ := h
  exact ⟨before, name, hsplit, by rw [hletters, String.toList_ofList]⟩

end Path

namespace Delivery

def HasPackageExtension (name : String) : Prop :=
  ∃ extension, Path.extension? name = some extension ∧
    extension.toList.map Char.toLower = "docx".toList

theorem isPackageName_iff {name : String} :
    isPackageName name = true ↔ HasPackageExtension name := by
  have hdocx : "docx".toList = ['d', 'o', 'c', 'x'] := by decide
  unfold isPackageName HasPackageExtension
  cases Path.extension? name <;> simp [hdocx]

def EndsInMark (name : String) : Prop :=
  ∃ stem mark, name.toList = stem ++ mark ∧ mark.map Char.toLower = ".docx".toList

def EndsOpen (name : String) : Prop :=
  name = "" ∨ name.toList.getLast? = some '/'

def EndsSilent (name : String) : Prop :=
  ∃ front piece, name.toList = front ++ '/' :: piece ∧ Path.isSilent piece = true

theorem toList_dot_docx : ".docx".toList = '.' :: "docx".toList := by
  decide

theorem isName_append_docx {stem : List Char} (h : '/' ∉ stem) :
    Path.IsName (stem ++ ".docx".toList) := by
  have hlength : ".docx".toList.length = 5 := by decide
  apply Path.IsName.of_length
  · rw [List.mem_append, not_or]
    exact ⟨h, by decide⟩
  · rw [List.length_append]
    omega

theorem endsOpen_iff {name : String} {before : List (List Char)} {last : List Char}
    (h : Path.split name.toList = before ++ [last]) : EndsOpen name ↔ last = [] := by
  have hwhole := Path.not_mem_last_of_split h
  have hlast : last.getLast? ≠ some '/' := fun hslash => hwhole (List.mem_of_getLast? hslash)
  rw [EndsOpen, ← String.toList_eq_nil_iff]
  obtain hname | ⟨front, hname⟩ := Path.eq_of_split_concat h
  · simp [hname, hlast]
  · cases last with
    | nil => simp [hname]
    | cons c last =>
        have hskip : name.toList.getLast? = (c :: last).getLast? := by
          rw [hname, List.getLast?_append_of_ne_nil _ (by simp), List.getLast?_cons_cons]
        rw [hskip]
        simp [hname, hlast]

theorem extension?_append_docx {name : String} {before : List (List Char)} {last : List Char}
    (h : Path.split name.toList = before ++ [last]) :
    Path.extension? (name ++ ".docx") = if last = [] then none else some "docx" := by
  have hlast := Path.not_mem_last_of_split h
  have hsplit : Path.splitName? (name ++ ".docx") = some (before, last ++ ".docx".toList) := by
    rw [Path.splitName?_eq_some_iff, String.toList_append]
    exact ⟨isName_append_docx hlast, [], Path.split_append h (by decide), by simp⟩
  rw [Path.extension?_eq, Path.fileName?_of_splitName? hsplit, Option.bind_some,
    String.toList_ofList]
  split
  · next hempty =>
      rw [hempty]
      rfl
  · next hne =>
      rw [toList_dot_docx, Path.splitExtension_append hne (by decide), Option.map_some,
        String.ofList_toList]

theorem hasPackageExtension_append {name : String} :
    HasPackageExtension (name ++ ".docx") ↔ ¬ EndsOpen name := by
  obtain ⟨before, last, h⟩ := Path.exists_split_concat name.toList
  rw [endsOpen_iff h, HasPackageExtension, extension?_append_docx h]
  split <;> simp [*]

theorem packageName_of_hasPackageExtension {name : String} (h : HasPackageExtension name) :
    packageName name = name := by
  rw [packageName, if_pos (isPackageName_iff.mpr h)]

theorem packageName_of_not {name : String} (h : ¬ HasPackageExtension name) :
    packageName name = name ++ ".docx" := by
  rw [packageName, if_neg (mt isPackageName_iff.mp h)]

theorem packageName_eq_self_iff {name : String} :
    packageName name = name ↔ HasPackageExtension name := by
  refine ⟨fun h => ?_, packageName_of_hasPackageExtension⟩
  by_contra hnot
  rw [packageName_of_not hnot] at h
  have hlength := congrArg String.length h
  have hdocx : ".docx".length = 5 := by decide
  rw [String.length_append] at hlength
  omega

theorem hasPackageExtension_packageName {name : String} :
    HasPackageExtension (packageName name) ↔ HasPackageExtension name ∨ ¬ EndsOpen name := by
  by_cases h : HasPackageExtension name
  · simp [packageName_of_hasPackageExtension h, h]
  · simp [packageName_of_not h, hasPackageExtension_append, h]

theorem not_endsOpen_append (name : String) : ¬ EndsOpen (name ++ ".docx") := by
  have hdocx : ".docx".toList.getLast? = some 'x' := by decide
  have hne : ".docx".toList ≠ [] := by decide
  rw [EndsOpen, ← String.toList_eq_nil_iff, String.toList_append,
    List.getLast?_append_of_ne_nil _ hne, hdocx]
  simp

theorem hasPackageExtension_twice (name : String) :
    HasPackageExtension (packageName (packageName name)) := by
  rw [hasPackageExtension_packageName]
  by_cases h : HasPackageExtension name
  · exact .inl (by rwa [packageName_of_hasPackageExtension h])
  · exact .inr (by rw [packageName_of_not h]; exact not_endsOpen_append name)

theorem not_endsSilent_of_endsInMark {name : String} (h : EndsInMark name) :
    ¬ EndsSilent name := by
  rintro ⟨front, piece, hname, hsilent⟩
  obtain ⟨stem, mark, hmarked, hmark⟩ := h
  have hlast : (name.toList.map Char.toLower).getLast? = some 'x' := by
    rw [hmarked, List.map_append, hmark, List.getLast?_append_of_ne_nil _ (by decide)]
    decide
  rw [hname] at hlast
  simp only [Path.isSilent, Bool.or_eq_true, beq_iff_eq] at hsilent
  rcases hsilent with rfl | rfl <;> simp at hlast

theorem endsSilent_of_split {name : String} {before silent : List (List Char)}
    {file : List Char} (h : Path.split name.toList = before ++ file :: silent)
    (hsilent : ∀ piece ∈ silent, Path.isSilent piece) (hne : silent ≠ []) : EndsSilent name := by
  obtain hnil | ⟨others, piece, rfl⟩ := List.eq_nil_or_concat silent
  · exact absurd hnil hne
  · have hback : name.toList = Path.unsplit (before ++ file :: others) ++ '/' :: piece := by
      rw [← Path.unsplit_concat (by simp), ← Path.unsplit_split name.toList, h]
      simp
    exact ⟨_, piece, hback, hsilent piece (by simp)⟩

theorem endsInMark_of_hasPackageExtension {name : String} (h : HasPackageExtension name)
    (hopen : ¬ EndsSilent name) : EndsInMark name := by
  obtain ⟨extension, hextension, hlower⟩ := h
  obtain ⟨before, file, hname, hletters⟩ := Path.exists_splitName?_of_extension? hextension
  obtain ⟨-, silent, hpieces, hsilent⟩ := Path.splitName?_eq_some_iff.mp hname
  have hnil : silent = [] := by
    by_contra hne
    exact hopen (endsSilent_of_split hpieces hsilent hne)
  obtain ⟨front, hfront⟩ : ∃ front, name.toList = front ++ file := by
    rw [hnil] at hpieces
    obtain hwhole | ⟨front, hfront⟩ := Path.eq_of_split_concat hpieces
    · exact ⟨[], hwhole⟩
    · exact ⟨front ++ ['/'], by rw [hfront, List.append_assoc, List.singleton_append]⟩
  refine ⟨front ++ (Path.splitExtension file).1, '.' :: extension.toList, ?_, ?_⟩
  · rw [hfront, List.append_assoc, ← Path.eq_append_of_splitExtension hletters]
  · rw [List.map_cons, hlower, toList_dot_docx]
    rfl

theorem endsInMark_packageName {name : String} :
    EndsInMark (packageName name) ↔ ¬ (HasPackageExtension name ∧ EndsSilent name) := by
  by_cases h : HasPackageExtension name
  · rw [packageName_of_hasPackageExtension h]
    exact ⟨fun hmark hboth => not_endsSilent_of_endsInMark hmark hboth.2,
      fun hnot => endsInMark_of_hasPackageExtension h fun hsilent => hnot ⟨h, hsilent⟩⟩
  · rw [packageName_of_not h]
    refine iff_of_true ⟨name.toList, ".docx".toList, String.toList_append, by decide⟩ ?_
    exact fun hboth => h hboth.1

/-! ## Names that are set -/

/-- Setting a name keeps it as the beginning.  What is set has the extension of packages, and stays
when it is set again, unless the mark was put behind nothing or behind a slash; and it ends in the
mark, unless the name had the extension before slashes or dots that do not count.  A name that is
set twice always stays. -/
theorem packageName_settles (name : String) :
    (∀ delivery : Delivery, delivery.withFileName name = ⟨packageName name, delivery.content⟩) ∧
      name.toList <+: (packageName name).toList ∧
      (HasPackageExtension (packageName name) ↔ HasPackageExtension name ∨ ¬ EndsOpen name) ∧
      (packageName (packageName name) = packageName name ↔
        HasPackageExtension name ∨ ¬ EndsOpen name) ∧
      (EndsInMark (packageName name) ↔ ¬ (HasPackageExtension name ∧ EndsSilent name)) ∧
      packageName (packageName (packageName name)) = packageName (packageName name) := by
  refine ⟨fun _ => rfl, ?_, hasPackageExtension_packageName, ?_, endsInMark_packageName, ?_⟩
  · by_cases h : HasPackageExtension name
    · simp only [packageName_of_hasPackageExtension h, List.prefix_rfl]
    · rw [packageName_of_not h, String.toList_append]
      exact List.prefix_append _ _
  · rw [packageName_eq_self_iff, hasPackageExtension_packageName]
  · exact packageName_of_hasPackageExtension (hasPackageExtension_twice name)

theorem packageName_unsettled :
    packageName "" = ".docx" ∧ ¬ HasPackageExtension ".docx" ∧
      packageName ".docx" = ".docx.docx" ∧
      packageName "letter.docx/" = "letter.docx/" ∧ ¬ EndsInMark "letter.docx/" := by
  have hsilent : EndsSilent "letter.docx/" := ⟨"letter.docx".toList, [], by decide, by decide⟩
  refine ⟨by decide, ?_, by decide, by decide, fun h => not_endsSilent_of_endsInMark h hsilent⟩
  rw [← isPackageName_iff]
  decide

end Delivery

end Manuscript
