import Manuscript.Path
import Mathlib.Data.List.Basic

/-!
# Components of changed paths

Joining a name to a directory adds one component.  Changing the extension or the file name of a path
changes its last component only, if that is a name.  So a path's file name and extension can be told
from its components.
-/

namespace Manuscript.Path

theorem split_append_slash (cs ds : List Char) :
    split (cs ++ '/' :: ds) = split cs ++ split ds := by
  induction cs with
  | nil => simp [split]
  | cons c cs ih =>
      by_cases hc : c = '/'
      · simp [split, hc, ih]
      · obtain ⟨piece, pieces, hpieces⟩ := List.exists_cons_of_ne_nil (split_ne_nil cs)
        simp [split, hc, ih, hpieces]

theorem split_of_not_mem {cs : List Char} (h : '/' ∉ cs) : split cs = [cs] := by
  induction cs with
  | nil => rfl
  | cons c cs ih =>
      rw [List.mem_cons, not_or] at h
      simp [split, Ne.symm h.1, ih h.2]

theorem not_mem_of_mem_split {cs piece : List Char} (h : piece ∈ split cs) : '/' ∉ piece := by
  induction cs generalizing piece with
  | nil =>
      rw [split, List.mem_singleton] at h
      simp [h]
  | cons c cs ih =>
      obtain ⟨first, pieces, hpieces⟩ := List.exists_cons_of_ne_nil (split_ne_nil cs)
      by_cases hc : c = '/'
      · simp only [split, hc, if_pos, List.mem_cons] at h
        rcases h with rfl | h
        · simp
        · exact ih h
      · simp only [split, hc, if_neg, hpieces, List.mem_cons, not_false_eq_true] at h
        rcases h with rfl | h
        · have hfirst : '/' ∉ first := ih (by simp [hpieces])
          simp [hfirst, Ne.symm hc]
        · exact ih (by simp [hpieces, h])

theorem split_unsplit {pieces : List (List Char)} (hne : pieces ≠ [])
    (h : ∀ piece ∈ pieces, '/' ∉ piece) : split (unsplit pieces) = pieces := by
  induction pieces with
  | nil => exact absurd rfl hne
  | cons piece pieces ih =>
      have hpiece : split piece = [piece] := split_of_not_mem (h piece (by simp))
      cases pieces with
      | nil => exact hpiece
      | cons next pieces =>
          have hrest := ih (by simp) fun other hother => h other (by simp [hother])
          rw [unsplit, split_append_slash, hpiece, hrest]
          rfl

def mark : List (List Char) → List Component
  | [] => []
  | first :: _ => if first = [] then [.root] else if first = ['.'] then [.here] else []

def counted (pieces : List (List Char)) : List Component :=
  (pieces.filter (!isSilent ·)).map fun piece => if piece = upward then .up else .name piece

theorem mark_append {pieces : List (List Char)} (h : pieces ≠ []) (more : List (List Char)) :
    mark (pieces ++ more) = mark pieces := by
  obtain ⟨first, rest, rfl⟩ := List.exists_cons_of_ne_nil h
  rfl

theorem counted_append (pieces more : List (List Char)) :
    counted (pieces ++ more) = counted pieces ++ counted more := by
  simp [counted]

theorem counted_of_silent {pieces : List (List Char)} (h : ∀ piece ∈ pieces, isSilent piece) :
    counted pieces = [] := by
  simpa [counted] using h

structure IsName (name : List Char) : Prop where
  whole : '/' ∉ name
  counts : isSilent name = false
  down : name ≠ upward

theorem IsName.ne_nil {name : List Char} (h : IsName name) : name ≠ [] := by
  rintro rfl
  exact absurd h.counts (by decide)

theorem IsName.counted_singleton {name : List Char} (h : IsName name) :
    counted [name] = [.name name] := by
  simp [counted, h.counts, h.down]

theorem IsName.mark_cons {name : List Char} (h : IsName name) (pieces : List (List Char)) :
    mark (name :: pieces) = [] := by
  have hcounts := h.counts
  simp only [isSilent, Bool.or_eq_false_iff, beq_eq_false_iff_ne] at hcounts
  simp [mark, hcounts.1, hcounts.2]

theorem IsName.of_length {name : List Char} (h : '/' ∉ name) (hlength : 2 < name.length) :
    IsName name where
  whole := h
  counts := by
    have hempty : name ≠ [] := by
      rintro rfl
      simp at hlength
    have hdot : name ≠ ['.'] := by
      rintro rfl
      simp at hlength
    simp [isSilent, hempty, hdot]
  down := by
    rintro rfl
    simp [upward] at hlength

theorem components_eq_mark {path : String} (h : path ≠ "") :
    components path = mark (split path.toList) ++ counted (split path.toList) := by
  have hsplit : split path.toList ≠ [[]] := by
    intro hnil
    have hback := unsplit_split path.toList
    rw [hnil, unsplit] at hback
    exact h (String.toList_eq_nil_iff.mp hback.symm)
  obtain ⟨first, rest, hpieces⟩ := List.exists_cons_of_ne_nil (split_ne_nil path.toList)
  simp only [components, hpieces, mark, counted]
  split
  · simp_all
  · simp_all
  · by_cases hrest : rest = []
    · simp_all
    · obtain ⟨next, more, rfl⟩ := List.exists_cons_of_ne_nil hrest
      simp_all

theorem components_empty : components "" = [] := by
  decide

theorem components_of_isName {name : List Char} (h : IsName name) :
    components (String.ofList name) = [.name name] := by
  have hne : String.ofList name ≠ "" := by
    intro hempty
    have hcounts := h.counts
    rw [String.ofList_eq_empty_iff] at hempty
    simp [hempty, isSilent] at hcounts
  rw [components_eq_mark hne, String.toList_ofList, split_of_not_mem h.whole, h.mark_cons,
    h.counted_singleton, List.nil_append]

theorem components_of_split {path : String} {before silent : List (List Char)} {name : List Char}
    (h : split path.toList = before ++ name :: silent)
    (hsilent : ∀ piece ∈ silent, isSilent piece) (hname : IsName name) :
    components path = mark before ++ counted before ++ [.name name] := by
  have hne : path ≠ "" := by
    rintro rfl
    cases before with
    | nil =>
        have hcounts := hname.counts
        obtain ⟨rfl, -⟩ := List.cons_eq_cons.mp h
        simp [isSilent] at hcounts
    | cons piece before => simp [split] at h
  have hcounted : counted (name :: silent) = [.name name] := by
    rw [← List.singleton_append, counted_append, hname.counted_singleton,
      counted_of_silent hsilent, List.append_nil]
  have hmark : mark (before ++ name :: silent) = mark before := by
    cases before with
    | nil => exact hname.mark_cons silent
    | cons piece before => rfl
  rw [components_eq_mark hne, h, counted_append, hcounted, hmark, List.append_assoc]

theorem mark_concat_of_counts {piece : List Char} (h : isSilent piece = false)
    (pieces : List (List Char)) : mark (pieces ++ [piece]) = mark pieces := by
  cases pieces with
  | nil =>
      simp only [isSilent, Bool.or_eq_false_iff, beq_eq_false_iff_ne] at h
      simp [mark, h.1, h.2]
  | cons first pieces => rfl

theorem components_of_upward {path : String} {before : List (List Char)}
    (h : split path.toList = before ++ [upward]) :
    components path = mark before ++ counted before ++ [.up] := by
  have hne : path ≠ "" := by
    rintro rfl
    have hlast := congrArg List.getLast? h
    simp [split, upward] at hlast
  have hup : counted [upward] = [.up] := by decide
  rw [components_eq_mark hne, h, mark_concat_of_counts (by decide), counted_append, hup,
    List.append_assoc]

theorem split_join {directory : String} (h : directory ≠ "") {name : List Char}
    (hname : '/' ∉ name) :
    ∃ front, front ≠ [] ∧ split (join directory (String.ofList name)).toList = front ++ [name] ∧
      mark front ++ counted front = components directory := by
  have hisEmpty : directory.isEmpty = false := by simpa using h
  by_cases hslash : directory.toList.getLast? = some '/'
  · obtain ⟨cs, hcs⟩ : ∃ cs, directory.toList = cs ++ ['/'] :=
      ⟨_, (List.dropLast_append_getLast? '/' hslash).symm⟩
    have hdirectory : split directory.toList = split cs ++ [[]] := by
      rw [hcs, split_append_slash]
      rfl
    refine ⟨split cs, split_ne_nil cs, ?_, ?_⟩
    · simp [join, hcs, split_append_slash, split_of_not_mem hname]
    · rw [components_eq_mark h, hdirectory, counted_append, mark_append (split_ne_nil cs)]
      simp [counted_of_silent, isSilent]
  · refine ⟨split directory.toList, split_ne_nil _, ?_, (components_eq_mark h).symm⟩
    simp [join, hisEmpty, hslash, split_append_slash, split_of_not_mem hname]

theorem components_join (directory : String) {name : List Char} (h : IsName name) :
    components (join directory (String.ofList name)) = components directory ++ [.name name] := by
  by_cases hempty : directory = ""
  · subst hempty
    simpa [join, components_empty] using components_of_isName h
  · obtain ⟨front, -, hsplit, hfront⟩ := split_join hempty h.whole
    rw [components_of_split hsplit (by simp) h, hfront]

theorem components_join_empty (directory : String) :
    components (join directory "") = components directory := by
  by_cases hempty : directory = ""
  · subst hempty
    rfl
  · obtain ⟨front, hne, hsplit, hfront⟩ := split_join hempty (List.not_mem_nil (a := '/'))
    rw [String.ofList_nil] at hsplit
    have hjoined : join directory "" ≠ "" := by
      intro hnil
      rw [hnil] at hsplit
      exact hne (List.append_eq_singleton_iff.mp hsplit.symm |>.resolve_right (by simp)).1
    rw [components_eq_mark hjoined, hsplit, mark_append hne, counted_append, ← hfront]
    simp [counted, isSilent]

theorem exists_silent (pieces : List (List Char)) :
    ∃ silent, pieces = (pieces.reverse.dropWhile isSilent).reverse ++ silent ∧
      ∀ piece ∈ silent, isSilent piece := by
  refine ⟨(pieces.reverse.takeWhile isSilent).reverse, ?_, ?_⟩
  · rw [← List.reverse_append, List.takeWhile_append_dropWhile, List.reverse_reverse]
  · intro piece hpiece
    rw [List.mem_reverse] at hpiece
    exact List.all_eq_true.mp List.all_takeWhile piece hpiece

theorem components_directoryOf {pieces : List (List Char)} (h : ∀ piece ∈ pieces, '/' ∉ piece) :
    components (String.ofList (directoryOf pieces)) = mark pieces ++ counted pieces := by
  cases pieces with
  | nil => exact components_empty
  | cons first pieces =>
      obtain ⟨silent, hpieces, hsilent⟩ := exists_silent pieces
      rw [directoryOf]
      generalize (pieces.reverse.dropWhile isSilent).reverse = visible at hpieces ⊢
      subst hpieces
      have hcounted : counted (first :: (visible ++ silent)) = counted (first :: visible) := by
        rw [← List.cons_append, counted_append, counted_of_silent hsilent, List.append_nil]
      rw [hcounted]
      cases visible with
      | nil =>
          by_cases hfirst : first = []
          · subst hfirst
            have hroot : components (String.ofList ['/']) = [.root] := by decide
            exact hroot
          · have hne : String.ofList first ≠ "" := by simpa using hfirst
            simp only [if_neg hfirst]
            rw [components_eq_mark hne, String.toList_ofList,
              split_of_not_mem (h first (by simp))]
            rfl
      | cons piece visible =>
          have hsplit : split (unsplit (first :: piece :: visible)) =
              first :: piece :: visible := by
            apply split_unsplit (by simp)
            intro other hother
            apply h
            simp only [List.mem_cons, List.cons_append, List.mem_append] at hother ⊢
            tauto
          have hne : String.ofList (unsplit (first :: piece :: visible)) ≠ "" := by
            simp [unsplit]
          simp only
          rw [components_eq_mark hne, String.toList_ofList, hsplit]
          rfl

/-! ## Starts and steps -/

def isRooted (path : String) : Bool :=
  (components path).head? == some .root

def beginsHere (path : String) : Bool :=
  (components path).head? == some .here

/-- What a path does after its start: names, and steps upward. -/
def steps (path : String) : List Component :=
  (components path).filter fun component => component != .root && component != .here

theorem mem_counted {pieces : List (List Char)} {component : Component}
    (h : component ∈ counted pieces) : component ≠ .root ∧ component ≠ .here := by
  obtain ⟨piece, -, rfl⟩ := List.mem_map.mp h
  split <;> simp

theorem filter_counted (pieces : List (List Char)) :
    (counted pieces).filter (fun component => component != .root && component != .here) =
      counted pieces := by
  rw [List.filter_eq_self]
  intro component hmem
  simpa using mem_counted hmem

theorem head?_counted (pieces : List (List Char)) :
    (counted pieces).head? ≠ some .root ∧ (counted pieces).head? ≠ some .here := by
  constructor
  · intro hhead
    exact (mem_counted (List.mem_of_mem_head? hhead)).1 rfl
  · intro hhead
    exact (mem_counted (List.mem_of_mem_head? hhead)).2 rfl

theorem steps_eq_counted {path : String} (h : path ≠ "") :
    steps path = counted (split path.toList) := by
  have hmark : (mark (split path.toList)).filter
      (fun component => component != .root && component != .here) = [] := by
    unfold mark
    split
    · rfl
    · split
      · rfl
      · split <;> rfl
  rw [steps, components_eq_mark h, List.filter_append, hmark, filter_counted, List.nil_append]

theorem components_eq_steps (path : String) :
    components path =
      (if isRooted path then [.root] else if beginsHere path then [.here] else []) ++
        steps path := by
  by_cases hempty : path = ""
  · subst hempty
    decide
  obtain ⟨hroot, hhere⟩ := head?_counted (split path.toList)
  rw [steps_eq_counted hempty]
  have hcomponents := components_eq_mark hempty
  obtain ⟨first, rest, hpieces⟩ := List.exists_cons_of_ne_nil (split_ne_nil path.toList)
  by_cases hnil : first = []
  · simp_all [isRooted, mark]
  by_cases hdot : first = ['.']
  · simp_all [isRooted, beginsHere, mark]
  · simp_all [isRooted, beginsHere, mark]

theorem components_eq_of_steps {path other : String} (hsteps : steps path = steps other)
    (hroot : isRooted path = isRooted other) (hhere : beginsHere path = beginsHere other) :
    components path = components other := by
  rw [components_eq_steps path, components_eq_steps other, hsteps, hroot, hhere]

def withoutDots (path : String) : List Component :=
  (components path).filter (· != .here)

theorem mem_steps {path : String} {component : Component} (h : component ∈ steps path) :
    component ≠ .root ∧ component ≠ .here := by
  simpa using (List.mem_filter.mp h).2

theorem withoutDots_eq (path : String) :
    withoutDots path = (if isRooted path then [.root] else []) ++ steps path := by
  have hsteps : (steps path).filter (· != .here) = steps path := by
    rw [List.filter_eq_self]
    intro component hmem
    simpa using (mem_steps hmem).2
  rw [withoutDots, components_eq_steps, List.filter_append, hsteps]
  congr 1
  split
  · rfl
  · split <;> rfl

theorem withoutDots_inj {path other : String} :
    withoutDots path = withoutDots other ↔
      isRooted path = isRooted other ∧ steps path = steps other := by
  have hroot (path : String) : .root ∈ withoutDots path ↔ isRooted path = true := by
    rw [withoutDots_eq, List.mem_append]
    constructor
    · rintro (hmem | hmem)
      · by_contra hnot
        simp [hnot] at hmem
      · exact absurd rfl (mem_steps hmem).1
    · intro hrooted
      simp [hrooted]
  constructor
  · intro h
    have hrooted : isRooted path = isRooted other := by
      rw [Bool.eq_iff_iff, ← hroot, ← hroot, h]
    rw [withoutDots_eq, withoutDots_eq, hrooted] at h
    exact ⟨hrooted, List.append_cancel_left h⟩
  · rintro ⟨hrooted, hsteps⟩
    rw [withoutDots_eq, withoutDots_eq, hrooted, hsteps]

/-! ## File names -/

theorem splitName?_eq_some_iff {path : String} {before : List (List Char)} {name : List Char} :
    splitName? path = some (before, name) ↔
      IsName name ∧ ∃ silent, split path.toList = before ++ name :: silent ∧
        ∀ piece ∈ silent, isSilent piece := by
  constructor
  · intro h
    obtain ⟨silent, hpieces, hsilent⟩ := exists_silent (split path.toList)
    unfold splitName? at h
    cases hvisible : (split path.toList).reverse.dropWhile isSilent with
    | nil => simp [hvisible] at h
    | cons piece rest =>
        simp only [hvisible, Option.ite_none_left_eq_some, Option.some.injEq,
          Prod.mk.injEq] at h
        obtain ⟨hdown, rfl, rfl⟩ := h
        have hcounts : isSilent piece = false := by
          have hhead := List.head?_dropWhile_not isSilent (split path.toList).reverse
          simpa [hvisible] using hhead
        rw [hvisible] at hpieces
        have hsplit : split path.toList = rest.reverse ++ piece :: silent := by
          rw [hpieces]
          simp
        have hwhole : '/' ∉ piece := not_mem_of_mem_split (by rw [hsplit]; simp)
        exact ⟨⟨hwhole, hcounts, hdown⟩, silent, hsplit, hsilent⟩
  · rintro ⟨hname, silent, hsplit, hsilent⟩
    have hdrop : (silent.reverse ++ name :: before.reverse).dropWhile isSilent =
        name :: before.reverse := by
      rw [List.dropWhile_append_of_pos (by simpa using hsilent)]
      simp [hname.counts]
    simp [splitName?, hsplit, hdrop, hname.down]

theorem components_of_splitName? {path : String} {before : List (List Char)} {name : List Char}
    (h : splitName? path = some (before, name)) :
    components path = mark before ++ counted before ++ [.name name] := by
  obtain ⟨hname, silent, hsplit, hsilent⟩ := splitName?_eq_some_iff.mp h
  exact components_of_split hsplit hsilent hname

theorem getLast?_of_splitName?_eq_none {path : String} (h : splitName? path = none)
    {name : List Char} : (components path).getLast? ≠ some (.name name) := by
  by_cases hempty : path = ""
  · subst hempty
    simp [components_empty]
  obtain ⟨silent, hpieces, hsilent⟩ := exists_silent (split path.toList)
  rw [components_eq_mark hempty]
  unfold splitName? at h
  cases hvisible : (split path.toList).reverse.dropWhile isSilent with
  | nil =>
      rw [hvisible] at hpieces
      rw [hpieces, List.reverse_nil, List.nil_append, counted_of_silent hsilent, List.append_nil]
      unfold mark
      split
      · simp
      · split
        · simp
        · split <;> simp
  | cons piece rest =>
      simp only [hvisible, ite_eq_left_iff, reduceCtorEq, imp_false, not_not] at h
      have hup : counted (piece :: silent) = [.up] := by
        rw [← List.singleton_append, counted_append, counted_of_silent hsilent, h]
        rfl
      rw [hvisible, List.reverse_cons, List.append_assoc, List.singleton_append] at hpieces
      rw [hpieces, counted_append, hup, ← List.append_assoc]
      simp

theorem fileName?_of_splitName? {path : String} {before : List (List Char)} {name : List Char}
    (h : splitName? path = some (before, name)) : fileName? path = some (String.ofList name) := by
  rw [fileName?, h, Option.map_some]

theorem fileName?_eq_some_iff {path name : String} :
    fileName? path = some name ↔ (components path).getLast? = some (.name name.toList) := by
  unfold fileName?
  cases hname : splitName? path with
  | some parts =>
      rcases parts with ⟨before, last⟩
      rw [components_of_splitName? hname]
      simp [← String.toList_inj]
  | none =>
      have hlast : (components path).getLast? ≠ some (.name name.toList) :=
        getLast?_of_splitName?_eq_none hname
      simp [hlast]

theorem fileName?_of_components {path : String} {front : List Component} {name : List Char}
    (h : components path = front ++ [.name name]) : fileName? path = some (String.ofList name) := by
  rw [fileName?_eq_some_iff, h]
  simp

theorem fileName?_of_same {path other : String} (h : components path = components other) :
    fileName? path = fileName? other := by
  apply Option.ext
  intro name
  rw [fileName?_eq_some_iff, fileName?_eq_some_iff, h]

theorem extension?_eq (path : String) :
    extension? path = (fileName? path).bind fun name =>
      (splitExtension name.toList).2.map String.ofList := by
  unfold extension? fileName?
  cases splitName? path with
  | none => rfl
  | some parts =>
      rcases parts with ⟨before, name⟩
      cases hextension : (splitExtension name).2 <;> simp [hextension]

theorem splitExtension_append {stem extension : List Char} (hstem : stem ≠ [])
    (h : '.' ∉ extension) : splitExtension (stem ++ '.' :: extension) = (stem, some extension) := by
  have hfree : ∀ c ∈ extension.reverse, (c != '.') = true := by
    intro c hc
    rw [List.mem_reverse] at hc
    rw [bne_iff_ne]
    rintro rfl
    exact h hc
  have hreverse : (stem ++ '.' :: extension).reverse =
      extension.reverse ++ '.' :: stem.reverse := by simp
  have hafter : (extension.reverse ++ '.' :: stem.reverse).takeWhile (· != '.') =
      extension.reverse := by
    rw [List.takeWhile_append_of_pos hfree]
    simp
  have hbefore : (extension.reverse ++ '.' :: stem.reverse).dropWhile (· != '.') =
      '.' :: stem.reverse := by
    rw [List.dropWhile_append_of_pos hfree]
    simp
  obtain ⟨c, cs, hcs⟩ := List.exists_cons_of_ne_nil (List.reverse_ne_nil_iff.mpr hstem)
  have hback : (c :: cs).reverse = stem := by rw [← hcs, List.reverse_reverse]
  simp only [splitExtension, hreverse, hafter, hbefore, List.drop_succ_cons, List.drop_zero,
    List.reverse_reverse]
  rw [hcs]
  simp only [hback]

theorem stem_prefix {name : List Char} (h : name ≠ []) :
    (splitExtension name).1 <+: name ∧ (splitExtension name).1 ≠ [] := by
  unfold splitExtension
  split
  · exact ⟨List.prefix_rfl, h⟩
  · rename_i c before hbefore
    refine ⟨?_, by simp⟩
    rw [← List.reverse_suffix, List.reverse_reverse, ← hbefore]
    exact (List.drop_suffix _ _).trans (List.dropWhile_suffix _)

/-! ## Changed paths -/

theorem whole_of_mem_before {cs : List Char} {before after : List (List Char)}
    (h : split cs = before ++ after) : ∀ piece ∈ before, '/' ∉ piece := by
  intro piece hpiece
  have hmem : piece ∈ split cs := by
    rw [h]
    exact List.mem_append_left after hpiece
  exact not_mem_of_mem_split hmem

theorem split_unsplit_concat {cs name : List Char} {before after : List (List Char)}
    (h : split cs = before ++ after) (hname : '/' ∉ name) :
    split (unsplit (before ++ [name])) = before ++ [name] :=
  split_unsplit (by simp)
    (List.forall_mem_append.mpr ⟨whole_of_mem_before h, List.forall_mem_singleton.mpr hname⟩)

theorem components_withExtension {path extension : String} {before : List (List Char)}
    {name : List Char} (h : splitName? path = some (before, name)) (hstem : hasDotStem path = false)
    (hname : IsName ((splitExtension name).1 ++ '.' :: extension.toList)) :
    components (withExtension path extension) =
      mark before ++ counted before ++
        [.name ((splitExtension name).1 ++ '.' :: extension.toList)] := by
  obtain ⟨-, silent, hsplit, -⟩ := splitName?_eq_some_iff.mp h
  have hchanged : split (withExtension path extension).toList =
      before ++ ((splitExtension name).1 ++ '.' :: extension.toList) :: [] := by
    simpa [withExtension, h, hstem] using split_unsplit_concat hsplit hname.whole
  exact components_of_split hchanged (by simp) hname

theorem exists_splitName?_of_hasDotStem {path : String} (h : hasDotStem path = true) :
    ∃ before name, splitName? path = some (before, name) := by
  unfold hasDotStem at h
  split at h
  · next extension hlast =>
      have hsplit := (List.dropLast_append_getLast? _ hlast).symm
      refine ⟨_, _, splitName?_eq_some_iff.mpr ⟨⟨?_, rfl, ?_⟩, [], hsplit, by simp⟩⟩
      · exact not_mem_of_mem_split (List.mem_of_getLast? hlast)
      · rintro hup
        simp [upward] at hup
        simp [hup] at h
  · cases h

/-- The name is lost, and the path leads to the directory above. -/
theorem split_withExtension_of_hasDotStem {path : String} (h : hasDotStem path = true)
    (extension : String) :
    ∃ before name, splitName? path = some (before, name) ∧
      split (withExtension path extension).toList = before ++ [upward] := by
  obtain ⟨before, name, hname⟩ := exists_splitName?_of_hasDotStem h
  obtain ⟨-, silent, hsplit, -⟩ := splitName?_eq_some_iff.mp hname
  refine ⟨before, name, hname, ?_⟩
  simpa [withExtension, hname, h] using split_unsplit_concat hsplit (show '/' ∉ upward by decide)

theorem components_withFileName (path : String) {name : List Char} (h : IsName name) :
    ∃ front, components (withFileName path (String.ofList name)) = front ++ [.name name] ∧
      ∀ old, fileName? path = some old → components path = front ++ [.name old.toList] := by
  cases hsplit : splitName? path with
  | none =>
      refine ⟨components path, ?_, ?_⟩
      · simpa only [withFileName, hsplit] using components_join path h
      · intro old hold
        simp [fileName?, hsplit] at hold
  | some parts =>
      rcases parts with ⟨before, last⟩
      obtain ⟨-, silent, hpieces, -⟩ := splitName?_eq_some_iff.mp hsplit
      have hwhole := whole_of_mem_before hpieces
      refine ⟨mark before ++ counted before, ?_, ?_⟩
      · simp only [withFileName, hsplit]
        rw [components_join _ h, components_directoryOf hwhole]
      · intro old hold
        simp only [fileName?, hsplit, Option.map_some, Option.some.injEq] at hold
        rw [← hold, String.toList_ofList]
        exact components_of_splitName? hsplit

end Manuscript.Path
