import Manuscript.Proofs.Xml.Tags

/-!
# The attributes of a tag

The attributes of a tag are read off its characters: a name, an equals sign and a value in double
quotes, in which the references are resolved.  Since names hold no equals sign and escaped values no
quote, the attributes that a tag was written with are found again, with the legal characters of
their values.
-/

namespace Manuscript.Xml

def attributesFrom (cs : List Char) : List (List Char × List Char) :=
  match _hcut : cs.dropWhile (· != '=') with
  | _ :: quote :: rest =>
      if quote = '\x22' then
        ((cs.takeWhile (· != '=')).dropWhile isSpace, rest.takeWhile (· != '\x22')) ::
          attributesFrom ((rest.dropWhile (· != '\x22')).drop 1)
      else []
  | _ => []
termination_by cs.length
decreasing_by
  have hname := (List.dropWhile_suffix (l := cs) (· != '=')).length_le
  have hvalue := (List.dropWhile_suffix (l := rest) (· != '\x22')).length_le
  simp only [_hcut, List.length_cons, List.length_drop] at hname ⊢
  omega

/-- The attributes of a tag, each with its value after the references in it are resolved. -/
def attributesOf (tag : List Char) : List (String × Except EntityFault String) :=
  (attributesFrom (tag.dropWhile (!isSpace ·))).map fun (name, value) =>
    (String.ofList name, (unescape value).map String.ofList)

theorem attributesFrom_of_not_mem {cs : List Char} (h : '=' ∉ cs) : attributesFrom cs = [] := by
  have hnone : cs.dropWhile (· != '=') = [] := by
    rw [List.dropWhile_eq_nil_iff]
    exact bne_of_not_mem h
  rw [attributesFrom]
  split
  · rename_i hsome
    rw [hnone] at hsome
    cases hsome
  · rfl

theorem attributesFrom_cons {name value : List Char} (hname : '=' ∉ name)
    (hspace : ∀ c ∈ name.head?, isSpace c = false) (hvalue : '\x22' ∉ value) (rest : List Char) :
    attributesFrom (' ' :: (name ++ '=' :: '\x22' :: (value ++ '\x22' :: rest))) =
      (name, value) :: attributesFrom rest := by
  have hfront : '=' ∉ ' ' :: name := by simpa using hname
  have htrimmed : (' ' :: name).dropWhile isSpace = name := by
    have hblank : isSpace ' ' = true := rfl
    cases name with
    | nil => rfl
    | cons c name =>
        have hc : isSpace c = false := hspace c rfl
        simp [hblank, hc]
  have hdrop := dropWhile_mark hfront ('\x22' :: (value ++ '\x22' :: rest))
  rw [List.cons_append] at hdrop
  rw [attributesFrom]
  split
  · rename_i first quote after hcut
    rw [hdrop] at hcut
    obtain ⟨rfl, rfl⟩ := List.cons.inj (List.cons.inj hcut).2
    rw [if_pos rfl, ← List.cons_append, takeWhile_mark hfront, htrimmed, takeWhile_mark hvalue,
      dropWhile_mark hvalue, List.drop_one, List.tail_cons]
  · rename_i hnone
    exact absurd hdrop (hnone _ _ _)

theorem isSpace_head?_name {name : String} (hname : isName name = true) :
    ∀ c ∈ name.toList.head?, isSpace c = false := fun c hc =>
  isSpace_of_isNameChar (((isName_iff name).mp hname).2 c (List.mem_of_mem_head? hc))

theorem attributesFrom_render {attributes : List Attribute}
    (hnames : ∀ a ∈ attributes, isName a.name = true) {rest : List Char} (hrest : '=' ∉ rest) :
    attributesFrom (attributes.flatMap Attribute.render ++ rest) =
      attributes.map fun a => (a.name.toList, escapeChars a.value.toList) := by
  induction attributes with
  | nil => exact attributesFrom_of_not_mem hrest
  | cons a attributes ih =>
      have hname := hnames a (by simp)
      have htail := ih fun b hb => hnames b (by simp [hb])
      have hshape : (a :: attributes).flatMap Attribute.render ++ rest =
          ' ' :: (a.name.toList ++ '=' :: '\x22' :: (escapeChars a.value.toList ++
            '\x22' :: (attributes.flatMap Attribute.render ++ rest))) := by
        simp [Attribute.render]
      rw [hshape, attributesFrom_cons (equals_not_mem_name hname) (isSpace_head?_name hname)
        (quote_not_mem_escapeChars _), htail, List.map_cons]

theorem dropWhile_attributes (attributes : List Attribute) :
    (attributes.flatMap Attribute.render ++ ['/', '>']).dropWhile (!isSpace ·) =
      if attributes = [] then [] else attributes.flatMap Attribute.render ++ ['/', '>'] := by
  cases attributes with
  | nil => rfl
  | cons a attributes => rfl

theorem attributesOf_empty {name : String} {attributes : List Attribute}
    (h : hasNames name attributes = true) :
    attributesOf (Piece.empty name attributes).render =
      attributes.map fun a => (a.name, .ok (legal a.value)) := by
  simp only [hasNames, Bool.and_eq_true, List.all_eq_true] at h
  have hname : ∀ c ∈ '<' :: name.toList, (!isSpace c) = true := by
    intro c hc
    rcases List.mem_cons.mp hc with rfl | hc
    · rfl
    · simp [isSpace_of_isNameChar (((isName_iff name).mp h.1).2 c hc)]
  have hshape : (Piece.empty name attributes).render =
      ('<' :: name.toList) ++ (attributes.flatMap Attribute.render ++ ['/', '>']) := by
    simp [Piece.render]
  have hread : attributesFrom ((Piece.empty name attributes).render.dropWhile (!isSpace ·)) =
      attributes.map fun a => (a.name.toList, escapeChars a.value.toList) := by
    rw [hshape, List.dropWhile_append_of_pos hname, dropWhile_attributes]
    split
    · rename_i hnone
      rw [hnone, attributesFrom_of_not_mem List.not_mem_nil, List.map_nil]
    · exact attributesFrom_render h.2 (by decide)
  rw [attributesOf, hread, List.map_map]
  apply List.map_congr_left
  intro a _
  simp [unescape_escapeChars, legal, Except.map]

end Manuscript.Xml
