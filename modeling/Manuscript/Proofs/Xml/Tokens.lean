import Manuscript.Proofs.Xml.Escaping
import Manuscript.Xml.Event
import Manuscript.Xml.Piece
import Mathlib.Data.List.TakeWhile

/-!
# Written pieces are read as their tokens

A rendered tag is cut off as one token with the name it was written with, whatever its attribute
values are, and a rendered text as one token, unless nothing of it is left after escaping.  The
statements about single tags and texts leave the rest of the input open.
-/

namespace Manuscript.Xml

section

variable {α : Type} [BEq α] [LawfulBEq α] {mark : α} {front : List α}

theorem bne_of_not_mem (h : mark ∉ front) : ∀ c ∈ front, (c != mark) = true := by
  intro c hc
  rw [bne_iff_ne]
  rintro rfl
  exact h hc

theorem takeWhile_mark (h : mark ∉ front) (rest : List α) :
    (front ++ mark :: rest).takeWhile (· != mark) = front := by
  simp [List.takeWhile_append_of_pos (bne_of_not_mem h)]

theorem dropWhile_mark (h : mark ∉ front) (rest : List α) :
    (front ++ mark :: rest).dropWhile (· != mark) = mark :: rest := by
  simp [List.dropWhile_append_of_pos (bne_of_not_mem h)]

end

def isNameChar (c : Char) : Bool :=
  !(isPadding c || c == '<' || c == '>' || c == '/' || c == '!' || c == '?' || c == '=' ||
    c == '\x22' || c == '\x27')

def isName (name : String) : Bool :=
  !name.toList.isEmpty && name.toList.all isNameChar

theorem isName_iff (name : String) :
    isName name = true ↔ name.toList ≠ [] ∧ ∀ c ∈ name.toList, isNameChar c := by
  simp [isName]

theorem isSpace_of_isNameChar {c : Char} (hc : isNameChar c) : isSpace c = false := by
  simp only [isNameChar, isPadding, Bool.not_eq_true', Bool.or_eq_false_iff] at hc
  exact hc.1.1.1.1.1.1.1.1.1

theorem isPadding_of_isNameChar {c : Char} (hc : isNameChar c) : isPadding c = false := by
  simp only [isNameChar, Bool.not_eq_true', Bool.or_eq_false_iff] at hc
  exact hc.1.1.1.1.1.1.1.1

theorem ne_of_isNameChar {c : Char} (hc : isNameChar c) :
    c ≠ '<' ∧ c ≠ '>' ∧ c ≠ '/' ∧ c ≠ '!' ∧ c ≠ '?' ∧ c ≠ '=' ∧ c ≠ '\x22' ∧ c ≠ '\x27' := by
  simp only [isNameChar, Bool.not_eq_true', Bool.or_eq_false_iff, beq_eq_false_iff_ne] at hc
  rcases hc with ⟨⟨⟨⟨⟨⟨⟨⟨-, hl⟩, hg⟩, hs⟩, hb⟩, hm⟩, he⟩, hd⟩, hq⟩
  exact ⟨hl, hg, hs, hb, hm, he, hd, hq⟩

theorem equals_not_mem_name {name : String} (hname : isName name = true) : '=' ∉ name.toList :=
  fun hmem => (ne_of_isNameChar (((isName_iff name).mp hname).2 _ hmem)).2.2.2.2.2.1 rfl

def IsClosed (inside : List Char) : Prop :=
  ∀ rest, cutTag none (inside ++ rest) = (cutTag none rest).map (inside ++ ·) id

theorem IsClosed.append {first second : List Char} (hfirst : IsClosed first)
    (hsecond : IsClosed second) : IsClosed (first ++ second) := by
  intro rest
  rw [List.append_assoc, hfirst, hsecond]
  simp [Prod.map]

theorem IsClosed.cutTag_close {inside : List Char} (h : IsClosed inside) (rest : List Char) :
    cutTag none (inside ++ '>' :: rest) = (inside, rest) := by
  rw [h]
  simp [cutTag, Prod.map]

theorem isClosed_of_forall {inside : List Char}
    (h : ∀ c ∈ inside, c ≠ '>' ∧ c ≠ '\x22' ∧ c ≠ '\x27') : IsClosed inside := by
  intro rest
  induction inside with
  | nil => rfl
  | cons c inside ih =>
      rcases h c (by simp) with ⟨hclose, hdouble, hsingle⟩
      have htail := ih fun d hd => h d (by simp [hd])
      rw [List.cons_append, cutTag]
      simp [hclose, hdouble, hsingle, htail, Prod.map]

theorem cutTag_quoted {value : List Char} (h : ∀ c ∈ value, c ≠ '\x22') (rest : List Char) :
    cutTag (some '\x22') (value ++ '\x22' :: rest) =
      (cutTag none rest).map (value ++ '\x22' :: ·) id := by
  induction value with
  | nil =>
      rw [List.nil_append, cutTag]
      simp [Prod.map]
  | cons c value ih =>
      have hc : c ≠ '\x22' := h c (by simp)
      have htail := ih fun d hd => h d (by simp [hd])
      rw [List.cons_append, cutTag]
      simp [hc, htail, Prod.map]

theorem isClosed_quoted {value : List Char} (h : ∀ c ∈ value, c ≠ '\x22') :
    IsClosed ('\x22' :: (value ++ ['\x22'])) := by
  intro rest
  have hshape : '\x22' :: (value ++ ['\x22']) ++ rest = '\x22' :: (value ++ '\x22' :: rest) := by
    simp
  rw [hshape, cutTag]
  simp [cutTag_quoted h, Prod.map]

theorem isClosed_name {name : String} (hname : isName name = true) : IsClosed name.toList := by
  apply isClosed_of_forall
  intro c hc
  have hne := ne_of_isNameChar (((isName_iff name).mp hname).2 c hc)
  exact ⟨hne.2.1, hne.2.2.2.2.2.2.1, hne.2.2.2.2.2.2.2⟩

theorem isClosed_attribute {a : Attribute} (hname : isName a.name = true) : IsClosed a.render := by
  have hspace : IsClosed [' '] := isClosed_of_forall (by simp)
  have hequals : IsClosed ['='] := isClosed_of_forall (by simp)
  have hvalue : IsClosed ('\x22' :: (escapeChars a.value.toList ++ ['\x22'])) := by
    apply isClosed_quoted
    rintro c hc rfl
    exact quote_not_mem_escapeChars _ hc
  have hall := hspace.append ((isClosed_name hname).append (hequals.append hvalue))
  simpa [Attribute.render] using hall

theorem isClosed_attributes {attributes : List Attribute}
    (hnames : ∀ a ∈ attributes, isName a.name = true) :
    IsClosed (attributes.flatMap Attribute.render) := by
  induction attributes with
  | nil => exact isClosed_of_forall (by simp)
  | cons a attributes ih =>
      rw [List.flatMap_cons]
      exact (isClosed_attribute (hnames a (by simp))).append
        (ih fun b hb => hnames b (by simp [hb]))

theorem attribute_shape (a : Attribute) : ∃ between, a.render = ' ' :: (between ++ ['\x22']) :=
  ⟨a.name.toList ++ '=' :: '\x22' :: escapeChars a.value.toList, by simp [Attribute.render]⟩

theorem attributes_shape (attributes : List Attribute) :
    attributes.flatMap Attribute.render = [] ∨
      ∃ between, attributes.flatMap Attribute.render = ' ' :: (between ++ ['\x22']) := by
  induction attributes with
  | nil => exact .inl rfl
  | cons a attributes ih =>
      rcases attribute_shape a with ⟨first, hfirst⟩
      right
      rcases ih with hnone | ⟨between, hsome⟩
      · refine ⟨first, ?_⟩
        rw [List.flatMap_cons, hfirst, hnone, List.append_nil]
      · refine ⟨first ++ '\x22' :: ' ' :: between, ?_⟩
        rw [List.flatMap_cons, hfirst, hsome]
        simp

theorem takeWhile_name_append {name : String} (hname : isName name = true) {rest : List Char}
    (hrest : rest = [] ∨ ∃ tail, rest = ' ' :: tail) :
    (name.toList ++ rest).takeWhile (!isSpace ·) = name.toList := by
  have hspaces : ∀ c ∈ name.toList, (!isSpace c) = true := fun c hc => by
    simp [isSpace_of_isNameChar (((isName_iff name).mp hname).2 c hc)]
  rw [List.takeWhile_append_of_pos hspaces]
  rcases hrest with rfl | ⟨tail, rfl⟩
  · simp
  · simp [isSpace]

theorem getLast?_name_attributes {name : String} (hname : isName name = true)
    (attributes : List Attribute) :
    (name.toList ++ attributes.flatMap Attribute.render).getLast? ≠ some '/' := by
  have hchars := ((isName_iff name).mp hname).2
  rcases attributes_shape attributes with hnone | ⟨between, hsome⟩
  · rw [hnone, List.append_nil]
    intro hlast
    exact (ne_of_isNameChar (hchars '/' (List.mem_of_getLast? hlast))).2.2.1 rfl
  · rw [hsome, ← List.cons_append, ← List.append_assoc, List.getLast?_concat]
    decide

theorem elementToken_start {name : String} (hname : isName name = true)
    (attributes : List Attribute) :
    elementToken (name.toList ++ attributes.flatMap Attribute.render) = .start name.toList := by
  have hlast := getLast?_name_attributes hname attributes
  have hname' : (name.toList ++ attributes.flatMap Attribute.render).takeWhile (!isSpace ·) =
      name.toList := by
    apply takeWhile_name_append hname
    rcases attributes_shape attributes with hnone | ⟨between, hsome⟩
    · exact .inl hnone
    · exact .inr ⟨_, hsome⟩
  simp only [elementToken, hname', if_neg hlast]

theorem elementToken_empty {name : String} (hname : isName name = true)
    (attributes : List Attribute) :
    elementToken (name.toList ++ attributes.flatMap Attribute.render ++ ['/']) =
      .empty name.toList := by
  have hchars := ((isName_iff name).mp hname).2
  simp only [elementToken, List.getLast?_concat, ↓reduceIte]
  rcases attributes_shape attributes with hnone | ⟨between, hsome⟩
  · -- The solidus is read as a part of the name and taken off again.
    have hspaces : ∀ c ∈ name.toList ++ ['/'], (!isSpace c) = true := by
      intro c hc
      rcases List.mem_append.mp hc with hc | hc
      · simp [isSpace_of_isNameChar (hchars c hc)]
      · rw [List.mem_singleton.mp hc]
        rfl
    have hall : (name.toList ++ ['/']).takeWhile (!isSpace ·) = name.toList ++ ['/'] :=
      List.takeWhile_eq_self_iff.mpr hspaces
    rw [hnone, List.append_nil, hall]
    simp
  · rw [hsome, List.append_assoc, List.cons_append, takeWhile_name_append hname (.inr ⟨_, rfl⟩)]
    simp

theorem tokensFrom_tag {d : Char} {rest after : List Char} {token : Token}
    (h : tag d rest = .ok (token, after)) :
    tokensFrom ('<' :: d :: rest) = (tokensFrom after).map (token :: ·) id := by
  rw [tokensFrom]
  simp only [↓reduceIte]
  split
  · rename_i fault hfault
    rw [h] at hfault
    cases hfault
  · rename_i token' after' hok
    rw [h] at hok
    cases hok
    rfl

theorem tokensFrom_element {d : Char} {inside : List Char} (hclosed : IsClosed (d :: inside))
    (hd : d ≠ '!' ∧ d ≠ '?' ∧ d ≠ '/') (rest : List Char) :
    tokensFrom ('<' :: d :: (inside ++ '>' :: rest)) =
      (tokensFrom rest).map (elementToken (d :: inside) :: ·) id := by
  apply tokensFrom_tag
  have hcut := hclosed.cutTag_close rest
  rw [List.cons_append] at hcut
  simp [tag, hd.1, hd.2.1, hd.2.2, hcut]

theorem tokensFrom_finish {content : List Char} (h : ∀ c ∈ content, c ≠ '>')
    (rest : List Char) :
    tokensFrom ('<' :: '/' :: (content ++ '>' :: rest)) =
      (tokensFrom rest).map (.finish content :: ·) id := by
  have hall : ∀ c ∈ content, (c != '>') = true := fun c hc => by simp [h c hc]
  apply tokensFrom_tag
  simp [tag, beforeClose, afterClose, List.takeWhile_append_of_pos hall,
    List.dropWhile_append_of_pos hall]

theorem tokensFrom_instruction {inside : List Char} (h : ∀ c ∈ inside, c ≠ '>')
    (hlength : 1 < inside.length) (hlast : inside.getLast? = some '?') (rest : List Char) :
    tokensFrom ('<' :: '?' :: (inside ++ '>' :: rest)) =
      (tokensFrom rest).map (.other :: ·) id := by
  have hall : ∀ c ∈ inside, (c != '>') = true := fun c hc => by simp [h c hc]
  apply tokensFrom_tag
  simp [tag, instruction, beforeClose, afterClose, List.takeWhile_append_of_pos hall,
    List.dropWhile_append_of_pos hall, hlength, hlast]

/-- Whether a text cannot be the continuation of another one. -/
def AtMarkup (rest : List Char) : Prop :=
  rest = [] ∨ ∃ tail, rest = '<' :: tail

theorem tokensFrom_text {cs rest : List Char} (hne : cs ≠ []) (hcs : ∀ c ∈ cs, c ≠ '<')
    (hrest : AtMarkup rest) :
    tokensFrom (cs ++ rest) = (tokensFrom rest).map (.text cs :: ·) id := by
  rcases List.exists_cons_of_ne_nil hne with ⟨c, cs, rfl⟩
  have hc : c ≠ '<' := hcs c (by simp)
  have hall : ∀ d ∈ cs, (d != '<') = true := fun d hd => by simp [hcs d (by simp [hd])]
  have htake : (cs ++ rest).takeWhile (· != '<') = cs := by
    rw [List.takeWhile_append_of_pos hall]
    rcases hrest with rfl | ⟨tail, rfl⟩ <;> simp
  have hdrop : (cs ++ rest).dropWhile (· != '<') = rest := by
    rw [List.dropWhile_append_of_pos hall]
    rcases hrest with rfl | ⟨tail, rfl⟩ <;> simp
  rw [List.cons_append]
  cases hafter : cs ++ rest with
  | nil =>
      rcases List.append_eq_nil_iff.mp hafter with ⟨rfl, rfl⟩
      simp [tokensFrom, Prod.map]
  | cons d ds =>
      rw [tokensFrom]
      simp only [hc, ↓reduceIte]
      rw [← hafter, htake, hdrop]
      rfl

end Manuscript.Xml
