import Manuscript.Xml.Entity
import Manuscript.Xml.Escape
import Mathlib.Data.List.Basic

/-!
# Escaping loses only what XML forbids

Each character is escaped to a predefined entity, to itself, or to nothing, and it is dropped
exactly when it is outside the characters of XML 1.0.  Hence escaped text contains no markup
delimiter, and resolving its entities gives back the legal characters of the text.
-/

namespace Manuscript.Xml

/-- The characters of XML 1.0, by code point. -/
def isLegal (c : Char) : Bool :=
  let n := c.toNat
  n == 0x9 || n == 0xA || n == 0xD || (0x20 ≤ n && n ≤ 0xD7FF) || (0xE000 ≤ n && n ≤ 0xFFFD) ||
    (0x10000 ≤ n && n ≤ 0x10FFFF)

def legal (s : String) : String :=
  String.ofList (s.toList.filter isLegal)

@[simp] theorem toList_legal (s : String) : (legal s).toList = s.toList.filter isLegal := by
  simp [legal]

theorem isAllowed_eq_isLegal (c : Char) : isAllowed c = isLegal c := by
  have hvalid := c.valid
  simp only [UInt32.isValidChar, Nat.isValidChar] at hvalid
  change c.toNat < 0xd800 ∨ 0xdfff < c.toNat ∧ c.toNat < 0x110000 at hvalid
  have htab : '\t'.toNat = 9 := rfl
  have hfeed : '\n'.toNat = 10 := rfl
  have hreturn : '\r'.toNat = 13 := rfl
  have hreversed : '\ufffe'.toNat = 0xfffe := rfl
  have hlast : '\uffff'.toNat = 0xffff := rfl
  rw [Bool.eq_iff_iff]
  simp only [isAllowed, isLegal, Bool.and_eq_true, Bool.or_eq_true, Bool.not_eq_true',
    Bool.or_eq_false_iff, beq_iff_eq, beq_eq_false_iff_ne, decide_eq_true_eq, ne_eq,
    ← Char.toNat_inj, htab, hfeed, hreturn, hreversed, hlast]
  omega

theorem escapeChar_cases (c : Char) :
    (∃ name, escapeChar c = '&' :: (name ++ [';']) ∧ predefined? name = some c ∧
      (∀ d ∈ name, d.isAlpha) ∧ isLegal c) ∨
    (escapeChar c = [c] ∧ c ≠ '&' ∧ c ≠ '<' ∧ c ≠ '>' ∧ c ≠ '\x22' ∧ isLegal c) ∨
    (escapeChar c = [] ∧ isLegal c = false) := by
  by_cases hamp : c = '&'
  · subst c
    exact .inl ⟨['a', 'm', 'p'], by decide, by decide, List.all_eq_true.mp rfl, by decide⟩
  by_cases hless : c = '<'
  · subst c
    exact .inl ⟨['l', 't'], by decide, by decide, List.all_eq_true.mp rfl, by decide⟩
  by_cases hgreater : c = '>'
  · subst c
    exact .inl ⟨['g', 't'], by decide, by decide, List.all_eq_true.mp rfl, by decide⟩
  by_cases hquote : c = '\x22'
  · subst c
    exact .inl ⟨['q', 'u', 'o', 't'], by decide, by decide, List.all_eq_true.mp rfl, by decide⟩
  right
  have hescape : escapeChar c = if isLegal c then [c] else [] := by
    simp [escapeChar, hamp, hless, hgreater, hquote, isAllowed_eq_isLegal]
  cases hlegal : isLegal c with
  | true => exact .inl ⟨by simp [hescape, hlegal], hamp, hless, hgreater, hquote, rfl⟩
  | false => exact .inr ⟨by simp [hescape, hlegal], rfl⟩

@[simp] theorem escapeChars_nil : escapeChars [] = [] := rfl

@[simp] theorem escapeChars_cons (c : Char) (cs : List Char) :
    escapeChars (c :: cs) = escapeChar c ++ escapeChars cs := rfl

@[simp] theorem escapeChars_append (cs ds : List Char) :
    escapeChars (cs ++ ds) = escapeChars cs ++ escapeChars ds := by
  simp [escapeChars]

/-- A delimiter is a character that must not appear in escaped text. -/
def isDelimiter (c : Char) : Bool :=
  c == '<' || c == '>' || c == '\x22'

theorem isDelimiter_of_mem_escapeChar {c d : Char} (hd : d ∈ escapeChar c) :
    isDelimiter d = false := by
  rcases escapeChar_cases c with ⟨name, hescape, -, hname, -⟩ | ⟨hescape, -, hl, hg, hq, -⟩ |
    ⟨hescape, -⟩
  · rw [hescape] at hd
    simp only [List.mem_cons, List.mem_append, List.not_mem_nil, or_false] at hd
    rcases hd with rfl | hd | rfl
    · rfl
    · have halpha := hname d hd
      by_contra hdelimiter
      simp only [isDelimiter, Bool.not_eq_false, Bool.or_eq_true, beq_iff_eq] at hdelimiter
      rcases hdelimiter with (rfl | rfl) | rfl <;> simp at halpha
    · rfl
  · rw [hescape, List.mem_singleton] at hd
    subst d
    simp [isDelimiter, hl, hg, hq]
  · rw [hescape] at hd
    simp at hd

theorem isDelimiter_of_mem_escapeChars {d : Char} {cs : List Char} (hd : d ∈ escapeChars cs) :
    isDelimiter d = false := by
  obtain ⟨c, -, hc⟩ := List.mem_flatMap.mp hd
  exact isDelimiter_of_mem_escapeChar hc

theorem quote_not_mem_escapeChars (cs : List Char) : '\x22' ∉ escapeChars cs := fun hmem =>
  absurd (isDelimiter_of_mem_escapeChars hmem) (by decide)

theorem endsEntity_of_isAlpha {c : Char} (hc : c.isAlpha) : endsEntity c = false := by
  by_contra hends
  simp only [endsEntity, Bool.not_eq_false, Bool.or_eq_true, beq_iff_eq] at hends
  rcases hends with rfl | rfl <;> simp at hc

theorem takeWhile_name {name : List Char} (hname : ∀ d ∈ name, endsEntity d = false)
    (rest : List Char) : (name ++ ';' :: rest).takeWhile (!endsEntity ·) = name := by
  rw [List.takeWhile_append_of_pos (fun d hd => by simp [hname d hd])]
  simp [endsEntity]

theorem dropWhile_name {name : List Char} (hname : ∀ d ∈ name, endsEntity d = false)
    (rest : List Char) : (name ++ ';' :: rest).dropWhile (!endsEntity ·) = ';' :: rest := by
  rw [List.dropWhile_append_of_pos (fun d hd => by simp [hname d hd])]
  simp [endsEntity]

theorem unescapeFrom_reference {name : List Char} {c : Char} {first : Nat} (total : Nat)
    (hname : ∀ d ∈ name, endsEntity d = false) (hresolve : resolve first name = .ok c)
    (rest : List Char) :
    unescapeFrom total first ('&' :: (name ++ ';' :: rest)) = (do
      let ds ← unescapeFrom total (first + Utf8.size name + 2) rest
      .ok (c :: ds)) := by
  rw [unescapeFrom]
  simp only [↓reduceIte]
  rw [takeWhile_name hname]
  split
  · rename_i tail htail
    rw [dropWhile_name hname, List.cons.injEq] at htail
    obtain ⟨-, rfl⟩ := htail
    rw [hresolve]
    rfl
  · rename_i hother
    exact absurd (dropWhile_name hname rest) (hother rest)

theorem resolve_predefined {name : List Char} {c : Char} (first : Nat)
    (hname : predefined? name = some c) : resolve first name = .ok c := by
  unfold resolve
  split
  · simp [predefined?] at hname
  · simp [hname]

theorem unescapeFrom_entity {name : List Char} {c : Char} (total first : Nat)
    (hname : predefined? name = some c) (halpha : ∀ d ∈ name, d.isAlpha) (rest : List Char) :
    unescapeFrom total first ('&' :: (name ++ ';' :: rest)) = (do
      let ds ← unescapeFrom total (first + Utf8.size name + 2) rest
      .ok (c :: ds)) := by
  apply unescapeFrom_reference total
  · intro d hd
    exact endsEntity_of_isAlpha (halpha d hd)
  · exact resolve_predefined first hname

theorem unescapeFrom_cons {c : Char} (total first : Nat) (hc : c ≠ '&') (rest : List Char) :
    unescapeFrom total first (c :: rest) = (do
      let ds ← unescapeFrom total (first + Utf8.width c) rest
      .ok (c :: ds)) := by
  rw [unescapeFrom]
  simp [hc]

theorem unescapeFrom_escapeChars (total first : Nat) (cs : List Char) :
    unescapeFrom total first (escapeChars cs) = .ok (cs.filter isLegal) := by
  induction cs generalizing first with
  | nil => simp [unescapeFrom]
  | cons c cs ih =>
      rw [escapeChars_cons]
      rcases escapeChar_cases c with ⟨name, hescape, hname, halpha, hlegal⟩ |
        ⟨hescape, hamp, -, -, -, hlegal⟩ | ⟨hescape, hlegal⟩
      · have hshape : escapeChar c ++ escapeChars cs = '&' :: (name ++ ';' :: escapeChars cs) := by
          simp [hescape]
        rw [hshape, unescapeFrom_entity total first hname halpha, ih,
          List.filter_cons_of_pos hlegal]
        rfl
      · rw [hescape, List.singleton_append, unescapeFrom_cons total first hamp, ih,
          List.filter_cons_of_pos hlegal]
        rfl
      · rw [hescape, List.nil_append, ih, List.filter_cons_of_neg (by simp [hlegal])]

/-- Resolving the entities of escaped text gives the text without what XML forbids. -/
theorem unescape_escapeChars (cs : List Char) :
    unescape (escapeChars cs) = .ok (cs.filter isLegal) :=
  unescapeFrom_escapeChars _ _ cs

theorem escapeChars_eq_nil_iff (cs : List Char) :
    escapeChars cs = [] ↔ cs.filter isLegal = [] := by
  induction cs with
  | nil => simp
  | cons c cs ih =>
      rcases escapeChar_cases c with ⟨name, hescape, -, -, hlegal⟩ |
        ⟨hescape, -, -, -, -, hlegal⟩ | ⟨hescape, hlegal⟩
      · simp [hescape, hlegal]
      · simp [hescape, hlegal]
      · simp [hescape, hlegal, ← ih]

end Manuscript.Xml
