import Manuscript.Json.Skip
import Manuscript.Proofs.Json.Reading
import Mathlib.Data.List.DropRight

/-!
# Texts of JSON

Arrays, objects and values as they may be written, with any space between their parts.  A value
that nobody asks for is passed over, however deep it is.
-/

namespace Manuscript.Json

open Text

variable {α : Type}

def AreDigits (cs : List Char) : Prop :=
  cs ≠ [] ∧ ∀ c ∈ cs, isDigit c = true

inductive IsInteger : List Char → Prop
  | zero : IsInteger ['0']
  | digits {c : Char} {cs : List Char} (hzero : c ≠ '0') (h : AreDigits (c :: cs)) :
      IsInteger (c :: cs)

inductive IsFraction : List Char → Prop
  | none : IsFraction []
  | digits {cs : List Char} (h : AreDigits cs) : IsFraction ('.' :: cs)

inductive IsExponent : List Char → Prop
  | none : IsExponent []
  | digits {e : Char} {sign cs : List Char} (he : e = 'e' ∨ e = 'E')
      (hsign : sign = [] ∨ sign = ['+'] ∨ sign = ['-']) (h : AreDigits cs) :
      IsExponent (e :: (sign ++ cs))

inductive IsNumber : List Char → Prop
  | intro {sign integer fraction exponent : List Char} (hsign : sign = [] ∨ sign = ['-'])
      (hinteger : IsInteger integer) (hfraction : IsFraction fraction)
      (hexponent : IsExponent exponent) : IsNumber (sign ++ (integer ++ (fraction ++ exponent)))

theorem skipDigits_append {cs rest : List Char} (h : ∀ c ∈ cs, isDigit c = true)
    (hrest : startsWithDigit rest = false) : skipDigits (cs ++ rest) = rest := by
  rw [skipDigits, List.dropWhile_append_of_pos h]
  cases rest with
  | nil => rfl
  | cons c rest => exact List.dropWhile_cons_of_neg (by simpa [startsWithDigit] using hrest)

theorem AreDigits.exists_cons {cs : List Char} (h : AreDigits cs) :
    ∃ c tail, cs = c :: tail ∧ isDigit c = true ∧ ∀ d ∈ tail, isDigit d = true := by
  obtain ⟨c, tail, rfl⟩ := List.exists_cons_of_ne_nil h.1
  exact ⟨c, tail, rfl, h.2 c (by simp), fun d hd => h.2 d (by simp [hd])⟩

theorem skipExponentDigits_append {cs rest : List Char} (h : AreDigits cs)
    (hrest : EndsNumber rest) : skipExponentDigits (cs ++ rest) = .ok rest := by
  obtain ⟨c, tail, rfl, hc, htail⟩ := h.exists_cons
  simp [skipExponentDigits, hc, skipDigits_append htail hrest.startsWithDigit]

theorem skipExponent_append {sign cs rest : List Char}
    (hsign : sign = [] ∨ sign = ['+'] ∨ sign = ['-']) (h : AreDigits cs)
    (hrest : EndsNumber rest) : skipExponent (sign ++ (cs ++ rest)) = .ok rest := by
  have hdigits := skipExponentDigits_append h hrest
  rcases hsign with rfl | rfl | rfl
  · obtain ⟨c, tail, rfl, hc, -⟩ := h.exists_cons
    rw [List.nil_append, List.cons_append] at *
    unfold skipExponent
    split
    · next heq => exact absurd ((List.cons.inj heq).1 ▸ hc) (by decide)
    · next heq => exact absurd ((List.cons.inj heq).1 ▸ hc) (by decide)
    · exact hdigits
  · exact hdigits
  · exact hdigits

theorem skipAfterSignificand_append {exponent rest : List Char} (h : IsExponent exponent)
    (hrest : EndsNumber rest) : skipAfterSignificand (exponent ++ rest) = .ok rest := by
  cases h with
  | none =>
      rw [List.nil_append]
      unfold skipAfterSignificand
      split
      · exact absurd rfl (hrest 'e' rfl).2.2.1
      · exact absurd rfl (hrest 'E' rfl).2.2.2
      · rfl
  | digits he hsign h =>
      have hexponent := skipExponent_append hsign h hrest
      rw [List.cons_append, List.append_assoc]
      rcases he with rfl | rfl <;> exact hexponent

theorem startsWithDigit_exponent {exponent rest : List Char} (h : IsExponent exponent)
    (hrest : EndsNumber rest) : startsWithDigit (exponent ++ rest) = false := by
  cases h with
  | none => exact hrest.startsWithDigit
  | digits he => rcases he with rfl | rfl <;> rfl

theorem startsWithDigit_fraction {fraction exponent rest : List Char} (h : IsFraction fraction)
    (hexponent : IsExponent exponent) (hrest : EndsNumber rest) :
    startsWithDigit (fraction ++ (exponent ++ rest)) = false := by
  cases h with
  | none =>
      rw [List.nil_append]
      exact startsWithDigit_exponent hexponent hrest
  | digits => rfl

theorem skipAfterInteger_append {fraction exponent rest : List Char} (h : IsFraction fraction)
    (hexponent : IsExponent exponent) (hrest : EndsNumber rest) :
    skipAfterInteger (fraction ++ (exponent ++ rest)) = .ok rest := by
  have hafter := skipAfterSignificand_append hexponent hrest
  cases h with
  | none =>
      rw [List.nil_append]
      unfold skipAfterInteger
      split
      · next heq =>
          cases hexponent with
          | none => exact absurd rfl (hrest '.' (by simpa using congrArg List.head? heq)).2.1
          | digits he => rcases he with rfl | rfl <;> cases heq
      · exact hafter
  | digits h =>
      obtain ⟨c, tail, rfl, hc, htail⟩ := h.exists_cons
      have hdigits : ∀ d ∈ c :: tail, isDigit d = true := by
        simpa [hc] using htail
      have hskip := skipDigits_append hdigits (startsWithDigit_exponent hexponent hrest)
      rw [List.cons_append] at hskip
      simp only [List.cons_append, skipAfterInteger, startsWithDigit, hc, ↓reduceIte, hskip, hafter]

theorem skipNumber_append {integer fraction exponent rest : List Char} (h : IsInteger integer)
    (hfraction : IsFraction fraction) (hexponent : IsExponent exponent)
    (hrest : EndsNumber rest) :
    skipNumber (integer ++ (fraction ++ (exponent ++ rest))) = .ok rest := by
  have hafter := skipAfterInteger_append hfraction hexponent hrest
  have hstart := startsWithDigit_fraction hfraction hexponent hrest
  cases h with
  | zero => simp [skipNumber, hstart, hafter]
  | digits hzero h =>
      obtain ⟨c, tail, heq, hc, htail⟩ := h.exists_cons
      cases heq
      have hskip := skipDigits_append htail hstart
      simp only [List.cons_append, skipNumber, if_neg hzero, hc, ↓reduceIte, hskip, hafter]

/-! ## Arrays and objects -/

inductive Padded (text : List Char) : List Char → Prop
  | intro {before after : List Char} (hbefore : IsBlank before) (hafter : IsBlank after) :
      Padded text (before ++ (text ++ after))

theorem padded_self (text : List Char) : Padded text text := by
  simpa using Padded.intro isBlank_nil isBlank_nil

inductive IsMember (member : String × List Char) : List Char → Prop
  | intro {name left right : List Char} (hname : IsString member.1 name) (hleft : Padded name left)
      (hright : Padded member.2 right) : IsMember member (left ++ ':' :: right)

inductive Separated (P : α → List Char → Prop) : List α → List Char → Prop
  | one {a : α} {text : List Char} (h : P a text) : Separated P [a] text
  | cons {a : α} {as : List α} {text rest : List Char} (h : P a text)
      (hrest : Separated P as rest) : Separated P (a :: as) (text ++ ',' :: rest)

inductive Encloses (P : α → List Char → Prop) (opening closing : Char) :
    List α → List Char → Prop
  | nothing {pad : List Char} (hpad : IsBlank pad) :
      Encloses P opening closing [] (opening :: (pad ++ [closing]))
  | parts {as : List α} {inside : List Char} (h : Separated P as inside) :
      Encloses P opening closing as (opening :: (inside ++ [closing]))

abbrev IsArray : List (List Char) → List Char → Prop :=
  Encloses Padded '[' ']'

abbrev IsObject : List (String × List Char) → List Char → Prop :=
  Encloses IsMember '\x7b' '\x7d'

inductive IsValue : List Char → Prop
  | null : IsValue ['n', 'u', 'l', 'l']
  | true : IsValue ['t', 'r', 'u', 'e']
  | false : IsValue ['f', 'a', 'l', 's', 'e']
  | number {text : List Char} (h : IsNumber text) : IsValue text
  | string {s : String} {text : List Char} (h : IsString s text) : IsValue text
  | array {items : List (List Char)} {text : List Char} (h : IsArray items text)
      (hitems : ∀ item ∈ items, IsValue item) : IsValue text
  | object {members : List (String × List Char)} {text : List Char} (h : IsObject members text)
      (hmembers : ∀ member ∈ members, IsValue member.2) : IsValue text

theorem isBlank_append_endsNumber {pad rest : List Char} (hpad : IsBlank pad)
    (hrest : EndsNumber rest) : EndsNumber (pad ++ rest) := by
  cases pad with
  | nil => exact hrest
  | cons c pad =>
      rintro d hd
      cases Option.mem_some_iff.mp hd
      have hspace := hpad c (by simp)
      simp only [isSpace, Bool.or_eq_true, beq_iff_eq] at hspace
      rcases hspace with ((rfl | rfl) | rfl) | rfl <;> decide

theorem IsInteger.begins {integer : List Char} (h : IsInteger integer) :
    ∃ c tail, integer = c :: tail ∧ isDigit c = true := by
  cases h with
  | zero => exact ⟨'0', [], rfl, rfl⟩
  | @digits c cs hzero h => exact ⟨c, cs, rfl, h.2 c (by simp)⟩

theorem IsNumber.begins {text : List Char} (h : IsNumber text) : Begins text := by
  obtain ⟨hsign, hinteger, -, -⟩ := h
  rcases hsign with rfl | rfl
  · obtain ⟨c, tail, rfl, hc⟩ := hinteger.begins
    exact begins_of_isNumberChar (by simp [isNumberChar, hc]) _
  · exact ⟨'-', _, rfl, rfl, by decide⟩

theorem IsValue.begins {text : List Char} (h : IsValue text) : Begins text := by
  cases h with
  | null | true | false => exact ⟨_, _, rfl, rfl, by decide⟩
  | number h => exact h.begins
  | string h =>
      obtain ⟨-⟩ := h
      exact ⟨_, _, rfl, rfl, by decide⟩
  | array h | object h => cases h <;> exact ⟨_, _, rfl, rfl, by decide⟩

/-! ## Passing over -/

def resume : Except Fault (List Frame × List Char) → Except Fault (List Char)
  | .error fault => .error fault
  | .ok ([], rest) => .ok rest
  | .ok (frame :: outer, rest) => skipFrames (frame :: outer) rest

def enter (frame : Frame) (outer : List Frame) (cs : List Char) : Except Fault (List Char) :=
  resume (frame.skipKey cs >>= fun rest => .ok (frame :: outer, rest))

theorem enter_of_skipKey {frame : Frame} {cs rest : List Char} (h : frame.skipKey cs = .ok rest)
    (outer : List Frame) : enter frame outer cs = skipFrames (frame :: outer) rest := by
  rw [enter, h]
  rfl

theorem skipFrames_eq (frames : List Frame) (cs : List Char) :
    skipFrames frames cs = resume (skipHead frames (skipSpace cs)) := by
  rw [skipFrames]
  split <;> rename_i heq <;> rw [heq] <;> rfl

theorem skipSpace_skipSpace (cs : List Char) : skipSpace (skipSpace cs) = skipSpace cs :=
  List.dropWhile_idempotent _ cs

theorem enter_skipSpace (frame : Frame) (outer : List Frame) (cs : List Char) :
    enter frame outer (skipSpace cs) = enter frame outer cs := by
  cases frame with
  | list =>
      rw [enter_of_skipKey rfl, enter_of_skipKey rfl, skipFrames_eq, skipSpace_skipSpace,
        ← skipFrames_eq]
  | object => simp only [enter, Frame.skipKey, skipSpace_skipSpace]

/-- A text is passed over wherever a value may stand. -/
def IsPassed (text : List Char) : Prop :=
  ∀ (frames : List Frame) ⦃pad rest : List Char⦄, IsBlank pad → EndsNumber rest →
    skipFrames frames (pad ++ (text ++ rest)) = resume (skipEnds true frames rest)

theorem isPassed_of_skipHead {text : List Char} (hbegins : Begins text)
    (h : ∀ (frames : List Frame) ⦃rest : List Char⦄, EndsNumber rest →
      skipHead frames (text ++ rest) = skipEnds true frames rest) : IsPassed text := by
  intro frames pad rest hpad hrest
  obtain ⟨c, tail, rfl, hspace, -⟩ := hbegins
  have hhead := h frames hrest
  rw [List.cons_append] at hhead ⊢
  rw [skipFrames_eq, skipSpace_append hpad, skipSpace_cons hspace, hhead]

theorem isPassed_number {text : List Char} (h : IsNumber text) : IsPassed text := by
  apply isPassed_of_skipHead h.begins
  intro frames rest hrest
  obtain ⟨hsign, hinteger, hfraction, hexponent⟩ := h
  have hskip := skipNumber_append hinteger hfraction hexponent hrest
  rcases hsign with rfl | rfl
  · obtain ⟨c, tail, rfl, hc⟩ := hinteger.begins
    simp only [List.nil_append, List.cons_append, List.append_assoc] at hskip ⊢
    unfold skipHead
    split <;> rename_i heq <;> cases heq <;> first | exact absurd hc (by decide) | skip
    rw [if_pos hc, hskip]
    rfl
  · simp only [List.cons_append, List.nil_append, List.append_assoc, skipHead, hskip]
    rfl

theorem isPassed_string {s : String} {text : List Char} (h : IsString s text) :
    IsPassed text := by
  apply isPassed_of_skipHead (IsValue.string h).begins
  intro frames rest _
  obtain ⟨hinside⟩ := h
  have hskip := skipString_of_spells hinside rest
  simp only [List.cons_append, List.append_assoc, List.nil_append, skipHead, hskip]
  rfl

theorem skipEnds_append {pad : List Char} (hpad : IsBlank pad) (after : Bool) (frame : Frame)
    (outer : List Frame) (rest : List Char) :
    skipEnds after (frame :: outer) (pad ++ rest) = skipEnds after (frame :: outer) rest := by
  simp only [skipEnds, skipSpace_append hpad]

theorem resume_skipEnds_comma (frame : Frame) (outer : List Frame) (rest : List Char) :
    resume (skipEnds true (frame :: outer) (',' :: rest)) = enter frame outer rest := by
  have hcomma : isSpace ',' = false := rfl
  simp [skipEnds, skipSpace_cons hcomma, enter]

theorem skipEnds_close (after : Bool) (frame : Frame) (outer : List Frame) (rest : List Char) :
    skipEnds after (frame :: outer) (frame.close :: rest) = skipEnds true outer rest := by
  cases frame <;> cases after <;> rfl

theorem resume_skipEnds_begin {frame : Frame} {cs : List Char}
    (h : ∃ c tail, skipSpace cs = c :: tail ∧ c ≠ frame.close) (outer : List Frame) :
    resume (skipEnds false (frame :: outer) cs) = enter frame outer cs := by
  obtain ⟨c, tail, hcs, hclose⟩ := h
  rw [← enter_skipSpace]
  simp [skipEnds, hcs, hclose, enter]

structure IsEntered (frame : Frame) (text : List Char) : Prop where
  begins (rest : List Char) : ∃ c tail, skipSpace (text ++ rest) = c :: tail ∧ c ≠ frame.close
  passed (outer : List Frame) ⦃rest : List Char⦄ : EndsNumber rest →
    enter frame outer (text ++ rest) = resume (skipEnds true (frame :: outer) rest)

theorem isEntered_item {item text : List Char} (h : Padded item text) (hbegins : Begins item)
    (hpassed : IsPassed item) : IsEntered .list text := by
  obtain ⟨hbefore, hafter⟩ := h
  rename_i before after
  constructor
  · intro rest
    obtain ⟨c, tail, rfl, hspace, hclose⟩ := hbegins
    exact ⟨c, tail ++ after ++ rest, by simp [skipSpace_append hbefore, skipSpace_cons hspace],
      hclose⟩
  · intro outer rest hrest
    have hskip := hpassed (.list :: outer) hbefore (isBlank_append_endsNumber hafter hrest)
    rw [skipEnds_append hafter] at hskip
    rw [enter_of_skipKey rfl, List.append_assoc, List.append_assoc, hskip]

theorem skipKey_name {name left : List Char} {key : String} (hname : IsString key name)
    (hleft : Padded name left) (rest : List Char) :
    Frame.object.skipKey (left ++ ':' :: rest) = .ok rest := by
  obtain ⟨hinside⟩ := hname
  obtain ⟨hbefore, hafter⟩ := hleft
  have hquote : isSpace '\x22' = false := rfl
  have hcolon : isSpace ':' = false := rfl
  simp [Frame.skipKey, skipSpace_append hbefore, skipSpace_cons hquote,
    skipString_of_spells hinside, colon, skipSpace_append hafter, skipSpace_cons hcolon, bind,
    Except.bind]

theorem isEntered_member {member : String × List Char} {text : List Char}
    (h : IsMember member text) (hpassed : IsPassed member.2) : IsEntered .object text := by
  obtain ⟨hname, hleft, hright⟩ := h
  rename_i name left right
  constructor
  · intro rest
    obtain ⟨hbefore, -⟩ := hleft
    obtain ⟨-⟩ := hname
    have hquote : isSpace '\x22' = false := rfl
    exact ⟨'\x22', _, by simp [skipSpace_append hbefore, skipSpace_cons hquote]; rfl, by decide⟩
  · intro outer rest hrest
    have hkey := skipKey_name hname hleft (right ++ rest)
    obtain ⟨hbefore, hafter⟩ := hright
    have hskip := hpassed (.object :: outer) hbefore (isBlank_append_endsNumber hafter hrest)
    rw [skipEnds_append hafter] at hskip
    rw [List.append_assoc, List.cons_append, enter_of_skipKey hkey, List.append_assoc,
      List.append_assoc, hskip]

theorem isEntered_separated {P : α → List Char → Prop} {frame : Frame} {as : List α}
    {inside : List Char} (h : Separated P as inside)
    (hentered : ∀ a ∈ as, ∀ {text : List Char}, P a text → IsEntered frame text) :
    IsEntered frame inside := by
  induction h with
  | one ha => exact hentered _ (by simp) ha
  | @cons a as text rest' ha _ ih =>
      have hhead := hentered a (by simp) ha
      have htail := ih fun b hb => hentered b (by simp [hb])
      constructor
      · intro rest
        rw [List.append_assoc]
        exact hhead.begins _
      · intro outer rest hrest
        rw [List.append_assoc, List.cons_append,
          hhead.passed outer (endsNumber_cons (.inl rfl) _), resume_skipEnds_comma,
          htail.passed outer hrest]

theorem isPassed_encloses {P : α → List Char → Prop} {frame : Frame} {opening : Char}
    {as : List α} {text : List Char} (h : Encloses P opening frame.close as text)
    (hbegins : Begins text)
    (hhead : ∀ (frames : List Frame) (rest : List Char),
      skipHead frames (opening :: rest) = skipEnds false (frame :: frames) rest)
    (hentered : ∀ a ∈ as, ∀ {text : List Char}, P a text → IsEntered frame text) :
    IsPassed text := by
  intro frames pad rest hpad hrest
  have hopening : skipFrames frames (pad ++ (text ++ rest)) =
      resume (skipHead frames (text ++ rest)) := by
    obtain ⟨c, tail, rfl, hspace, -⟩ := hbegins
    rw [skipFrames_eq, skipSpace_append hpad, List.cons_append, skipSpace_cons hspace]
  rw [hopening]
  cases h with
  | nothing hblank =>
      rw [List.cons_append, hhead, List.append_assoc, skipEnds_append hblank, List.cons_append,
        skipEnds_close, List.nil_append]
  | parts h =>
      have hinside := isEntered_separated h hentered
      have hend : EndsNumber (frame.close :: rest) := by
        cases frame
        · exact endsNumber_cons (.inr (.inl rfl)) rest
        · exact endsNumber_cons (.inr (.inr (.inl rfl))) rest
      rw [List.cons_append, hhead, List.append_assoc, List.cons_append, List.nil_append,
        resume_skipEnds_begin (hinside.begins _), hinside.passed frames hend, skipEnds_close]

theorem IsValue.isPassed {text : List Char} (h : IsValue text) : IsPassed text := by
  induction h with
  | null => exact isPassed_of_skipHead IsValue.null.begins fun _ _ _ => rfl
  | true => exact isPassed_of_skipHead IsValue.true.begins fun _ _ _ => rfl
  | false => exact isPassed_of_skipHead IsValue.false.begins fun _ _ _ => rfl
  | number h => exact isPassed_number h
  | string h => exact isPassed_string h
  | array h hitems ih =>
      have harray : Encloses Padded '[' Frame.list.close _ _ := h
      refine isPassed_encloses harray (IsValue.array h hitems).begins (fun _ _ => rfl) ?_
      intro item hitem text htext
      exact isEntered_item htext (hitems item hitem).begins (ih item hitem)
  | object h hmembers ih =>
      have hobject : Encloses IsMember '\x7b' Frame.object.close _ _ := h
      refine isPassed_encloses hobject (IsValue.object h hmembers).begins (fun _ _ => rfl) ?_
      intro member hmember text htext
      exact isEntered_member htext (ih member hmember)

theorem IsValue.skip {text : List Char} (h : IsValue text) {pad rest : List Char}
    (hpad : IsBlank pad) (hrest : EndsNumber rest) :
    Json.skip (pad ++ (text ++ rest)) = .ok rest := by
  rw [Json.skip, h.isPassed [] hpad hrest]
  rfl

end Manuscript.Json
