import Manuscript.Proofs.Text.Decimal
import Manuscript.Proofs.Xml.Escaping

/-!
# Characters as XML may spell them

A character stands for itself, or it is written as one of the predefined entities or as a
reference to its code point.  A text spelled in any of these ways is resolved to its characters,
provided that no reference has more digits than are taken: seven decimal digits, or six
hexadecimal ones, leading zeros included.
-/

namespace Manuscript.Xml

open Text

inductive Spelling where
  | plain (c : Char)
  | entity (name : List Char)
  | decimal (digits : List Char)
  | hexadecimal (digits : List Char)
  deriving DecidableEq, Repr

namespace Spelling

def numeral? (base : Nat) (value : Char → Option Nat) (n : Nat) (digits : List Char) :
    Option Nat :=
  digits.foldlM (fun n c => (value c).map (n * base + ·)) n

def referred? (n : Nat) : Option Char :=
  if n.isValidChar ∧ isLegal (Char.ofNat n) then some (Char.ofNat n) else none

/-- The character that is spelled, unless the spelling is not well-formed. -/
def char? : Spelling → Option Char
  | plain c => if c ≠ '<' ∧ c ≠ '&' ∧ isLegal c then some c else none
  | entity name => predefined? name
  | decimal digits => numeral? 10 decimalValue? 0 digits >>= referred?
  | hexadecimal digits => numeral? 16 hexadecimalValue? 0 digits >>= referred?

def written : Spelling → List Char
  | plain c => [c]
  | entity name => '&' :: (name ++ [';'])
  | decimal digits => '&' :: ('#' :: digits ++ [';'])
  | hexadecimal digits => '&' :: ('#' :: 'x' :: digits ++ [';'])

def isShort : Spelling → Bool
  | plain _ | entity _ => true
  | decimal digits => digits.length ≤ 7
  | hexadecimal digits => digits.length ≤ 6

end Spelling

open Spelling

theorem numeral?_cons (base : Nat) (value : Char → Option Nat) (n : Nat) (c : Char)
    (cs : List Char) :
    numeral? base value n (c :: cs) =
      (value c).bind fun d => numeral? base value (n * base + d) cs := by
  cases hc : value c <;> simp [numeral?, hc]

theorem spelled_of_numeral? {base : Nat} {value : Char → Option Nat} (fault : Char → EntityFault)
    {digits : List Char} {n m : Nat} (h : numeral? base value n digits = some m) :
    spelled base value fault n digits = .ok m := by
  induction digits generalizing n with
  | nil =>
      cases h
      rfl
  | cons c cs ih =>
      rw [numeral?_cons, Option.bind_eq_some_iff] at h
      rcases h with ⟨d, hd, htail⟩
      simp only [spelled, hd]
      exact ih htail

theorem isSome_of_numeral? {base : Nat} {value : Char → Option Nat} {digits : List Char}
    {n m : Nat} (h : numeral? base value n digits = some m) :
    ∀ c ∈ digits, (value c).isSome := by
  induction digits generalizing n with
  | nil => simp
  | cons c cs ih =>
      rw [numeral?_cons, Option.bind_eq_some_iff] at h
      rcases h with ⟨d, hd, htail⟩
      simpa [hd] using ih htail

def isInner (c : Char) : Bool :=
  !endsEntity c && c != '<'

theorem isInner_of_toNat {c : Char} (h : c.toNat ≠ 38 ∧ c.toNat ≠ 59 ∧ c.toNat ≠ 60) :
    isInner c = true := by
  have hamp : c ≠ '&' := by
    rintro rfl
    exact h.1 rfl
  have hsemicolon : c ≠ ';' := by
    rintro rfl
    exact h.2.1 rfl
  have hopen : c ≠ '<' := by
    rintro rfl
    exact h.2.2 rfl
  simp [isInner, endsEntity, hamp, hsemicolon, hopen]

theorem isInner_iff {c : Char} : isInner c = true ↔ endsEntity c = false ∧ c ≠ '<' := by
  simp [isInner]

def IsPlainDigit (c : Char) : Prop :=
  c.toNat < 0x80 ∧ isInner c = true

theorem isPlainDigit_of_decimalValue? {c : Char} (h : (decimalValue? c).isSome) :
    IsPlainDigit c := by
  have hrange := toNat_of_isSome_decimalValue? h
  exact ⟨by omega, isInner_of_toNat (by omega)⟩

theorem isPlainDigit_of_hexadecimalValue? {c : Char} (h : (hexadecimalValue? c).isSome) :
    IsPlainDigit c := by
  have hrange := toNat_of_isSome_hexadecimalValue? h
  exact ⟨by omega, isInner_of_toNat (by omega)⟩

theorem size_of_isPlainDigit {cs : List Char} (h : ∀ c ∈ cs, IsPlainDigit c) :
    Utf8.size cs = cs.length := by
  induction cs with
  | nil => rfl
  | cons c cs ih =>
      have hc := (h c (by simp)).1
      have hwidth : Utf8.width c = 1 := by simp [Utf8.width, hc]
      have hcons : Utf8.size (c :: cs) = Utf8.width c + Utf8.size cs := rfl
      rw [hcons, hwidth, ih fun d hd => h d (by simp [hd]), List.length_cons, Nat.add_comm]

theorem referred?_eq_some {n : Nat} {c : Char} (h : referred? n = some c) :
    n ≠ 0 ∧ n.isValidChar ∧ Char.ofNat n = c := by
  unfold referred? at h
  split at h
  · next hn =>
    refine ⟨?_, hn.1, Option.some.inj h⟩
    rintro rfl
    exact absurd hn.2 (by decide)
  · cases h

theorem resolve_of_codePoint {first n : Nat} {c : Char} {reference : List Char}
    (hcode : codePoint reference = .ok n) (hc : referred? n = some c) :
    resolve first ('#' :: reference) = .ok c := by
  rcases referred?_eq_some hc with ⟨hzero, hvalid, rfl⟩
  simp only [resolve, hcode]
  change (if n = 0 then _ else _) = _
  simp [hzero, hvalid]

theorem codePoint_decimal {digits : List Char} {n : Nat}
    (hn : numeral? 10 decimalValue? 0 digits = some n) (hshort : digits.length ≤ 7) :
    codePoint digits = .ok n := by
  have hdigits := isSome_of_numeral? hn
  have hsize := size_of_isPlainDigit fun c hc => isPlainDigit_of_decimalValue? (hdigits c hc)
  unfold codePoint
  split
  · exact absurd (hdigits 'x' (by simp)) (by decide)
  · rw [if_neg (by omega), spelled_of_numeral? _ hn]

theorem codePoint_hexadecimal {digits : List Char} {n : Nat}
    (hn : numeral? 16 hexadecimalValue? 0 digits = some n) (hshort : digits.length ≤ 6) :
    codePoint ('x' :: digits) = .ok n := by
  have hdigits := isSome_of_numeral? hn
  have hsize := size_of_isPlainDigit fun c hc => isPlainDigit_of_hexadecimalValue? (hdigits c hc)
  simp only [codePoint]
  rw [if_neg (by omega), spelled_of_numeral? _ hn]

theorem isInner_of_mem_predefined {name : List Char} {c : Char}
    (h : predefined? name = some c) : ∀ d ∈ name, isInner d = true := by
  unfold predefined? at h
  split_ifs at h with hlt hgt hamp hapos hquot
  all_goals
    subst name
    exact List.all_eq_true.mp rfl

/-! ## Spelled texts -/

theorem Spelling.written_cases {s : Spelling} {c : Char} (hc : s.char? = some c) :
    (s.written = [c] ∧ c ≠ '<' ∧ c ≠ '&') ∨
    (∃ name, s.written = '&' :: (name ++ [';']) ∧ (∀ d ∈ name, isInner d = true) ∧
      (s.isShort = true → ∀ first, resolve first name = .ok c)) := by
  cases s with
  | plain d =>
      left
      simp only [char?] at hc
      split at hc
      · next hd =>
        cases hc
        exact ⟨rfl, hd.1, hd.2.1⟩
      · cases hc
  | entity name =>
      right
      exact ⟨name, rfl, isInner_of_mem_predefined hc, fun _ first => resolve_predefined first hc⟩
  | decimal digits =>
      right
      rcases Option.bind_eq_some_iff.mp hc with ⟨n, hn, hreferred⟩
      refine ⟨'#' :: digits, rfl, ?_, fun hshort first => ?_⟩
      · intro d hd
        rcases List.mem_cons.mp hd with rfl | hd
        · rfl
        · exact (isPlainDigit_of_decimalValue? (isSome_of_numeral? hn d hd)).2
      · have hlength : digits.length ≤ 7 := by simpa [isShort] using hshort
        exact resolve_of_codePoint (codePoint_decimal hn hlength) hreferred
  | hexadecimal digits =>
      right
      rcases Option.bind_eq_some_iff.mp hc with ⟨n, hn, hreferred⟩
      refine ⟨'#' :: 'x' :: digits, rfl, ?_, fun hshort first => ?_⟩
      · intro d hd
        rcases List.mem_cons.mp hd with rfl | hd
        · rfl
        rcases List.mem_cons.mp hd with rfl | hd
        · rfl
        · exact (isPlainDigit_of_hexadecimalValue? (isSome_of_numeral? hn d hd)).2
      · have hlength : digits.length ≤ 6 := by simpa [isShort] using hshort
        exact resolve_of_codePoint (codePoint_hexadecimal hn hlength) hreferred

theorem Spelling.written_ne_nil (s : Spelling) : s.written ≠ [] := by
  cases s <;> simp [written]

theorem Spelling.ne_of_mem_written {s : Spelling} (hs : s.char?.isSome) :
    ∀ d ∈ s.written, d ≠ '<' := by
  rcases Option.isSome_iff_exists.mp hs with ⟨c, hc⟩
  intro d hd
  rcases written_cases hc with ⟨hwritten, hopen, -⟩ | ⟨name, hwritten, hname, -⟩
  · rw [hwritten, List.mem_singleton] at hd
    exact hd ▸ hopen
  · rw [hwritten] at hd
    simp only [List.mem_cons, List.mem_append, List.not_mem_nil, or_false] at hd
    rcases hd with rfl | hd | rfl
    · decide
    · exact (isInner_iff.mp (hname d hd)).2
    · decide

theorem unescapeFrom_written (total first : Nat) {spellings : List Spelling}
    (hspelled : ∀ s ∈ spellings, s.char?.isSome) (hshort : ∀ s ∈ spellings, s.isShort = true) :
    unescapeFrom total first (spellings.flatMap written) = .ok (spellings.filterMap char?) := by
  induction spellings generalizing first with
  | nil => simp [unescapeFrom]
  | cons s spellings ih =>
      rcases Option.isSome_iff_exists.mp (hspelled s (by simp)) with ⟨c, hc⟩
      have htail := fun first => ih first (fun t ht => hspelled t (by simp [ht]))
        (fun t ht => hshort t (by simp [ht]))
      rw [List.flatMap_cons, List.filterMap_cons_some hc]
      rcases written_cases hc with ⟨hwritten, -, hamp⟩ | ⟨name, hwritten, hname, hresolve⟩
      · rw [hwritten, List.singleton_append, unescapeFrom_cons total first hamp, htail]
        rfl
      · have hshape : s.written ++ spellings.flatMap written =
            '&' :: (name ++ ';' :: spellings.flatMap written) := by
          simp [hwritten]
        have hends := fun d hd => (isInner_iff.mp (hname d hd)).1
        rw [hshape, unescapeFrom_reference total hends (hresolve (hshort s (by simp)) first), htail]
        rfl

theorem unescape_written {spellings : List Spelling}
    (hspelled : ∀ s ∈ spellings, s.char?.isSome) (hshort : ∀ s ∈ spellings, s.isShort = true) :
    unescape (spellings.flatMap written) = .ok (spellings.filterMap char?) :=
  unescapeFrom_written _ _ hspelled hshort

end Manuscript.Xml
