import Manuscript.Json.Printer
import Manuscript.Json.Scan
import Manuscript.Proofs.Text.Decimal
import Manuscript.Proofs.Text.Utf8

/-!
# Written strings and numbers are scanned

A string is scanned up to its closing quote and gives the characters that it spells, however they
are written; a printed string spells its own characters.  A printed natural number is scanned up to
what follows it, as long as that cannot continue a number.
-/

namespace Manuscript.Json

open Text

inductive IsUnit : List Char → Nat → Prop
  | intro {a b c d : Char} {p q r s : Nat} (ha : hexadecimalValue? a = some p)
      (hb : hexadecimalValue? b = some q) (hc : hexadecimalValue? c = some r)
      (hd : hexadecimalValue? d = some s) : IsUnit [a, b, c, d] (((p * 16 + q) * 16 + r) * 16 + s)

inductive Spells : List Char → List Char → Prop
  | nil : Spells [] []
  | plain {c : Char} {inside cs : List Char} (hquote : c ≠ '\x22') (hescape : c ≠ '\\')
      (hcontrol : 0x20 ≤ c.toNat) (h : Spells inside cs) : Spells (c :: inside) (c :: cs)
  | escaped {c d : Char} {inside cs : List Char} (hescape : simpleEscape? d = some c)
      (h : Spells inside cs) : Spells ('\\' :: d :: inside) (c :: cs)
  | unit {digits inside cs : List Char} {n : Nat} (hunit : IsUnit digits n)
      (hwhole : n < 0xD800 ∨ 0xDFFF < n) (h : Spells inside cs) :
      Spells ('\\' :: 'u' :: (digits ++ inside)) (Char.ofNat n :: cs)
  | pair {first second inside cs : List Char} {n m : Nat} (hfirst : IsUnit first n)
      (hleading : 0xD800 ≤ n ∧ n ≤ 0xDBFF) (hsecond : IsUnit second m)
      (htrailing : 0xDC00 ≤ m ∧ m ≤ 0xDFFF) (h : Spells inside cs) :
      Spells ('\\' :: 'u' :: (first ++ '\\' :: 'u' :: (second ++ inside)))
        (Char.ofNat (0x10000 + (n - 0xD800) * 0x400 + (m - 0xDC00)) :: cs)

inductive IsString (s : String) : List Char → Prop
  | intro {inside : List Char} (h : Spells inside s.toList) :
      IsString s ('\x22' :: (inside ++ ['\x22']))

theorem hexQuad_of_isUnit {digits : List Char} {n : Nat} (h : IsUnit digits n)
    (rest : List Char) : hexQuad (digits ++ rest) = .ok (n, rest) := by
  obtain ⟨ha, hb, hc, hd⟩ := h
  rename_i a b c d _ _ _ _
  have hsize : ¬ Utf8.size ([a, b, c, d] ++ rest) < 4 := by
    have := Utf8.length_le_size ([a, b, c, d] ++ rest)
    simp only [List.length_append, List.length_cons, List.length_nil] at this
    omega
  simp only [hexQuad, if_neg hsize]
  simp only [List.cons_append, List.nil_append, ha, hb, hc, hd]

theorem escape_unit {digits : List Char} {n : Nat} (h : IsUnit digits n)
    (hwhole : n < 0xD800 ∨ 0xDFFF < n) (rest : List Char) :
    escape ('u' :: (digits ++ rest)) = .ok (Char.ofNat n, rest) := by
  have hsimple : simpleEscape? 'u' = none := rfl
  have htrailing : isTrailing n = false := by
    simp only [isTrailing, Bool.and_eq_false_imp, decide_eq_true_eq, decide_eq_false_iff_not]
    omega
  have houtside : n < 0xD800 ∨ 0xDBFF < n := by omega
  simp only [escape, hsimple, ↓reduceIte, unicodeEscape, hexQuad_of_isUnit h, bind, Except.bind,
    htrailing, if_pos houtside, Bool.false_eq_true]

theorem escape_pair {first second : List Char} {n m : Nat} (hfirst : IsUnit first n)
    (hleading : 0xD800 ≤ n ∧ n ≤ 0xDBFF) (hsecond : IsUnit second m)
    (htrailing : 0xDC00 ≤ m ∧ m ≤ 0xDFFF) (rest : List Char) :
    escape ('u' :: (first ++ '\\' :: 'u' :: (second ++ rest))) =
      .ok (Char.ofNat (0x10000 + (n - 0xD800) * 0x400 + (m - 0xDC00)), rest) := by
  have hsimple : simpleEscape? 'u' = none := rfl
  have hnot : isTrailing n = false := by
    simp only [isTrailing, Bool.and_eq_false_imp, decide_eq_true_eq, decide_eq_false_iff_not]
    omega
  have hinside : ¬ (n < 0xD800 ∨ 0xDBFF < n) := by omega
  have hsecondUnit : isTrailing m = true := by simp [isTrailing, htrailing]
  simp only [escape, hsimple, ↓reduceIte, unicodeEscape, hexQuad_of_isUnit hfirst, bind,
    Except.bind, hnot, if_neg hinside, trailingUnit, hexQuad_of_isUnit hsecond, hsecondUnit,
    Bool.false_eq_true]

theorem stringChars_plain {c : Char} (hquote : c ≠ '\x22') (hescape : c ≠ '\\')
    (hcontrol : 0x20 ≤ c.toNat) (cs : List Char) :
    stringChars (c :: cs) = (do
      let (ds, rest) ← stringChars cs
      .ok (c :: ds, rest)) := by
  rw [stringChars]
  simp [hquote, hescape, Nat.not_lt.mpr hcontrol]

theorem stringChars_escaped {c : Char} {cs rest : List Char} (h : escape cs = .ok (c, rest)) :
    stringChars ('\\' :: cs) = (do
      let (ds, rest) ← stringChars rest
      .ok (c :: ds, rest)) := by
  rw [stringChars]
  simp only [Char.reduceEq, ↓reduceIte]
  split <;> rename_i heq <;> rw [h] at heq <;> cases heq
  rfl

theorem stringChars_of_spells {inside cs : List Char} (h : Spells inside cs) (rest : List Char) :
    stringChars (inside ++ '\x22' :: rest) = .ok (cs, rest) := by
  induction h with
  | nil =>
      rw [List.nil_append, stringChars]
      rfl
  | plain hquote hescape hcontrol _ ih =>
      rw [List.cons_append, stringChars_plain hquote hescape hcontrol, ih]
      rfl
  | @escaped c d inside cs hescape _ ih =>
      have hread : escape (d :: (inside ++ '\x22' :: rest)) =
          .ok (c, inside ++ '\x22' :: rest) := by
        simp [escape, hescape]
      rw [List.cons_append, List.cons_append, stringChars_escaped hread, ih]
      rfl
  | unit hunit hwhole _ ih =>
      have hread := escape_unit hunit hwhole
      simp only [List.cons_append, List.append_assoc]
      rw [stringChars_escaped (hread _), ih]
      rfl
  | pair hfirst hleading hsecond htrailing _ ih =>
      have hread := escape_pair hfirst hleading hsecond htrailing
      simp only [List.cons_append, List.append_assoc]
      rw [stringChars_escaped (hread _), ih]
      rfl

theorem stringBody_of_spells {inside : List Char} {s : String} (h : Spells inside s.toList)
    (rest : List Char) : stringBody (inside ++ '\x22' :: rest) = .ok (s, rest) := by
  simp only [stringBody, stringChars_of_spells h]
  change Except.ok (String.ofList s.toList, rest) = _
  rw [String.ofList_toList]

theorem skipString_escaped {cs rest : List Char} (h : skipEscape cs = .ok rest) :
    skipString ('\\' :: cs) = skipString rest := by
  rw [skipString]
  simp only [Char.reduceEq, ↓reduceIte]
  split <;> rename_i heq <;> rw [h] at heq <;> cases heq
  rfl

theorem skipEscape_unit {digits : List Char} {n : Nat} (h : IsUnit digits n) (rest : List Char) :
    skipEscape ('u' :: (digits ++ rest)) = .ok rest := by
  have hsimple : simpleEscape? 'u' = none := rfl
  simp [skipEscape, hsimple, hexQuad_of_isUnit h, Functor.map, Except.map]

theorem skipString_of_spells {inside cs : List Char} (h : Spells inside cs) (rest : List Char) :
    skipString (inside ++ '\x22' :: rest) = .ok rest := by
  induction h with
  | nil =>
      rw [List.nil_append, skipString]
      rfl
  | plain hquote hescape hcontrol _ ih =>
      rw [List.cons_append, skipString]
      simp [hquote, hescape, Nat.not_lt.mpr hcontrol, ih]
  | @escaped c d inside cs hescape _ ih =>
      have hskip : skipEscape (d :: (inside ++ '\x22' :: rest)) =
          .ok (inside ++ '\x22' :: rest) := by
        simp [skipEscape, hescape]
      rw [List.cons_append, List.cons_append, skipString_escaped hskip, ih]
  | unit hunit hwhole _ ih =>
      simp only [List.cons_append, List.append_assoc]
      rw [skipString_escaped (skipEscape_unit hunit _), ih]
  | pair hfirst hleading hsecond htrailing _ ih =>
      simp only [List.cons_append, List.append_assoc]
      rw [skipString_escaped (skipEscape_unit hfirst _),
        skipString_escaped (skipEscape_unit hsecond _), ih]

theorem hexadecimalValue?_digit {d : Nat} (h : d < 16) : hexadecimalValue? (digit d) = some d := by
  revert d
  decide

theorem escapeChar_cases (c : Char) :
    (∃ d, escapeChar c = ['\\', d] ∧ simpleEscape? d = some c) ∨
    (escapeChar c = ['\\', 'u', '0', '0', digit (c.toNat / 16), digit (c.toNat % 16)] ∧
      c.toNat < 0x20) ∨
    (escapeChar c = [c] ∧ c ≠ '\x22' ∧ c ≠ '\\' ∧ 0x20 ≤ c.toNat) := by
  unfold escapeChar
  split_ifs with hself hback hfeed hline hreturn htab hcontrol
  · rcases hself with rfl | rfl
    · exact .inl ⟨'\x22', rfl, rfl⟩
    · exact .inl ⟨'\\', rfl, rfl⟩
  · exact .inl ⟨'b', rfl, hback ▸ rfl⟩
  · exact .inl ⟨'f', rfl, hfeed ▸ rfl⟩
  · exact .inl ⟨'n', rfl, hline ▸ rfl⟩
  · exact .inl ⟨'r', rfl, hreturn ▸ rfl⟩
  · exact .inl ⟨'t', rfl, htab ▸ rfl⟩
  · exact .inr (.inl ⟨rfl, hcontrol⟩)
  · rw [not_or] at hself
    exact .inr (.inr ⟨rfl, hself.1, hself.2, by omega⟩)

theorem isUnit_control {n : Nat} (h : n < 0x20) :
    IsUnit ['0', '0', digit (n / 16), digit (n % 16)] n := by
  have hzero : hexadecimalValue? '0' = some 0 := rfl
  have hunit := IsUnit.intro hzero hzero (hexadecimalValue?_digit (d := n / 16) (by omega))
    (hexadecimalValue?_digit (d := n % 16) (by omega))
  have hvalue : ((0 * 16 + 0) * 16 + n / 16) * 16 + n % 16 = n := by omega
  rwa [hvalue] at hunit

theorem spells_escapeChars (cs : List Char) : Spells (cs.flatMap escapeChar) cs := by
  induction cs with
  | nil => exact .nil
  | cons c cs ih =>
      rw [List.flatMap_cons]
      rcases escapeChar_cases c with ⟨d, hescape, hsimple⟩ | ⟨hescape, hcontrol⟩ |
        ⟨hescape, hquote, hback, hcontrol⟩
      · rw [hescape]
        exact .escaped hsimple ih
      · rw [hescape]
        have hspelled := Spells.unit (isUnit_control hcontrol) (by omega) ih
        rwa [Char.ofNat_toNat] at hspelled
      · rw [hescape]
        exact .plain hquote hback hcontrol ih

theorem isString_printString (s : String) : IsString s (printString s) :=
  .intro (spells_escapeChars s.toList)

/-! ## Numbers -/

def EndsNumber (rest : List Char) : Prop :=
  ∀ c ∈ rest.head?, isDigit c = false ∧ c ≠ '.' ∧ c ≠ 'e' ∧ c ≠ 'E'

theorem EndsNumber.startsWithDigit {rest : List Char} (h : EndsNumber rest) :
    startsWithDigit rest = false := by
  cases rest with
  | nil => rfl
  | cons c rest => exact (h c rfl).1

theorem afterInteger_of_endsNumber {rest : List Char} (h : EndsNumber rest) (n : Nat) :
    afterInteger false n rest = .ok (.natural n, rest) := by
  unfold afterInteger
  split
  · exact absurd rfl (h '.' rfl).2.1
  · exact absurd rfl (h 'e' rfl).2.2.1
  · exact absurd rfl (h 'E' rfl).2.2.2
  · rfl

theorem gather_digits {limit : Nat} {cs rest : List Char} (hrest : EndsNumber rest)
    (hdigits : ∀ c ∈ cs, isDigit c = true) {n : Nat} (hlimit : spelledAfter n cs ≤ limit)
    (taken : Nat) :
    ∃ count, gather limit n taken (cs ++ rest) = (spelledAfter n cs, count, rest) := by
  induction cs generalizing n taken with
  | nil =>
      refine ⟨taken, ?_⟩
      cases rest with
      | nil => rfl
      | cons c rest =>
          have hc : decimalValue? c = none := by simpa [isDigit] using (hrest c rfl).1
          simp [gather, hc, spelledAfter]
  | cons c cs ih =>
      obtain ⟨d, hd⟩ := Option.isSome_iff_exists.mp (hdigits c (by simp))
      rw [spelledAfter_cons hd] at hlimit ⊢
      have hnext : n * 10 + d ≤ limit := (le_spelledAfter _ cs).trans hlimit
      obtain ⟨count, htail⟩ := ih (fun e he => hdigits e (by simp [he])) hlimit (taken + 1)
      exact ⟨count, by simp [gather, hd, hnext, htail]⟩

theorem magnitude_decimal {n : Nat} (hn : n ≤ maxSignificand) {rest : List Char}
    (hrest : EndsNumber rest) :
    magnitude false (decimal n ++ rest) = .ok (.natural n, rest) := by
  rcases Nat.eq_zero_or_pos n with rfl | hpos
  · have hzero : decimalValue? '0' = some 0 := rfl
    have hdecimal : decimal 0 = ['0'] := decimal_of_lt (by decide)
    simp [hdecimal, magnitude, hzero, hrest.startsWithDigit, afterInteger_of_endsNumber hrest]
  · obtain ⟨_ | d, cs, hdecimal, hd, hten⟩ := decimal_eq_cons hpos
    · exact absurd hd (Nat.lt_irrefl 0)
    have hvalue : decimalValue? (digit (d + 1)) = some (d + 1) := decimalValue?_digit hten
    have hspelled : spelledAfter (d + 1) cs = n := by
      have hall := spelledAfter_decimal 0 n
      rw [hdecimal, spelledAfter_cons hvalue] at hall
      simpa using hall
    have hdigits : ∀ c ∈ cs, isDigit c = true := fun c hc =>
      isSome_of_mem_decimal (n := n) (by simp [hdecimal, hc])
    obtain ⟨count, hgather⟩ := gather_digits hrest hdigits (hspelled ▸ hn) 0
    rw [hspelled] at hgather
    rw [hdecimal, List.cons_append, magnitude]
    simp only [hvalue]
    simp [hgather, hrest.startsWithDigit, afterInteger_of_endsNumber hrest]

end Manuscript.Json
