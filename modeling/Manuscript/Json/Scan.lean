import Manuscript.Json.Fault
/-!
# Scanning JSON

Readers for the parts of a JSON text that have no parts themselves: space, words, strings and
numbers. Each takes the characters that are left and gives back those that it leaves.
-/

namespace Manuscript.Json

open Text

abbrev Scan (α : Type) := List Char → Except Fault (α × List Char)

/-- Whether a scan takes at least `n` characters when it succeeds. -/
def Takes {α : Type} (n : Nat) (scan : Scan α) : Prop :=
  ∀ {cs rest : List Char} {a : α}, scan cs = .ok (a, rest) → rest.length + n ≤ cs.length

def isSpace (c : Char) : Bool :=
  c == ' ' || c == '\n' || c == '\t' || c == '\r'

def skipSpace (cs : List Char) : List Char :=
  cs.dropWhile isSpace

def isDigit (c : Char) : Bool :=
  (decimalValue? c).isSome

def skipDigits (cs : List Char) : List Char :=
  cs.dropWhile isDigit

def startsWithDigit : List Char → Bool
  | [] => false
  | c :: _ => isDigit c

def word : List Char → List Char → Except Fault (List Char)
  | [], rest => .ok rest
  | _ :: _, [] => .error (.before .endInValue [])
  | w :: ws, c :: cs => if w = c then word ws cs else .error (.next .expectedWord (c :: cs))

def colon (cs : List Char) : Except Fault (List Char) :=
  match skipSpace cs with
  | ':' :: rest => .ok rest
  | [] => .error (.next .endInObject [])
  | c :: rest => .error (.next .expectedColon (c :: rest))

theorem length_skipSpace (cs : List Char) : (skipSpace cs).length ≤ cs.length :=
  (List.dropWhile_suffix isSpace).length_le

theorem length_skipDigits (cs : List Char) : (skipDigits cs).length ≤ cs.length :=
  (List.dropWhile_suffix isDigit).length_le

theorem length_word {ws cs rest : List Char} (h : word ws cs = .ok rest) :
    rest.length ≤ cs.length := by
  induction ws generalizing cs with
  | nil => cases h; exact Nat.le_refl _
  | cons w ws ih =>
    cases cs with
    | nil => cases h
    | cons c cs =>
      unfold word at h
      split at h
      · exact Nat.le_succ_of_le (ih h)
      · cases h

theorem length_colon {cs rest : List Char} (h : colon cs = .ok rest) :
    rest.length < cs.length := by
  have hs := length_skipSpace cs
  unfold colon at h
  split at h
  · next hc =>
    cases h
    rw [hc, List.length_cons] at hs
    exact hs
  · cases h
  · cases h

/-! ## Strings -/

def hexQuad : Scan Nat := fun cs =>
  if Utf8.size cs < 4 then .error (.before .endInString [])
  else
    match cs with
    | a :: b :: c :: d :: rest =>
      match hexadecimalValue? a, hexadecimalValue? b, hexadecimalValue? c,
        hexadecimalValue? d with
      | some a, some b, some c, some d => .ok (((a * 16 + b) * 16 + c) * 16 + d, rest)
      | _, _, _, _ => .error (.placed .invalidEscape (Utf8.size cs - 4))
    | _ => .error (.placed .invalidEscape (Utf8.size cs - 4))

def isTrailing (n : Nat) : Bool :=
  0xDC00 ≤ n && n ≤ 0xDFFF

def trailingUnit : Scan Nat := fun cs =>
  match cs with
  | [] | ['\\'] => .error (.before .endInString [])
  | '\\' :: 'u' :: rest => do
    let (n, rest) ← hexQuad rest
    if isTrailing n then .ok (n, rest) else .error (.before .loneSurrogate rest)
  | '\\' :: c :: rest => .error (.next .halfSurrogatePair (c :: rest))
  | c :: rest => .error (.next .halfSurrogatePair (c :: rest))

def unicodeEscape : Scan Char := fun cs => do
  let (n, rest) ← hexQuad cs
  if isTrailing n then .error (.before .loneSurrogate rest)
  else if n < 0xD800 ∨ 0xDBFF < n then .ok (Char.ofNat n, rest)
  else
    let (m, rest) ← trailingUnit rest
    .ok (Char.ofNat (0x10000 + (n - 0xD800) * 0x400 + (m - 0xDC00)), rest)

def simpleEscape? (c : Char) : Option Char :=
  match c with
  | '\x22' => some '\x22'
  | '\\' => some '\\'
  | '/' => some '/'
  | 'b' => some '\x08'
  | 'f' => some '\x0c'
  | 'n' => some '\n'
  | 'r' => some '\r'
  | 't' => some '\t'
  | _ => none

def escape : Scan Char := fun cs =>
  match cs with
  | [] => .error (.before .endInString [])
  | c :: rest =>
    match simpleEscape? c with
    | some d => .ok (d, rest)
    | none => if c = 'u' then unicodeEscape rest else .error (.next .invalidEscape (c :: rest))

def skipEscape (cs : List Char) : Except Fault (List Char) :=
  match cs with
  | [] => .error (.before .endInString [])
  | c :: rest =>
    if (simpleEscape? c).isSome then .ok rest
    else if c = 'u' then Prod.snd <$> hexQuad rest
    else .error (.next .invalidEscape (c :: rest))

theorem length_hexQuad {cs rest : List Char} {n : Nat} (h : hexQuad cs = .ok (n, rest)) :
    rest.length < cs.length := by
  unfold hexQuad at h
  split at h
  · simp at h
  · split at h
    · split at h
      · simp only [Except.ok.injEq, Prod.mk.injEq] at h
        obtain ⟨-, rfl⟩ := h
        simp only [List.length_cons]
        omega
      · simp at h
    · simp at h

theorem length_trailingUnit {cs rest : List Char} {n : Nat}
    (h : trailingUnit cs = .ok (n, rest)) : rest.length < cs.length := by
  unfold trailingUnit at h
  split at h
  · simp at h
  · simp at h
  · rename_i tail
    cases hq : hexQuad tail with
    | error _ => simp [hq, bind, Except.bind] at h
    | ok p =>
        have hlen := length_hexQuad (show _ = Except.ok (p.1, p.2) from hq)
        simp only [hq, bind, Except.bind] at h
        split at h
        · simp only [Except.ok.injEq, Prod.mk.injEq] at h
          obtain ⟨-, rfl⟩ := h
          simp only [List.length_cons]
          omega
        · simp at h
  · simp at h
  · simp at h

theorem length_unicodeEscape {cs rest : List Char} {c : Char}
    (h : unicodeEscape cs = .ok (c, rest)) : rest.length < cs.length := by
  unfold unicodeEscape at h
  cases hq : hexQuad cs with
  | error _ => simp [hq, bind, Except.bind] at h
  | ok p =>
      have hlen := length_hexQuad (show _ = Except.ok (p.1, p.2) from hq)
      simp only [hq, bind, Except.bind] at h
      split at h
      · simp at h
      · split at h
        · simp only [Except.ok.injEq, Prod.mk.injEq] at h
          obtain ⟨-, rfl⟩ := h
          exact hlen
        · cases ht : trailingUnit p.2 with
          | error _ => simp [ht] at h
          | ok q =>
              have := length_trailingUnit (show _ = Except.ok (q.1, q.2) from ht)
              simp only [ht, Except.ok.injEq, Prod.mk.injEq] at h
              obtain ⟨-, rfl⟩ := h
              omega

theorem length_escape {cs rest : List Char} {c : Char} (h : escape cs = .ok (c, rest)) :
    rest.length < cs.length := by
  unfold escape at h
  split at h
  · simp at h
  · split at h
    · simp only [Except.ok.injEq, Prod.mk.injEq] at h
      obtain ⟨-, rfl⟩ := h
      simp
    · split at h
      · have := length_unicodeEscape h
        simp only [List.length_cons]
        omega
      · simp at h

theorem length_skipEscape {cs rest : List Char} (h : skipEscape cs = .ok rest) :
    rest.length < cs.length := by
  unfold skipEscape at h
  split at h
  · simp at h
  · rename_i c tail
    split at h
    · simp only [Except.ok.injEq] at h
      subst h
      simp
    · split at h
      · cases hq : hexQuad tail with
        | error _ => simp [hq, Functor.map, Except.map] at h
        | ok p =>
            have := length_hexQuad (show _ = Except.ok (p.1, p.2) from hq)
            simp only [hq, Functor.map, Except.map, Except.ok.injEq] at h
            subst h
            simp only [List.length_cons]
            omega
      · simp at h

def stringChars (cs : List Char) : Except Fault (List Char × List Char) :=
  match cs with
  | [] => .error (.before .endInString [])
  | c :: rest =>
    if c = '\x22' then .ok ([], rest)
    else if c = '\\' then
      match _h : escape rest with
      | .error fault => .error fault
      | .ok (d, rest) => do
        let (ds, rest) ← stringChars rest
        .ok (d :: ds, rest)
    else if c.toNat < 0x20 then .error (.before .controlInString rest)
    else do
      let (ds, rest) ← stringChars rest
      .ok (c :: ds, rest)
termination_by cs.length
decreasing_by
  · have := length_escape _h
    simp only [List.length_cons]
    omega
  · simp

theorem length_stringChars {cs ds rest : List Char} (h : stringChars cs = .ok (ds, rest)) :
    rest.length < cs.length := by
  fun_induction stringChars cs generalizing ds rest with
  | case1 => cases h
  | case2 => cases h; exact Nat.lt_succ_self _
  | case3 => cases h
  | case4 _ _ _ he _ ih =>
    obtain ⟨⟨_, _⟩, hs, h⟩ := ok_of_bind h
    have h₁ := length_escape he
    have h₂ := ih hs
    cases h
    simp only [List.length_cons]
    omega
  | case5 => cases h
  | case6 _ _ _ _ _ ih =>
    obtain ⟨⟨_, _⟩, hs, h⟩ := ok_of_bind h
    have h₁ := ih hs
    cases h
    simp only [List.length_cons]
    omega

def stringBody : Scan String := fun cs => do
  let (ds, rest) ← stringChars cs
  .ok (String.ofList ds, rest)

def skipString (cs : List Char) : Except Fault (List Char) :=
  match cs with
  | [] => .error (.before .endInString [])
  | c :: rest =>
    if c = '\x22' then .ok rest
    else if c = '\\' then
      match _h : skipEscape rest with
      | .error fault => .error fault
      | .ok rest => skipString rest
    else if c.toNat < 0x20 then .error (.before .controlInString (c :: rest))
    else skipString rest
termination_by cs.length
decreasing_by
  · have := length_skipEscape _h
    simp only [List.length_cons]
    omega
  · simp

theorem takes_stringBody : Takes 1 stringBody := by
  intro cs rest s h
  obtain ⟨⟨_, _⟩, hs, h⟩ := ok_of_bind h
  cases h
  exact length_stringChars hs

theorem length_skipString {cs rest : List Char} (h : skipString cs = .ok rest) :
    rest.length < cs.length := by
  fun_induction skipString cs with
  | case1 => cases h
  | case2 => cases h; exact Nat.lt_succ_self _
  | case3 => cases h
  | case4 _ _ he _ ih =>
    have h₁ := length_skipEscape he
    have h₂ := ih h
    simp only [List.length_cons]
    omega
  | case5 => cases h
  | case6 _ _ _ _ _ ih => exact Nat.lt_succ_of_lt (ih h)

/-! ## Numbers -/

def maxSignificand : Nat := 0xFFFFFFFFFFFFFFFF

def maxExponent : Nat := 0x7FFFFFFF

/-- Appends digits to a number as long as it does not exceed a limit. Gives the number, how
many digits it took, and what is left. -/
def gather (limit n taken : Nat) : List Char → Nat × Nat × List Char
  | [] => (n, taken, [])
  | c :: cs =>
    match decimalValue? c with
    | some d =>
      if n * 10 + d ≤ limit then gather limit (n * 10 + d) (taken + 1) cs
      else (n, taken, c :: cs)
    | none => (n, taken, c :: cs)

theorem length_gather (limit n taken : Nat) (cs : List Char) :
    (gather limit n taken cs).2.2.length ≤ cs.length := by
  fun_induction gather limit n taken cs with
  | case1 => exact Nat.le_refl _
  | case2 _ _ _ _ _ _ _ ih => exact Nat.le_succ_of_le ih
  | case3 => exact Nat.le_refl _
  | case4 => exact Nat.le_refl _

/-- `significand · 10 ^ exponent`, rounded at every step: the power of ten is rounded before it
is multiplied or divided by, and powers beyond `10 ^ 308` are taken in portions. None if the
number is too large. -/
def decimalReal (significand : Nat × Int) (exponent : Int) : Option (Nat × Int) :=
  if exponent.natAbs ≤ 308 then do
    let power ← Real64.ofNat (Nat.pow 10 exponent.natAbs)
    if 0 ≤ exponent then Real64.mul significand power else Real64.div significand power
  else if significand.1 = 0 then some significand
  else if _h : 0 ≤ exponent then none
  else do
    let power ← Real64.ofNat (Nat.pow 10 308)
    decimalReal (← Real64.div significand power) (exponent + 308)
termination_by exponent.natAbs
decreasing_by omega

def realNumber (negative : Bool) (significand : Nat) (exponent : Int) : Scan Number := fun cs =>
  match Real64.ofNat significand >>= (decimalReal · exponent) with
  | some (m, e) => .ok (.real ⟨negative, m, e⟩, cs)
  | none => .error (.before .numberOutOfRange cs)

theorem takes_realNumber (negative : Bool) (significand : Nat) (exponent : Int) :
    Takes 0 (realNumber negative significand exponent) := by
  intro cs rest a h
  unfold realNumber at h
  split at h
  · cases h; exact Nat.le_refl _
  · cases h

def exponentDigits (negative downward : Bool) (significand : Nat) (exponent : Int) :
    Scan Number := fun cs =>
  match cs with
  | [] => .error (.before .endInValue [])
  | c :: rest =>
    match decimalValue? c with
    | none => .error (.next .invalidNumber (c :: rest))
    | some d =>
      let (e, _, rest) := gather maxExponent d 0 rest
      if startsWithDigit rest then
        if significand ≠ 0 ∧ !downward then .error (.before .numberOutOfRange (rest.drop 1))
        else .ok (.real ⟨negative, 0, 0⟩, skipDigits rest)
      else realNumber negative significand (if downward then exponent - e else exponent + e) rest

theorem takes_exponentDigits (negative downward : Bool) (significand : Nat) (exponent : Int) :
    Takes 1 (exponentDigits negative downward significand exponent) := by
  intro cs rest a h
  unfold exponentDigits at h
  split at h
  · cases h
  · next c tail =>
    split at h
    · cases h
    · next d _ =>
      have hg := length_gather maxExponent d 0 tail
      generalize gather maxExponent d 0 tail = gathered at h hg
      obtain ⟨_, _, left⟩ := gathered
      have hs := length_skipDigits left
      dsimp only at h hg
      split at h
      · split at h
        · cases h
        · cases h
          simp only [List.length_cons]
          omega
      · have := takes_realNumber _ _ _ h
        simp only [List.length_cons]
        omega

def exponentPart (negative : Bool) (significand : Nat) (exponent : Int) : Scan Number := fun cs =>
  match cs with
  | '+' :: rest => exponentDigits negative false significand exponent rest
  | '-' :: rest => exponentDigits negative true significand exponent rest
  | _ => exponentDigits negative false significand exponent cs

theorem takes_exponentPart (negative : Bool) (significand : Nat) (exponent : Int) :
    Takes 1 (exponentPart negative significand exponent) := by
  intro cs rest a h
  unfold exponentPart at h
  split at h
  · exact Nat.le_succ_of_le (takes_exponentDigits _ _ _ _ h)
  · exact Nat.le_succ_of_le (takes_exponentDigits _ _ _ _ h)
  · exact takes_exponentDigits _ _ _ _ h

def afterSignificand (negative : Bool) (significand : Nat) (exponent : Int) : Scan Number :=
  fun cs =>
  match cs with
  | 'e' :: rest | 'E' :: rest => exponentPart negative significand exponent rest
  | _ => realNumber negative significand exponent cs

theorem takes_afterSignificand (negative : Bool) (significand : Nat) (exponent : Int) :
    Takes 0 (afterSignificand negative significand exponent) := by
  intro cs rest a h
  unfold afterSignificand at h
  split at h
  · have := takes_exponentPart _ _ _ h
    simp only [List.length_cons]
    omega
  · have := takes_exponentPart _ _ _ h
    simp only [List.length_cons]
    omega
  · exact takes_realNumber _ _ _ h

def fractionPart (negative : Bool) (significand : Nat) (exponent : Int) : Scan Number := fun cs =>
  let (n, taken, rest) := gather maxSignificand significand 0 cs
  if taken = 0 ∧ !startsWithDigit rest then
    match rest with
    | [] => .error (.next .endInValue [])
    | c :: rest => .error (.next .invalidNumber (c :: rest))
  else afterSignificand negative n (exponent - taken) (skipDigits rest)

theorem takes_fractionPart (negative : Bool) (significand : Nat) (exponent : Int) :
    Takes 0 (fractionPart negative significand exponent) := by
  intro cs rest a h
  have hg := length_gather maxSignificand significand 0 cs
  unfold fractionPart at h
  generalize gather maxSignificand significand 0 cs = gathered at h hg
  obtain ⟨_, _, left⟩ := gathered
  have hs := length_skipDigits left
  dsimp only at h hg
  split at h
  · split at h
    · cases h
    · cases h
  · have := takes_afterSignificand _ _ _ h
    omega

def afterInteger (negative : Bool) (n : Nat) : Scan Number := fun cs =>
  match cs with
  | '.' :: rest => fractionPart negative n 0 rest
  | 'e' :: rest | 'E' :: rest => exponentPart negative n 0 rest
  | _ =>
    if !negative then .ok (.natural n, cs)
    else if n = 0 ∨ 0x8000000000000000 < n then realNumber true n 0 cs
    else .ok (.negative n, cs)

theorem takes_afterInteger (negative : Bool) (n : Nat) : Takes 0 (afterInteger negative n) := by
  intro cs rest a h
  unfold afterInteger at h
  split at h
  · exact Nat.le_succ_of_le (takes_fractionPart _ _ _ h)
  · have := takes_exponentPart _ _ _ h
    simp only [List.length_cons]
    omega
  · have := takes_exponentPart _ _ _ h
    simp only [List.length_cons]
    omega
  · split at h
    · cases h; exact Nat.le_refl _
    split at h
    · exact takes_realNumber _ _ _ h
    · cases h; exact Nat.le_refl _

def magnitude (negative : Bool) : Scan Number := fun cs =>
  match cs with
  | [] => .error (.before .endInValue [])
  | c :: rest =>
    match decimalValue? c with
    | none => .error (.next .invalidNumber (c :: rest))
    | some 0 =>
      if startsWithDigit rest then .error (.next .invalidNumber rest)
      else afterInteger negative 0 rest
    | some d =>
      let (n, _, rest) := gather maxSignificand d 0 rest
      if startsWithDigit rest then
        let after := skipDigits rest
        let dropped := rest.length - after.length
        match after with
        | '.' :: tail => fractionPart negative n dropped tail
        | _ => afterSignificand negative n dropped after
      else afterInteger negative n rest

theorem takes_magnitude (negative : Bool) : Takes 1 (magnitude negative) := by
  intro cs rest a h
  unfold magnitude at h
  split at h
  · cases h
  · next c tail =>
    split at h
    · cases h
    · split at h
      · cases h
      · exact Nat.succ_le_succ (takes_afterInteger _ _ h)
    · next d _ _ =>
      have hg := length_gather maxSignificand d 0 tail
      generalize gather maxSignificand d 0 tail = gathered at h hg
      obtain ⟨_, _, left⟩ := gathered
      have hs := length_skipDigits left
      dsimp only at h hg
      split at h
      · split at h
        · next hd =>
          have := takes_fractionPart _ _ _ h
          rw [hd] at hs
          simp only [List.length_cons] at hs ⊢
          omega
        · have := takes_afterSignificand _ _ _ h
          simp only [List.length_cons]
          omega
      · have := takes_afterInteger _ _ h
        simp only [List.length_cons]
        omega

def skipExponentDigits (cs : List Char) : Except Fault (List Char) :=
  match cs with
  | [] => .error (.before .invalidNumber [])
  | c :: rest =>
    if isDigit c then .ok (skipDigits rest) else .error (.next .invalidNumber (c :: rest))

def skipExponent (cs : List Char) : Except Fault (List Char) :=
  match cs with
  | '+' :: rest | '-' :: rest => skipExponentDigits rest
  | _ => skipExponentDigits cs

def skipAfterSignificand (cs : List Char) : Except Fault (List Char) :=
  match cs with
  | 'e' :: rest | 'E' :: rest => skipExponent rest
  | _ => .ok cs

def skipAfterInteger (cs : List Char) : Except Fault (List Char) :=
  match cs with
  | '.' :: rest =>
    if startsWithDigit rest then skipAfterSignificand (skipDigits rest)
    else .error (.next .invalidNumber rest)
  | _ => skipAfterSignificand cs

def skipNumber (cs : List Char) : Except Fault (List Char) :=
  match cs with
  | [] => .error (.before .invalidNumber [])
  | c :: rest =>
    if c = '0' then
      if startsWithDigit rest then .error (.next .invalidNumber rest)
      else skipAfterInteger rest
    else if isDigit c then skipAfterInteger (skipDigits rest)
    else .error (.next .invalidNumber (c :: rest))

theorem length_skipExponentDigits {cs rest : List Char}
    (h : skipExponentDigits cs = .ok rest) : rest.length < cs.length := by
  unfold skipExponentDigits at h
  split at h
  · cases h
  · split at h
    · cases h; exact Nat.lt_succ_of_le (length_skipDigits _)
    · cases h

theorem length_skipExponent {cs rest : List Char} (h : skipExponent cs = .ok rest) :
    rest.length < cs.length := by
  unfold skipExponent at h
  split at h
  · exact Nat.lt_succ_of_lt (length_skipExponentDigits h)
  · exact Nat.lt_succ_of_lt (length_skipExponentDigits h)
  · exact length_skipExponentDigits h

theorem length_skipAfterSignificand {cs rest : List Char}
    (h : skipAfterSignificand cs = .ok rest) : rest.length ≤ cs.length := by
  unfold skipAfterSignificand at h
  split at h
  · exact Nat.le_succ_of_le (Nat.le_of_lt (length_skipExponent h))
  · exact Nat.le_succ_of_le (Nat.le_of_lt (length_skipExponent h))
  · cases h; exact Nat.le_refl _

theorem length_skipAfterInteger {cs rest : List Char} (h : skipAfterInteger cs = .ok rest) :
    rest.length ≤ cs.length := by
  unfold skipAfterInteger at h
  split at h
  · split at h
    · exact Nat.le_succ_of_le
        (Nat.le_trans (length_skipAfterSignificand h) (length_skipDigits _))
    · cases h
  · exact length_skipAfterSignificand h

theorem length_skipNumber {cs rest : List Char} (h : skipNumber cs = .ok rest) :
    rest.length < cs.length := by
  unfold skipNumber at h
  split at h
  · cases h
  · split at h
    · split at h
      · cases h
      · exact Nat.lt_succ_of_le (length_skipAfterInteger h)
    · split at h
      · exact Nat.lt_succ_of_le
          (Nat.le_trans (length_skipAfterInteger h) (length_skipDigits _))
      · cases h

end Manuscript.Json
