import Manuscript.Json.Scan
/-!
# Reading JSON

Readers of values. A reader is told how many arrays and objects may still be opened inside one
another, and takes at least one character whenever it succeeds, so that a sequence of values
comes to an end.
-/

namespace Manuscript.Json

/-- A scan of a value, which takes at least one character. -/
structure ValueScan (α : Type) where
  scan : Scan α
  takes : Takes 1 scan

instance {α : Type} : CoeFun (ValueScan α) fun _ => Scan α := ⟨ValueScan.scan⟩

/-- A reader of values of type `α`, given how many arrays and objects may still be opened. -/
abbrev Reader (α : Type) := Nat → ValueScan α

def maxDepth : Nat := 127

def Reader.map {α β : Type} (f : α → β) (read : Reader α) : Reader β := fun room => {
  scan := fun cs => do
    let (a, rest) ← read room cs
    .ok (f a, rest)
  takes := by
    intro cs rest b h
    obtain ⟨⟨_, _⟩, hr, h⟩ := ok_of_bind h
    cases h
    exact (read room).takes hr }

/-- Tells what comes next, for a complaint. Arrays and objects are not entered. -/
def found : Scan Found := fun cs =>
  match cs with
  | 'n' :: rest => do .ok (.null, ← word ['u', 'l', 'l'] rest)
  | 't' :: rest => do .ok (.boolean true, ← word ['r', 'u', 'e'] rest)
  | 'f' :: rest => do .ok (.boolean false, ← word ['a', 'l', 's', 'e'] rest)
  | '-' :: rest => do
    let (n, rest) ← magnitude true rest
    .ok (.number n, rest)
  | '\x22' :: rest => do
    let (s, rest) ← stringBody rest
    .ok (.string s, rest)
  | '[' :: _ => .ok (.sequence, cs)
  | '\x7b' :: _ => .ok (.map, cs)
  | _ =>
    if startsWithDigit cs then do
      let (n, rest) ← magnitude false cs
      .ok (.number n, rest)
    else .error (.next .expectedValue cs)

theorem length_found {cs rest : List Char} {what : Found} (h : found cs = .ok (what, rest)) :
    rest.length < cs.length ∨ what = .sequence ∨ what = .map := by
  unfold found at h
  split at h
  · obtain ⟨_, hw, h⟩ := ok_of_bind h
    cases h
    exact Or.inl (Nat.lt_succ_of_le (length_word hw))
  · obtain ⟨_, hw, h⟩ := ok_of_bind h
    cases h
    exact Or.inl (Nat.lt_succ_of_le (length_word hw))
  · obtain ⟨_, hw, h⟩ := ok_of_bind h
    cases h
    exact Or.inl (Nat.lt_succ_of_le (length_word hw))
  · obtain ⟨⟨_, _⟩, hm, h⟩ := ok_of_bind h
    cases h
    exact Or.inl (Nat.lt_succ_of_lt (takes_magnitude true hm))
  · obtain ⟨⟨_, _⟩, hs, h⟩ := ok_of_bind h
    cases h
    exact Or.inl (Nat.lt_succ_of_lt (takes_stringBody hs))
  · cases h; exact Or.inr (Or.inl rfl)
  · cases h; exact Or.inr (Or.inr rfl)
  · split at h
    · obtain ⟨⟨_, _⟩, hm, h⟩ := ok_of_bind h
      cases h
      exact Or.inl (takes_magnitude false hm)
    · cases h

def wrongType {α : Type} (expected : String) : Scan α := fun cs => do
  let (what, rest) ← found cs
  .error (.before (.wrongType what expected) rest)

theorem takes_wrongType {α : Type} (n : Nat) (expected : String) :
    Takes n (wrongType expected : Scan α) := by
  intro cs rest a h
  obtain ⟨_, _, h⟩ := ok_of_bind h
  cases h

def afterSpace {α : Type} (scan : Scan α) : Scan α := fun cs =>
  match skipSpace cs with
  | [] => .error (.next .endInValue [])
  | c :: rest => scan (c :: rest)

theorem takes_afterSpace {α : Type} {n : Nat} {scan : Scan α} (hscan : Takes n scan) :
    Takes n (afterSpace scan) := by
  intro cs rest a h
  have hs := length_skipSpace cs
  unfold afterSpace at h
  split at h
  · cases h
  · next hc =>
    rw [hc] at hs
    exact Nat.le_trans (hscan h) hs

def Reader.unit (expected : String) : Reader Unit := fun _ => {
  scan := afterSpace fun cs =>
    match cs with
    | 'n' :: rest => do .ok ((), ← word ['u', 'l', 'l'] rest)
    | _ => wrongType expected cs
  takes := takes_afterSpace (by
    intro cs rest a h
    dsimp only at h
    split at h
    · obtain ⟨_, hw, h⟩ := ok_of_bind h
      cases h
      exact Nat.succ_le_succ (length_word hw)
    · exact takes_wrongType 1 expected h) }

def Reader.boolean : Reader Bool := fun _ => {
  scan := afterSpace fun cs =>
    match cs with
    | 't' :: rest => do .ok (true, ← word ['r', 'u', 'e'] rest)
    | 'f' :: rest => do .ok (false, ← word ['a', 'l', 's', 'e'] rest)
    | _ => wrongType "a boolean" cs
  takes := takes_afterSpace (by
    intro cs rest a h
    dsimp only at h
    split at h
    · obtain ⟨_, hw, h⟩ := ok_of_bind h
      cases h
      exact Nat.succ_le_succ (length_word hw)
    · obtain ⟨_, hw, h⟩ := ok_of_bind h
      cases h
      exact Nat.succ_le_succ (length_word hw)
    · exact takes_wrongType 1 "a boolean" h) }

def Reader.stringAs (expected : String) : Reader String := fun _ => {
  scan := afterSpace fun cs =>
    match cs with
    | '\x22' :: rest => stringBody rest
    | _ => wrongType expected cs
  takes := takes_afterSpace (by
    intro cs rest a h
    dsimp only at h
    split at h
    · exact Nat.le_succ_of_le (takes_stringBody h)
    · exact takes_wrongType 1 expected h) }

def Reader.string : Reader String :=
  Reader.stringAs "a string"

def Number.below (limit : Nat) (expected : String) : Number → Except Reason Nat
  | natural n => if n < limit then .ok n else .error (.wrongValue (.number (.natural n)) expected)
  | negative n => .error (.wrongValue (.number (.negative n)) expected)
  | real x => .error (.wrongType (.number (.real x)) expected)

def naturalMagnitude (negative : Bool) (limit : Nat) (expected : String) : Scan Nat := fun cs => do
  let (n, rest) ← magnitude negative cs
  match n.below limit expected with
  | .ok n => .ok (n, rest)
  | .error reason => .error (.before reason rest)

theorem takes_naturalMagnitude (negative : Bool) (limit : Nat) (expected : String) :
    Takes 1 (naturalMagnitude negative limit expected) := by
  intro cs rest a h
  obtain ⟨⟨_, _⟩, hm, h⟩ := ok_of_bind h
  dsimp only at h
  split at h
  · cases h; exact takes_magnitude negative hm
  · cases h

def Reader.natural (limit : Nat) (expected : String) : Reader Nat := fun _ => {
  scan := afterSpace fun cs =>
    match cs with
    | '-' :: rest => naturalMagnitude true limit expected rest
    | _ =>
      if startsWithDigit cs then naturalMagnitude false limit expected cs
      else wrongType expected cs
  takes := takes_afterSpace (by
    intro cs rest a h
    dsimp only at h
    split at h
    · exact Nat.le_succ_of_le (takes_naturalMagnitude _ _ _ h)
    · split at h
      · exact takes_naturalMagnitude _ _ _ h
      · exact takes_wrongType 1 expected h) }

def Reader.word32 : Reader UInt32 :=
  (Reader.natural 0x100000000 "u32").map UInt32.ofNat

def Reader.word8 : Reader UInt8 :=
  (Reader.natural 0x100 "u8").map UInt8.ofNat

def read {α : Type} (reader : Reader α) (text : String) : Except Report α :=
  match reader maxDepth text.toList with
  | .error fault => .error (fault.report text)
  | .ok (a, rest) =>
    match skipSpace rest with
    | [] => .ok a
    | c :: rest => .error ((Fault.next .trailingCharacters (c :: rest)).report text)

end Manuscript.Json
