/-!
# Emphasis

A text is read from left to right as a sequence of factors. Three, two or one asterisks enclose
a text on one line; the shortest such text is taken, and three asterisks are tried before two
and two before one. Other characters stand for themselves, and an asterisk that encloses nothing
is dropped.
-/

namespace Manuscript

structure Span where
  text : String
  bold : Bool
  italic : Bool
  deriving DecidableEq, Repr, Inhabited

namespace Inline

inductive Marker where
  | boldItalic
  | bold
  | italic
  deriving DecidableEq, Repr

def Marker.width : Marker → Nat
  | boldItalic => 3
  | bold => 2
  | italic => 1

def Marker.stars (marker : Marker) : List Char :=
  List.replicate marker.width '*'

def Marker.opened? (marker : Marker) (cs : List Char) : Option (List Char) :=
  if marker.stars.isPrefixOf cs then some (cs.drop marker.width) else none

/-- The shortest text of this line that is followed by the marker, and what follows the
marker. -/
def Marker.until? (marker : Marker) : List Char → Option (List Char × List Char)
  | [] => none
  | c :: cs =>
    match marker.opened? (c :: cs) with
    | some rest => some ([], rest)
    | none =>
      if c = '\n' then none
      else (marker.until? cs).map fun (inner, rest) => (c :: inner, rest)

/-- The enclosed text and what follows it, if the text begins with a pair of markers around at
least one character. -/
def Marker.enclosed? (marker : Marker) (cs : List Char) : Option (List Char × List Char) :=
  match marker.opened? cs with
  | some (c :: rest) =>
    if c = '\n' then none
    else (marker.until? rest).map fun (inner, rest) => (c :: inner, rest)
  | _ => none

inductive Factor where
  | enclosed (marker : Marker) (text : List Char)
  | plain (text : List Char)
  | star
  deriving DecidableEq, Repr

def Factor.spelling : Factor → List Char
  | enclosed marker text => marker.stars ++ text ++ marker.stars
  | plain text => text
  | star => ['*']

/-- The span of a factor; a single asterisk has none. -/
def Factor.span? : Factor → Option Span
  | enclosed .boldItalic text => some ⟨String.ofList text, true, true⟩
  | enclosed .bold text => some ⟨String.ofList text, true, false⟩
  | enclosed .italic text => some ⟨String.ofList text, false, true⟩
  | plain text => some ⟨String.ofList text, false, false⟩
  | star => none

def starred (cs : List Char) : Factor × List Char :=
  match Marker.boldItalic.enclosed? ('*' :: cs) with
  | some (text, rest) => (.enclosed .boldItalic text, rest)
  | none =>
    match Marker.bold.enclosed? ('*' :: cs) with
    | some (text, rest) => (.enclosed .bold text, rest)
    | none =>
      match Marker.italic.enclosed? ('*' :: cs) with
      | some (text, rest) => (.enclosed .italic text, rest)
      | none => (.star, cs)

def firstFactor (c : Char) (cs : List Char) : Factor × List Char :=
  if c = '*' then starred cs
  else (.plain (c :: cs.takeWhile (· != '*')), cs.dropWhile (· != '*'))

theorem length_of_opened? {marker : Marker} {cs rest : List Char}
    (h : marker.opened? cs = some rest) : rest.length + marker.width = cs.length := by
  unfold Marker.opened? at h
  split at h
  · rename_i hstars
    have hle := (List.isPrefixOf_iff_prefix.mp hstars).length_le
    simp only [Marker.stars, List.length_replicate] at hle
    obtain rfl := Option.some.inj h
    simp only [List.length_drop]
    omega
  · simp at h

theorem length_of_until? {marker : Marker} {cs inner rest : List Char}
    (h : marker.until? cs = some (inner, rest)) : rest.length ≤ cs.length := by
  induction cs generalizing inner with
  | nil => simp [Marker.until?] at h
  | cons c cs ih =>
      unfold Marker.until? at h
      split at h
      · rename_i hopen
        have := length_of_opened? hopen
        simp only [Option.some.injEq, Prod.mk.injEq] at h
        obtain ⟨-, rfl⟩ := h
        omega
      · split at h
        · simp at h
        · obtain ⟨⟨inner', rest'⟩, hr, he⟩ := Option.map_eq_some_iff.mp h
          obtain ⟨-, rfl⟩ := Prod.mk.inj he
          have := ih hr
          simp only [List.length_cons]
          omega

theorem length_of_enclosed? {marker : Marker} {cs inner rest : List Char}
    (h : marker.enclosed? cs = some (inner, rest)) : rest.length < cs.length := by
  unfold Marker.enclosed? at h
  split at h
  · rename_i c tail hopen
    have hlen := length_of_opened? hopen
    split at h
    · simp at h
    · obtain ⟨⟨inner', rest'⟩, hr, he⟩ := Option.map_eq_some_iff.mp h
      obtain ⟨-, rfl⟩ := Prod.mk.inj he
      have := length_of_until? hr
      simp only [List.length_cons] at hlen
      omega
  · simp at h

theorem length_starred (cs : List Char) : (starred cs).2.length ≤ cs.length := by
  unfold starred
  split
  · rename_i h
    have := length_of_enclosed? h
    simp only [List.length_cons] at this ⊢
    omega
  · split
    · rename_i h
      have := length_of_enclosed? h
      simp only [List.length_cons] at this ⊢
      omega
    · split
      · rename_i h
        have := length_of_enclosed? h
        simp only [List.length_cons] at this ⊢
        omega
      · simp

theorem length_dropWhile_le (p : Char → Bool) (cs : List Char) :
    (cs.dropWhile p).length ≤ cs.length :=
  (List.dropWhile_suffix p).length_le

theorem length_firstFactor (c : Char) (cs : List Char) :
    (firstFactor c cs).2.length ≤ cs.length := by
  unfold firstFactor
  split
  · exact length_starred cs
  · exact length_dropWhile_le _ cs

def factors : List Char → List Factor
  | [] => []
  | c :: cs => (firstFactor c cs).1 :: factors (firstFactor c cs).2
termination_by cs => cs.length
decreasing_by
  have := length_firstFactor c cs
  simp only [List.length_cons]
  omega

def parse (s : String) : List Span :=
  (factors s.toList).filterMap Factor.span?

end Inline

end Manuscript
