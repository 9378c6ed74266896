import Manuscript.Xml.Fault
/-!
# Entities

Text between tags stands for itself, but for the five predefined entities and for references to
characters by their code point.
-/

namespace Manuscript.Xml

open Text

/-- The number that digits spell; `value` tells digits and `fault` complains of others. -/
def spelled (base : Nat) (value : Char → Option Nat) (fault : Char → EntityFault) (n : Nat) :
    List Char → Except EntityFault Nat
  | [] => .ok n
  | c :: cs =>
    match value c with
    | some d => spelled base value fault (n * base + d) cs
    | none => .error (fault (leadingByte c))

def codePoint (cs : List Char) : Except EntityFault Nat :=
  match cs with
  | 'x' :: digits =>
    if 6 < Utf8.size digits then .error .longHexadecimal
    else spelled 16 hexadecimalValue? .notHexadecimal 0 digits
  | digits =>
    if 7 < Utf8.size digits then .error .longDecimal
    else spelled 10 decimalValue? .notDecimal 0 digits

def predefined? (name : List Char) : Option Char :=
  if name = ['l', 't'] then some '<'
  else if name = ['g', 't'] then some '>'
  else if name = ['a', 'm', 'p'] then some '&'
  else if name = ['a', 'p', 'o', 's'] then some '\x27'
  else if name = ['q', 'u', 'o', 't'] then some '\x22'
  else none

/-- The character between `&` and `;`, where the ampersand is at the byte `first`. -/
def resolve (first : Nat) (name : List Char) : Except EntityFault Char :=
  let last := first + 1 + Utf8.size name
  match name with
  | '#' :: reference => do
    let n ← codePoint reference
    if n = 0 then .error (.null first last)
    else if n.isValidChar then .ok (Char.ofNat n)
    else .error (.notCharacter n)
  | _ =>
    match predefined? name with
    | some c => .ok c
    | none => .error (.unknown (first + 1) last (String.ofList name))

def endsEntity (c : Char) : Bool :=
  c == '&' || c == ';'

/-- The characters that the rest of a text stands for. The text has `total` bytes, of which
`first` come before the rest. -/
def unescapeFrom (total first : Nat) (cs : List Char) : Except EntityFault (List Char) :=
  match cs with
  | [] => .ok []
  | c :: rest =>
    if c = '&' then
      let name := rest.takeWhile (!endsEntity ·)
      match _h : rest.dropWhile (!endsEntity ·) with
      | ';' :: tail => do
        let d ← resolve first name
        let ds ← unescapeFrom total (first + Utf8.size name + 2) tail
        .ok (d :: ds)
      | _ => .error (.unterminated first total)
    else do
      let ds ← unescapeFrom total (first + Utf8.width c) rest
      .ok (c :: ds)
termination_by cs.length
decreasing_by
  · have := (List.dropWhile_suffix (l := rest) (!endsEntity ·)).length_le
    simp only [_h, List.length_cons] at this ⊢
    omega
  · simp

def unescape (cs : List Char) : Except EntityFault (List Char) :=
  unescapeFrom (Utf8.size cs) 0 cs

end Manuscript.Xml
