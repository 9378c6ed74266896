import Manuscript.Text.Decimal
/-!
# UTF-8

Texts as bytes and back. A byte string that is no text is refused with the length of its
longest prefix that is one, and with the number of bytes that spoil it, unless they only end
too early.
-/

namespace Manuscript

abbrev Bytes := List UInt8

namespace Utf8

def continuation (n : Nat) : UInt8 :=
  UInt8.ofNat (0x80 + n % 64)

def encodeChar (c : Char) : Bytes :=
  let n := c.toNat
  if n < 0x80 then [UInt8.ofNat n]
  else if n < 0x800 then [UInt8.ofNat (0xC0 + n / 64), continuation n]
  else if n < 0x10000 then
    [UInt8.ofNat (0xE0 + n / 4096), continuation (n / 64), continuation n]
  else
    [UInt8.ofNat (0xF0 + n / 262144), continuation (n / 4096), continuation (n / 64),
      continuation n]

def encode (cs : List Char) : Bytes :=
  cs.flatMap encodeChar

def bytes (s : String) : Bytes :=
  encode s.toList

def width (c : Char) : Nat :=
  if c.toNat < 0x80 then 1 else if c.toNat < 0x800 then 2 else if c.toNat < 0x10000 then 3 else 4

def size (cs : List Char) : Nat :=
  cs.foldr (fun c n => width c + n) 0

structure Fault where
  validUpTo : Nat
  /-- The number of bytes that cannot begin a character; none if the bytes only end too early. -/
  invalid : Option Nat
  deriving DecidableEq, Repr

def Fault.message (fault : Fault) : String :=
  match fault.invalid with
  | some n =>
    "invalid utf-8 sequence of " ++ Text.showNat n ++ " bytes from index " ++
      Text.showNat fault.validUpTo
  | none => "incomplete utf-8 byte sequence from index " ++ Text.showNat fault.validUpTo

/-- The values that may follow a leading byte: overlong forms, surrogates and code points above
U+10FFFF are refused by the second byte. -/
def secondRange (lead : Nat) : Nat × Nat :=
  if lead == 0xE0 then (0xA0, 0xBF)
  else if lead == 0xED then (0x80, 0x9F)
  else if lead == 0xF0 then (0x90, 0xBF)
  else if lead == 0xF4 then (0x80, 0x8F)
  else (0x80, 0xBF)

def isSecond (lead : Nat) (b : UInt8) : Bool :=
  (secondRange lead).1 ≤ b.toNat && b.toNat ≤ (secondRange lead).2

def isContinuation (b : UInt8) : Bool :=
  0x80 ≤ b.toNat && b.toNat ≤ 0xBF

def decodeFrom (before : Nat) : Bytes → Except Fault (List Char)
  | [] => .ok []
  | b :: bs =>
    let lead := b.toNat
    if lead < 0x80 then (Char.ofNat lead :: ·) <$> decodeFrom (before + 1) bs
    else if lead < 0xC2 || 0xF4 < lead then .error ⟨before, some 1⟩
    else
      match bs with
      | [] => .error ⟨before, none⟩
      | b₁ :: bs₁ =>
        if !isSecond lead b₁ then .error ⟨before, some 1⟩
        else
          let n₁ := b₁.toNat % 64
          if lead < 0xE0 then
            (Char.ofNat (lead % 32 * 64 + n₁) :: ·) <$> decodeFrom (before + 2) bs₁
          else
            match bs₁ with
            | [] => .error ⟨before, none⟩
            | b₂ :: bs₂ =>
              if !isContinuation b₂ then .error ⟨before, some 2⟩
              else
                let n₂ := n₁ * 64 + b₂.toNat % 64
                if lead < 0xF0 then
                  (Char.ofNat (lead % 16 * 4096 + n₂) :: ·) <$> decodeFrom (before + 3) bs₂
                else
                  match bs₂ with
                  | [] => .error ⟨before, none⟩
                  | b₃ :: bs₃ =>
                    if !isContinuation b₃ then .error ⟨before, some 3⟩
                    else
                      (Char.ofNat (lead % 8 * 262144 + n₂ * 64 + b₃.toNat % 64) :: ·) <$>
                        decodeFrom (before + 4) bs₃

def decode (bs : Bytes) : Except Fault String :=
  String.ofList <$> decodeFrom 0 bs

end Utf8

end Manuscript
