/-!
# Written numbers

Decimal and hexadecimal digits of a natural number, without leading zeros.
-/

namespace Manuscript.Text

def digit (d : Nat) : Char :=
  if d < 10 then Char.ofNat (48 + d) else Char.ofNat (87 + d)

def digits (base : Nat) (h : 2 ≤ base) (n : Nat) : List Char :=
  if n < base then [digit n] else digits base h (n / base) ++ [digit (n % base)]
termination_by n
decreasing_by exact Nat.div_lt_self (by omega) h

def decimal (n : Nat) : List Char :=
  digits 10 (by decide) n

def showNat (n : Nat) : String :=
  String.ofList (decimal n)

def hexadecimal (n : Nat) : List Char :=
  digits 16 (by decide) n

def decimalValue? (c : Char) : Option Nat :=
  if '0' ≤ c ∧ c ≤ '9' then some (c.toNat - 48) else none

def hexadecimalValue? (c : Char) : Option Nat :=
  if '0' ≤ c ∧ c ≤ '9' then some (c.toNat - 48)
  else if 'a' ≤ c ∧ c ≤ 'f' then some (c.toNat - 87)
  else if 'A' ≤ c ∧ c ≤ 'F' then some (c.toNat - 55)
  else none

end Manuscript.Text
