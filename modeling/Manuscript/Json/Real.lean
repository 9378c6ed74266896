import Manuscript.Text.Decimal
/-!
# Real numbers of 64 bits

Positive real numbers with a significand of 53 bits: rounding a quotient to the nearest one, and
writing one with the fewest digits that still tell it from its neighbours.
-/

namespace Manuscript

structure Real64 where
  negative : Bool
  significand : Nat
  exponent : Int
  deriving DecidableEq, Repr, Inhabited

namespace Real64

/-- The numerator and the denominator of `m · base ^ e`, over those of `1`. -/
def scale (base : Nat) (e : Int) : Nat × Nat :=
  (base.pow e.toNat, base.pow (-e).toNat)

/-- The integer nearest to `a / b`; of two nearest ones, the even one. -/
def roundDiv (a b : Nat) : Nat :=
  let q := a / b
  let r := a % b
  if b < 2 * r ∨ (2 * r = b ∧ q % 2 = 1) then q + 1 else q

def floorLog (num den : Nat) : Int :=
  let k := (num.log2 : Int) - den.log2
  let (a, b) := scale 2 k
  if a * den ≤ num * b then k else k - 1

/-- The significand and the exponent of the number nearest to `num / den`; none if that is too
large. -/
def nearest (num den : Nat) : Option (Nat × Int) :=
  if num = 0 then some (0, 0)
  else
    let e := max (floorLog num den - 52) (-1074)
    let (a, b) := scale 2 e
    let m := roundDiv (num * b) (den * a)
    if 971 < e ∨ (e = 971 ∧ m = 0x20000000000000) then none else some (m, e)

def ofNat (n : Nat) : Option (Nat × Int) :=
  nearest n 1

def mul (x y : Nat × Int) : Option (Nat × Int) :=
  let (a, b) := scale 2 (x.2 + y.2)
  nearest (x.1 * y.1 * a) b

def div (x y : Nat × Int) : Option (Nat × Int) :=
  let (a, b) := scale 2 (x.2 - y.2)
  nearest (x.1 * a) (y.1 * b)

/-- The exponent of the highest power of ten that is at most `m · 2 ^ e`, for a positive
number that is not below `10 ^ -400`. -/
def floorLogTen (m : Nat) (e : Int) : Int :=
  let (a, b) := scale 2 e
  ((Text.decimal (m * a * Nat.pow 10 400 / b)).length : Int) - 401

/-- The multiple of `10 ^ p` nearest to `m · 2 ^ e` among those that round to it, as a
multiplier. -/
def onGrid (m : Nat) (e p : Int) : Option Nat :=
  let (two, two') := scale 2 (e - 2)
  let (ten, ten') := scale 10 p
  let a := two * ten'
  let b := two' * ten
  let value := 4 * m
  let low := if m = 0x10000000000000 ∧ -1074 < e then value - 1 else value - 2
  let high := value + 2
  let fits := fun d =>
    if m % 2 = 0 then low * a ≤ d * b ∧ d * b ≤ high * a else low * a < d * b ∧ d * b < high * a
  let d := value * a / b
  let down := value * a - d * b
  let up := (d + 1) * b - value * a
  if fits d then
    if fits (d + 1) ∧ (up < down ∨ (up = down ∧ d % 2 = 1)) then some (d + 1) else some d
  else if fits (d + 1) then some (d + 1)
  else none

def dropZeros (n : Nat) : Nat × Nat :=
  if _h : n = 0 ∨ n % 10 ≠ 0 then (n, 0)
  else
    let (m, zeros) := dropZeros (n / 10)
    (m, zeros + 1)
termination_by n
decreasing_by omega

/-- The shortest digits of `m · 2 ^ e`, and the power of ten of the last one. -/
def shortest (m : Nat) (e : Int) : Nat × Int :=
  let top := floorLogTen m e
  let found := (List.range 17).findSome? fun (n : Nat) =>
    let p := top - (n : Int)
    (onGrid m e p).map fun d => (d, p)
  let (d, p) := found.getD (0, 0)
  let (digits, zeros) := dropZeros d
  (digits, p + zeros)

def exponentText (e : Int) : List Char :=
  let digits := Text.decimal e.natAbs
  let digits := if digits.length < 2 then '0' :: digits else digits
  (if e < 0 then '-' else '+') :: digits

/-- Digits with a point, or with a power of ten for numbers below `10 ^ -5` and from `10 ^ 16`
on. -/
def layout (digits : List Char) (p : Int) : List Char :=
  let top := p + digits.length - 1
  if top < -5 ∨ 15 < top then
    let mantissa :=
      match digits with
      | [d] => [d]
      | d :: ds => d :: '.' :: ds
      | [] => []
    mantissa ++ 'e' :: exponentText top
  else if 0 ≤ p then digits ++ List.replicate p.toNat '0' ++ ['.', '0']
  else if 0 ≤ top then
    digits.take (top + 1).toNat ++ '.' :: digits.drop (top + 1).toNat
  else '0' :: '.' :: List.replicate (-top - 1).toNat '0' ++ digits

def text (x : Real64) : List Char :=
  let sign := if x.negative then ['-'] else []
  if x.significand = 0 then sign ++ ['0', '.', '0']
  else
    let (digits, p) := shortest x.significand x.exponent
    sign ++ layout (Text.decimal digits) p

end Real64

end Manuscript
