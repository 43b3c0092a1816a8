/-
Numbers in JSON texts.

A number without fraction and exponent is an integer if it fits 64 bits, signed
for negative numbers and unsigned for others; every other number is a double. The
sign makes `-0` a double, because no integer is negative zero.

A double is computed from at most 64 bits of decimal digits and a power of ten:
digits that no longer fit are dropped. The significand is then multiplied or
divided by the power, which rounds once more for long numbers. That is one unit in
the last place away from the nearest double at worst. A number beyond the largest
double is out of range; one below the smallest is zero.
-/
import LoadBalancing.Document.Node

set_option autoImplicit false

namespace LoadBalancing.Document.JsonNumber

/-- One more than the largest significand. -/
def significandLimit : Nat := 0x10000000000000000

/-- The significand after one more digit, if it still fits. -/
def push? (significand : Nat) (digit : Char) : Option Nat :=
  let next := significand * 10 + (digit.toNat - '0'.toNat)
  if next < significandLimit then some next else none

/-- Takes integer digits. A digit that does not fit stops the significand for good;
it and all later integer digits count as factors of ten. -/
def takeInteger (significand : Nat) : List Char → Nat × Int × Bool
  | [] => (significand, 0, true)
  | d :: rest =>
    match push? significand d with
    | some next => takeInteger next rest
    | none => (significand, (rest.length + 1 : Nat), false)

/-- Takes digits of the fraction, each of which divides by ten; the first that does
not fit drops itself and all later ones. -/
def takeFraction (significand : Nat) (exponent : Int) : List Char → Nat × Int
  | [] => (significand, exponent)
  | d :: rest =>
    match push? significand d with
    | some next => takeFraction next (exponent - 1) rest
    | none => (significand, exponent)

/-- The greatest power of ten that is a finite double. -/
def largestPower : Nat := 308

/-- `10 ^ n` to the nearest double. -/
def power (n : Nat) : Float :=
  Float.ofScientific 1 false n

/-- Divides by tens until the rest of the exponent is a finite power. -/
def shrink (x : Float) (n : Nat) : Float :=
  if n ≤ largestPower then x / power n
  else if x == 0 then x
  else shrink (x / power largestPower) (n - largestPower)
termination_by n
decreasing_by simp [largestPower] at *; omega

/-- The double `significand * 10 ^ exponent`; none if it is out of range. -/
def scale? (significand : Nat) (exponent : Int) : Option Float :=
  let x := Float.ofNat significand
  match exponent with
  | .ofNat n =>
    if n ≤ largestPower then
      let y := x * power n
      if y.isInf then none else some y
    else if significand = 0 then some x
    else none
  | .negSucc n => some (shrink x (n + 1))

/-- The digits of a number between sign, point and exponent mark. -/
structure Digits where
  negative : Bool
  integer : List Char
  fraction : Option (List Char)
  exponent : Option (Bool × List Char)

/-- Exponents of more digits than this are beyond any power of ten that matters. -/
def exponentLimit : Nat := 0x80000000

/-- The value of a number. -/
def toNode (d : Digits) : Node :=
  let (whole, skipped, exact) := takeInteger 0 d.integer
  let (significand, base) := takeFraction whole skipped (d.fraction.getD [])
  let signed (x : Float) : Node := .float (if d.negative then -x else x)
  let scaled (exponent : Int) : Node :=
    match scale? significand exponent with
    | some x => signed x
    | none => .unreadable
  match d.exponent with
  | some (negative, digits) =>
    let e := digits.foldl (fun n c => n * 10 + (c.toNat - '0'.toNat)) 0
    if exponentLimit ≤ e then
      if significand ≠ 0 && !negative then .unreadable else signed 0
    else scaled (if negative then base - e else base + e)
  | none =>
    if d.fraction.isSome || !exact then scaled base
    else if !d.negative then .integer significand
    else if significand = 0 || 0x8000000000000000 < significand then signed (Float.ofNat significand)
    else .integer (-(significand : Int))

end LoadBalancing.Document.JsonNumber
