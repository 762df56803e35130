import Switchboard.Json
/-!
# Numbers in JSON texts

A number is an optional minus sign, digits without a leading zero, an optional fraction and an
optional exponent. Without the last two it is an integer, and stays one if 64 bits can hold it.
All else becomes a double: a significand of 64 bits, from which digits that do not fit are left
out, times a power of ten. A number too great for a double is refused, one too small is zero.
-/
namespace Switchboard.JsonNumber

/-- The significand read so far, and the power of ten by which it has to be multiplied. -/
structure Scaled where
  significand : Nat := 0
  exponent : Int := 0

/-- The value of a decimal digit. -/
def digit (c : Char) : Nat := c.toNat - '0'.toNat

/-- Takes the digits before the point. From the first that does not fit on, each counts as a
power of ten. -/
def Scaled.whole (s : Scaled) : List Char → Scaled
  | [] => s
  | c :: cs =>
    let grown := s.significand * 10 + digit c
    if grown < UInt64.size then Scaled.whole { s with significand := grown } cs
    else { s with exponent := s.exponent + (c :: cs).length }

/-- Takes the digits after the point, up to the first that does not fit. -/
def Scaled.decimals (s : Scaled) : List Char → Scaled
  | [] => s
  | c :: cs =>
    let grown := s.significand * 10 + digit c
    if grown < UInt64.size then
      Scaled.decimals { significand := grown, exponent := s.exponent - 1 } cs
    else s

/-- The double nearest to a power of ten. -/
def power (n : Nat) : Float := Float.ofScientific 1 false n

/-- The greatest power of ten that a double holds. -/
def greatestPower : Nat := 308

/-- Divides by the greatest power of ten so many times, or until nothing is left. -/
def shrink (x : Float) : Nat → Float
  | 0 => x
  | n + 1 => if x == 0 then x else shrink (x / power greatestPower) n

/-- The double of a scaled significand: one multiplication or division by a power of ten, after
as many divisions by the greatest one as are needed. -/
def Scaled.toFloat? (s : Scaled) : Option Float :=
  let x := s.significand.toUInt64.toFloat
  let size := s.exponent.natAbs
  if 0 ≤ s.exponent then
    if size ≤ greatestPower then
      let y := x * power size
      if y.isInf then none else some y
    else if x == 0 then some x else none
  else
    let steps := (size - 1) / greatestPower
    some (shrink x steps / power (size - steps * greatestPower))

/-- The bounds of an exponent. -/
def exponentLimit : Nat := 2147483648

/-- Multiplies by ten to the power that `digits` denote, or divides by it. An exponent that is
out of bounds leaves zero, except that it refuses a number that grows. -/
def Scaled.shift? (s : Scaled) (minus : Bool) (digits : List Char) : Option Scaled :=
  let size := digits.foldl (fun n c => n * 10 + digit c) 0
  if size < exponentLimit then
    let sum := if minus then s.exponent - size else s.exponent + size
    some { s with exponent := max (-exponentLimit) (min (exponentLimit - 1) sum) }
  else if s.significand ≠ 0 && !minus then none
  else some {}

/-- Reads the exponent, if there is one. -/
def Scaled.readExponent? (s : Scaled) : List Char → Option Scaled
  | [] => some s
  | mark :: cs =>
    if mark = 'e' || mark = 'E' then
      let (minus, digits) := match cs with
        | '-' :: ds => (true, ds)
        | '+' :: ds => (false, ds)
        | ds => (false, ds)
      if digits.isEmpty || !digits.all Char.isDigit then none else s.shift? minus digits
    else none

/-- An integer as it is kept: zero with a minus sign is a double, and so is all that does not fit
into 64 bits. -/
def ofInteger? (minus : Bool) (digits : List Char) : Option JsonNumber :=
  let n : Nat := digits.foldl (fun n c => n * 10 + digit c) 0
  if n < UInt64.size then
    if !minus then some (.natural n.toUInt64)
    else if n ≠ 0 && n ≤ UInt64.size / 2 then some (.negative (Int64.ofInt (-n)))
    else some (.real (-n.toUInt64.toFloat))
  else
    (Scaled.whole {} digits).toFloat?.map fun x => .real (if minus then -x else x)

/-- Reads a number. -/
def read? (cs : List Char) : Option JsonNumber :=
  let (minus, unsigned) := match cs with
    | '-' :: ds => (true, ds)
    | ds => (false, ds)
  let digits := unsigned.takeWhile Char.isDigit
  let rest := unsigned.dropWhile Char.isDigit
  if digits.isEmpty || (digits.head? = some '0' && digits.length ≠ 1) then none
  else match rest with
    | [] => ofInteger? minus digits
    | '.' :: tail =>
      let decimals := tail.takeWhile Char.isDigit
      if decimals.isEmpty then none
      else do
        let scaled ← ((Scaled.whole {} digits).decimals decimals).readExponent?
          (tail.dropWhile Char.isDigit)
        let x ← scaled.toFloat?
        return .real (if minus then -x else x)
    | tail => do
      let scaled ← (Scaled.whole {} digits).readExponent? tail
      let x ← scaled.toFloat?
      return .real (if minus then -x else x)

end Switchboard.JsonNumber
