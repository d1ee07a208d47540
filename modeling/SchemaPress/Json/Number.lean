import SchemaPress.Decimal.Range

/-!
# Numbers of a JSON text

A number without point and exponent that fits in 64 bits is an integer; any other is a
double. The double is built in two rounded steps: the leading digits that fit in 64 bits
are taken as a double, and this is multiplied or divided by a power of ten.
-/

set_option autoImplicit false

namespace SchemaPress.Json

/-- The value of a number as its reader sees it. -/
inductive Number where
  | integer (n : Int)
  | double (x : Float)

/-- A number as it is spelled: digits before the point, digits after it, and an exponent with its
sign. -/
structure Spelling where
  negative : Bool
  whole : List Char
  fraction : Option (List Char)
  exponent : Option (Bool × List Char)

/-- The greatest number of 64 bits. -/
def maxWord : Nat := 1 <<< 64 - 1

/-- The value of a decimal digit. -/
def digitValue (c : Char) : Nat := c.toNat - 0x30

/-- Digits appended to a number as long as it fits in 64 bits, and the digits left over. -/
def gather : Nat → List Char → Nat × List Char
  | n, [] => (n, [])
  | n, c :: cs => if 10 * n + digitValue c ≤ maxWord then gather (10 * n + digitValue c) cs
                  else (n, c :: cs)

/-- A double times a power of ten; none if the result is too large for a double. -/
def scale : Nat → Float → Int → Option Float
  | 0, x, _ => some x
  | fuel + 1, x, e =>
    if e.natAbs ≤ 308 then
      let power := Float.ofScientific 1 false e.natAbs
      if 0 ≤ e then
        let y := x * power
        if y.isInf then none else some y
      else some (x / power)
    else if x == 0.0 then some x
    else if 0 ≤ e then none
    else scale fuel (x / 1e308) (e + 308)

namespace Spelling

/-- The exponent written after the number; none if it is beyond 31 bits. -/
def writtenExponent (s : Spelling) : Option Int :=
  match s.exponent with
  | none => some 0
  | some (negative, digits) =>
    let n := Decimal.digitsValue digits
    if 1 <<< 31 ≤ n then none else some (if negative then -(n : Int) else n)

/-- The magnitude of a number as a double; none if it is too large. -/
def magnitude (s : Spelling) : Option Float :=
  let (whole, overWhole) := gather 0 s.whole
  let fraction := s.fraction.getD []
  let (significand, overFraction) := gather whole fraction
  let place : Int := (overWhole.length : Int) - ((fraction.length - overFraction.length : Nat) : Int)
  match s.writtenExponent with
  | some e => scale 8 significand.toUInt64.toFloat (place + e)
  | none =>
    if significand = 0 || (s.exponent.map (·.1)).getD false then some 0.0 else none

/-- The number read as a double. -/
def toDouble (s : Spelling) : Option Number :=
  s.magnitude.map fun x => .double (if s.negative then -x else x)

/-- The value of a spelled number; none if it is too large for a double. -/
def value (s : Spelling) : Option Number :=
  match s.fraction, s.exponent with
  | none, none =>
    let n := Decimal.digitsValue s.whole
    if s.negative then
      if 0 < n && n ≤ 1 <<< 63 then some (.integer (-(n : Int))) else s.toDouble
    else if n ≤ maxWord then some (.integer n)
    else s.toDouble
  | _, _ => s.toDouble

end Spelling

end SchemaPress.Json
