import SchemaPress.Decimal.Power

/-!
# Decimals that fit in a double

Whether a decimal, given by its digits and a power of ten, rounds to a finite double. The
greatest double is `(2^53 - 1) · 2^971`; everything from half a step above it on rounds to
infinity.
-/

set_option autoImplicit false

namespace SchemaPress.Decimal

/-- The number that decimal digits spell. -/
def digitsValue (cs : List Char) : Nat :=
  cs.foldl (fun n c => 10 * n + (c.toNat - 0x30)) 0

/-- Whether `digits · 10^exponent` rounds to a finite double. Numbers that are far from the limit
are told by their size alone. -/
def isFinite (digits : List Char) (exponent : Int) : Bool :=
  let significant := digits.dropWhile (· = '0')
  let size := (significant.length : Int) + exponent
  if significant.isEmpty || size < -400 then true
  else if 400 < size then false
  else digitsValue significant * tenTo exponent.toNat
    < (1 <<< 54 - 1) <<< 970 * tenTo (-exponent).toNat

end SchemaPress.Decimal
