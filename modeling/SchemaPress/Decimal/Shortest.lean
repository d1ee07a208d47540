import SchemaPress.Decimal.Power

/-!
# The shortest decimal of a double

A finite double is `m · 2^q`. The reals that round to it form an interval around it, ends
included if `m` is even. Its shortest decimal is the point of that interval with the fewest
digits, and the nearest to the double among those; of two equally near ones the even one.
All arithmetic is exact.
-/

set_option autoImplicit false

namespace SchemaPress

/-- A positive binary number `significand · 2^exponent`. -/
structure Binary where
  significand : Nat
  exponent : Int

/-- The decimal number `digits · 10^exponent`. -/
structure Decimal where
  digits : Nat
  exponent : Int
deriving DecidableEq, Repr

namespace Binary

/-- The magnitude of a finite double, given by its bits. -/
def ofBits (bits : Nat) : Binary :=
  let fraction := bits % 1 <<< 52
  let field : Nat := bits / 1 <<< 52 % 1 <<< 11
  if field = 0 then ⟨fraction, -1074⟩ else ⟨fraction + 1 <<< 52, (field : Int) - 1075⟩

/-- The lower and upper end of the interval of reals that round to the double, and the double
itself, in quarters of its last place. -/
def quarters (b : Binary) : Nat × Nat × Nat :=
  let below := if b.significand = 1 <<< 52 && b.exponent > -1074 then 1 else 2
  (4 * b.significand - below, 4 * b.significand, 4 * b.significand + 2)

/-- A number of quarters of the last place, measured in units of `10^place`, as a fraction. -/
def inUnits (b : Binary) (place : Int) (n : Nat) : Nat × Nat :=
  let two := b.exponent - 2
  (n <<< two.toNat * tenTo (-place).toNat, 1 <<< (-two).toNat * tenTo place.toNat)

/-- The multiple of `10^place` that rounds to the double and is nearest to it, if any does. -/
def onGrid? (b : Binary) (place : Int) : Option Nat :=
  let (lower, value, upper) := b.quarters
  let (low, unit) := b.inUnits place lower
  let (mid, _) := b.inUnits place value
  let (high, _) := b.inUnits place upper
  let inside (n : Nat) : Bool :=
    if b.significand % 2 = 0 then low ≤ n * unit && n * unit ≤ high
    else low < n * unit && n * unit < high
  let down := mid / unit
  let up := down + 1
  match inside down && 0 < down, inside up with
  | false, false => none
  | true, false => some down
  | false, true => some up
  | true, true =>
    let toDown := mid - down * unit
    let toUp := up * unit - mid
    if toDown < toUp then some down
    else if toUp < toDown then some up
    else if down % 2 = 0 then some down else some up

/-- The greatest `e` with `10^e` at most the number. -/
def leadingPlace (b : Binary) : Int :=
  let (value, unit) := b.inUnits 0 (4 * b.significand)
  if unit ≤ value then ((Nat.toDigits 10 (value / unit)).length : Int) - 1
  else
    match (List.range 400).find? fun k => unit ≤ value * tenTo k with
    | some k => -(k : Int)
    | none => -400

/-- A decimal without the zeros its digits end with. -/
def trimZeros : Nat → Decimal → Decimal
  | 0, d => d
  | fuel + 1, d =>
    if d.digits % 10 = 0 && 0 < d.digits then trimZeros fuel ⟨d.digits / 10, d.exponent + 1⟩
    else d

/-- The shortest decimal that rounds to the number. -/
def shortest (b : Binary) : Decimal :=
  let lead := b.leadingPlace
  let found := (List.range 17).findSome? fun (k : Nat) =>
    (b.onGrid? (lead - (k : Int))).map fun n => Decimal.mk n (lead - (k : Int))
  trimZeros 20 (found.getD ⟨0, 0⟩)

end Binary

namespace Decimal

/-- The digits of a natural number as text. -/
def natText (n : Nat) : String :=
  String.ofList (Nat.toDigits 10 n)

/-- The digits of an integer as text, with a minus sign in front of a negative one. -/
def intText (n : Int) : String :=
  if n < 0 then "-" ++ natText n.natAbs else natText n.natAbs

/-- A positive decimal as text: positional from `10^-5` up to `10^16`, always with a point,
and with an exponent outside. -/
def text (d : Decimal) : String :=
  let digits := Nat.toDigits 10 d.digits
  let point := (digits.length : Int) + d.exponent
  if 0 ≤ d.exponent && point ≤ 16 then
    String.ofList (digits ++ List.replicate d.exponent.toNat '0') ++ ".0"
  else if 0 < point && point ≤ 16 then
    String.ofList (digits.take point.toNat) ++ "." ++ String.ofList (digits.drop point.toNat)
  else if -5 < point && point ≤ 0 then
    "0." ++ String.ofList (List.replicate (-point).toNat '0' ++ digits)
  else if digits.length = 1 then
    String.ofList digits ++ "e" ++ intText (point - 1)
  else
    String.ofList (digits.take 1) ++ "." ++ String.ofList (digits.drop 1) ++ "e"
      ++ intText (point - 1)

/-- A finite double as text: its sign, and the shortest decimal that reads back as it. -/
def ofFloat (x : Float) : String :=
  let bits := x.toBits.toNat
  let sign := if 1 <<< 63 ≤ bits then "-" else ""
  let magnitude := bits % 1 <<< 63
  if magnitude = 0 then sign ++ "0.0" else sign ++ (Binary.ofBits magnitude).shortest.text

end Decimal

end SchemaPress
