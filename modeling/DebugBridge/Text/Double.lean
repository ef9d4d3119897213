/-!
# Decimal text of double-precision numbers

A double is given by its 64 bits.  `Double.shortest` writes a finite one with the fewest
significant digits that read back as the same double, and of those the digits nearest to it, a
tie going to even digits;
`Double.ofDecimal?` is the reading rule of the JSON reader, which scales a 64-bit significand by a
power of ten.

A finite double is `m * 2 ^ q`.  The numbers that read back as it fill an interval around it whose
ends lie halfway to its neighbours.  For 1, 2, … digits the two decimals on either side of the
double are tested in exact arithmetic; the first count with a hit wins.
-/

namespace DebugBridge.Text.Double

structure Fraction where
  num : Nat
  den : Nat

namespace Fraction

/-- `n * 2 ^ exponent`. -/
def scaled2 (n : Nat) (exponent : Int) : Fraction :=
  if exponent ≥ 0 then ⟨n * Nat.pow 2 exponent.toNat, 1⟩ else ⟨n, Nat.pow 2 (-exponent).toNat⟩

/-- `n * 10 ^ exponent`. -/
def scaled10 (n : Nat) (exponent : Int) : Fraction :=
  if exponent ≥ 0 then ⟨n * Nat.pow 10 exponent.toNat, 1⟩ else ⟨n, Nat.pow 10 (-exponent).toNat⟩

def lt (first second : Fraction) : Bool :=
  first.num * second.den < second.num * first.den

/-- The whole part of a fraction divided by `10 ^ exponent`. -/
def floorBy10 (x : Fraction) (exponent : Int) : Nat :=
  if exponent ≥ 0 then x.num / (x.den * Nat.pow 10 exponent.toNat)
  else x.num * Nat.pow 10 (-exponent).toNat / x.den

def distance (first second : Fraction) : Fraction :=
  let a := first.num * second.den
  let b := second.num * first.den
  ⟨if a < b then b - a else a - b, first.den * second.den⟩

end Fraction

/-- The interval of numbers that read back as a double. -/
structure Interval where
  low : Fraction
  high : Fraction
  /-- whether the ends belong to it -/
  closed : Bool

def Interval.contains (i : Interval) (x : Fraction) : Bool :=
  if i.closed then !x.lt i.low && !i.high.lt x else i.low.lt x && x.lt i.high

/-- The stored exponent of a double. -/
def storedExponent (bits : UInt64) : Nat :=
  (bits.toNat / Nat.pow 2 52) % Nat.pow 2 11

/-- The stored fraction of a double. -/
def storedFraction (bits : UInt64) : Nat :=
  bits.toNat % Nat.pow 2 52

def isNegative (bits : UInt64) : Bool :=
  bits.toNat / Nat.pow 2 63 == 1

/-- The integer significand of a finite double. -/
def significand (bits : UInt64) : Nat :=
  if storedExponent bits == 0 then storedFraction bits else Nat.pow 2 52 + storedFraction bits

/-- The power of two that scales the significand. -/
def binaryExponent (bits : UInt64) : Int :=
  (if storedExponent bits == 0 then 1 else storedExponent bits : Nat) - 1075

/-- The numbers that read back as a positive finite double. -/
def interval (bits : UInt64) : Interval :=
  let m := significand bits
  let q := binaryExponent bits
  let low :=
    if storedFraction bits == 0 && storedExponent bits > 1 then
      Fraction.scaled2 (4 * m - 1) (q - 2)
    else Fraction.scaled2 (2 * m - 1) (q - 1)
  ⟨low, Fraction.scaled2 (2 * m + 1) (q - 1), m % 2 == 0⟩

/-- Digits and the power of ten of the last of them. -/
structure Decimal where
  digits : Nat
  exponent : Int

def Decimal.toFraction (d : Decimal) : Fraction :=
  Fraction.scaled10 d.digits d.exponent

/-- The power of ten of the first digit of a positive fraction. -/
def leadingExponent (x : Fraction) : Int :=
  if x.num ≥ x.den then ((toString (x.num / x.den)).length : Int) - 1
  else
    let rec below : Nat → Nat → Int
      | 0, shift => -(shift : Int)
      | budget + 1, shift =>
          if x.num * Nat.pow 10 shift ≥ x.den then -(shift : Int) else below budget (shift + 1)
    below 400 1

/-- The nearer to a fraction of two decimals with consecutive digits; of two equally near ones, the
one with even digits. -/
def nearer (x : Fraction) (low high : Decimal) : Decimal :=
  let below := low.toFraction.distance x
  let above := high.toFraction.distance x
  if below.lt above then low
  else if above.lt below then high
  else if low.digits % 2 == 0 then low else high

/-- The better of the two decimals around a fraction on the grid `10 ^ exponent`, if one of them
lies in the interval. -/
def onGrid? (x : Fraction) (i : Interval) (exponent : Int) : Option Decimal :=
  let low : Decimal := ⟨x.floorBy10 exponent, exponent⟩
  let high : Decimal := ⟨x.floorBy10 exponent + 1, exponent⟩
  match i.contains low.toFraction, i.contains high.toFraction with
  | true, true => some (nearer x low high)
  | true, false => some low
  | false, true => some high
  | false, false => none

/-- The shortest decimal that reads back as a positive finite double. -/
def shortestDecimal (bits : UInt64) : Decimal :=
  let x := Fraction.scaled2 (significand bits) (binaryExponent bits)
  let leading := leadingExponent x
  let found := (List.range 17).findSome? fun extra =>
    onGrid? x (interval bits) (leading - (extra : Nat))
  found.getD ⟨x.floorBy10 (leading - 16), leading - 16⟩

/-- How a decimal is laid out: from `10 ^ minFixed` to below `10 ^ (maxFixed + 1)` with a point and
no exponent, else with one digit before the point and a signed exponent. -/
structure Layout where
  minFixed : Int
  maxFixed : Int

/-- The layout of numbers in JSON text. -/
def Layout.json : Layout := ⟨-5, 15⟩

/-- The digits of a decimal without trailing zeros, and the power of ten of the first of them. -/
def Decimal.normal (d : Decimal) : List Char × Int :=
  let all := (toString d.digits).toList
  ((all.reverse.dropWhile (· == '0')).reverse, d.exponent + (all.length : Int) - 1)

/-- The text of a positive decimal. -/
def Layout.write (layout : Layout) (d : Decimal) : List Char :=
  let (digits, leading) := d.normal
  let count : Int := digits.length
  if layout.minFixed ≤ leading && leading ≤ layout.maxFixed then
    if leading < 0 then
      "0.".toList ++ List.replicate (-leading - 1).toNat '0' ++ digits
    else if count ≤ leading + 1 then
      digits ++ List.replicate (leading + 1 - count).toNat '0' ++ ".0".toList
    else digits.take (leading + 1).toNat ++ '.' :: digits.drop (leading + 1).toNat
  else
    let exponent :=
      (if leading < 0 then "e-" else "e+").toList ++ (toString leading.natAbs).toList
    match digits with
    | [] => exponent
    | [digit] => digit :: exponent
    | first :: others => first :: '.' :: others ++ exponent

/-- The shortest text that reads back as a finite double. -/
def shortest (bits : UInt64) : String :=
  let body :=
    if significand bits == 0 then "0.0".toList else Layout.json.write (shortestDecimal bits)
  String.ofList (if isNegative bits then '-' :: body else body)

/-! ## Reading -/

/-- A decimal significand of at most 64 bits, and the power of ten that scales it. -/
structure Scaled where
  significand : Nat
  exponent : Int

/-- Takes digits into a significand as long as it stays below `2 ^ 64`; answers the significand
and the number of digits that were taken. -/
def takeDigits (significand taken : Nat) : List Char → Nat × Nat
  | [] => (significand, taken)
  | digit :: rest =>
      let next := 10 * significand + (digit.toNat - '0'.toNat)
      if next < Nat.pow 2 64 then takeDigits next (taken + 1) rest else (significand, taken)

/-- The significand and the exponent of a numeral with digits before and behind its point.  Digits
that do not fit raise the exponent before the point and are dropped behind it. -/
def Scaled.ofDigits (whole fraction : List Char) (exponent : Int) : Scaled :=
  let (significand, taken) := takeDigits 0 0 whole
  let (significand, taken') := takeDigits significand 0 fraction
  ⟨significand, exponent + ((whole.length - taken : Nat) : Int) - (taken' : Int)⟩

/-- A number divided by a power of ten, in so many steps of at most `10 ^ 308`; a quotient that
has reached zero stays there. -/
def divideBy10 : Nat → Float → Nat → Float
  | 0, x, _ => x
  | steps + 1, x, exponent =>
      if exponent ≤ 308 then x / Float.ofScientific 1 false exponent
      else if x == 0.0 then x
      else divideBy10 steps (x / Float.ofScientific 1 false 308) (exponent - 308)

/-- The double nearest to a scaled significand up to the rounding of one multiplication or of the
divisions by powers of ten; `none` when it lies beyond the finite doubles. -/
def Scaled.toFloat? (s : Scaled) : Option Float :=
  let x := s.significand.toUInt64.toFloat
  if s.exponent ≥ 0 then
    if s.exponent > 308 then if x == 0.0 then some x else none
    else
      let y := x * Float.ofScientific 1 false s.exponent.toNat
      if y.isInf then none else some y
  else
    -- three steps of division take every 64-bit significand to zero
    some (divideBy10 4 x (-s.exponent).toNat)

/-- The bits of the double that a numeral spells. -/
def ofDecimal? (negative : Bool) (whole fraction : List Char) (exponent : Int) : Option UInt64 :=
  (Scaled.ofDigits whole fraction exponent).toFloat?.map fun x =>
    (if negative then -x else x).toBits

end DebugBridge.Text.Double
