import MathProgram.Decimal.Binary

/-!
# Decimal literals

A decimal is `± digits · 10^exponent`. `Decimal.toFloat` gives the double nearest to it, and
`Decimal.ofLiteral?` reads the literals

    [sign] digits [. [digits]] [exponent]    or    [sign] . digits [exponent]

where a sign is `+` or `-` and an exponent is `e` or `E`, an optional sign, and digits.
`integerLiteral?` reads an optionally signed run of digits.
-/

namespace MathProgram

-- Powers are `Nat.pow` and `Int.pow` themselves, not those of the monoids a file may have in scope.
attribute [local instance (2000)] instPowNat

/-- The decimal number `± digits · 10^exponent`. -/
structure Decimal where
  negative : Bool
  digits : Nat
  exponent : Int
  deriving DecidableEq, Repr

namespace Decimal

/-- The double nearest to a decimal. The two outer cases are far beyond the largest and far below
the least positive double, so no large power of ten is formed for them. -/
def toFloat (d : Decimal) : Float :=
  if d.digits = 0 then
    nearestRatio d.negative 0 1
  else if 400 < d.exponent then
    Float.ofBits (UInt64.ofNat (infinityBits + if d.negative then 2 ^ (63 : Nat) else 0))
  else if d.exponent < -(400 + (d.digits.log2 + 1 : Nat)) then
    nearestRatio d.negative 0 1
  else
    match d.exponent with
    | .ofNat k => nearestRatio d.negative (d.digits * 10 ^ k) 1
    | .negSucc k => nearestRatio d.negative d.digits (10 ^ (k + 1))

/-- The number that a run of decimal digits denotes, after the digits read before. -/
def digitsValue (before : Nat) (cs : List Char) : Nat :=
  cs.foldl (fun n c => 10 * n + (c.toNat - '0'.toNat)) before

/-- Splits a sign off: `true` for `-`, and `false` for `+` and for none. -/
def splitSign : List Char → Bool × List Char
  | '-' :: cs => (true, cs)
  | '+' :: cs => (false, cs)
  | cs => (false, cs)

/-- A nonempty run of digits that is all of the text. -/
def wholeDigits? (cs : List Char) : Option Nat :=
  if cs.isEmpty || !cs.all Char.isDigit then none else some (digitsValue 0 cs)

/-- The exponent part of a literal: nothing, or `e` and a signed run of digits. -/
def exponentPart? : List Char → Option Int
  | [] => some 0
  | c :: cs =>
    if c = 'e' || c = 'E' then
      let (negative, ds) := splitSign cs
      (wholeDigits? ds).map fun n => if negative then -(n : Int) else n
    else none

/-- The digits after the point, if there is one, and the rest. -/
def splitFraction : List Char → List Char × List Char
  | '.' :: cs => cs.span Char.isDigit
  | cs => ([], cs)

/-- Reads a decimal literal; the whole text has to be one. -/
def ofLiteral? (cs : List Char) : Option Decimal :=
  let (negative, unsigned) := splitSign cs
  let (whole, afterWhole) := unsigned.span Char.isDigit
  let (fraction, rest) := splitFraction afterWhole
  if whole.isEmpty && fraction.isEmpty then none
  else (exponentPart? rest).map fun e =>
    { negative, digits := digitsValue 0 (whole ++ fraction), exponent := e - fraction.length }

end Decimal

/-- Reads an optionally signed run of digits as a whole number. -/
def integerLiteral? (cs : List Char) : Option Int :=
  let (negative, ds) := Decimal.splitSign cs
  (Decimal.wholeDigits? ds).map fun n => if negative then -(n : Int) else n

end MathProgram
