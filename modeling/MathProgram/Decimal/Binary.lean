/-!
# Doubles as binary fractions

A finite double is `± m · 2^q` with whole `m` and `q`. `Binary.ofFloat` reads the three parts off
the bits, and `nearestRatio` goes the other way: it rounds a ratio of natural numbers to the
nearest double, a half to the neighbour whose significand is even. Both are exact arithmetic on
`Nat`, so what is said about them needs nothing of the arithmetic of doubles.
-/

namespace MathProgram

-- Powers are `Nat.pow` and `Int.pow` themselves, not those of the monoids a file may have in scope.
attribute [local instance (2000)] instPowNat

/-- The value of a double: not a number, an infinity, or `± m · 2^q`. -/
inductive Binary where
  | nan
  | infinite (negative : Bool)
  | finite (negative : Bool) (m : Nat) (q : Int)
  deriving DecidableEq, Repr

/-- Reads the sign, the significand and the exponent off the 64 bits of a double. -/
def Binary.ofFloat (x : Float) : Binary :=
  let bits := x.toBits.toNat
  let negative := bits / 2 ^ (63 : Nat) == 1
  let exponent : Nat := bits / 2 ^ (52 : Nat) % 2 ^ (11 : Nat)
  let fraction := bits % 2 ^ (52 : Nat)
  if exponent = 2047 then
    if fraction = 0 then .infinite negative else .nan
  else if exponent = 0 then
    .finite negative fraction (-1074)
  else
    .finite negative (2 ^ (52 : Nat) + fraction) ((exponent : Int) - 1075)

/-- The quotient `num / den` rounded to a whole number, a half to the even neighbour. -/
def roundHalfEven (num den : Nat) : Nat :=
  let q := num / den
  let r := num % den
  if 2 * r < den then q else if den < 2 * r then q + 1 else q + q % 2

/-- `num · 2^k / den` as a pair of natural numbers, for a shift `k` of either sign. -/
def scaleRatio (num den : Nat) : Int → Nat × Nat
  | .ofNat k => (num * 2 ^ k, den)
  | .negSucc k => (num, den * 2 ^ (k + 1))

/-- The largest `e` with `2^e ≤ num / den`, for positive `num` and `den`. -/
def ratioLog2 (num den : Nat) : Int :=
  let e : Int := num.log2 - den.log2
  let (n, d) := scaleRatio num den (-e)
  if d ≤ n then e else e - 1

/-- The bits of positive infinity, the least bits that no finite double has. -/
def infinityBits : Nat := 2047 * 2 ^ (52 : Nat)

/-- The bits of the nonnegative double nearest to `num / den`. The unit in the last place is
`2^q`; a significand that rounds up to `2^53` carries into the exponent field by itself. -/
def nearestBits (num den : Nat) : Nat :=
  if num = 0 then 0
  else
    let q := max (ratioLog2 num den - 52) (-1074)
    let (n, d) := scaleRatio num den (-q)
    min ((q + 1074).toNat * 2 ^ (52 : Nat) + roundHalfEven n d) infinityBits

/-- The double nearest to `± num / den`; from the largest double on it is an infinity. -/
def nearestRatio (negative : Bool) (num den : Nat) : Float :=
  Float.ofBits (UInt64.ofNat (nearestBits num den + if negative then 2 ^ (63 : Nat) else 0))

end MathProgram
