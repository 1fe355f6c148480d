import MathProgram.Decimal.Literal

/-!
# The shortest decimal that reads back

Every double owns the interval of reals that round to it; its ends belong to it exactly when the
significand is even. Of the decimals in the interval `shortest` takes one with the fewest digits,
of two such neighbours of the value the nearer, and on a tie the larger.

`Float.scientific` writes it with one digit before the point and a bare exponent (`1.5e0`,
`-2.5e-7`, `1e20`), and `Float.fixed` writes a given number of places, a half to the even digit.
-/

namespace MathProgram

-- Powers are `Nat.pow` and `Int.pow` themselves, not those of the monoids a file may have in scope.
attribute [local instance (2000)] instPowNat

/-- The interval of a positive double `m · 2^q` in quarters of its unit in the last place: the
lower end, the value and the upper end. Below a power of two the neighbour is half as far. -/
structure Interval where
  low : Nat
  value : Nat
  high : Nat
  /-- Both ends round to the double as well. -/
  closed : Bool
  /-- The unit is `2^shift`. -/
  shift : Int

/-- The interval of `m · 2^q`. -/
def Interval.around (m : Nat) (q : Int) : Interval where
  low := 4 * m - if m = 2 ^ (52 : Nat) then 1 else 2
  value := 4 * m
  high := 4 * m + 2
  closed := m % 2 == 0
  shift := q - 2

/-- `n · 10^e / d` as a pair of natural numbers, for an exponent of either sign. -/
def scaleTen (n d : Nat) : Int → Nat × Nat
  | .ofNat k => (n * 10 ^ k, d)
  | .negSucc k => (n, d * 10 ^ (k + 1))

/-- The largest `e` with `10^e ≤ num / den`. The estimate from the binary logarithm is off by at
most one. -/
def ratioLog10 (num den : Nat) : Int :=
  let estimate := (ratioLog2 num den * 30103).fdiv 100000
  let atLeast (e : Int) : Bool := let (n, d) := scaleTen num den (-e); d ≤ n
  if !atLeast estimate then estimate - 1
  else if atLeast (estimate + 1) then estimate + 1
  else estimate

/-- The two decimals next to the value on the grid of multiples of `10^e`, or the one of them
that lies in the interval, or none. -/
def Interval.onGrid? (i : Interval) (e : Int) : Option Decimal :=
  let ratio (n : Nat) : Nat × Nat :=
    let (a, b) := scaleRatio n 1 i.shift
    scaleTen a b (-e)
  let (v, d) := ratio i.value
  let (l, _) := ratio i.low
  let (h, _) := ratio i.high
  let below := v / d
  let inside (a b : Nat) : Bool := if i.closed then a ≤ b else a < b
  let lowerFits := inside l (below * d)
  let upperFits := inside ((below + 1) * d) h
  if upperFits && (!lowerFits || d ≤ 2 * (v % d)) then some ⟨false, below + 1, e⟩
  else if lowerFits then some ⟨false, below, e⟩
  else none

/-- The decimal of `m · 2^q`, `m` positive, with the fewest digits that reads back. Seventeen
digits always do. -/
def shortest (m : Nat) (q : Int) : Decimal :=
  let i := Interval.around m q
  let (v, d) := scaleRatio i.value 1 i.shift
  let top := ratioLog10 v d
  ((List.range 17).findSome? fun (n : Nat) => i.onGrid? (top - n)).getD ⟨false, 0, 0⟩

/-- Drops the zeros at the end of a run of digits. -/
def dropTrailingZeros (cs : List Char) : List Char :=
  (cs.reverse.dropWhile (· == '0')).reverse

/-- A decimal with one digit before the point and a bare exponent. -/
def Decimal.scientific (d : Decimal) : String :=
  let all := (Nat.toDigits 10 d.digits)
  let shown := dropTrailingZeros all
  let mantissa := match shown with
    | [] => ['0']
    | [c] => [c]
    | c :: cs => c :: '.' :: cs
  let exponent : Int := if shown.isEmpty then 0 else d.exponent + (all.length - 1 : Nat)
  (if d.negative then "-" else "") ++ String.ofList mantissa ++ "e" ++ toString exponent

/-- A double in scientific notation with the fewest digits that read back. -/
def Float.scientific (x : Float) : String :=
  match Binary.ofFloat x with
  | .nan => "NaN"
  | .infinite negative => if negative then "-inf" else "inf"
  | .finite negative m q =>
    Decimal.scientific (if m = 0 then ⟨negative, 0, 0⟩ else { shortest m q with negative })

/-- A double with `places` digits after the point, a half to the even digit. -/
def Float.fixed (places : Nat) (x : Float) : String :=
  match Binary.ofFloat x with
  | .nan => "NaN"
  | .infinite negative => if negative then "-inf" else "inf"
  | .finite negative m q =>
    let (n, d) := scaleRatio (m * 10 ^ places) 1 q
    let digits := Nat.toDigits 10 (roundHalfEven n d)
    let padded := List.replicate (places + 1 - digits.length) '0' ++ digits
    let (whole, fraction) := padded.splitAt (padded.length - places)
    (if negative then "-" else "") ++ String.ofList whole ++ "." ++ String.ofList fraction

end MathProgram
