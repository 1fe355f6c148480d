import MathProgram.Code.Status

/-!
# Solutions and jobs

What an engine keeps of its last solve, and what it keeps of a submitted job.
-/

namespace MathProgram

/-- Counts and times of a solve. -/
structure SolveStats where
  spxIterations : Int32
  ipmIterations : Int32
  solutionTime : Float
  presolverTime : Float
  solverTime : Float
  deriving Repr

/-- The result of a solve. -/
structure Solution where
  status : Status := .unknown
  hasSolution : Bool := false
  hasPrimalRay : Bool := false
  hasDualRay : Bool := false
  /-- Values of the columns. -/
  primal : List Float := []
  /-- Reduced costs of the columns. -/
  reducedCost : List Float := []
  /-- Values of the rows. -/
  activity : List Float := []
  /-- Dual values of the rows. -/
  dual : List Float := []
  colBasis : List Int32 := []
  rowBasis : List Int32 := []
  primalObjective : Float := 0
  dualObjective : Float := 0
  mipGapAbs : Float := 0
  mipGapRel : Float := 0
  /-- Nothing as long as no solve was attempted. -/
  stats : Option SolveStats := none
  deriving Repr, Inhabited

/-- The memberships of rows and of columns in an irreducible infeasible subsystem, as numbers. -/
structure IisFlags where
  rows : List Int32
  cols : List Int32
  deriving DecidableEq, Repr

/-- The record of a submitted job. -/
structure Job where
  id : String
  state : JobState
  modelStatus : Status
  /-- The result code of the solve. -/
  result : Int32
  hasSolution : Bool
  deriving DecidableEq, Repr

/-- The identifier of the `n`-th job: the number in six places at least. -/
def Job.idOf (n : Nat) : String :=
  let digits := Nat.toDigits 10 n
  "job-" ++ String.ofList (List.replicate (6 - digits.length) '0' ++ digits)

end MathProgram
