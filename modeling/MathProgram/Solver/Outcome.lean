import MathProgram.Solver.Options

/-!
# Outcomes of a run

What the store keeps of a run of the solver library. `SolverStatus` is the library's word on the
problem, which gives the status and the result code; the values, the bases and the statistics are
collected from an instance that has run.
-/

namespace MathProgram

/-- The statuses of a problem that a solver library distinguishes here. -/
inductive SolverStatus where
  | modelError
  | modelEmpty
  | optimal
  | infeasible
  | unboundedOrInfeasible
  | unbounded
  | timeLimit
  | iterationLimit
  | interrupt
  deriving DecidableEq, Repr

namespace SolverStatus

/-- The number of a status. -/
def code : SolverStatus → Int32
  | modelError => 2
  | modelEmpty => 6
  | optimal => 7
  | infeasible => 8
  | unboundedOrInfeasible => 9
  | unbounded => 10
  | timeLimit => 13
  | iterationLimit => 14
  | interrupt => 17

/-- The status of a number. -/
def ofCode? (n : Int32) : Option SolverStatus :=
  [modelError, modelEmpty, optimal, infeasible, unboundedOrInfeasible, unbounded, timeLimit,
   iterationLimit, interrupt].find? fun s => s.code == n

/-- The status and the result code of a solve. Where the library stopped early, a feasible point
makes the difference. -/
def outcome (s : Option SolverStatus) (feasible : Bool) : Status × ResultCode :=
  let partly := if feasible then Status.subOptimal else .unknown
  match s with
  | some optimal | some modelEmpty => (.optimal, .okay)
  | some infeasible => (.infeasible, .okay)
  | some unboundedOrInfeasible => (.infeasibleOrUnbounded, .okay)
  | some unbounded => (.unbounded, .okay)
  | some timeLimit => (partly, .abortTimeLimit)
  | some iterationLimit => (partly, .abortIterationLimit)
  | some interrupt => (partly, .abortCtrlC)
  | some modelError => (.unknown, .modelInputError)
  | none => (partly, .okay)

end SolverStatus

/-- The basis status for a number of the solver library, of a column or row with the given bounds.
-/
def BasisStatus.ofSolver (n : Int32) (lower upper : Float) : BasisStatus :=
  if n == 1 then basic
  else if n == 0 then if lower == upper then isFixed else atLower
  else if n == 2 then if lower == upper then isFixed else atUpper
  else if n == 3 then isFree
  else superBasic

namespace Solver

variable {σ : Type} [Solver σ]

/-- The solution of a problem without columns and rows of interest: all zero. -/
def emptySolution (p : Problem) (status : Status) : Solution :=
  { status
    hasSolution := true
    primal := List.replicate p.numCols 0
    reducedCost := p.cols.map (·.obj)
    activity := List.replicate p.numRows 0
    dual := List.replicate p.numRows 0
    primalObjective := p.objConst
    dualObjective := p.objConst }

/-- The values of a solution, if there is a feasible one and the library gives it out. Problems with
integers have no dual values. -/
def withValues (h : InstanceId) (p : Problem) (sol : Solution) : HostM σ Solution := do
  if !(← h.hasFeasible "primal_solution_status") then return sol
  match ← h.solution? p.numCols p.numRows with
  | none => return sol
  | some raw =>
    let primalObjective ← h.objective
    let duals ← if p.hasIntegers then pure false else h.hasFeasible "dual_solution_status"
    return { sol with
      hasSolution := true
      primalObjective
      primal := raw.colValue
      activity := raw.rowValue
      reducedCost := if duals then raw.colDual else List.replicate p.numCols 0
      dual := if duals then raw.rowDual else List.replicate p.numRows 0 }

/-- The bound and the gaps of a problem with integers. -/
def withGaps (h : InstanceId) (sol : Solution) : HostM σ Solution := do
  let bound := (← h.realInfo? "mip_dual_bound").getD sol.primalObjective
  return { sol with
    dualObjective := bound
    mipGapAbs := (sol.primalObjective - bound).abs
    mipGapRel := (← h.realInfo? "mip_gap").getD 0 }

/-- The dual objective and the bases of a problem without integers. -/
def withBases (h : InstanceId) (p : Problem) (sol : Solution) : HostM σ Solution := do
  let sol := { sol with dualObjective := sol.primalObjective }
  match ← h.basis? p.numCols p.numRows with
  | none => return sol
  | some (cols, rows) =>
    return { sol with
      colBasis := (cols.zip p.cols).map fun (n, c) => (BasisStatus.ofSolver n c.lb c.ub).code
      rowBasis := (rows.zip p.rows).map fun (n, r) => (BasisStatus.ofSolver n r.lhs r.rhs).code }

/-- The statistics of a run. -/
def withStats (h : InstanceId) (sol : Solution) : HostM σ Solution := do
  let time ← h.runTime
  return { sol with
    stats := some
      { spxIterations := (← h.intInfo? "simplex_iteration_count").getD 0
        ipmIterations := (← h.intInfo? "ipm_iteration_count").getD 0
        solutionTime := time
        presolverTime := 0
        solverTime := time } }

/-- The result code and the solution of an instance that has run. -/
def collect (h : InstanceId) (p : Problem) (modelStatus : Int32) :
    HostM σ (ResultCode × Solution) := do
  let solverStatus := SolverStatus.ofCode? modelStatus
  let feasible ← h.hasFeasible "primal_solution_status"
  let (status, code) := SolverStatus.outcome solverStatus feasible
  let sol ←
    if solverStatus = some .modelEmpty then pure (emptySolution p status)
    else withValues h p { status }
  let sol ←
    if p.hasIntegers then withGaps h sol
    else if sol.hasSolution then withBases h p sol
    else pure sol
  let sol ← withStats h sol
  Host.record .debug .solver "highs" "solve" "HiGHS finished"
    [("status", .text "success"),
     ("model_status", .int modelStatus.toInt),
     ("has_solution", .bool sol.hasSolution),
     ("objective", .real sol.primalObjective)]
  return (code, sol)

/-- The outcome of a solve: the result code, the solution, and the instance, which is kept. -/
structure Solved where
  code : ResultCode
  solution : Solution
  keeper : InstanceId

/-- Passes a problem to the library and runs it. -/
def solve (s : Store) : SolverM σ Solved := do
  let h ← loaded s
  h.destroyedOnFailure <| ExceptT.mk do
    Host.record .debug .solver "highs" "solve" "Starting HiGHS"
      [("num_cols", .int s.numCols),
       ("num_rows", .int s.numRows),
       ("mip", .bool s.problem.hasIntegers),
       ("qp", .bool s.problem.hasQuadratic)]
    if ← h.run then
      let modelStatus ← h.modelStatus
      let (code, solution) ← collect h s.problem modelStatus
      s.log.write ("HiGHS finished with model status " ++ toString modelStatus.toInt ++ " ("
        ++ solution.status.name ++ ")\n")
      return .ok ⟨code, solution, h⟩
    else
      Host.record .warn .solver "highs" "solve" "Highs_run failed" [("status", .text "error")]
      s.log.write "HiGHS returned an error\n"
      return .error .error

end Solver

end MathProgram
