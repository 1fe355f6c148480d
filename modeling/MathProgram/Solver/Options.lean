import MathProgram.Bound
import MathProgram.Config
import MathProgram.Solver.Instance

/-!
# Options of the solver library

The parameters of a store as options of an instance. A parameter without a value of its type, or
with a value that leaves the choice to the library, sets no option. `configured` creates an
instance with all options set and `loaded` one that holds a whole problem as well.
-/

namespace MathProgram.Solver

/-- The option that a parameter's value stands for, if the value is there and is to be passed. -/
def setting {α : Type} (value : Option α) (option : String) (wrap : α → OptionValue)
    (passed : α → Bool) : List (String × OptionValue) :=
  match value with
  | some v => if passed v then [(option, wrap v)] else []
  | none => []

/-- Every value is passed. -/
def always {α : Type} (_ : α) : Bool := true

/-- The options for the limits and tolerances. -/
def limits (t : ParamTable) : List (String × OptionValue) :=
  setting (t.real? Param.maxTime) "time_limit" .real (· < infinity)
    ++ setting (t.real? Param.mipGapRel) "mip_rel_gap" .real always
    ++ setting (t.real? Param.mipGapAbs) "mip_abs_gap" .real always
    ++ setting (t.real? Param.spxPrimalTolerance) "primal_feasibility_tolerance" .real always
    ++ setting (t.real? Param.spxDualTolerance) "dual_feasibility_tolerance" .real always
    ++ setting (t.real? Param.ipmGapTolerance) "ipm_optimality_tolerance" .real always
    ++ setting (t.real? Param.mipIntegerTolerance) "mip_feasibility_tolerance" .real always
    ++ setting (t.int? Param.numThreads) "threads" .int (0 < ·)
    ++ setting (t.int? Param.spxMaxIterations) "simplex_iteration_limit" .int always
    ++ setting (t.int? Param.ipmMaxIterations) "ipm_iteration_limit" .int always
    ++ setting (t.int? Param.mipMaxNodes) "mip_max_nodes" .int (0 ≤ ·)
    ++ setting (t.int? Param.presolve) "presolve"
        (fun n => .text (if n == 0 then "off" else "on")) (· != -1)

/-- The options for the method, if the method is known. -/
def methodSettings? (t : ParamTable) : Option (List (String × OptionValue)) :=
  match t.int? Param.method with
  | none => some []
  | some n =>
    if n == Method.auto.code then some []
    else if n == Method.primalSimplex.code then
      some [("solver", .text "simplex"), ("simplex_strategy", .int 4)]
    else if n == Method.dualSimplex.code then
      some [("solver", .text "simplex"), ("simplex_strategy", .int 1)]
    else if n == Method.interiorPoint.code then some [("solver", .text "ipm")]
    else none

section

open SolverM (host)

variable {σ : Type} [Solver σ]

/-- Sets the options for the parameters. All other options are set before an unknown method is
refused. -/
def applyParams (h : InstanceId) (t : ParamTable) : SolverM σ Unit := do
  host (h.setOptions (limits t))
  match methodSettings? t with
  | some settings => host (h.setOptions settings)
  | none => throw .abortInvalidMethod

/-- A new instance with the options of a store. -/
def configured (s : Store) : SolverM σ InstanceId := do
  match ← host InstanceId.create? with
  | none => throw .noMemory
  | some h =>
    h.destroyedOnFailure do
      host (h.setOutput s.log.toConsole)
      applyParams h s.params
      return h

/-- A new instance with the options and the problem of a store. -/
def loaded (s : Store) : SolverM σ InstanceId := do
  let h ← configured s
  h.destroyedOnFailure do
    h.passProgram (.ofProblem s.problem)
    if s.problem.hasQuadratic then h.passHessian (.ofProblem s.problem)
    host (h.passAllNames s.problem)
    return h

end

end MathProgram.Solver
