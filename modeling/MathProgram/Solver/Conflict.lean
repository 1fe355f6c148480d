import MathProgram.Solver.Outcome

/-!
# Conflicts

Finding an irreducible infeasible subsystem by trying out bounds. The finite bounds are relaxed one
after the other, those of columns first; a bound stays relaxed if the problem stays infeasible, and
belongs to the subsystem otherwise. The objective plays no part.
-/

namespace MathProgram

/-- A bound of a column or a row. -/
inductive BoundRef where
  | colLower (j : Nat)
  | colUpper (j : Nat)
  | rowLower (i : Nat)
  | rowUpper (i : Nat)
  deriving DecidableEq, Repr

namespace LinearProgram

/-- The program without a bound. -/
def relax (lp : LinearProgram) : BoundRef → LinearProgram
  | .colLower j => { lp with lower := lp.lower.set j (-1.0 / 0.0) }
  | .colUpper j => { lp with upper := lp.upper.set j (1.0 / 0.0) }
  | .rowLower i => { lp with rowLower := lp.rowLower.set i (-1.0 / 0.0) }
  | .rowUpper i => { lp with rowUpper := lp.rowUpper.set i (1.0 / 0.0) }

/-- The finite bounds among pairs of bounds, in order. -/
def finiteBounds (lowers uppers : List Float) (lower upper : Nat → BoundRef) : List BoundRef :=
  (lowers.zip uppers).zipIdx.flatMap fun ((l, u), k) =>
    (if l.isFinite then [lower k] else []) ++ (if u.isFinite then [upper k] else [])

/-- The bounds that are tried out. -/
def candidates (lp : LinearProgram) : List BoundRef :=
  finiteBounds lp.lower lp.upper .colLower .colUpper
    ++ finiteBounds lp.rowLower lp.rowUpper .rowLower .rowUpper

/-- The program with the objective zero. -/
def withoutObjective (lp : LinearProgram) : LinearProgram :=
  { lp with cost := lp.cost.map fun _ => 0, offset := 0 }

end LinearProgram

namespace Conflict

/-- Tries out bounds in order, given what decides whether a program is infeasible; the result lists
those that have to stay. -/
def keptBounds {m : Type → Type} [Monad m] (infeasible : LinearProgram → m Bool)
    (lp : LinearProgram) : List BoundRef → m (List BoundRef)
  | [] => return []
  | b :: bs => do
    if ← infeasible (lp.relax b) then keptBounds infeasible (lp.relax b) bs
    else return b :: (← keptBounds infeasible lp bs)

/-- The bounds of an irreducible infeasible subsystem; none if the program is feasible. -/
def find? {m : Type → Type} [Monad m] (infeasible : LinearProgram → m Bool) (lp : LinearProgram) :
    m (Option (List BoundRef)) := do
  if ← infeasible lp then return some (← keptBounds infeasible lp lp.candidates)
  else return none

/-- The memberships of rows and columns, given the bounds that have to stay. -/
def flags (lp : LinearProgram) (kept : List BoundRef) : IisFlags :=
  { rows := (List.range lp.numRows).map fun i =>
      (IisBound.ofSides (kept.contains (.rowLower i)) (kept.contains (.rowUpper i))).code
    cols := (List.range lp.numCols).map fun j =>
      (IisBound.ofSides (kept.contains (.colLower j)) (kept.contains (.colUpper j))).code }

end Conflict

namespace Solver

open SolverM (host)

variable {σ : Type} [Solver σ]

/-- Asks the library whether a linear program is infeasible, with the options of a store. -/
def infeasible (s : Store) (lp : LinearProgram) : SolverM σ Bool := do
  let h ← configured s
  h.destroyedAfter do
    host (h.setOutput false)
    h.passProgram lp
    if !(← host h.run) then throw .error
    match SolverStatus.ofCode? (← host h.modelStatus) with
    | some .infeasible | some .unboundedOrInfeasible => return true
    | some .optimal | some .modelEmpty | some .unbounded => return false
    | some .timeLimit => throw .abortTimeLimit
    | some .iterationLimit => throw .abortIterationLimit
    | _ => throw .error

/-- How many of some memberships are not empty. -/
def members (flags : List Int32) : Nat := flags.countP (· != 0)

/-- Finds the memberships in an irreducible infeasible subsystem of the problem of a store. -/
def conflict (s : Store) : SolverM σ IisFlags := do
  let lp := (LinearProgram.ofProblem s.problem).withoutObjective
  match ← Conflict.find? (infeasible s) lp with
  | none =>
    host <| Host.record .debug .solverIis "highs" "compute_iis"
      "Problem is feasible, IIS is empty" []
    return Conflict.flags lp []
  | some kept =>
    let flags := Conflict.flags lp kept
    host <| Host.record .debug .solverIis "highs" "compute_iis" "Deletion filter finished"
      [("candidates", .int lp.candidates.length),
       ("solves", .int (1 + lp.candidates.length : Nat)),
       ("rows", .int (members flags.rows)),
       ("cols", .int (members flags.cols))]
    return flags

end Solver

end MathProgram
