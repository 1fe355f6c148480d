import MathProgram.Param
import MathProgram.Problem
import MathProgram.Solution

/-!
# The store

What an engine keeps: the problem, its parameters, the last solution and the last infeasible
subsystem found, the jobs submitted, and where its log goes. A change of the problem through the
operations below discards the solution and the infeasible subsystem; `setName`, `setMinSense` and
`setObjConst` do not.
-/

namespace MathProgram

/-- Where log messages go. -/
structure LogSink where
  toConsole : Bool := false
  /-- The file that messages are appended to. -/
  file : Option String := none
  /-- The callback that gets messages, by the tag it puts before them. -/
  callback : Option String := none
  deriving DecidableEq, Repr, Inhabited

/-- What an engine keeps. -/
structure Store where
  problem : Problem
  params : ParamTable
  solution : Solution
  iis : Option IisFlags
  jobs : List Job
  log : LogSink
  deriving Repr

namespace Store

/-- The store of an empty problem. -/
def empty (name : Option String) : Store where
  problem := .empty (name.getD "")
  params := .defaults
  solution := {}
  iis := none
  jobs := []
  log := {}

instance : Inhabited Store := ⟨empty none⟩

/-- The number of columns. -/
def numCols (s : Store) : Nat := s.problem.numCols

/-- The number of rows. -/
def numRows (s : Store) : Nat := s.problem.numRows

/-- Discards the solution and the infeasible subsystem. -/
def invalidate (s : Store) : Store := { s with solution := {}, iis := none }

/-- Puts a changed problem in place and discards what was found for the old one. -/
def withProblem (s : Store) (p : Problem) : Store := { s with problem := p }.invalidate

/-- The store after an operation on the problem, if the operation succeeds. -/
def edit (s : Store) (f : Problem → Except ResultCode Problem) : Except ResultCode Store :=
  (f s.problem).map s.withProblem

/-- Changes the name of the problem. -/
def setName (s : Store) (name : String) : Store := { s with problem := { s.problem with name } }

/-- Changes the sense of the objective. -/
def setMinSense (s : Store) (minSense : Bool) : Store :=
  { s with problem := { s.problem with minSense } }

/-- Changes the constant of the objective. -/
def setObjConst (s : Store) (objConst : Float) : Store :=
  { s with problem := { s.problem with objConst } }

/-- Puts a solution in place. -/
def setSolution (s : Store) (solution : Solution) : Store := { s with solution }

/-- Puts an infeasible subsystem in place. -/
def setIis (s : Store) (rows cols : List Int32) : Store := { s with iis := some ⟨rows, cols⟩ }

/-! ## Parameters -/

/-- Sets a parameter. -/
def setParam (s : Store) (name : String) (v : ParamValue) : Except ResultCode Store :=
  (s.params.set name v).map fun params => { s with params }

/-! ## Jobs -/

/-- Records the outcome of a job that ended with a result code; gives its identifier. -/
def recordJob (s : Store) (result : Int32) : String × Store :=
  let id := Job.idOf (s.jobs.length + 1)
  let job : Job :=
    { id
      state := if result == 0 then .finished else .failed
      modelStatus := s.solution.status
      result
      hasSolution := s.solution.hasSolution }
  (id, { s with jobs := s.jobs ++ [job] })

/-- The record of a job. -/
def job? (s : Store) (id : String) : Except ResultCode Job :=
  match s.jobs.find? (·.id == id) with
  | some job => .ok job
  | none => .error .remoteInvalidToken

end Store

end MathProgram
