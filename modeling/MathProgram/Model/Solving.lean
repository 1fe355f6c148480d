import MathProgram.Model.Files

/-!
# Solving a model

Solves, conflicts and jobs. A solve that ends well leaves the model solved; that the problem is
infeasible or unbounded is no error.
-/

namespace MathProgram

/-- The members of an irreducible infeasible subsystem, with the bounds that take part. -/
structure Conflict where
  rows : List (Cons × IisBound)
  cols : List (Var × IisBound)
  deriving Repr

/-- There are no members. -/
def Conflict.isEmpty (c : Conflict) : Bool := c.rows.isEmpty && c.cols.isEmpty

/-- A submitted job as it is reported. -/
structure RemoteJob where
  id : String
  state : JobState
  modelStatus : Status
  result : Int32
  hasSolution : Bool
  deriving Repr

namespace Model

open ModelM

variable {σ : Type}

/-- Writes a summary of the last solve to the engine's log. -/
def displayResults : ModelM σ Unit := call "display_results" Engine.displayResults

/-- The text that explains a result code. -/
def explainResult (code : Int32) : ModelM σ String := do
  checkUsable
  return ResultCode.explain code

/-- The text that explains a status. -/
def explainStatus (s : Status) : ModelM σ String := do
  checkUsable
  return Status.explain s.code

/-- The members among the handles of a roster, by the engine's flags. -/
def conflictMembers {k : Kind} (kind : Kind) (flagName : String) (handles : List (Handle k)) :
    ModelM σ (List (Handle k × IisBound)) := do
  let found ← handles.mapM fun h => do
    let (code, flag) ← onEngine (Engine.intAttr flagName (some h.index))
    checkCode "compute_iis" code
    match IisBound.ofCode? flag with
    | some b => return (h, b)
    | none => throw (.invalidArgument (.iisFlag flag kind h.index))
  return found.filter fun (_, b) => b ≠ .none

/-- What is known about the problem after a number for its status. -/
def knownStatus (code : Int32) : Status := (Status.ofCode? code).getD .unknown

/-- Looks up a submitted job. A job that is finished leaves the model solved. -/
def retrieveTask (id : String) : ModelM σ RemoteJob := do
  match ← withEngine (Engine.retrieveTask id) with
  | .error code => fail "retrieve_task" code
  | .ok report =>
    match JobState.ofWord? report.state with
    | none => throw (.invalidArgument (.jobState report.state))
    | some state =>
      if state = .finished then modify fun m => { m with state := .solved }
      return ⟨id, state, knownStatus report.modelStatus, report.result, report.hasSolution⟩

section

variable [Solver σ]

/-- Solves the problem. -/
def solveProb : ModelM σ Unit := do
  let m ← get
  record .debug "solve" "Solving"
    [("num_vars", .int m.vars.length), ("num_conss", .int m.conss.length)]
  call "solve" Engine.solveProb
  modify fun m => { m with state := .solved }
  let status ← onEngine Engine.status
  record .debug "solve" "Solve finished"
    [("status", .text "success"), ("model_status", .int status.toInt)]

/-- The status of the last solve. -/
def status : ModelM σ Status := return knownStatus (← withEngine Engine.status)

/-- Finds an irreducible infeasible subsystem. -/
def computeIis : ModelM σ Conflict := do
  call "compute_iis" Engine.computeIis
  let m ← get
  let rows ← conflictMembers .constraint "RowIIS" m.conss
  let cols ← conflictMembers .variable "ColIIS" m.vars
  record .debug "compute_iis" "Computed IIS"
    [("rows", .int rows.length), ("cols", .int cols.length)]
  return ⟨rows, cols⟩

/-- Submits the problem as a job; gives the job's identifier. -/
def submitTask : ModelM σ String := do
  let job ← withEngine Engine.submitTask
  record .debug "submit_task" "Submitted job" [("job", .text job)]
  return job

end

end Model

end MathProgram
