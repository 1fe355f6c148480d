import MathProgram.Engine.Files

/-!
# Solving

Solves, conflict searches and jobs. A job is a solve whose outcome is recorded in the store. Where
the script of the host has an outcome for a scripted engine, the engine takes it as its own.
-/

namespace MathProgram.Engine

open EngineM (host)

variable {σ : Type} [Solver σ]

/-- Solves the problem with the solver library. -/
def solveNative : EngineM σ Int32 := do
  let p := (← get).store.problem
  if p.hasQuadratic && p.hasIntegers then
    log "HiGHS does not support quadratic objectives with integer variables\n"
    return ResultCode.abortSolverNotAvailable.code
  modify fun e => { e with store := e.store.invalidate }
  releaseKeeper
  match ← host (Solver.solve (← get).store).run with
  | .error e => return e.code
  | .ok solved =>
    modify fun e =>
      { e with store := e.store.setSolution solved.solution, keeper := some solved.keeper }
    return solved.code.code

/-- Solves the problem without regard to the script. -/
def solveOwn : EngineM σ Int32 := do
  match (← get).backend with
  | .plain =>
    log "No solver available in dummy backend\n"
    return ResultCode.abortSolverNotAvailable.code
  | .solver => solveNative

/-- Solves the problem. -/
def solveProb : EngineM σ Int32 := do
  let prescribed ← if (← get).scripted then host Host.nextSolve? else pure none
  match prescribed with
  | none => solveOwn
  | some o =>
    if let some sol := o.solution then
      modify fun e => { e with store := e.store.setSolution sol }
    return o.code

/-- Finds an irreducible infeasible subsystem without regard to the script. -/
def conflictOwn : EngineM σ Int32 := do
  match (← get).backend with
  | .plain => return ResultCode.abortSolverNotAvailable.code
  | .solver =>
    match ← host (Solver.conflict (← get).store).run with
    | .error e => return e.code
    | .ok flags =>
      modify fun e => { e with store := e.store.setIis flags.rows flags.cols }
      return ResultCode.okay.code

/-- Finds an irreducible infeasible subsystem. -/
def computeIis : EngineM σ Int32 := do
  let prescribed ← if (← get).scripted then host Host.nextConflict? else pure none
  match prescribed with
  | none => conflictOwn
  | some o =>
    if let some flags := o.flags then
      modify fun e => { e with store := e.store.setIis flags.rows flags.cols }
    return o.code

/-- The number of the status. -/
def status : EngineM σ Int32 := do
  let e ← get
  let prescribed := (← host get).script.status
  match e.scripted, prescribed with
  | true, some code => return code
  | _, _ => return e.store.solution.status.code

/-- Solves the problem as a job; gives the job's identifier. -/
def submitTask : EngineM σ String := do
  let code ← solveProb
  modifyGet fun e =>
    let (id, store) := e.store.recordJob code
    (id, { e with store })

/-- What an engine reports of a job. -/
structure JobReport where
  state : String
  modelStatus : Int32
  result : Int32
  hasSolution : Bool

/-- Looks up a job. -/
def retrieveTask (id : String) : EngineM σ (Except Int32 JobReport) := do
  let e ← get
  let script := (← host get).script
  match e.store.job? id with
  | .error c => return .error c.code
  | .ok job =>
    let prescribed {α : Type} (o : Option α) (own : α) : α :=
      if e.scripted then o.getD own else own
    return .ok
      { state := prescribed script.jobState job.state.word
        modelStatus := prescribed script.jobStatus job.modelStatus.code
        result := job.result
        hasSolution := job.hasSolution }

/-- Gives up what the engine holds of the solver library. -/
def free : EngineM σ Unit := releaseKeeper

end MathProgram.Engine
