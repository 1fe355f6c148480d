import MathProgram.Engine.Basic

/-!
# Files of an engine

Task files hold the store itself. An engine with a solver leaves problem files to the library,
unless their names end in `.json`, and solution files as long as it keeps the instance that found
the solution.
-/

namespace MathProgram.Engine

open EngineM (host)

variable {σ : Type}

/-! ## Task files -/

/-- Loads the chosen sections of a task file. -/
def loadTask (file : String) (parts : Sections) : EngineM σ Int32 := do
  match ← host (Host.findFile file) with
  | .missing => return ResultCode.fileReadError.code
  | .folder => return ResultCode.formatError.code
  | .file bytes =>
    let (r, store) := TaskFile.loadBytes bytes parts (← get).store
    modify fun e => { e with store }
    return codeOf r

/-- Saves the chosen sections in a task file. -/
def saveTask (file : String) (parts : Sections) : EngineM σ Int32 := do
  let text := (TaskFile.document (← get).store parts).render
  if ← host (Host.writeFile file (Utf8.bytes text)) then return ResultCode.okay.code
  else return ResultCode.fileWriteError.code

/-- Reads a task file. -/
def readTask (file : String) (parts : Sections) : EngineM σ Int32 :=
  guardedCode .readTask (loadTask file parts)

/-- Writes a task file. -/
def writeTask (file : String) (parts : Sections) : EngineM σ Int32 :=
  guardedCode .writeTask (saveTask file parts)

/-- The section of the problem alone. -/
def problemOnly : Sections := ⟨true, false, false⟩

/-- Saves the solution as text. -/
def saveSolution (file : String) : EngineM σ Int32 := do
  match (← get).store.solutionText with
  | .error e => return e.code
  | .ok text =>
    if ← host (Host.writeFile file (Utf8.bytes text)) then return ResultCode.okay.code
    else return ResultCode.fileWriteError.code

/-! ## Files of the solver library -/

variable [Solver σ]

/-- Destroys the instance of the last solve. -/
def releaseKeeper : EngineM σ Unit := do
  if let some h := (← get).keeper then
    host h.destroy
    modify fun e => { e with keeper := none }

/-- Puts a problem in place that the solver library has read. None is the answer if its columns
start beyond the end of its nonzeros. -/
def adopt (file : String) (f : ModelFile) : EngineM σ (Option Int32) := do
  match f.entries? with
  | none => return none
  | some entries =>
    let code ← changeStore fun s => do
      let s ← s.edit fun p => p.replaceData f.cols f.rows entries []
      return (s.setMinSense f.program.minSense).setObjConst f.program.offset
    if code == ResultCode.okay.code then
      releaseKeeper
      host <| Host.record .debug .solver "highs" "read_prob" "Read problem"
        [("file", .text file),
         ("num_cols", .int f.program.numCols),
         ("num_rows", .int f.program.numRows)]
    return some code

/-- Has a problem read by the solver library. -/
def readNative (file : String) : EngineM σ (Option Int32) := do
  match ← host (Solver.openModel file).run with
  | .error e => return some e.code
  | .ok (h, f) =>
    let code ← adopt file f
    host h.destroy
    return code

/-- The engine itself reads and writes files of this name. -/
def keepsFile (e : Engine) (file : String) : Bool :=
  match e.backend with
  | .plain => true
  | .solver => file.endsWith ".json"

/-- Reads a problem file. None is the answer if the reading had to be abandoned. -/
def readProb (file : String) : EngineM σ (Option Int32) := do
  match ← fault? .readProb with
  | some code => return some code
  | none =>
    if (← get).keepsFile file then return some (← loadTask file problemOnly)
    else readNative file

/-- Writes a problem file. -/
def writeProb (file : String) : EngineM σ Int32 :=
  guardedCode .writeProb do
    let e ← get
    if e.keepsFile file then saveTask file problemOnly
    else return codeOf (← host (Solver.writeModel e.store file).run)

/-- Writes a solution file. -/
def writeSoln (file : String) : EngineM σ Int32 :=
  guardedCode .writeSoln do
    let e ← get
    match e.store.solution.hasSolution, e.keeper with
    | true, some h => return codeOf (← host (h.writeSolution file).run)
    | _, _ => saveSolution file

end MathProgram.Engine
