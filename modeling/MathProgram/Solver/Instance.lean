import MathProgram.Host
import MathProgram.Text.Utf8

/-!
# Instances of a solver library

Calls on one instance, each with its event. An answer with a return code becomes an option or a
result here: a failed one gives nothing. Lists in answers are brought to the length that was asked
for. Names that contain a NUL character cannot be passed on.
-/

namespace MathProgram

/-- A computation with a solver library, which may fail with a result code. -/
abbrev SolverM (σ : Type) := ExceptT ResultCode (HostM σ)

/-- A computation on the host, as one with a solver library that does not fail. -/
def SolverM.host {σ α : Type} (act : HostM σ α) : SolverM σ α := ExceptT.lift act

namespace InstanceId

variable {σ : Type} [Solver σ]

/-- The return code of failure. -/
def failure : Int32 := -1

/-- Creates an instance, if the library can. -/
def create? : HostM σ (Option InstanceId) := do
  let h := (← get).instances
  let created : Bool ← Host.askUnrecorded (.create h)
  if created then
    modify fun s => { s with instances := h + 1, requests := s.requests.push (.create h) }
    Host.record .trace .solverLink "highs" "create" "Created HiGHS instance" []
    return some h
  else
    Host.record .warn .solverLink "highs" "create" "Highs_create returned null"
      [("status", .text "error")]
    return none

/-- Destroys an instance. -/
def destroy (h : InstanceId) : HostM σ Unit := do
  Host.record .trace .solverLink "highs" "destroy" "Destroying HiGHS instance" []
  Host.ask (.destroy h)

/-- Goes on with an instance, which is destroyed if that fails. -/
def destroyedOnFailure {α : Type} (h : InstanceId) (body : SolverM σ α) : SolverM σ α :=
  ExceptT.mk do
    match ← body.run with
    | .ok a => return .ok a
    | .error e =>
      h.destroy
      return .error e

/-- Goes on with an instance, which is destroyed after that in any case. -/
def destroyedAfter {α : Type} (h : InstanceId) (body : SolverM σ α) : SolverM σ α :=
  ExceptT.mk do
    let r ← body.run
    h.destroy
    return r

/-! ## Input -/

/-- Sets an option. A failure is recorded and has no other effect. -/
def setOption (h : InstanceId) (name : String) (value : OptionValue) : HostM σ Unit := do
  let code : Int32 ← Host.ask (.setOption h name value)
  if code == failure then
    Host.record .warn .solverLink "highs" "set_option" "Failed to set option"
      [("status", .text "error"), ("option", .text name)]

/-- Sets several options in order. -/
def setOptions (h : InstanceId) (settings : List (String × OptionValue)) : HostM σ Unit :=
  settings.forM fun (name, value) => h.setOption name value

/-- Switches the output of an instance on or off. -/
def setOutput (h : InstanceId) (on : Bool) : HostM σ Unit :=
  h.setOptions [("output_flag", .bool on), ("log_to_console", .bool on)]

/-- A request with a return code; failure becomes the result code given. -/
def orFail (e : ResultCode) (request : HostM σ Int32) : SolverM σ Unit := do
  if (← SolverM.host request) == failure then throw e

/-- Passes a linear program. -/
def passProgram (h : InstanceId) (lp : LinearProgram) : SolverM σ Unit :=
  orFail .modelInputError do
    Host.record .debug .solverLink "highs" "pass_model" "Passing model to HiGHS"
      [("num_cols", .int (Int32.ofNat lp.numCols).toInt),
       ("num_rows", .int (Int32.ofNat lp.numRows).toInt),
       ("num_nz", .int (Int32.ofNat lp.numNonzeros).toInt),
       ("mip", .bool lp.integrality.isSome)]
    Host.ask (.passProgram h lp)

/-- Passes a quadratic form. -/
def passHessian (h : InstanceId) (q : Hessian) : SolverM σ Unit :=
  orFail .modelInputError do
    Host.record .trace .solverLink "highs" "pass_hessian" "Passing Hessian"
      [("num_nz", .int q.values.length)]
    Host.ask (.passHessian h q)

/-- The text can be passed on. -/
def passable (s : String) : Bool := !s.contains '\x00'

/-- Passes names by a request; what has none keeps the library's. -/
def passNames (names : List (Option String)) (request : Int32 → String → HostM σ Unit) :
    HostM σ Unit :=
  names.zipIdx.forM fun (name, i) =>
    match name with
    | some name => if passable name then request (Int32.ofNat i) name else pure ()
    | none => pure ()

/-- Passes the names of columns and rows. -/
def passAllNames (h : InstanceId) (p : Problem) : HostM σ Unit := do
  passNames (p.cols.map (·.name)) fun i name => Host.ask (.passColName h i name)
  passNames (p.rows.map (·.name)) fun i name => Host.ask (.passRowName h i name)

/-! ## Results -/

/-- Runs the solver, and says whether that worked. -/
def run (h : InstanceId) : HostM σ Bool := do
  let code : Int32 ← Host.ask (.run h)
  return code != failure

/-- The status of the problem. -/
def modelStatus (h : InstanceId) : HostM σ Int32 := Host.ask (.modelStatus h)

/-- The objective value. -/
def objective (h : InstanceId) : HostM σ Float := Host.ask (.objective h)

/-- The time the run took. -/
def runTime (h : InstanceId) : HostM σ Float := Host.ask (.runTime h)

/-- A whole number by its name, if it is available. -/
def intInfo? (h : InstanceId) (name : String) : HostM σ (Option Int32) := do
  let (code, value) : Int32 × Int32 ← Host.ask (.intInfo h name)
  return if code == 0 then some value else none

/-- A real number by its name, if it is available. -/
def realInfo? (h : InstanceId) (name : String) : HostM σ (Option Float) := do
  let (code, value) : Int32 × Float ← Host.ask (.realInfo h name)
  return if code == 0 then some value else none

/-- Some kind of solution is there and feasible. -/
def hasFeasible (h : InstanceId) (kind : String) : HostM σ Bool := do
  return (← h.intInfo? kind) == some 2

/-- The values of `n` columns and `m` rows. -/
def solution? (h : InstanceId) (n m : Nat) : HostM σ (Option RawSolution) := do
  let (code, raw) : Int32 × RawSolution ← Host.ask (.solution h)
  return if code == failure then none
    else some
      { colValue := resized n 0 raw.colValue
        colDual := resized n 0 raw.colDual
        rowValue := resized m 0 raw.rowValue
        rowDual := resized m 0 raw.rowDual }

/-- The basis statuses of `n` columns and `m` rows, if there is a valid basis. -/
def basis? (h : InstanceId) (n m : Nat) : HostM σ (Option (List Int32 × List Int32)) := do
  if (← h.intInfo? "basis_validity") != some 1 then return none
  let (code, cols, rows) : Int32 × List Int32 × List Int32 ← Host.ask (.basis h)
  return if code == failure then none else some (resized n 0 cols, resized m 0 rows)

/-! ## Files -/

/-- A request about a file; failure becomes the result code given. -/
def onFile (name : String) (e : ResultCode) (request : HostM σ Int32) : SolverM σ Unit :=
  if passable name then orFail e request else throw e

/-- Reads a problem from a file. -/
def readModel (h : InstanceId) (name : String) : SolverM σ Unit :=
  onFile name .fileReadError (Host.ask (.readModel h name))

/-- Writes the problem to a file. -/
def writeModel (h : InstanceId) (name : String) : SolverM σ Unit :=
  onFile name .fileWriteError (Host.ask (.writeModel h name))

/-- Writes the solution to a file. -/
def writeSolution (h : InstanceId) (name : String) : SolverM σ Unit :=
  onFile name .fileWriteError (Host.ask (.writeSolution h name))

/-- The linear program that was read, if its size is sensible and the library gives it out. The
last start is the number of nonzeros. -/
def program? (h : InstanceId) : HostM σ (Option LinearProgram) := do
  let n : Int32 ← Host.ask (.numCols h)
  let m : Int32 ← Host.ask (.numRows h)
  let nz : Int32 ← Host.ask (.numNonzeros h)
  if n < 0 || m < 0 || nz < 0 then return none
  let (n, m, nz) := (n.toNatClampNeg, m.toNatClampNeg, nz.toNatClampNeg)
  let (code, raw) : Int32 × RawProgram ← Host.ask (.program h)
  if code == failure then return none
  let integrality := resized n 0 raw.integrality
  return some
    { minSense := raw.sense != -1
      offset := raw.offset
      cost := resized n 0 raw.cost
      lower := resized n 0 raw.lower
      upper := resized n 0 raw.upper
      rowLower := resized m 0 raw.rowLower
      rowUpper := resized m 0 raw.rowUpper
      starts := resized n 0 raw.starts ++ [Int32.ofNat nz]
      indexes := resized nz 0 raw.indexes
      values := resized nz 0 raw.values
      integrality :=
        if integrality.contains LinearProgram.integerMark then some integrality else none }

/-- The longest name, in bytes. -/
def maxNameLength : Nat := 512

/-- The name in an answer: it ends before the first NUL, and the empty name is none. -/
def nameOf : Int32 × List UInt8 → Option String
  | (code, bytes) =>
    let name := (bytes.take (maxNameLength + 1)).takeWhile (· != 0)
    if code == failure || name.isEmpty then none else some (Utf8.lossy name)

/-- The name of a column that was read. -/
def colName? (h : InstanceId) (j : Nat) : HostM σ (Option String) := do
  let answer : Int32 × List UInt8 ← Host.ask (.colName h (Int32.ofNat j))
  return nameOf answer

/-- The name of a row that was read. -/
def rowName? (h : InstanceId) (i : Nat) : HostM σ (Option String) := do
  let answer : Int32 × List UInt8 ← Host.ask (.rowName h (Int32.ofNat i))
  return nameOf answer

end InstanceId

end MathProgram
