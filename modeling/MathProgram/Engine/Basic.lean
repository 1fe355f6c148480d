import MathProgram.Solver.Conflict
import MathProgram.Solver.ModelFile
import MathProgram.Store.Attributes
import MathProgram.Store.Report
import MathProgram.TaskFile.Load

/-!
# Engines

An engine keeps a problem in a store and answers every call with a result code, zero for success. A
plain engine only keeps data; one with a solver passes the problem to the solver library, and keeps
the instance of its last solve so that the library can write the solution. A scripted engine does
what the script of the host prescribes instead, as far as it prescribes something.

A call either does its work, or fails with a code and has no effect on the store; `guarded` makes it
fail when the script says so.
-/

namespace MathProgram

/-- What stands behind an engine. -/
inductive Backend where
  /-- Nothing: the engine only keeps data. -/
  | plain
  /-- The solver library. -/
  | solver
  deriving DecidableEq, Repr

/-- An engine. -/
structure Engine where
  backend : Backend
  store : Store
  /-- The instance of the last solve. -/
  keeper : Option InstanceId := none
  scripted : Bool := false

/-- A computation that may change an engine and the host. -/
abbrev EngineM (σ : Type) := StateT Engine (HostM σ)

/-- A computation on the host. -/
def EngineM.host {σ α : Type} (act : HostM σ α) : EngineM σ α := StateT.lift act

/-- The code of a result. -/
def codeOf {α : Type} : Except ResultCode α → Int32
  | .ok _ => ResultCode.okay.code
  | .error e => e.code

namespace Engine

open EngineM (host)

/-- A new engine with an empty problem. -/
def empty (backend : Backend) (scripted : Bool) (name : Option String) : Engine :=
  { backend, store := .empty name, scripted }

/-- An independent engine of the same kind with the same store. -/
def duplicate (e : Engine) : Engine := { e with keeper := none }

/-- The number of columns. -/
def numCols (e : Engine) : Nat := e.store.numCols

/-- The number of rows. -/
def numRows (e : Engine) : Nat := e.store.numRows

variable {σ : Type}

/-! ## Calls -/

/-- How a call fails, if the script makes it fail. -/
def fault? (c : EngineCall) : EngineM σ (Option Int32) := do
  if (← get).scripted then host (Host.fault? c) else return none

/-- A call with an output, which is as given when the call fails by the script. -/
def guarded {α : Type} (c : EngineCall) (untouched : α) (act : EngineM σ (Int32 × α)) :
    EngineM σ (Int32 × α) := do
  match ← fault? c with
  | some code => return (code, untouched)
  | none => act

/-- A call without an output. -/
def guardedCode (c : EngineCall) (act : EngineM σ Int32) : EngineM σ Int32 := do
  match ← fault? c with
  | some code => return code
  | none => act

/-- The store, with the changes to it by an operation that succeeds. -/
def changeStore (f : Store → Except ResultCode Store) : EngineM σ Int32 := do
  let r := f (← get).store
  if let .ok store := r then modify fun e => { e with store }
  return codeOf r

/-- A call that changes the store. -/
def edit (c : EngineCall) (f : Store → Except ResultCode Store) : EngineM σ Int32 :=
  guardedCode c (changeStore f)

/-- A call that reads the store. -/
def query {α : Type} (c : EngineCall) (untouched : α) (f : Store → Except ResultCode α) :
    EngineM σ (Int32 × α) :=
  guarded c untouched do
    match f (← get).store with
    | .ok a => return (ResultCode.okay.code, a)
    | .error e => return (e.code, untouched)

/-! ## Structure -/

/-- Appends a column. -/
def addCol (c : ColData) (rows : List Nat) (vals : List Float) : EngineM σ Int32 :=
  edit .addCol (·.edit (·.addCol c rows vals))

/-- Appends a row. -/
def addRow (r : RowData) (cols : List Nat) (vals : List Float) : EngineM σ Int32 :=
  edit .addRow (·.edit (·.addRow r cols vals))

/-- Deletes columns. -/
def deleteCols (cols : List Nat) : EngineM σ Int32 := edit .deleteCols (·.edit (·.deleteCols cols))

/-- Deletes rows. -/
def deleteRows (rows : List Nat) : EngineM σ Int32 := edit .deleteRows (·.edit (·.deleteRows rows))

/-- Fetches lines of the matrix. -/
def fetch (c : EngineCall) (f : Problem → ResultCode × LineBuffers) (b : LineBuffers) :
    EngineM σ (Int32 × LineBuffers) :=
  guarded c b do
    let (code, b) := f (← get).store.problem
    return (code.code, b)

/-- Fetches columns. -/
def fetchCols (cols : List Nat) (b : LineBuffers) : EngineM σ (Int32 × LineBuffers) :=
  fetch .getCols (·.fetchCols cols b) b

/-- Fetches rows. -/
def fetchRows (rows : List Nat) (b : LineBuffers) : EngineM σ (Int32 × LineBuffers) :=
  fetch .getRows (·.fetchRows rows b) b

/-! ## Elements -/

/-- The entries of the matrix at positions, for an output of that many zeros. -/
def elements (rows cols : List Nat) : EngineM σ (Int32 × List Float) :=
  let zeros := List.replicate rows.length 0
  query .getElements zeros fun s => s.problem.elements rows cols zeros

/-- Sets entries of the matrix. -/
def setElements (rows cols : List Nat) (vals : List Float) : EngineM σ Int32 :=
  edit .setElements (·.edit (·.setElements rows cols vals))

/-- Removes entries of the matrix. -/
def deleteElements (rows cols : List Nat) : EngineM σ Int32 :=
  edit .deleteElements (·.edit (·.deleteElements rows cols))

/-- Removes all entries of the matrix. -/
def deleteAllElements : EngineM σ Int32 :=
  edit .deleteAllElements (·.edit fun p => .ok p.deleteAllElements)

/-- The entries of the quadratic form at positions, for an output of that many zeros. -/
def quadElements (cols₁ cols₂ : List Nat) : EngineM σ (Int32 × List Float) :=
  let zeros := List.replicate cols₁.length 0
  query .getQuadElements zeros fun s => s.problem.quadElements cols₁ cols₂ zeros

/-- Sets entries of the quadratic form. -/
def setQuadElements (cols₁ cols₂ : List Nat) (vals : List Float) : EngineM σ Int32 :=
  edit .setQuadElements (·.edit (·.setQuadElements cols₁ cols₂ vals))

/-- Removes entries of the quadratic form. -/
def deleteQuadElements (cols₁ cols₂ : List Nat) : EngineM σ Int32 :=
  edit .deleteQuadElements (·.edit (·.deleteQuadElements cols₁ cols₂))

/-- Removes all entries of the quadratic form. -/
def deleteAllQuadElements : EngineM σ Int32 :=
  edit .deleteAllQuadElements (·.edit fun p => .ok p.deleteAllQuadElements)

/-! ## Attributes and parameters -/

/-- The kind of a call on an attribute: there are two, without an index and with one. -/
def indexed (index : Option Nat) (plain withIndex : EngineCall) : EngineCall :=
  if index.isSome then withIndex else plain

/-- Reads a whole-number attribute. -/
def intAttr (name : String) (index : Option Nat) : EngineM σ (Int32 × Int32) :=
  query (indexed index .getIntAttr .getIntAttrIndex) 0 (·.intAttr name index)

/-- Writes a whole-number attribute. -/
def setIntAttr (name : String) (index : Option Nat) (v : Int32) : EngineM σ Int32 :=
  edit (indexed index .setIntAttr .setIntAttrIndex) (·.setIntAttr name index v)

/-- Reads a real attribute. -/
def realAttr (name : String) (index : Option Nat) : EngineM σ (Int32 × Float) :=
  query (indexed index .getRealAttr .getRealAttrIndex) 0 (·.realAttr name index)

/-- Writes a real attribute. -/
def setRealAttr (name : String) (index : Option Nat) (v : Float) : EngineM σ Int32 :=
  edit (indexed index .setRealAttr .setRealAttrIndex) (·.setRealAttr name index v)

/-- Reads a text attribute. -/
def strAttr (name : String) (index : Option Nat) : EngineM σ (Int32 × String) :=
  query (indexed index .getStrAttr .getStrAttrIndex) "" (·.strAttr name index)

/-- Writes a text attribute. -/
def setStrAttr (name : String) (index : Option Nat) (v : String) : EngineM σ Int32 :=
  edit (indexed index .setStrAttr .setStrAttrIndex) (·.setStrAttr name index v)

/-- Reads an attribute of a type. -/
def attr : (t : ValueType) → (name : String) → (index : Option Nat) → EngineM σ (Int32 × t.Value)
  | .int => intAttr
  | .real => realAttr
  | .str => strAttr

/-- Writes an attribute of a type. -/
def setAttr : (t : ValueType) → (name : String) → (index : Option Nat) → t.Value → EngineM σ Int32
  | .int => setIntAttr
  | .real => setRealAttr
  | .str => setStrAttr

/-- Reads a parameter of a type. A scripted value may be of any type. -/
def param (name : String) (type : ValueType) : EngineM σ (Except Int32 ParamValue) := do
  let e ← get
  let prescribed := (← host get).script.param
  match e.scripted, prescribed with
  | true, some v => return .ok v
  | _, _ => return (e.store.params.getTyped name type).mapError ResultCode.code

/-- Sets a parameter. -/
def setParam (name : String) (v : ParamValue) : EngineM σ Int32 :=
  edit .setParam (·.setParam name v)

/-! ## Log -/

/-- Writes a message to the log. -/
def log (message : String) : EngineM σ Unit := do host ((← get).store.log.write message)

/-- Changes where the log goes. -/
def modifyLog (f : LogSink → LogSink) : EngineM σ Unit :=
  modify fun e => { e with store := { e.store with log := f e.store.log } }

/-- Shows the log on the console or not. -/
def setLogToConsole (on : Bool) : EngineM σ Unit := modifyLog fun l => { l with toConsole := on }

/-- Sets the callback of the log. -/
def setLogCallback (callback : Option String) : EngineM σ Unit :=
  modifyLog fun l => { l with callback }

/-- Sets the file of the log. -/
def setLogFile (file : Option String) : EngineM σ Int32 :=
  guardedCode .setLogFile do
    let r ← host ((← get).store.log.withFile file)
    if let .ok log := r then modifyLog fun _ => log
    return codeOf r

/-- Writes the summary of the last solve to the log. -/
def displayResults : EngineM σ Int32 :=
  guardedCode .displayResults do
    log (← get).store.formatResults
    return ResultCode.okay.code

end Engine

end MathProgram
