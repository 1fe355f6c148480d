import MathProgram.Disk
import MathProgram.Engine.Script
import MathProgram.Journal
import MathProgram.Solver.Request
import MathProgram.Store.Basic

/-!
# The host

What models and engines share and work on: files, the journal, a solver library with the record of
what was asked of it, a script for engines, and the numbers of models and environments. `HostM` is
a computation that may change the host.
-/

namespace MathProgram

/-- What models and engines share, with a solver library of states `σ`. -/
structure Host (σ : Type) where
  solver : σ
  disk : Disk := {}
  journal : Journal := {}
  /-- How many instances of the solver library were created. -/
  instances : Nat := 0
  /-- What was asked of the solver library, without the creations that failed. -/
  requests : Array Request := #[]
  script : Script := {}
  /-- How many models were created. -/
  models : Nat := 0
  /-- For each environment the number of its models that have not been freed. -/
  live : List Nat := []

/-- A computation on a host. -/
abbrev HostM (σ : Type) := StateM (Host σ)

namespace Host

variable {σ : Type}

/-! ## The journal -/

/-- Changes the journal. -/
def writeJournal (f : Journal → Journal) : HostM σ Unit :=
  modify fun h => { h with journal := f h.journal }

/-- Records an event. The component and the operation it belongs to come first in its fields. -/
def record (level : Level) (origin : Origin) (component operation message : String)
    (fields : List (String × FieldValue)) : HostM σ Unit :=
  writeJournal (·.record
    { level, origin, message
      fields := ("component", .text component) :: ("operation", .text operation) :: fields })

/-! ## Files -/

/-- Looks up a file. -/
def findFile (name : String) : HostM σ Found := do return (← get).disk.find name

/-- The text that a file holds, if it can be read and holds text. -/
def fileText? (name : String) : HostM σ (Option String) := do
  match ← findFile name with
  | .file content => return Utf8.text? content
  | .missing | .folder => return none

/-- Changes the files. -/
def modifyDisk {α : Type} (f : Disk → α × Disk) : HostM σ α :=
  modifyGet fun h =>
    let (a, disk) := f h.disk
    (a, { h with disk })

/-- Writes a file, and says whether that worked. -/
def writeFile (name : String) (content : List UInt8) : HostM σ Bool :=
  modifyDisk fun d => d.write name content

/-- Removes a file, and says whether that worked. -/
def removeFile (name : String) : HostM σ Bool := modifyDisk fun d => d.remove name

/-- Makes a folder, and says whether that worked. -/
def makeFolder (name : String) : HostM σ Bool := modifyDisk fun d => d.makeFolder name

/-! ## The solver library -/

/-- Asks the solver library and leaves no record of it. -/
def askUnrecorded [Solver σ] (r : Request) : HostM σ r.Answer :=
  modifyGet fun h =>
    let (a, solver) := Solver.answer r h.solver
    (a, { h with solver })

/-- Asks the solver library. -/
def ask [Solver σ] (r : Request) : HostM σ r.Answer := do
  modify fun h => { h with requests := h.requests.push r }
  askUnrecorded r

/-! ## The script -/

/-- Counts a call of an engine, and says how it fails if it does. -/
def fault? (c : EngineCall) : HostM σ (Option Int32) :=
  modifyGet fun h =>
    let (code, faults) := h.script.faults.call c
    (code, { h with script := { h.script with faults } })

/-- Takes the next prescribed outcome of a solve. -/
def nextSolve? : HostM σ (Option SolveOutcome) :=
  modifyGet fun h =>
    match h.script.solves with
    | [] => (none, h)
    | o :: rest => (some o, { h with script := { h.script with solves := rest } })

/-- Takes the next prescribed outcome of a conflict search. -/
def nextConflict? : HostM σ (Option IisOutcome) :=
  modifyGet fun h =>
    match h.script.conflicts with
    | [] => (none, h)
    | o :: rest => (some o, { h with script := { h.script with conflicts := rest } })

/-! ## Models and environments -/

/-- Takes the number of a new model. -/
def newModel : HostM σ ModelId := modifyGet fun h => (h.models, { h with models := h.models + 1 })

/-- Takes the number of a new environment. -/
def newEnvironment : HostM σ Nat :=
  modifyGet fun h => (h.live.length, { h with live := h.live ++ [0] })

/-- The number of live models of an environment. -/
def liveModels (env : Nat) : HostM σ Nat := do return (← get).live.getD env 0

/-- Counts one more live model. -/
def countModel (env : Nat) : HostM σ Unit :=
  modify fun h => { h with live := h.live.modify env (· + 1) }

/-- Counts one live model less. -/
def discountModel (env : Nat) : HostM σ Unit :=
  modify fun h => { h with live := h.live.modify env (· - 1) }

end Host

namespace LogSink

variable {σ : Type}

/-- Writes a message to the console, the file and the callback, as far as they are set. That the
file cannot be written does no harm. -/
def write (log : LogSink) (message : String) : HostM σ Unit := do
  if log.toConsole then
    Host.writeJournal fun j => { j with console := j.console ++ message }
  if let some file := log.file then
    Host.modifyDisk fun d => ((), d.append file (Utf8.bytes message))
  if let some tag := log.callback then
    Host.writeJournal fun j => { j with messages := j.messages.push (tag ++ message) }

/-- The sink with another file to append to, which has to be one that can be opened. -/
def withFile (log : LogSink) (file : Option String) : HostM σ (Except ResultCode LogSink) :=
  match file with
  | none => return .ok { log with file }
  | some name => do
    if ← Host.modifyDisk fun d => d.openToAppend name then return .ok { log with file }
    else return .error .fileWriteError

end LogSink

end MathProgram
