import MathProgram.Model.Attributes
import MathProgram.Text.Utf8

/-!
# Files of a model

File names are bytes; those that are no text, or contain a NUL character, are refused before
anything else is looked at. Reading a problem renews all handles.
-/

namespace MathProgram.Model

open ModelM

/-- A file name as a text. -/
def fileName (bytes : List UInt8) : Except Error String :=
  match Utf8.text? bytes with
  | none => .error (.invalidArgument (.fileName (Utf8.lossy bytes)))
  | some name => if name.contains '\x00' then .error (.nul name) else .ok name

/-- Renews all handles for a problem that has been read. -/
def reloaded (m : Model) : Model := { m.renewVars.renewConss with state := .populated }

variable {σ : Type}

/-- Records an event about a file. -/
def recordFile (operation message file : String) (fields : List (String × FieldValue)) :
    ModelM σ Unit :=
  ModelM.host <| Host.record .debug .modelFiles "model" operation message
    (("file", .text file) :: fields)

/-- Reads some sections of a task file. -/
def readTask (file : List UInt8) (parts : Sections) : ModelM σ Unit := do
  let name ← check (fileName file)
  call "read_task" (Engine.readTask name parts)
  if parts.model then modify reloaded
  recordFile "read_task" "Read task" name
    [("model", .bool parts.model), ("param", .bool parts.param), ("soln", .bool parts.soln)]

/-- Writes some sections to a task file. -/
def writeTask (file : List UInt8) (parts : Sections) : ModelM σ Unit := do
  let name ← check (fileName file)
  call "write_task" (Engine.writeTask name parts)

/-- Appends the engine's log to a file, or to none. -/
def setLogFile (file : Option String) : ModelM σ Unit :=
  call "set_log_file" (Engine.setLogFile file)

/-- Sets the callback that gets the engine's log, or removes it. -/
def setLogCallback (callback : Option String) : ModelM σ Unit :=
  withEngine (Engine.setLogCallback callback)

section

variable [Solver σ]

/-- Reads a problem in place of the present one. -/
def readProb (file : List UInt8) : ModelM σ Unit := do
  let name ← check (fileName file)
  match ← withEngine (Engine.readProb name) with
  | none => throw .outOfRange
  | some code => checkCode "read_prob" code
  modify reloaded
  let m ← get
  recordFile "read_prob" "Read problem" name
    [("num_vars", .int m.vars.length), ("num_conss", .int m.conss.length)]

/-- Writes the problem. -/
def writeProb (file : List UInt8) : ModelM σ Unit := do
  let name ← check (fileName file)
  call "write_prob" (Engine.writeProb name)

/-- Writes the solution. -/
def writeSoln (file : List UInt8) : ModelM σ Unit := do
  let name ← check (fileName file)
  call "write_soln" (Engine.writeSoln name)

end

end MathProgram.Model
