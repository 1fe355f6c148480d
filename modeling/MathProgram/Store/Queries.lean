import MathProgram.Engine.Solving
import MathProgram.Store.Indexing
import MathProgram.Store.Procedures

/-!
# Readings in place

What reads a store writes its results into outputs. `Query` lists what can be read, and
`Query.procedure` is the reading as it runs on the outputs in place; `fetchProcedure` fetches lines
into buffers.
-/

namespace MathProgram.Store

open Procedure

/-- What can be read of a store, with the arguments that are not outputs. -/
inductive Query where
  | elements (rows cols : List Nat)
  | quadElements (cols₁ cols₂ : List Nat)
  | intAttr (name : String) (index : Option Nat)
  | realAttr (name : String) (index : Option Nat)
  | strAttr (name : String) (index : Option Nat)
  | param (name : String)
  | job (id : String)

namespace Query

/-- The outputs. Of a parameter the value that is there says what type is asked for. -/
def Output : Query → Type
  | elements .. | quadElements .. => List Float
  | intAttr .. => Int32
  | realAttr .. => Float
  | strAttr .. => String
  | param _ => ParamValue
  | job _ => Engine.JobReport

/-- What the store answers, given what the outputs hold. -/
def answer (s : Store) : (q : Query) → q.Output → Except ResultCode q.Output
  | elements rows cols, vals => s.problem.elements rows cols vals
  | quadElements cols₁ cols₂, vals => s.problem.quadElements cols₁ cols₂ vals
  | intAttr name index, _ => s.intAttr name index
  | realAttr name index, _ => s.realAttr name index
  | strAttr name index, _ => s.strAttr name index
  | param name, v => s.params.getTyped name v.type
  | job id, _ => (s.job? id).map fun job =>
    { state := job.state.word
      modelStatus := job.modelStatus.code
      result := job.result
      hasSolution := job.hasSolution }

/-- Writes values to the places of a buffer, one after the other. -/
def fill {α β : Type} (xs : List α) (value : α → β) : Procedure (List β) Unit :=
  xs.zipIdx.forM fun (x, k) => change (·.modify k fun _ => value x)

/-- Reads the values at positions: these are checked first, then the length of the buffer. -/
def readPlaces (checked : Except ResultCode Unit) (positions : List IndexPair) (n : Nat)
    (value : IndexPair → Float) : Procedure (List Float) Unit := do
  orLeave checked
  check (fun vals => vals.length ≠ n) .modelInputError
  fill positions value

/-- Reads a value that may not be there. -/
def readValue {α : Type} (r : Except ResultCode α) : Procedure α Unit := do
  let v ← orLeave r
  change fun _ => v

/-- Reads a parameter of the type of the value that is there. -/
def readParam (s : Store) (name : String) : Procedure ParamValue Unit :=
  match s.params.get? name with
  | none => throw .paramGetError
  | some v => do
    check (fun out => v.type ≠ out.type) .paramGetError
    change fun _ => v

/-- Reads the record of a job, one output after the other. -/
def readJob (s : Store) (id : String) : Procedure Engine.JobReport Unit :=
  match s.jobs.find? (·.id == id) with
  | none => throw .remoteInvalidToken
  | some record => do
    change fun r => { r with state := record.state.word }
    change fun r => { r with modelStatus := record.modelStatus.code }
    change fun r => { r with result := record.result }
    change fun r => { r with hasSolution := record.hasSolution }

/-- Reading in place. -/
def procedure (s : Store) : (q : Query) → Procedure q.Output Unit
  | elements rows cols =>
    readPlaces (s.problem.checkPositions rows cols) (rows.zip cols) rows.length fun (i, j) =>
      s.problem.matrix.coeff i j
  | quadElements cols₁ cols₂ =>
    readPlaces (s.problem.checkQuadPositions cols₁ cols₂) (cols₁.zip cols₂) cols₁.length
      fun (i, j) => s.problem.quadCoeff i j
  | intAttr name index => readValue (s.intAttr name index)
  | realAttr name index => readValue (s.realAttr name index)
  | strAttr name index => readValue (s.strAttr name index)
  | param name => readParam s name
  | job id => readJob s id

end Query

/-- Fetches lines in place: the size is told as soon as the indexes are checked, and the buffers are
written once they are known to be long enough. -/
def fetchProcedure (lines : Sparse Float) (n : Nat) (invalidIndex : ResultCode)
    (wanted : List Nat) : Procedure LineBuffers Unit := do
  check (fun _ => wanted.any (n ≤ ·)) invalidIndex
  let size := (wanted.map lines.line).flatten.length
  change fun b => { b with size }
  unless (← get).starts.isEmpty do
    check (fun b => b.indexes.length < size || b.values.length < size
      || b.starts.length < wanted.length + 1) .modelInputError
    change fun b => { b with starts := b.starts.modify 0 fun _ => 0 }
    change fun b => ((wanted.foldlM (Problem.writeLine? lines) ⟨b, 1, 0⟩).map (·.buffers)).getD b

end MathProgram.Store
