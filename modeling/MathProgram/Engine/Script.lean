import MathProgram.Param
import MathProgram.Solution

/-!
# Scripts

A script prescribes what engines do in place of their own work: the outcomes of the next solves and
conflict searches, the status and the job records they report, and which of their calls fail
without doing anything. `Script.verdict` decides the last from the number of calls of that kind
made before.
-/

namespace MathProgram

/-- The calls of an engine that can be made to fail. -/
inductive EngineCall where
  | addCol
  | addRow
  | deleteCols
  | deleteRows
  | getCols
  | getRows
  | getElements
  | setElements
  | deleteElements
  | deleteAllElements
  | getQuadElements
  | setQuadElements
  | deleteQuadElements
  | deleteAllQuadElements
  | getIntAttr
  | setIntAttr
  | getIntAttrIndex
  | setIntAttrIndex
  | getRealAttr
  | setRealAttr
  | getRealAttrIndex
  | setRealAttrIndex
  | getStrAttr
  | setStrAttr
  | getStrAttrIndex
  | setStrAttrIndex
  | setParam
  | readProb
  | writeProb
  | writeSoln
  | readTask
  | writeTask
  | displayResults
  | setLogFile
  deriving DecidableEq, Repr

/-- All calls. -/
def EngineCall.all : List EngineCall :=
  [addCol, addRow, deleteCols, deleteRows, getCols, getRows, getElements, setElements,
   deleteElements, deleteAllElements, getQuadElements, setQuadElements, deleteQuadElements,
   deleteAllQuadElements, getIntAttr, setIntAttr, getIntAttrIndex, setIntAttrIndex, getRealAttr,
   setRealAttr, getRealAttrIndex, setRealAttrIndex, getStrAttr, setStrAttr, getStrAttrIndex,
   setStrAttrIndex, setParam, readProb, writeProb, writeSoln, readTask, writeTask, displayResults,
   setLogFile]

/-- The outcome of a solve: a result code, and a solution to put in place. -/
structure SolveOutcome where
  code : Int32
  solution : Option Solution
  deriving Repr

/-- The outcome of a conflict search: a result code, and flags to put in place. -/
structure IisOutcome where
  code : Int32
  flags : Option IisFlags
  deriving Repr

/-- Which calls fail. -/
structure Faults where
  /-- The code with which a call ends without doing anything, given how many of its kind were made
  before; none if it does its work. -/
  verdict : EngineCall → Nat → Option Int32 := fun _ _ => none
  /-- How many calls of each kind were made. -/
  made : List (EngineCall × Nat) := []

namespace Faults

/-- Calls of the kinds in a table fail with a code after so many that do their work. -/
def ofTable (table : List (EngineCall × Nat × Int32)) : Faults where
  verdict c n :=
    match table.lookup c with
    | some (working, code) => if n < working then none else some code
    | none => none

/-- How many calls of a kind were made. -/
def count (f : Faults) (c : EngineCall) : Nat := (f.made.lookup c).getD 0

/-- Counts a call, and says how it fails if it does. -/
def call (f : Faults) (c : EngineCall) : Option Int32 × Faults :=
  let n := f.count c
  (f.verdict c n, { f with made := (c, n + 1) :: f.made.filter fun e => e.1 != c })

end Faults

/-- What engines do in place of their own work. -/
structure Script where
  solves : List SolveOutcome := []
  conflicts : List IisOutcome := []
  /-- The status reported. -/
  status : Option Int32 := none
  /-- The state reported for every job. -/
  jobState : Option String := none
  /-- The status of the problem reported for every job. -/
  jobStatus : Option Int32 := none
  /-- The value reported for every parameter. -/
  param : Option ParamValue := none
  faults : Faults := {}

instance : Inhabited Script := ⟨{}⟩

/-- A script with another after it: outcomes queue up, and what the other prescribes comes first
otherwise. New faults take the place of the old ones, with no call made yet. -/
def Script.extend (s t : Script) (faults : Option Faults) : Script where
  solves := s.solves ++ t.solves
  conflicts := s.conflicts ++ t.conflicts
  status := t.status <|> s.status
  jobState := t.jobState <|> s.jobState
  jobStatus := t.jobStatus <|> s.jobStatus
  param := t.param <|> s.param
  faults := faults.getD s.faults

end MathProgram
