import MathProgram.Solver.Request

/-!
# Scripted solver libraries

A solver library whose answers are prescribed: outcomes of runs and contents of files are taken
from queues, and return codes from a table. It answers for every instance what the outcome of its
run, or the file it has read, says.
-/

namespace MathProgram

/-- The outcome of a run: everything that can be asked for afterwards. -/
structure RunOutcome where
  code : Int32 := 0
  modelStatus : Int32 := 0
  objective : Float := 0
  time : Float := 0
  /-- The whole numbers that are available. -/
  ints : List (String × Int32) := []
  /-- The real numbers that are available. -/
  reals : List (String × Float) := []
  solutionCode : Int32 := 0
  values : RawSolution := ⟨[], [], [], []⟩
  basisCode : Int32 := 0
  colBasis : List Int32 := []
  rowBasis : List Int32 := []
  deriving Repr

/-- What a file holds: everything that can be asked for after reading it. -/
structure FileOutcome where
  code : Int32
  programCode : Int32 := 0
  program : RawProgram := ⟨1, 0, [], [], [], [], [], [], [], [], []⟩
  numCols : Int32 := 0
  numRows : Int32 := 0
  numNonzeros : Int32 := 0
  /-- The names of columns; a column without one has none. -/
  colNames : List (Option (List UInt8)) := []
  rowNames : List (Option (List UInt8)) := []
  deriving Repr

/-- A file that cannot be read. -/
def FileOutcome.unreadable : FileOutcome := { code := -1 }

/-- A solver library with prescribed answers. -/
structure ScriptedSolver where
  /-- The outcomes of the next runs. -/
  runs : List RunOutcome := []
  /-- The outcomes of the next files read. -/
  files : List FileOutcome := []
  /-- Return codes by the name of an option or of a call. -/
  codes : List (String × Int32) := []
  /-- The outcomes of instances that have run. -/
  ran : List (InstanceId × RunOutcome) := []
  /-- The files of instances that have read one. -/
  opened : List (InstanceId × FileOutcome) := []

namespace ScriptedSolver

/-- Prescribes further outcomes, and other return codes if any are given. -/
def extend (s : ScriptedSolver) (runs : List RunOutcome) (files : List FileOutcome)
    (codes : Option (List (String × Int32))) : ScriptedSolver :=
  { s with runs := s.runs ++ runs, files := s.files ++ files, codes := codes.getD s.codes }

/-- The return code for a name. -/
def codeOf (s : ScriptedSolver) (name : String) : Int32 := (s.codes.lookup name).getD 0

/-- The outcome of the run of an instance. -/
def outcome (s : ScriptedSolver) (h : InstanceId) : RunOutcome := (s.ran.lookup h).getD {}

/-- The file read by an instance. -/
def file (s : ScriptedSolver) (h : InstanceId) : FileOutcome :=
  (s.opened.lookup h).getD .unreadable

/-- A value by its name, with the return code. -/
def available {α : Type} (values : List (String × α)) (name : String) (missing : α) : Int32 × α :=
  match values.lookup name with
  | some v => (0, v)
  | none => (-1, missing)

/-- The longest name that is given out, in bytes. -/
def maxNameLength : Nat := 512

/-- A name by its index, with the return code. -/
def nameAt (names : List (Option (List UInt8))) (index : Int32) : Int32 × List UInt8 :=
  match names[index.toNatClampNeg]? with
  | some (some name) => (0, name.take maxNameLength)
  | _ => (-1, [])

/-- Answers a request. -/
def answer (s : ScriptedSolver) : (r : Request) → r.Answer × ScriptedSolver
  | .create _ => ((s.codeOf "create" == 0 : Bool), s)
  | .destroy _ => ((), s)
  | .setOption _ name _ => (s.codeOf name, s)
  | .passProgram _ lp =>
    (s.codeOf (if lp.integrality.isSome then "passMip" else "passLp"), s)
  | .passHessian .. => (s.codeOf "passHessian", s)
  | .passColName .. => ((), s)
  | .passRowName .. => ((), s)
  | .run h =>
    let o := s.runs.headD {}
    (o.code, { s with runs := s.runs.tail, ran := (h, o) :: s.ran })
  | .modelStatus h => ((s.outcome h).modelStatus, s)
  | .objective h => ((s.outcome h).objective, s)
  | .runTime h => ((s.outcome h).time, s)
  | .intInfo h name => (available (s.outcome h).ints name 0, s)
  | .realInfo h name => (available (s.outcome h).reals name 0, s)
  | .solution h => (((s.outcome h).solutionCode, (s.outcome h).values), s)
  | .basis h => (((s.outcome h).basisCode, (s.outcome h).colBasis, (s.outcome h).rowBasis), s)
  | .readModel h _ =>
    let f := s.files.headD .unreadable
    (f.code, { s with files := s.files.tail, opened := (h, f) :: s.opened })
  | .writeModel .. => (s.codeOf "writeModel", s)
  | .writeSolution .. => (s.codeOf "writeSolution", s)
  | .numCols h => ((s.file h).numCols, s)
  | .numRows h => ((s.file h).numRows, s)
  | .numNonzeros h => ((s.file h).numNonzeros, s)
  | .program h => (((s.file h).programCode, (s.file h).program), s)
  | .colName h index => (nameAt (s.file h).colNames index, s)
  | .rowName h index => (nameAt (s.file h).rowNames index, s)

instance : Solver ScriptedSolver := ⟨fun r s => s.answer r⟩

end ScriptedSolver

end MathProgram
