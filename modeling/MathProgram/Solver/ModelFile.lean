import MathProgram.Error
import MathProgram.Solver.Options

/-!
# Problem files of the solver library

The solver library reads files in formats of its own; what it has read is turned into columns, rows
and nonzeros here, with the threshold for infinite bounds.
-/

namespace MathProgram

/-- What the solver library has read from a file. -/
structure ModelFile where
  program : LinearProgram
  colNames : List (Option String)
  rowNames : List (Option String)

/-- A number of 32 bits as an index; a negative one becomes an index beyond every list. -/
def indexOfInt32 (i : Int32) : Nat := (i.toInt % (indexLimit : Int)).toNat

namespace ModelFile

/-- The columns. -/
def cols (f : ModelFile) : List ColData :=
  let lp := f.program
  let marks := lp.integrality.getD (List.replicate lp.numCols 0)
  (lp.cost.zip (lp.lower.zip (lp.upper.zip (marks.zip f.colNames)))).map
    fun (obj, lower, upper, mark, name) =>
      { lb := fromIeeeBound lower
        ub := fromIeeeBound upper
        obj
        isInteger := mark == LinearProgram.integerMark
        name }

/-- The rows. -/
def rows (f : ModelFile) : List RowData :=
  (f.program.rowLower.zip (f.program.rowUpper.zip f.rowNames)).map fun (lower, upper, name) =>
    { lhs := fromIeeeBound lower, rhs := fromIeeeBound upper, name }

/-- The nonzeros of a column that stand between two positions, if these are no further than the
end; a column that ends where it starts or before has none. -/
def segment? (lp : LinearProgram) (j start stop : Nat) : Option (List (Nat × Nat × Float)) :=
  if stop ≤ start then some []
  else if lp.numNonzeros < stop then none
  else some <| (((lp.indexes.zip lp.values).drop start).take (stop - start)).map
    fun (i, v) => (indexOfInt32 i, j, v)

/-- The nonzeros by column, each a row, a column and a value, if no start points beyond the end. -/
def entries? (f : ModelFile) : Option (List (Nat × Nat × Float)) := do
  let starts := f.program.starts.map indexOfInt32
  let segments ← (starts.zip starts.tail).zipIdx.mapM fun ((start, stop), j) =>
    segment? f.program j start stop
  return segments.flatten

end ModelFile

namespace Solver

open SolverM (host)

variable {σ : Type} [Solver σ]

/-- Has a file read by a new instance, and fetches what it has read. -/
def openModel (name : String) : SolverM σ (InstanceId × ModelFile) := do
  match ← host InstanceId.create? with
  | none => throw .noMemory
  | some h =>
    h.destroyedOnFailure do
      host (h.setOutput false)
      h.readModel name
      match ← host h.program? with
      | none => throw .formatError
      | some program =>
        let colNames ← (List.range program.numCols).mapM fun j => host (h.colName? j)
        let rowNames ← (List.range program.numRows).mapM fun i => host (h.rowName? i)
        return (h, ⟨program, colNames, rowNames⟩)

/-- Has the problem of a store written to a file. -/
def writeModel (s : Store) (name : String) : SolverM σ Unit := do
  let h ← loaded s
  h.destroyedAfter do
    host (h.setOutput false)
    h.writeModel name

end Solver

end MathProgram
