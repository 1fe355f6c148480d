import MathProgram.Sparse

/-!
# The constraint matrix

The matrix is kept twice, by columns and by rows, so that either can be listed. Every operation
changes both.
-/

namespace MathProgram

/-- A sparse matrix, kept by columns and by rows. -/
structure Matrix where
  /-- The nonzeros by column, then row. -/
  byCol : Sparse Float
  /-- The nonzeros by row, then column. -/
  byRow : Sparse Float
  deriving Repr

namespace Matrix

/-- The matrix without nonzeros. -/
def empty : Matrix := ⟨.empty, .empty⟩

instance : Inhabited Matrix := ⟨empty⟩

/-- The number of nonzeros. -/
def size (a : Matrix) : Nat := a.byCol.size

/-- The entry in row `i` and column `j`; zero where none is stored. -/
def coeff (a : Matrix) (i j : Nat) : Float := (a.byRow.get? (i, j)).getD 0

/-- Adds to an entry. -/
def add (a : Matrix) (i j : Nat) (v : Float) : Matrix :=
  ⟨a.byCol.addAt (j, i) v, a.byRow.addAt (i, j) v⟩

/-- Removes an entry. -/
def erase (a : Matrix) (i j : Nat) : Matrix := ⟨a.byCol.erase (j, i), a.byRow.erase (i, j)⟩

/-- Sets an entry; setting it to zero removes it. -/
def set (a : Matrix) (i j : Nat) (v : Float) : Matrix :=
  if v == 0 then a.erase i j else ⟨a.byCol.insert (j, i) v, a.byRow.insert (i, j) v⟩

/-- Renumbers the columns; those without a new number are dropped. The rows follow the columns. -/
def renumberCols (a : Matrix) (rank : Nat → Option Nat) : Matrix :=
  let byCol := a.byCol.mapKeys? fun (j, i) => (rank j).map fun j => (j, i)
  ⟨byCol, byCol.transpose⟩

/-- Renumbers the rows; those without a new number are dropped. The columns follow the rows. -/
def renumberRows (a : Matrix) (rank : Nat → Option Nat) : Matrix :=
  let byRow := a.byRow.mapKeys? fun (i, j) => (rank i).map fun i => (i, j)
  ⟨byRow.transpose, byRow⟩

/-- Adds a list of entries, each a row, a column and a value. -/
def addAll (a : Matrix) (entries : List (Nat × Nat × Float)) : Matrix :=
  entries.foldl (fun a (i, j, v) => a.add i j v) a

/-- The nonzeros as rows, columns and values, by row and column. -/
def entries (a : Matrix) : List (Nat × Nat × Float) := a.byRow.triples

end Matrix

end MathProgram
