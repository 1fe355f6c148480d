import MathProgram.Code.Result
import MathProgram.Matrix

/-!
# Problems

The data of a problem: columns, rows, the constraint matrix, and the quadratic form of the
objective `c'x + ½ x'Qx`. `Q` is symmetric and kept by its upper triangle. An operation either
checks all its arguments and gives the changed problem, or fails with a result code.
-/

namespace MathProgram

/-- A column: a variable's bounds, its objective coefficient, integrality and name. -/
structure ColData where
  lb : Float
  ub : Float
  obj : Float
  isInteger : Bool
  name : Option String
  deriving Repr, Inhabited

/-- A row `lhs ≤ a x ≤ rhs` with its name. -/
structure RowData where
  lhs : Float
  rhs : Float
  name : Option String
  deriving Repr, Inhabited

/-- The data of a problem. -/
structure Problem where
  name : String
  minSense : Bool
  objConst : Float
  cols : List ColData
  rows : List RowData
  matrix : Matrix
  /-- The quadratic form by pairs of columns, the smaller one first. -/
  quad : Sparse Float
  deriving Repr

/-- A list brought to a length: cut, or filled up. -/
def resized {α : Type} (n : Nat) (fill : α) (xs : List α) : List α :=
  xs.take n ++ List.replicate (n - xs.length) fill

/-- Replaces the front of a buffer. -/
def overwrite {α : Type} (xs buffer : List α) : List α := xs ++ buffer.drop xs.length

/-- The buffers that lines of the matrix are fetched into. -/
structure LineBuffers where
  /-- The number of entries of the lines asked for. -/
  size : Nat
  /-- Where each line begins, and where the last one ends. -/
  starts : List Nat
  indexes : List Nat
  values : List Float
  deriving Repr

namespace Problem

/-- The problem without columns and rows. -/
def empty (name : String) : Problem where
  name
  minSense := true
  objConst := 0
  cols := []
  rows := []
  matrix := .empty
  quad := .empty

instance : Inhabited Problem := ⟨empty ""⟩

/-- The number of columns. -/
def numCols (p : Problem) : Nat := p.cols.length

/-- The number of rows. -/
def numRows (p : Problem) : Nat := p.rows.length

/-- Some column is integer. -/
def hasIntegers (p : Problem) : Bool := p.cols.any (·.isInteger)

/-- The objective has a quadratic part. -/
def hasQuadratic (p : Problem) : Bool := !p.quad.isEmpty

/-! ## Columns and rows -/

/-- Appends a column with nonzeros given by rows and values. Values for one row add up. -/
def addCol (p : Problem) (c : ColData) (rows : List Nat) (vals : List Float) :
    Except ResultCode Problem :=
  if rows.length ≠ vals.length then .error .modelInputError
  else if rows.any (p.numRows ≤ ·) then .error .modelInvalidRowIdx
  else .ok { p with
    cols := p.cols ++ [c]
    matrix := p.matrix.addAll ((rows.zip vals).map fun (i, v) => (i, p.numCols, v)) }

/-- Appends a row with nonzeros given by columns and values. Values for one column add up. -/
def addRow (p : Problem) (r : RowData) (cols : List Nat) (vals : List Float) :
    Except ResultCode Problem :=
  if cols.length ≠ vals.length then .error .modelInputError
  else if cols.any (p.numCols ≤ ·) then .error .modelInvalidColIdx
  else .ok { p with
    rows := p.rows ++ [r]
    matrix := p.matrix.addAll ((cols.zip vals).map fun (j, v) => (p.numRows, j, v)) }

/-- The number that an index has once others are removed, if it is not removed itself: how many of
the indexes below it stay. -/
def rank (removed : List Nat) (k : Nat) : Option Nat :=
  if removed.contains k then none
  else some ((List.range k).countP fun i => !removed.contains i)

/-- A list without the items at the positions removed. -/
def survivors {α : Type} (removed : List Nat) (xs : List α) : List α :=
  xs.zipIdx.filterMap fun (x, k) => if removed.contains k then none else some x

/-- Deletes columns and renumbers the others. -/
def deleteCols (p : Problem) (removed : List Nat) : Except ResultCode Problem :=
  if removed.any (p.numCols ≤ ·) then .error .modelInvalidColIdx
  else .ok { p with
    cols := survivors removed p.cols
    matrix := p.matrix.renumberCols (rank removed)
    quad := p.quad.mapKeys? fun (i, j) => do return (← rank removed i, ← rank removed j) }

/-- Deletes rows and renumbers the others. -/
def deleteRows (p : Problem) (removed : List Nat) : Except ResultCode Problem :=
  if removed.any (p.numRows ≤ ·) then .error .modelInvalidRowIdx
  else .ok { p with
    rows := survivors removed p.rows
    matrix := p.matrix.renumberRows (rank removed) }

/-- The first column of a name. -/
def colIndex? (p : Problem) (name : String) : Option Nat :=
  p.cols.findIdx? fun c => c.name == some name

/-- The first row of a name. -/
def rowIndex? (p : Problem) (name : String) : Option Nat :=
  p.rows.findIdx? fun r => r.name == some name

/-! ## Matrix elements -/

/-- Checks lists of rows and columns that stand for matrix positions. -/
def checkPositions (p : Problem) (rows cols : List Nat) : Except ResultCode Unit :=
  if rows.length ≠ cols.length then .error .modelInputError
  else if rows.any (p.numRows ≤ ·) then .error .modelInvalidRowIdx
  else if cols.any (p.numCols ≤ ·) then .error .modelInvalidColIdx
  else .ok ()

/-- Checks that there are as many values as positions. -/
def checkValues (positions : List Nat) (vals : List Float) : Except ResultCode Unit :=
  if vals.length ≠ positions.length then .error .modelInputError else .ok ()

/-- The entries at positions, for a buffer of that length. -/
def elements (p : Problem) (rows cols : List Nat) (buffer : List Float) :
    Except ResultCode (List Float) := do
  p.checkPositions rows cols
  checkValues rows buffer
  return (rows.zip cols).map fun (i, j) => p.matrix.coeff i j

/-- Sets the entries at positions, one after the other. -/
def setElements (p : Problem) (rows cols : List Nat) (vals : List Float) :
    Except ResultCode Problem := do
  p.checkPositions rows cols
  checkValues rows vals
  return { p with
    matrix := ((rows.zip cols).zip vals).foldl (fun a ((i, j), v) => a.set i j v) p.matrix }

/-- Removes the entries at positions. -/
def deleteElements (p : Problem) (rows cols : List Nat) : Except ResultCode Problem := do
  p.checkPositions rows cols
  return { p with matrix := (rows.zip cols).foldl (fun a (i, j) => a.erase i j) p.matrix }

/-- Removes all entries. -/
def deleteAllElements (p : Problem) : Problem := { p with matrix := .empty }

/-! ## The quadratic form -/

/-- The position in the upper triangle that a pair of columns addresses. -/
def quadKey (i j : Nat) : IndexPair := if i ≤ j then (i, j) else (j, i)

/-- The entry of the quadratic form for a pair of columns. -/
def quadCoeff (p : Problem) (i j : Nat) : Float := (p.quad.get? (quadKey i j)).getD 0

/-- Checks lists of columns that stand for positions of the quadratic form. -/
def checkQuadPositions (p : Problem) (cols₁ cols₂ : List Nat) : Except ResultCode Unit :=
  if cols₁.length ≠ cols₂.length then .error .modelInputError
  else if (cols₁ ++ cols₂).any (p.numCols ≤ ·) then .error .modelInvalidColIdx
  else .ok ()

/-- The entries of the quadratic form at positions, for a buffer of that length. -/
def quadElements (p : Problem) (cols₁ cols₂ : List Nat) (buffer : List Float) :
    Except ResultCode (List Float) := do
  p.checkQuadPositions cols₁ cols₂
  checkValues cols₁ buffer
  return (cols₁.zip cols₂).map fun (i, j) => p.quadCoeff i j

/-- Sets an entry of the quadratic form; setting it to zero removes it. -/
def setQuad (q : Sparse Float) (i j : Nat) (v : Float) : Sparse Float :=
  if v == 0 then q.erase (quadKey i j) else q.insert (quadKey i j) v

/-- Sets the entries of the quadratic form at positions, one after the other. -/
def setQuadElements (p : Problem) (cols₁ cols₂ : List Nat) (vals : List Float) :
    Except ResultCode Problem := do
  p.checkQuadPositions cols₁ cols₂
  checkValues cols₁ vals
  return { p with
    quad := ((cols₁.zip cols₂).zip vals).foldl (fun q ((i, j), v) => setQuad q i j v) p.quad }

/-- Removes the entries of the quadratic form at positions. -/
def deleteQuadElements (p : Problem) (cols₁ cols₂ : List Nat) : Except ResultCode Problem := do
  p.checkQuadPositions cols₁ cols₂
  return { p with
    quad := (cols₁.zip cols₂).foldl (fun q (i, j) => q.erase (quadKey i j)) p.quad }

/-- Removes all entries of the quadratic form. -/
def deleteAllQuadElements (p : Problem) : Problem := { p with quad := .empty }

/-! ## The whole problem -/

/-- Puts other columns, rows, nonzeros and quadratic entries in place of the present ones. Entries
for one position add up. The name, the sense and the constant stay. -/
def replaceData (p : Problem) (cols : List ColData) (rows : List RowData)
    (entries quad : List (Nat × Nat × Float)) : Except ResultCode Problem :=
  let n := cols.length
  let m := rows.length
  if entries.any (fun (i, j, _) => m ≤ i || n ≤ j)
      || quad.any (fun (i, j, _) => n ≤ i || n ≤ j) then .error .modelInputError
  else .ok { p with
    cols
    rows
    matrix := Matrix.empty.addAll entries
    quad := quad.foldl (fun q (i, j, v) => q.addAt (quadKey i j) v) .empty }

/-- The matrix by columns in compressed form. -/
def colMajor (p : Problem) : Compressed Float := p.matrix.byCol.compressed p.numCols

/-- The lower triangle of the quadratic form by columns in compressed form: the entry of a pair
stands in the column of the smaller index. -/
def quadLower (p : Problem) : Compressed Float := p.quad.compressed p.numCols

/-! ## Fetching lines -/

/-- Fetches lines of a map with `n` lines into buffers. Without buffers for the starts only the
size is set; with some, all three have to be long enough. What lies beyond the lines fetched is
left as it was. -/
def fetchLines (lines : Sparse Float) (n : Nat) (invalidIndex : ResultCode) (wanted : List Nat)
    (b : LineBuffers) : ResultCode × LineBuffers :=
  if wanted.any (n ≤ ·) then (invalidIndex, b)
  else
    let fetched := wanted.map lines.line
    let size := fetched.flatten.length
    let b := { b with size }
    if b.starts.isEmpty then (.okay, b)
    else if b.indexes.length < size || b.values.length < size
        || b.starts.length < wanted.length + 1 then (.modelInputError, b)
    else
      let ends := (List.range (wanted.length + 1)).map fun k =>
        (fetched.take k).flatten.length
      (.okay, { b with
        starts := overwrite ends b.starts
        indexes := overwrite (fetched.flatten.map (·.1)) b.indexes
        values := overwrite (fetched.flatten.map (·.2)) b.values })

/-- Fetches columns. -/
def fetchCols (p : Problem) (wanted : List Nat) (b : LineBuffers) : ResultCode × LineBuffers :=
  fetchLines p.matrix.byCol p.numCols .modelInvalidColIdx wanted b

/-- Fetches rows. -/
def fetchRows (p : Problem) (wanted : List Nat) (b : LineBuffers) : ResultCode × LineBuffers :=
  fetchLines p.matrix.byRow p.numRows .modelInvalidRowIdx wanted b

end Problem

end MathProgram
