import MathProgram.Store.Operations

/-!
# Operations in place

The operations of a store give the changed store or a result code. Here they are spelled out as
they run on a store in place: a `Procedure` checks and changes in turn, and when it is left with a
result code, what it has changed until then stays changed. `Op.procedure` does each operation in
this way, entry by entry and one copy of the matrix after the other.
-/

namespace MathProgram

/-- A computation on a state in place, which may be left with a result code. -/
abbrev Procedure (σ α : Type) := ExceptT ResultCode (StateM σ) α

namespace Procedure

variable {σ α β : Type}

/-- Runs a procedure: how it ends, and the state then. -/
def exec (p : Procedure σ α) (s : σ) : Except ResultCode α × σ := p.run s

/-- Leaves with a result code if something is wrong in the state. -/
def check (wrong : σ → Prop) [DecidablePred wrong] (e : ResultCode) : Procedure σ Unit := do
  if wrong (← get) then throw e

/-- Changes the state. -/
def change (f : σ → σ) : Procedure σ Unit := modify f

/-- Goes on with a result, or leaves with its code. -/
def orLeave (r : Except ResultCode α) : Procedure σ α := ExceptT.mk (pure r)

end Procedure

namespace Store

open Procedure

/-! ## Parts of a store -/

/-- The store with a changed problem. -/
def mapProblem (f : Problem → Problem) (s : Store) : Store := { s with problem := f s.problem }

/-- The store with a changed matrix. -/
def mapMatrix (f : Matrix → Matrix) : Store → Store :=
  mapProblem fun p => { p with matrix := f p.matrix }

/-- The store with a changed quadratic form. -/
def mapQuad (f : Sparse Float → Sparse Float) : Store → Store :=
  mapProblem fun p => { p with quad := f p.quad }

/-- Changes the copy of the matrix by columns. -/
def onCols (f : Sparse Float → Sparse Float) : Procedure Store Unit :=
  change (mapMatrix fun a => { a with byCol := f a.byCol })

/-- Changes the copy of the matrix by rows. -/
def onRows (f : Sparse Float → Sparse Float) : Procedure Store Unit :=
  change (mapMatrix fun a => { a with byRow := f a.byRow })

/-- Adds entries to the matrix. -/
def addEntries (entries : List (Nat × Nat × Float)) : Procedure Store Unit :=
  entries.forM fun (i, j, v) => do
    onCols (·.addAt (j, i) v)
    onRows (·.addAt (i, j) v)

/-- Removes an entry of the matrix. -/
def eraseEntry (i j : Nat) : Procedure Store Unit := do
  onRows (·.erase (i, j))
  onCols (·.erase (j, i))

/-- Adds entries to the quadratic form. -/
def addQuadEntries (entries : List (Nat × Nat × Float)) : Procedure Store Unit :=
  entries.forM fun (i, j, v) => change (mapQuad (·.addAt (Problem.quadKey i j) v))

/-- Leaves unless rows and columns stand for positions of the matrix. -/
def checkPairs (rows cols : List Nat) : Procedure Store Unit := do
  check (fun _ => rows.length ≠ cols.length) .modelInputError
  check (fun s => rows.any (s.problem.numRows ≤ ·)) .modelInvalidRowIdx
  check (fun s => cols.any (s.problem.numCols ≤ ·)) .modelInvalidColIdx

/-- Leaves unless columns stand for positions of the quadratic form. -/
def checkQuadPairs (cols₁ cols₂ : List Nat) : Procedure Store Unit := do
  check (fun _ => cols₁.length ≠ cols₂.length) .modelInputError
  check (fun s => (cols₁ ++ cols₂).any (s.problem.numCols ≤ ·)) .modelInvalidColIdx

/-! ## Attributes and parameters -/

/-- What an attribute belongs to. -/
inductive Target where
  | model
  | col
  | row

/-- Leaves unless an attribute can have the index. -/
def checkTarget (t : Target) (index : Option Nat) (invalid : ResultCode) : Procedure Store Unit :=
  match t, index with
  | .model, none => pure ()
  | .col, some j => check (fun s => s.numCols ≤ j) .modelInvalidColIdx
  | .row, some i => check (fun s => s.numRows ≤ i) .modelInvalidRowIdx
  | _, _ => throw invalid

/-- What a whole-number attribute belongs to. -/
def targetOfInt : IntAttr → Target
  | .ofModel _ => .model
  | .ofCol _ => .col
  | .ofRow _ => .row

/-- What a real attribute belongs to. -/
def targetOfReal : RealAttr → Target
  | .ofModel _ => .model
  | .ofCol _ => .col
  | .ofRow _ => .row

/-- What a text attribute belongs to. -/
def targetOfStr : StrAttr → Target
  | .problemName | .param _ => .model
  | .colName => .col
  | .rowName => .row

/-- Changes a column. -/
def onCol (j : Nat) (f : ColData → ColData) : Procedure Store Unit :=
  change (mapProblem fun p => { p with cols := p.cols.modify j f })

/-- Changes a row. -/
def onRow (i : Nat) (f : RowData → RowData) : Procedure Store Unit :=
  change (mapProblem fun p => { p with rows := p.rows.modify i f })

/-- Changes the solution. -/
def onSolution (f : Solution → Solution) : Procedure Store Unit :=
  change fun s => { s with solution := f s.solution }

/-- Writes a whole-number attribute. A basis is brought to its length before a place is set. -/
def writeInt (name : String) (index : Option Nat) (v : Int32) : Procedure Store Unit :=
  match IntAttr.ofName? name with
  | none => throw .modelInvalidIntAttr
  | some a => do
    checkTarget (targetOfInt a) index .modelInvalidIntAttr
    let k := index.getD 0
    match a with
    | .ofModel .minSense =>
      change (mapProblem fun p => { p with minSense := v != 0 })
      change invalidate
    | .ofCol .isInteger =>
      onCol k fun c => { c with isInteger := v != 0 }
      change invalidate
    | .ofCol .basis =>
      check (fun _ => (BasisStatus.ofCode? v).isNone) .invalidBasisStatus
      let n := (← get).problem.numCols
      onSolution fun sol => { sol with colBasis := resized n BasisStatus.isFree.code sol.colBasis }
      onSolution fun sol => { sol with colBasis := sol.colBasis.set k v }
    | .ofRow .basis =>
      check (fun _ => (BasisStatus.ofCode? v).isNone) .invalidBasisStatus
      let n := (← get).problem.numRows
      onSolution fun sol => { sol with rowBasis := resized n BasisStatus.isFree.code sol.rowBasis }
      onSolution fun sol => { sol with rowBasis := sol.rowBasis.set k v }
    | _ => throw .modelInvalidIntAttr

/-- Writes a real attribute. -/
def writeReal (name : String) (index : Option Nat) (v : Float) : Procedure Store Unit :=
  match RealAttr.ofName? name with
  | none => throw .modelInvalidRealAttr
  | some a => do
    checkTarget (targetOfReal a) index .modelInvalidRealAttr
    let k := index.getD 0
    match a with
    | .ofModel .objConst => change (mapProblem fun p => { p with objConst := v })
    | .ofCol .lb => onCol k fun c => { c with lb := v }
    | .ofCol .ub => onCol k fun c => { c with ub := v }
    | .ofCol .obj => onCol k fun c => { c with obj := v }
    | .ofRow .lhs => onRow k fun r => { r with lhs := v }
    | .ofRow .rhs => onRow k fun r => { r with rhs := v }
    | _ => throw .modelInvalidRealAttr
    change invalidate

/-- Writes a text attribute. -/
def writeStr (name : String) (index : Option Nat) (v : String) : Procedure Store Unit :=
  match StrAttr.ofName? name with
  | none => throw .modelInvalidStrAttr
  | some a => do
    checkTarget (targetOfStr a) index .modelInvalidStrAttr
    let k := index.getD 0
    match a with
    | .problemName => change (mapProblem fun p => { p with name := v })
    | .colName => onCol k fun c => { c with name := some v }
    | .rowName => onRow k fun r => { r with name := some v }
    | .param p => change fun s => { s with params := s.params.replace p (.str v) }

/-- Sets a parameter. The value is converted before its type is checked. -/
def writeParam (name : String) (v : ParamValue) : Procedure Store Unit := do
  match (← get).params.get? name with
  | none => throw .paramSetError
  | some old =>
    let v := ParamTable.coerced old.type v
    check (fun _ => v.type ≠ old.type) .paramSetError
    change fun s => { s with params := s.params.replace name v }

/-! ## Columns, rows and entries -/

/-- Appends a column. -/
def appendCol (c : ColData) (rows : List Nat) (vals : List Float) : Procedure Store Unit := do
  check (fun _ => rows.length ≠ vals.length) .modelInputError
  check (fun s => rows.any (s.problem.numRows ≤ ·)) .modelInvalidRowIdx
  let j := (← get).problem.numCols
  change (mapProblem fun p => { p with cols := p.cols ++ [c] })
  addEntries ((rows.zip vals).map fun (i, v) => (i, j, v))
  change Store.invalidate

/-- Appends a row. -/
def appendRow (r : RowData) (cols : List Nat) (vals : List Float) : Procedure Store Unit := do
  check (fun _ => cols.length ≠ vals.length) .modelInputError
  check (fun s => cols.any (s.problem.numCols ≤ ·)) .modelInvalidColIdx
  let i := (← get).problem.numRows
  change (mapProblem fun p => { p with rows := p.rows ++ [r] })
  addEntries ((cols.zip vals).map fun (j, v) => (i, j, v))
  change Store.invalidate

/-- Removes columns. -/
def dropCols (removed : List Nat) : Procedure Store Unit := do
  check (fun s => removed.any (s.problem.numCols ≤ ·)) .modelInvalidColIdx
  change (mapProblem fun p => { p with cols := Problem.survivors removed p.cols })
  onCols (·.mapKeys? fun (j, i) => (Problem.rank removed j).map fun j => (j, i))
  change (mapMatrix fun a => { a with byRow := a.byCol.transpose })
  change (mapQuad (·.mapKeys? fun (i, j) => do
    return (← Problem.rank removed i, ← Problem.rank removed j)))
  change Store.invalidate

/-- Removes rows. -/
def dropRows (removed : List Nat) : Procedure Store Unit := do
  check (fun s => removed.any (s.problem.numRows ≤ ·)) .modelInvalidRowIdx
  change (mapProblem fun p => { p with rows := Problem.survivors removed p.rows })
  onRows (·.mapKeys? fun (i, j) => (Problem.rank removed i).map fun i => (i, j))
  change (mapMatrix fun a => { a with byCol := a.byRow.transpose })
  change Store.invalidate

/-- Writes entries of the matrix; a zero removes the entry. -/
def writeElements (rows cols : List Nat) (vals : List Float) : Procedure Store Unit := do
  checkPairs rows cols
  check (fun _ => vals.length ≠ rows.length) .modelInputError
  ((rows.zip cols).zip vals).forM fun ((i, j), v) =>
    if v == 0 then eraseEntry i j
    else do
      onRows (·.insert (i, j) v)
      onCols (·.insert (j, i) v)
  change Store.invalidate

/-- Removes entries of the matrix. -/
def eraseElements (rows cols : List Nat) : Procedure Store Unit := do
  checkPairs rows cols
  (rows.zip cols).forM fun (i, j) => eraseEntry i j
  change Store.invalidate

/-- Writes entries of the quadratic form; a zero removes the entry. -/
def writeQuadElements (cols₁ cols₂ : List Nat) (vals : List Float) : Procedure Store Unit := do
  checkQuadPairs cols₁ cols₂
  check (fun _ => vals.length ≠ cols₁.length) .modelInputError
  ((cols₁.zip cols₂).zip vals).forM fun ((i, j), v) =>
    if v == 0 then change (mapQuad (·.erase (Problem.quadKey i j)))
    else change (mapQuad (·.insert (Problem.quadKey i j) v))
  change Store.invalidate

/-- Removes entries of the quadratic form. -/
def eraseQuadElements (cols₁ cols₂ : List Nat) : Procedure Store Unit := do
  checkQuadPairs cols₁ cols₂
  (cols₁.zip cols₂).forM fun (i, j) => change (mapQuad (·.erase (Problem.quadKey i j)))
  change Store.invalidate

/-- Puts in a whole problem. -/
def writeProblem (cols : List ColData) (rows : List RowData)
    (entries quad : List (Nat × Nat × Float)) : Procedure Store Unit := do
  check (fun _ => entries.any (fun (i, j, _) => rows.length ≤ i || cols.length ≤ j)
    || quad.any (fun (i, j, _) => cols.length ≤ i || cols.length ≤ j)) .modelInputError
  change (mapProblem fun p => { p with cols })
  change (mapProblem fun p => { p with rows })
  onCols fun _ => .empty
  onRows fun _ => .empty
  change (mapQuad fun _ => .empty)
  addEntries entries
  addQuadEntries quad
  change Store.invalidate

/-! ## Every operation -/

/-- An operation as it runs in place. The loading of a file is left as it is. -/
def Op.procedure : Op → Procedure Store Unit
  | addCol c rows vals => appendCol c rows vals
  | addRow r cols vals => appendRow r cols vals
  | deleteCols removed => dropCols removed
  | deleteRows removed => dropRows removed
  | setElements rows cols vals => writeElements rows cols vals
  | deleteElements rows cols => eraseElements rows cols
  | deleteAllElements => do
    onRows fun _ => .empty
    onCols fun _ => .empty
    change Store.invalidate
  | setQuadElements cols₁ cols₂ vals => writeQuadElements cols₁ cols₂ vals
  | deleteQuadElements cols₁ cols₂ => eraseQuadElements cols₁ cols₂
  | deleteAllQuadElements => do
    change (mapQuad fun _ => .empty)
    change Store.invalidate
  | setIntAttr name index v => writeInt name index v
  | setRealAttr name index v => writeReal name index v
  | setStrAttr name index v => writeStr name index v
  | setParam name v => writeParam name v
  | replaceProblem cols rows entries quad => writeProblem cols rows entries quad
  | setName name => change (·.setName name)
  | setMinSense minSense => change (·.setMinSense minSense)
  | setObjConst objConst => change (·.setObjConst objConst)
  | setSolution solution => change (·.setSolution solution)
  | setIis rows cols => change (·.setIis rows cols)
  | invalidate => change Store.invalidate
  | recordJob result => change fun s => (s.recordJob result).2
  | setLog log => change fun s => { s with log }
  | readTask bytes parts => ExceptT.mk (TaskFile.loadBytes bytes parts)

end Store

end MathProgram
