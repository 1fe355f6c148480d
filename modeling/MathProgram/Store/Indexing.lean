import MathProgram.Indexing
import MathProgram.Store.Attributes

/-!
# Attributes by index

Attributes of columns and rows are read and written after a check of the index. Here the access that
follows the check is one that fails out of range, as in `MathProgram.Indexing`.
-/

namespace MathProgram.Store

/-- Uses the item at an index that is checked first, and then has to be in range. -/
def useAt? {α β : Type} (xs : List α) (k : Nat) (e : ResultCode) (f : α → Except ResultCode β) :
    Option (Except ResultCode β) :=
  if xs.length ≤ k then some (.error e) else xs[k]?.map f

/-- Reads a whole-number attribute as `intAttr` does. -/
def intAttr? (s : Store) (name : String) (index : Option Nat) : Option (Except ResultCode Int32) :=
  match IntAttr.ofName? name, index with
  | some (.ofModel a), none => some (s.modelInt a)
  | some (.ofCol a), some j =>
    useAt? s.problem.cols j .modelInvalidColIdx fun c => s.colInt j c a
  | some (.ofRow a), some i => useAt? s.problem.rows i .modelInvalidRowIdx fun _ => s.rowInt i a
  | _, _ => some (.error .modelInvalidIntAttr)

/-- Reads a real attribute as `realAttr` does. -/
def realAttr? (s : Store) (name : String) (index : Option Nat) : Option (Except ResultCode Float) :=
  match RealAttr.ofName? name, index with
  | some (.ofModel a), none => some (s.modelReal a)
  | some (.ofCol a), some j =>
    useAt? s.problem.cols j .modelInvalidColIdx fun c => s.colReal j c a
  | some (.ofRow a), some i =>
    useAt? s.problem.rows i .modelInvalidRowIdx fun r => s.rowReal i r a
  | _, _ => some (.error .modelInvalidRealAttr)

/-- Reads a text attribute as `strAttr` does. -/
def strAttr? (s : Store) (name : String) (index : Option Nat) : Option (Except ResultCode String) :=
  match StrAttr.ofName? name, index with
  | some .problemName, none => some (.ok s.problem.name)
  | some (.param p), none =>
    match s.params.get? p with
    | some (.str t) => some (.ok t)
    | _ => some (.error .modelInvalidStrAttr)
  | some .colName, some j =>
    useAt? s.problem.cols j .modelInvalidColIdx fun c => .ok (c.name.getD "")
  | some .rowName, some i =>
    useAt? s.problem.rows i .modelInvalidRowIdx fun r => .ok (r.name.getD "")
  | _, _ => some (.error .modelInvalidStrAttr)

/-- Changes a column as `modifyCol` does. -/
def modifyCol? (s : Store) (j : Nat) (f : ColData → ColData) : Option Store := do
  let cols ← update? s.problem.cols j f
  return s.withProblem { s.problem with cols }

/-- Changes a row as `modifyRow` does. -/
def modifyRow? (s : Store) (i : Nat) (f : RowData → RowData) : Option Store := do
  let rows ← update? s.problem.rows i f
  return s.withProblem { s.problem with rows }

/-- Sets a place of a basis as `withBasis` does. -/
def withBasis? (basis : List Int32) (n k : Nat) (v : Int32) :
    Option (Except ResultCode (List Int32)) :=
  match BasisStatus.ofCode? v with
  | none => some (.error .invalidBasisStatus)
  | some _ => (update? (resized n BasisStatus.isFree.code basis) k fun _ => v).map .ok

/-- Writes a whole-number attribute as `setIntAttr` does. -/
def setIntAttr? (s : Store) (name : String) (index : Option Nat) (v : Int32) :
    Option (Except ResultCode Store) :=
  match IntAttr.ofName? name, index with
  | some (.ofModel a), none =>
    match a with
    | .minSense => some (.ok (s.withProblem { s.problem with minSense := v != 0 }))
    | _ => some (.error .modelInvalidIntAttr)
  | some (.ofCol a), some j =>
    if s.numCols ≤ j then some (.error .modelInvalidColIdx)
    else match a with
      | .isInteger => (s.modifyCol? j fun c => { c with isInteger := v != 0 }).map .ok
      | .basis => (withBasis? s.solution.colBasis s.numCols j v).map fun r => do
        let colBasis ← r
        return { s with solution := { s.solution with colBasis } }
      | .iis => some (.error .modelInvalidIntAttr)
  | some (.ofRow a), some i =>
    if s.numRows ≤ i then some (.error .modelInvalidRowIdx)
    else match a with
      | .basis => (withBasis? s.solution.rowBasis s.numRows i v).map fun r => do
        let rowBasis ← r
        return { s with solution := { s.solution with rowBasis } }
      | .iis => some (.error .modelInvalidIntAttr)
  | _, _ => some (.error .modelInvalidIntAttr)

/-- Writes a real attribute as `setRealAttr` does. -/
def setRealAttr? (s : Store) (name : String) (index : Option Nat) (v : Float) :
    Option (Except ResultCode Store) :=
  match RealAttr.ofName? name, index with
  | some (.ofModel a), none =>
    match a with
    | .objConst => some (.ok (s.withProblem { s.problem with objConst := v }))
    | _ => some (.error .modelInvalidRealAttr)
  | some (.ofCol a), some j =>
    if s.numCols ≤ j then some (.error .modelInvalidColIdx)
    else match a with
      | .lb => (s.modifyCol? j fun c => { c with lb := v }).map .ok
      | .ub => (s.modifyCol? j fun c => { c with ub := v }).map .ok
      | .obj => (s.modifyCol? j fun c => { c with obj := v }).map .ok
      | .primal | .reducedCost => some (.error .modelInvalidRealAttr)
  | some (.ofRow a), some i =>
    if s.numRows ≤ i then some (.error .modelInvalidRowIdx)
    else match a with
      | .lhs => (s.modifyRow? i fun r => { r with lhs := v }).map .ok
      | .rhs => (s.modifyRow? i fun r => { r with rhs := v }).map .ok
      | .dual | .activity => some (.error .modelInvalidRealAttr)
  | _, _ => some (.error .modelInvalidRealAttr)

/-- Writes a text attribute as `setStrAttr` does. -/
def setStrAttr? (s : Store) (name : String) (index : Option Nat) (v : String) :
    Option (Except ResultCode Store) :=
  match StrAttr.ofName? name, index with
  | some .problemName, none => some (.ok (s.setName v))
  | some (.param p), none => some (.ok { s with params := s.params.replace p (.str v) })
  | some .colName, some j =>
    if s.numCols ≤ j then some (.error .modelInvalidColIdx)
    else (update? s.problem.cols j fun c => { c with name := some v }).map fun cols =>
      .ok { s with problem := { s.problem with cols } }
  | some .rowName, some i =>
    if s.numRows ≤ i then some (.error .modelInvalidRowIdx)
    else (update? s.problem.rows i fun r => { r with name := some v }).map fun rows =>
      .ok { s with problem := { s.problem with rows } }
  | _, _ => some (.error .modelInvalidStrAttr)

end MathProgram.Store
