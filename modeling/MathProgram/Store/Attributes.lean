import MathProgram.Attribute
import MathProgram.Store.Basic

/-!
# Attributes of a store

Attributes are read and written by name, those of columns and rows with an index. A name that is
unknown, or used with an index where it takes none or without where it takes one, gives the error
of its type; an index out of range gives the error of columns or rows. Writing the data of the
problem discards what was found for it, writing a basis status or a text does not.
-/

namespace MathProgram.Store

/-- A value that is there only with a solution. -/
def ifSolved {α : Type} (s : Store) (v : Option α) : Except ResultCode α :=
  match s.solution.hasSolution, v with
  | true, some v => .ok v
  | _, _ => .error .noSoln

/-- A value that may be missing. -/
def orNoSoln {α : Type} : Option α → Except ResultCode α
  | some v => .ok v
  | none => .error .noSoln

/-- A count or time of the last solve. -/
def stat {α : Type} (s : Store) (f : SolveStats → α) : Except ResultCode α :=
  match s.solution.stats with
  | some st => .ok (f st)
  | none => .error .noStatistics

/-- A truth value as a number. -/
def flag (b : Bool) : Int32 := if b then 1 else 0

/-! ## Whole numbers -/

/-- Reads a whole-number attribute of the model. -/
def modelInt (s : Store) : ModelInt → Except ResultCode Int32
  | .numVars => .ok (Int32.ofNat s.numCols)
  | .numConss => .ok (Int32.ofNat s.numRows)
  | .numEnts => .ok (Int32.ofNat s.problem.matrix.size)
  | .minSense => .ok (flag s.problem.minSense)
  | .hasSolution => .ok (flag s.solution.hasSolution)
  | .hasPrimalRay => .ok (flag s.solution.hasPrimalRay)
  | .hasDualRay => .ok (flag s.solution.hasDualRay)
  | .spxIterations => s.stat (·.spxIterations)
  | .ipmIterations => s.stat (·.ipmIterations)

/-- Reads a whole-number attribute of column `j`. -/
def colInt (s : Store) (j : Nat) (c : ColData) : ColInt → Except ResultCode Int32
  | .isInteger => .ok (flag c.isInteger)
  | .basis => orNoSoln s.solution.colBasis[j]?
  | .iis => orNoSoln (s.iis.bind fun f => f.cols[j]?)

/-- Reads a whole-number attribute of row `i`. -/
def rowInt (s : Store) (i : Nat) : RowInt → Except ResultCode Int32
  | .basis => orNoSoln s.solution.rowBasis[i]?
  | .iis => orNoSoln (s.iis.bind fun f => f.rows[i]?)

/-- Reads a whole-number attribute. -/
def intAttr (s : Store) (name : String) (index : Option Nat) : Except ResultCode Int32 :=
  match IntAttr.ofName? name, index with
  | some (.ofModel a), none => s.modelInt a
  | some (.ofCol a), some j =>
    match s.problem.cols[j]? with
    | some c => s.colInt j c a
    | none => .error .modelInvalidColIdx
  | some (.ofRow a), some i =>
    match s.problem.rows[i]? with
    | some _ => s.rowInt i a
    | none => .error .modelInvalidRowIdx
  | _, _ => .error .modelInvalidIntAttr

/-- A basis of `n` places with one place set. -/
def withBasis (basis : List Int32) (n k : Nat) (v : Int32) : Except ResultCode (List Int32) :=
  match BasisStatus.ofCode? v with
  | none => .error .invalidBasisStatus
  | some _ => .ok ((resized n BasisStatus.isFree.code basis).set k v)

/-- Changes column `j`. -/
def modifyCol (s : Store) (j : Nat) (f : ColData → ColData) : Store :=
  s.withProblem { s.problem with cols := s.problem.cols.modify j f }

/-- Changes row `i`. -/
def modifyRow (s : Store) (i : Nat) (f : RowData → RowData) : Store :=
  s.withProblem { s.problem with rows := s.problem.rows.modify i f }

/-- Writes a whole-number attribute. -/
def setIntAttr (s : Store) (name : String) (index : Option Nat) (v : Int32) :
    Except ResultCode Store :=
  match IntAttr.ofName? name, index with
  | some (.ofModel a), none =>
    match a with
    | .minSense => .ok (s.withProblem { s.problem with minSense := v != 0 })
    | _ => .error .modelInvalidIntAttr
  | some (.ofCol a), some j =>
    if s.numCols ≤ j then .error .modelInvalidColIdx
    else match a with
      | .isInteger => .ok (s.modifyCol j fun c => { c with isInteger := v != 0 })
      | .basis => do
        let colBasis ← withBasis s.solution.colBasis s.numCols j v
        return { s with solution := { s.solution with colBasis } }
      | .iis => .error .modelInvalidIntAttr
  | some (.ofRow a), some i =>
    if s.numRows ≤ i then .error .modelInvalidRowIdx
    else match a with
      | .basis => do
        let rowBasis ← withBasis s.solution.rowBasis s.numRows i v
        return { s with solution := { s.solution with rowBasis } }
      | .iis => .error .modelInvalidIntAttr
  | _, _ => .error .modelInvalidIntAttr

/-! ## Real numbers -/

/-- Reads a real attribute of the model. -/
def modelReal (s : Store) : ModelReal → Except ResultCode Float
  | .objConst => .ok s.problem.objConst
  | .solutionTime => s.stat (·.solutionTime)
  | .presolverTime => s.stat (·.presolverTime)
  | .solverTime => s.stat (·.solverTime)
  | .primalObjective => s.ifSolved (some s.solution.primalObjective)
  | .dualObjective => s.ifSolved (some s.solution.dualObjective)
  | .mipGapAbs => s.ifSolved (some s.solution.mipGapAbs)
  | .mipGapRel => s.ifSolved (some s.solution.mipGapRel)

/-- Reads a real attribute of column `j`. -/
def colReal (s : Store) (j : Nat) (c : ColData) : ColReal → Except ResultCode Float
  | .lb => .ok c.lb
  | .ub => .ok c.ub
  | .obj => .ok c.obj
  | .primal => s.ifSolved s.solution.primal[j]?
  | .reducedCost => s.ifSolved s.solution.reducedCost[j]?

/-- Reads a real attribute of row `i`. -/
def rowReal (s : Store) (i : Nat) (r : RowData) : RowReal → Except ResultCode Float
  | .lhs => .ok r.lhs
  | .rhs => .ok r.rhs
  | .dual => s.ifSolved s.solution.dual[i]?
  | .activity => s.ifSolved s.solution.activity[i]?

/-- Reads a real attribute. -/
def realAttr (s : Store) (name : String) (index : Option Nat) : Except ResultCode Float :=
  match RealAttr.ofName? name, index with
  | some (.ofModel a), none => s.modelReal a
  | some (.ofCol a), some j =>
    match s.problem.cols[j]? with
    | some c => s.colReal j c a
    | none => .error .modelInvalidColIdx
  | some (.ofRow a), some i =>
    match s.problem.rows[i]? with
    | some r => s.rowReal i r a
    | none => .error .modelInvalidRowIdx
  | _, _ => .error .modelInvalidRealAttr

/-- Writes a real attribute. -/
def setRealAttr (s : Store) (name : String) (index : Option Nat) (v : Float) :
    Except ResultCode Store :=
  match RealAttr.ofName? name, index with
  | some (.ofModel a), none =>
    match a with
    | .objConst => .ok (s.withProblem { s.problem with objConst := v })
    | _ => .error .modelInvalidRealAttr
  | some (.ofCol a), some j =>
    if s.numCols ≤ j then .error .modelInvalidColIdx
    else match a with
      | .lb => .ok (s.modifyCol j fun c => { c with lb := v })
      | .ub => .ok (s.modifyCol j fun c => { c with ub := v })
      | .obj => .ok (s.modifyCol j fun c => { c with obj := v })
      | .primal | .reducedCost => .error .modelInvalidRealAttr
  | some (.ofRow a), some i =>
    if s.numRows ≤ i then .error .modelInvalidRowIdx
    else match a with
      | .lhs => .ok (s.modifyRow i fun r => { r with lhs := v })
      | .rhs => .ok (s.modifyRow i fun r => { r with rhs := v })
      | .dual | .activity => .error .modelInvalidRealAttr
  | _, _ => .error .modelInvalidRealAttr

/-! ## Texts -/

/-- Reads a text attribute. An entity without a name has the empty text. -/
def strAttr (s : Store) (name : String) (index : Option Nat) : Except ResultCode String :=
  match StrAttr.ofName? name, index with
  | some .problemName, none => .ok s.problem.name
  | some (.param p), none =>
    match s.params.get? p with
    | some (.str t) => .ok t
    | _ => .error .modelInvalidStrAttr
  | some .colName, some j =>
    match s.problem.cols[j]? with
    | some c => .ok (c.name.getD "")
    | none => .error .modelInvalidColIdx
  | some .rowName, some i =>
    match s.problem.rows[i]? with
    | some r => .ok (r.name.getD "")
    | none => .error .modelInvalidRowIdx
  | _, _ => .error .modelInvalidStrAttr

/-- Writes a text attribute. -/
def setStrAttr (s : Store) (name : String) (index : Option Nat) (v : String) :
    Except ResultCode Store :=
  match StrAttr.ofName? name, index with
  | some .problemName, none => .ok (s.setName v)
  | some (.param p), none => .ok { s with params := s.params.replace p (.str v) }
  | some .colName, some j =>
    if s.numCols ≤ j then .error .modelInvalidColIdx
    else .ok { s with problem := { s.problem with
      cols := s.problem.cols.modify j fun c => { c with name := some v } } }
  | some .rowName, some i =>
    if s.numRows ≤ i then .error .modelInvalidRowIdx
    else .ok { s with problem := { s.problem with
      rows := s.problem.rows.modify i fun r => { r with name := some v } } }
  | _, _ => .error .modelInvalidStrAttr

end MathProgram.Store
