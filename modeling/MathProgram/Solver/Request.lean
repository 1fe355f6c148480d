import MathProgram.Bound
import MathProgram.Problem

/-!
# Requests to a solver library

A solver library works on instances, which are created, given a problem and options, run, asked for
results, and destroyed. `Request` lists what can be asked of it and `Request.Answer` is the type of
its answer, so that a library is a state machine: a `Solver` answers every request and moves to its
next state. Most answers carry a return code, of which `-1` is failure.

A linear program is passed by columns in compressed form, with infinities of the arithmetic for
infinite bounds, and a quadratic form by the lower triangle.
-/

namespace MathProgram

/-- A linear program as a solver library takes it. -/
structure LinearProgram where
  minSense : Bool
  offset : Float
  cost : List Float
  lower : List Float
  upper : List Float
  rowLower : List Float
  rowUpper : List Float
  starts : List Int32
  indexes : List Int32
  values : List Float
  /-- One for integer columns, zero for others; nothing if no column is integer. -/
  integrality : Option (List Int32)
  deriving Repr

namespace LinearProgram

/-- The number of columns. -/
def numCols (lp : LinearProgram) : Nat := lp.cost.length

/-- The number of rows. -/
def numRows (lp : LinearProgram) : Nat := lp.rowLower.length

/-- The number of nonzeros. -/
def numNonzeros (lp : LinearProgram) : Nat := lp.values.length

/-- The mark of an integer column. -/
def integerMark : Int32 := 1

/-- The linear part of a problem. -/
def ofProblem (p : Problem) : LinearProgram :=
  let a := p.colMajor
  { minSense := p.minSense
    offset := p.objConst
    cost := p.cols.map (·.obj)
    lower := p.cols.map fun c => toIeeeBound c.lb
    upper := p.cols.map fun c => toIeeeBound c.ub
    rowLower := p.rows.map fun r => toIeeeBound r.lhs
    rowUpper := p.rows.map fun r => toIeeeBound r.rhs
    starts := a.starts.map Int32.ofNat
    indexes := a.indexes.map Int32.ofNat
    values := a.values
    integrality :=
      if p.hasIntegers then some (p.cols.map fun c => if c.isInteger then integerMark else 0)
      else none }

end LinearProgram

/-- The lower triangle of a quadratic form as a solver library takes it. -/
structure Hessian where
  dimension : Nat
  starts : List Int32
  indexes : List Int32
  values : List Float
  deriving Repr

/-- The quadratic form of a problem. -/
def Hessian.ofProblem (p : Problem) : Hessian :=
  let q := p.quadLower
  { dimension := p.numCols
    starts := q.starts.map Int32.ofNat
    indexes := q.indexes.map Int32.ofNat
    values := q.values }

/-- The value of an option. -/
inductive OptionValue where
  | bool (b : Bool)
  | int (i : Int32)
  | real (x : Float)
  | text (s : String)
  deriving Repr

/-- The values that a solver library reports for columns and rows. -/
structure RawSolution where
  colValue : List Float
  colDual : List Float
  rowValue : List Float
  rowDual : List Float
  deriving Repr

/-- The linear program that a solver library has read from a file. -/
structure RawProgram where
  /-- Minus one for maximization. -/
  sense : Int32
  offset : Float
  cost : List Float
  lower : List Float
  upper : List Float
  rowLower : List Float
  rowUpper : List Float
  starts : List Int32
  indexes : List Int32
  values : List Float
  integrality : List Int32
  deriving Repr

/-- The number of an instance, in order of creation. -/
abbrev InstanceId := Nat

/-- What can be asked of a solver library. -/
inductive Request where
  | create (h : InstanceId)
  | destroy (h : InstanceId)
  | setOption (h : InstanceId) (name : String) (value : OptionValue)
  | passProgram (h : InstanceId) (lp : LinearProgram)
  | passHessian (h : InstanceId) (q : Hessian)
  | passColName (h : InstanceId) (index : Int32) (name : String)
  | passRowName (h : InstanceId) (index : Int32) (name : String)
  | run (h : InstanceId)
  | modelStatus (h : InstanceId)
  | objective (h : InstanceId)
  | runTime (h : InstanceId)
  | intInfo (h : InstanceId) (name : String)
  | realInfo (h : InstanceId) (name : String)
  | solution (h : InstanceId)
  | basis (h : InstanceId)
  | readModel (h : InstanceId) (file : String)
  | writeModel (h : InstanceId) (file : String)
  | writeSolution (h : InstanceId) (file : String)
  | numCols (h : InstanceId)
  | numRows (h : InstanceId)
  | numNonzeros (h : InstanceId)
  | program (h : InstanceId)
  | colName (h : InstanceId) (index : Int32)
  | rowName (h : InstanceId) (index : Int32)
  deriving Repr

/-- The type of the answer to a request. -/
def Request.Answer : Request → Type
  | create _ => Bool
  | destroy _ | passColName .. | passRowName .. => Unit
  | setOption .. | passProgram .. | passHessian .. | run _ | readModel .. | writeModel ..
  | writeSolution .. => Int32
  | modelStatus _ | numCols _ | numRows _ | numNonzeros _ => Int32
  | objective _ | runTime _ => Float
  | intInfo .. => Int32 × Int32
  | realInfo .. => Int32 × Float
  | solution _ => Int32 × RawSolution
  | basis _ => Int32 × List Int32 × List Int32
  | program _ => Int32 × RawProgram
  | colName .. | rowName .. => Int32 × List UInt8

/-- A solver library with states `σ`. -/
class Solver (σ : Type) where
  /-- The answer to a request in a state, and the next state. -/
  answer : (r : Request) → σ → r.Answer × σ

end MathProgram
