import MathProgram.Model.Solving

/-!
# Snapshots of a model

The whole problem as a model shows it through its own calls: entries of the quadratic form, then
variables with their columns, then constraints with their rows, then what belongs to the model as a
whole. The first call that fails ends the listing.
-/

namespace MathProgram

/-- A variable with its attributes and its column. -/
structure VarView where
  lb : Float
  ub : Float
  obj : Float
  isInteger : Int32
  name : String
  column : Column Float
  deriving Repr

/-- A constraint with its attributes and its expression. -/
structure ConsView where
  lhs : Float
  rhs : Float
  name : String
  expr : LinearExpr Float
  deriving Repr

/-- All that a model shows of its problem. -/
structure Snapshot where
  /-- The nonzeros of the upper triangle of the quadratic form, row by row. -/
  quad : List (Nat × Nat × Float)
  vars : List VarView
  conss : List ConsView
  name : String
  isMin : Bool
  isMax : Bool
  offset : Float
  numVars : Int32
  numConss : Int32
  numEntries : Int32
  deriving Repr

namespace Model

variable {σ : Type}

/-- The nonzeros in one row of the upper triangle, given the variables from the diagonal on. Each
entry is asked for by a call of its own. -/
def quadRow (i : Nat) (x : Var) (fromHere : List Var) : ModelM σ (List (Nat × Nat × Float)) := do
  let entries ← (fromHere.zipIdx i).mapM fun (y, j) => do
    return (← quadraticElements [x] [y]).map fun v => (i, j, v)
  return entries.flatten.filter fun (_, _, v) => v != 0

/-- A variable as it is shown. -/
def varView (x : Var) : ModelM σ VarView := do
  let j := some x.index
  return ⟨← attr .real "LB" j, ← attr .real "UB" j, ← attr .real "Obj" j,
    ← attr .int "IsInteger" j, ← attr .str "ColName" j, ← col x⟩

/-- A constraint as it is shown. -/
def consView (c : Cons) : ModelM σ ConsView := do
  let i := some c.index
  return ⟨← attr .real "LHS" i, ← attr .real "RHS" i, ← attr .str "RowName" i, ← exprLinear c⟩

/-- All that a model shows of its problem. -/
def snapshot : ModelM σ Snapshot := do
  let xs ← allVars
  let cs ← allConss
  let quad ← xs.zipIdx.mapM fun (x, i) => quadRow i x (xs.drop i)
  let vars ← xs.mapM varView
  let conss ← cs.mapM consView
  return ⟨quad.flatten, vars, conss, ← attr .str "ProbName" none, ← isMinObjSense,
    ← isMaxObjSense, ← objOffset, ← attr .int "NumVars" none, ← attr .int "NumConss" none,
    ← attr .int "NumEnts" none⟩

end Model

end MathProgram
