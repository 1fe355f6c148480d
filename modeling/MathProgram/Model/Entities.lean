import MathProgram.Expr.Column
import MathProgram.Model.Basic
import MathProgram.Relation

/-!
# Variables and constraints of a model

Adding, finding and deleting. Lists are added one after the other, so those before one that fails
stay. An expression is merged before it becomes a row; a column is passed on as it is.
-/

namespace MathProgram.Model

open ModelM

variable {σ : Type}

/-! ## Variables -/

/-- Adds a column with its nonzeros. -/
def pushCol (c : ColData) (rows : List Nat) (vals : List Float) : ModelM σ Var := do
  call "add_var" (Engine.addCol c rows vals)
  let m ← get
  let x : Var := ⟨m.id, m.vars.length, m.varGen⟩
  set { m with vars := m.vars ++ [x] }
  touch
  record .trace "add_var" "Added variable" [("index", .int x.index), ("nnz", .int rows.length)]
  return x

/-- Adds a variable that no constraint mentions. -/
def addVar (c : ColData) : ModelM σ Var := pushCol c [] []

/-- Adds a variable with its column. -/
def addVarWithCol (c : ColData) (a : Column Float) : ModelM σ Var := do
  let rows ← checked fun m => m.consIndexes (a.terms.map (·.1))
  pushCol c rows (a.terms.map (·.2))

/-- Adds a variable that takes part in constraints, with coefficients or else with ones. -/
def addVarWithConss (c : ColData) (cs : List Cons) (coefs : Option (List Float)) :
    ModelM σ Var := do
  let rows ← checked fun m => m.consIndexes cs
  let vals := coefs.getD (List.replicate cs.length 1)
  check (checkLength .coefficients cs.length vals.length)
  pushCol c rows vals

/-- The data of variables that are added without any: nonnegative, and not in the objective. -/
def defaultCol (isInteger : Bool) : ColData := ⟨0, infinity, 0, isInteger, none⟩

/-- Adds variables without names. -/
def addVars (count : Nat) (isInteger : Bool) : ModelM σ (List Var) :=
  times count (addVar (defaultCol isInteger))

/-- The data of several variables. The flags and names may be missing. -/
structure ColLists where
  lower : List Float
  upper : List Float
  obj : List Float
  integers : Option (List Bool)
  names : Option (List String)

/-- Checks the length of a list that may be missing. -/
def checkOptional {α : Type} (what : Counted) (expected : Nat) (xs : Option (List α)) :
    Except Error Unit :=
  match xs with
  | some xs => checkLength what expected xs.length
  | none => .ok ()

/-- The names of `n` entities, given or not. -/
def namesOf (n : Nat) (names : Option (List String)) : List (Option String) :=
  match names with
  | some names => names.map some
  | none => List.replicate n none

/-- The columns that lists of data stand for, where all lists are of one length. -/
def ColLists.cols (d : ColLists) : List ColData :=
  let n := d.lower.length
  let integers := d.integers.getD (List.replicate n false)
  (d.lower.zip (d.upper.zip (d.obj.zip (integers.zip (namesOf n d.names))))).map
    fun (lb, ub, obj, isInteger, name) => ⟨lb, ub, obj, isInteger, name⟩

/-- Adds variables from lists of data. -/
def addVarsWith (d : ColLists) : ModelM σ (List Var) := do
  let n := d.lower.length
  check (checkLength .upperBounds n d.upper.length)
  check (checkLength .objectiveCoefficients n d.obj.length)
  check (checkOptional .integralityFlags n d.integers)
  check (checkOptional .names n d.names)
  d.cols.mapM addVar

/-- Adds variables from lists of data, with their columns. -/
def addVarsWithCols (d : ColLists) (columns : List (Column Float)) : ModelM σ (List Var) := do
  let n := d.lower.length
  check (checkLength .upperBounds n d.upper.length)
  check (checkLength .objectiveCoefficients n d.obj.length)
  check (checkLength .columns n columns.length)
  check (checkOptional .integralityFlags n d.integers)
  check (checkOptional .names n d.names)
  (d.cols.zip columns).mapM fun (c, a) => addVarWithCol c a

/-! ## Constraints -/

/-- Adds a row. -/
def pushRow (row : StatedRow Float) (name : Option String) : ModelM σ Cons := do
  let (cols, vals) ← checked fun m => m.linearParts row.expr.purge
  call "add_cons" (Engine.addRow ⟨row.lower, row.upper, name⟩ cols vals)
  let m ← get
  let c : Cons := ⟨m.id, m.conss.length, m.consGen⟩
  set { m with conss := m.conss ++ [c] }
  touch
  record .trace "add_cons" "Added constraint"
    [("index", .int c.index), ("nnz", .int cols.length),
     ("lhs", .real row.lower), ("rhs", .real row.upper)]
  return c

/-- Adds the constraint `left sense right`. -/
def addCons (left : Side Float) (sense : Sense) (right : Side Float) (name : Option String) :
    ModelM σ Cons :=
  match statedRow? left sense right with
  | some row => pushRow row name
  | none => throw (.invalidArgument .constantSides)

/-- Adds the constraint `lower ≤ e ≤ upper`. -/
def addRange (e : LinearExpr Float) (lower upper : Float) (name : Option String) :
    ModelM σ Cons :=
  pushRow (rowBetween e lower upper) name

/-- The row of constraints that are added without any data: empty, and not above zero. -/
def defaultRow : StatedRow Float := ⟨-infinity, 0, .empty⟩

/-- Adds constraints without names. -/
def addConss (count : Nat) : ModelM σ (List Cons) := times count (pushRow defaultRow none)

/-- Adds the constraints `e sense b` for the members of lists. -/
def addConssWith (es : List (LinearExpr Float)) (senses : List Sense) (bs : List Float)
    (names : Option (List String)) : ModelM σ (List Cons) := do
  let n := es.length
  check (checkLength .senses n senses.length)
  check (checkLength .rightHandSides n bs.length)
  check (checkOptional .names n names)
  (es.zip (senses.zip (bs.zip (namesOf n names)))).mapM fun (e, sense, b, name) =>
    pushRow (rowAgainst e sense b) name

/-- Adds the constraints `lower ≤ e ≤ upper` for the members of lists. -/
def addRanges (es : List (LinearExpr Float)) (lowers uppers : List Float)
    (names : Option (List String)) : ModelM σ (List Cons) := do
  let n := es.length
  check (checkLength .lowerBounds n lowers.length)
  check (checkLength .upperBounds n uppers.length)
  check (checkOptional .names n names)
  (es.zip (lowers.zip (uppers.zip (namesOf n names)))).mapM fun (e, lower, upper, name) =>
    addRange e lower upper name

/-! ## Finding -/

/-- The roster's handle of a column or row, or failure with a result code. -/
def orFail {α : Type} (operation : String) (code : ResultCode) : Option α → ModelM σ α
  | some a => return a
  | none => fail operation code.code

/-- All variables. -/
def allVars : ModelM σ (List Var) := do
  checkUsable
  return (← get).vars

/-- All constraints. -/
def allConss : ModelM σ (List Cons) := do
  checkUsable
  return (← get).conss

/-- The number of variables. -/
def numVars : ModelM σ Nat := return (← allVars).length

/-- The number of constraints. -/
def numConss : ModelM σ Nat := return (← allConss).length

/-- The variable with an index. -/
def var (j : Nat) : ModelM σ Var := do orFail "var" .modelInvalidColIdx (← allVars)[j]?

/-- The constraint with an index. -/
def cons (i : Nat) : ModelM σ Cons := do orFail "cons" .modelInvalidRowIdx (← allConss)[i]?

/-- The first variable of a name. -/
def varByName (name : String) : ModelM σ Var := do
  let xs ← allVars
  let found := (← get).engine.store.problem.colIndex? name
  orFail "var_by_name" .modelInvalidColName (found.bind fun j => xs[j]?)

/-- The first constraint of a name. -/
def consByName (name : String) : ModelM σ Cons := do
  let cs ← allConss
  let found := (← get).engine.store.problem.rowIndex? name
  orFail "cons_by_name" .modelInvalidRowName (found.bind fun i => cs[i]?)

/-! ## Deleting -/

/-- Indexes in order, each once. -/
def distinct (is : List Nat) : List Nat := (is.mergeSort).eraseDups

/-- Deletes variables. Handles of variables issued before are refused from then on. -/
def deleteVars (xs : List Var) : ModelM σ Unit := do
  if xs.isEmpty then return
  let cols := distinct (← checked fun m => m.varIndexes xs)
  call "delete_vars" (Engine.deleteCols cols)
  modify renewVars
  touch
  record .debug "delete_vars" "Deleted variables"
    [("deleted", .int cols.length), ("num_vars", .int (← get).vars.length)]

/-- Deletes constraints. Handles of constraints issued before are refused from then on. -/
def deleteConss (cs : List Cons) : ModelM σ Unit := do
  if cs.isEmpty then return
  let rows := distinct (← checked fun m => m.consIndexes cs)
  call "delete_conss" (Engine.deleteRows rows)
  modify renewConss
  touch
  record .debug "delete_conss" "Deleted constraints"
    [("deleted", .int rows.length), ("num_conss", .int (← get).conss.length)]

/-- Brings both rosters in step with the engine. -/
def sync : ModelM σ Unit := do
  checkUsable
  modify fun m => m.renewVars.renewConss

end MathProgram.Model
