import MathProgram.Expr.Quadratic
import MathProgram.Model.Entities

/-!
# Coefficients of a model

Rows, columns and single entries of the matrix and of the quadratic form, and the objective as a
whole. A row or column is fetched in two calls, the first of which asks for its size.
-/

namespace MathProgram.Model

open ModelM

variable {σ : Type}

/-! ## Rows and columns -/

/-- Fetches one line of the matrix: indexes and values. -/
def fetchLine (operation : String) (fetch : LineBuffers → EngineM σ (Int32 × LineBuffers)) :
    ModelM σ (List (Nat × Float)) := do
  let b ← callFor operation (fetch ⟨0, [], [], []⟩)
  let zeros := List.replicate b.size 0
  let b ← callFor operation
    (fetch ⟨b.size, [0, 0], List.replicate b.size 0, zeros⟩)
  let (start, stop) := (b.starts.getD 0 0, b.starts.getD 1 0)
  return ((b.indexes.zip b.values).drop start).take (stop - start)

/-- The terms of a line over the handles of a roster. An index without a handle ends the call. -/
def termsOver {k : Kind} (handles : List (Handle k)) (line : List (Nat × Float)) :
    Except Error (Terms k Float) :=
  line.mapM fun (i, v) =>
    match handles[i]? with
    | some h => .ok (h, v)
    | none => .error .outOfRange

/-- The column of a variable. -/
def col (x : Var) : ModelM σ (Column Float) := do
  let j ← checked fun m => m.varIndex x
  let line ← fetchLine "col" (Engine.fetchCols [j])
  return ⟨← checked fun m => termsOver m.conss line⟩

/-- The expression of a constraint, with the constant zero. -/
def exprLinear (c : Cons) : ModelM σ (LinearExpr Float) := do
  let i ← checked fun m => m.consIndex c
  let line ← fetchLine "expr_linear" (Engine.fetchRows [i])
  return ⟨← checked fun m => termsOver m.vars line, 0⟩

/-! ## Entries of the matrix -/

/-- The positions that lists of constraints and variables stand for. -/
def positions (m : Model) (cs : List Cons) (xs : List Var) :
    Except Error (List Nat × List Nat) := do
  checkLength .vars cs.length xs.length
  return (← m.consIndexes cs, ← m.varIndexes xs)

/-- The entries at positions. -/
def elements (cs : List Cons) (xs : List Var) : ModelM σ (List Float) := do
  let (rows, cols) ← checked fun m => m.positions cs xs
  callFor "elements" (Engine.elements rows cols)

/-- Sets the entries at positions. -/
def setElements (cs : List Cons) (xs : List Var) (vals : List Float) : ModelM σ Unit := do
  let (rows, cols) ← checked fun m => m.positions cs xs
  check (checkLength .values rows.length vals.length)
  change "set_elements" (Engine.setElements rows cols vals)

/-- Removes the entries at positions. -/
def deleteElements (cs : List Cons) (xs : List Var) : ModelM σ Unit := do
  let (rows, cols) ← checked fun m => m.positions cs xs
  change "delete_elements" (Engine.deleteElements rows cols)

/-- Removes all entries. -/
def deleteAllElements : ModelM σ Unit := change "delete_all_elements" Engine.deleteAllElements

/-! ## Entries of the quadratic form -/

/-- The positions that two lists of variables stand for. -/
def quadPositions (m : Model) (xs ys : List Var) : Except Error (List Nat × List Nat) := do
  checkLength .secondVars xs.length ys.length
  return (← m.varIndexes xs, ← m.varIndexes ys)

/-- The entries of the quadratic form for pairs of variables. -/
def quadraticElements (xs ys : List Var) : ModelM σ (List Float) := do
  let (cols₁, cols₂) ← checked fun m => m.quadPositions xs ys
  callFor "quadratic_elements" (Engine.quadElements cols₁ cols₂)

/-- Sets the entries of the quadratic form for pairs of variables. -/
def setQuadraticElements (xs ys : List Var) (vals : List Float) : ModelM σ Unit := do
  let (cols₁, cols₂) ← checked fun m => m.quadPositions xs ys
  check (checkLength .values cols₁.length vals.length)
  change "set_quadratic_elements" (Engine.setQuadElements cols₁ cols₂ vals)

/-- Removes the entries of the quadratic form for pairs of variables. -/
def deleteQuadraticElements (xs ys : List Var) : ModelM σ Unit := do
  let (cols₁, cols₂) ← checked fun m => m.quadPositions xs ys
  change "delete_quadratic_elements" (Engine.deleteQuadElements cols₁ cols₂)

/-- Removes all entries of the quadratic form. -/
def deleteAllQuadraticElements : ModelM σ Unit :=
  change "delete_all_quadratic_elements" Engine.deleteAllQuadElements

/-! ## The objective -/

/-- Values put at positions of a list of `n` zeros, if all positions are in it. -/
def scatter (n : Nat) (positions : List Nat) (vals : List Float) : Except Error (List Float) :=
  if positions.any (n ≤ ·) then .error .outOfRange
  else .ok ((positions.zip vals).foldl (fun xs (j, v) => xs.set j v) (List.replicate n 0))

/-- Puts another objective in place of the present one: linear part, constant and quadratic form.
-/
def setQuadraticObjective (obj : QuadExpr Float) : ModelM σ Unit := do
  let operation := "set_quadratic_objective"
  let lin := obj.linear.purge
  let (cols, coefs) ← checked fun m => m.linearParts lin
  let (cols₁, cols₂) ← checked fun m => m.quadPositions obj.vars1 obj.vars2
  checkUsable
  let objs ← checked fun m => scatter m.engine.numCols cols coefs
  objs.zipIdx.forM fun (c, j) => call operation (Engine.setRealAttr "Obj" (some j) c)
  call operation (Engine.setRealAttr "ObjConst" none lin.constant)
  call operation Engine.deleteAllQuadElements
  call operation (Engine.setQuadElements cols₁ cols₂ obj.coefs)
  touch
  record .debug operation "Replaced objective"
    [("linear_terms", .int cols.length), ("quadratic_terms", .int cols₁.length)]

end MathProgram.Model
