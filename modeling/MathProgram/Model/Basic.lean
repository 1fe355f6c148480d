import MathProgram.Engine.Solving
import MathProgram.Expr.Linear

/-!
# Models

A model is the front of an engine. It keeps two rosters, the handles of the engine's columns and
those of its rows, and passes to the engine only what it has checked: handles of this model and of
the present generation, lists of one length. Every result code other than zero becomes an error.

Adding extends a roster; deleting and reading a problem renew it, and with it the generation, so
that handles issued before are refused from then on.
-/

namespace MathProgram

/-- Where a model stands. -/
inductive ModelState where
  /-- Nothing has been added yet. -/
  | created
  | populated
  /-- The last solve ended well, and nothing was changed through the model since. -/
  | solved
  | freed
  deriving DecidableEq, Repr

/-- A model. -/
structure Model where
  id : ModelId
  engine : Engine
  /-- The handles of the columns, in order. -/
  vars : List Var := []
  /-- The handles of the rows, in order. -/
  conss : List Cons := []
  /-- The generation of the handles of columns. -/
  varGen : UInt32 := 0
  /-- The generation of the handles of rows. -/
  consGen : UInt32 := 0
  state : ModelState := .created
  /-- The environment that counts the model. -/
  env : Option Nat := none

/-- Checks that a handle belongs to a model, is of the generation given and points into a roster of
the length given; gives its index. -/
def Handle.check {k : Kind} (h : Handle k) (kind : Kind) (model : ModelId) (generation : UInt32)
    (length : Nat) : Except Error Nat :=
  if h.model ≠ model then .error (.foreignHandle kind h.index)
  else if h.generation ≠ generation || length ≤ h.index then .error (.staleHandle kind h.index)
  else .ok h.index

namespace Model

/-- The index of a variable. -/
def varIndex (m : Model) (x : Var) : Except Error Nat :=
  x.check .variable m.id m.varGen m.vars.length

/-- The index of a constraint. -/
def consIndex (m : Model) (c : Cons) : Except Error Nat :=
  c.check .constraint m.id m.consGen m.conss.length

/-- The indexes of variables. -/
def varIndexes (m : Model) (xs : List Var) : Except Error (List Nat) := xs.mapM m.varIndex

/-- The indexes of constraints. -/
def consIndexes (m : Model) (cs : List Cons) : Except Error (List Nat) := cs.mapM m.consIndex

/-- The indexes and coefficients of an expression. -/
def linearParts (m : Model) (e : LinearExpr Float) : Except Error (List Nat × List Float) := do
  return (← m.varIndexes e.vars, e.coefs)

/-- Renews the handles of columns. -/
def renewVars (m : Model) : Model :=
  let varGen := m.varGen + 1
  { m with varGen, vars := Handle.allOf m.id varGen m.engine.numCols }

/-- Renews the handles of rows. -/
def renewConss (m : Model) : Model :=
  let consGen := m.consGen + 1
  { m with consGen, conss := Handle.allOf m.id consGen m.engine.numRows }

/-- Notes that the problem was changed. -/
def touched (m : Model) : Model := if m.state = .freed then m else { m with state := .populated }

end Model

/-- A computation that may change a model and the host, or fail. -/
abbrev ModelM (σ : Type) := ExceptT Error (StateT Model (HostM σ))

namespace ModelM

variable {σ : Type}

/-- A computation on the host. -/
def host {α : Type} (act : HostM σ α) : ModelM σ α := ExceptT.lift (StateT.lift act)

/-- A check that may fail. -/
def check {α : Type} (r : Except Error α) : ModelM σ α := ExceptT.mk (pure r)

/-- A check of arguments against the model. -/
def checked {α : Type} (f : Model → Except Error α) : ModelM σ α := do check (f (← get))

/-- Records an event of the model. -/
def record (level : Level) (operation message : String) (fields : List (String × FieldValue)) :
    ModelM σ Unit :=
  host (Host.record level .model "model" operation message fields)

/-- Checks that the model has not been freed. -/
def checkUsable : ModelM σ Unit :=
  checked fun m => if m.state = .freed then .error .freed else .ok ()

/-- A computation on the engine, freed or not. -/
def onEngine {α : Type} (act : EngineM σ α) : ModelM σ α :=
  ExceptT.lift fun m => do
    let (a, engine) ← act.run m.engine
    return (a, { m with engine })

/-- A computation on the engine of a model that has not been freed. -/
def withEngine {α : Type} (act : EngineM σ α) : ModelM σ α := do
  checkUsable
  onEngine act

/-- Fails with a result code of the engine. -/
def fail {α : Type} (operation : String) (code : Int32) : ModelM σ α := do
  record .warn operation "Engine call failed" [("status", .text "error"), ("code", .int code.toInt)]
  throw (.engine code (ResultCode.explain code))

/-- Fails with a result code of the engine that is not zero. -/
def checkCode (operation : String) (code : Int32) : ModelM σ Unit :=
  if code == ResultCode.okay.code then return () else fail operation code

/-- A call of the engine without an output. -/
def call (operation : String) (act : EngineM σ Int32) : ModelM σ Unit := do
  checkCode operation (← withEngine act)

/-- A call of the engine with an output. -/
def callFor {α : Type} (operation : String) (act : EngineM σ (Int32 × α)) : ModelM σ α := do
  let (code, a) ← withEngine act
  checkCode operation code
  return a

/-- Notes that the problem was changed. -/
def touch : ModelM σ Unit := modify Model.touched

/-- A call of the engine that changes the problem. -/
def change (operation : String) (act : EngineM σ Int32) : ModelM σ Unit := do
  call operation act
  touch

/-- A computation so many times, with all results. -/
def times {α : Type} (n : Nat) (act : ModelM σ α) : ModelM σ (List α) :=
  match n with
  | 0 => return []
  | n + 1 => do
    let a ← act
    return a :: (← times n act)

end ModelM

end MathProgram
