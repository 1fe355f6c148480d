import MathProgram.Config
import MathProgram.Model.Elements

/-!
# Attributes and parameters of a model

Attributes of one type are read and written by one family of operations: of the model, at an index,
for a range of indexes, and for lists of variables or constraints. The lists are gone through in
order up to the first failure, and what was written before it stays.
-/

namespace MathProgram.Model

open ModelM

variable {σ : Type}

/-! ## Attributes -/

/-- The name of the operation that reads an attribute. -/
def readName (t : ValueType) (index : Option Nat) : String :=
  t.word ++ "_attr" ++ (if index.isSome then "_index" else "")

/-- Reads an attribute of the model, or of a variable or constraint at an index. -/
def attr (t : ValueType) (name : String) (index : Option Nat) : ModelM σ t.Value :=
  callFor (readName t index) (Engine.attr t name index)

/-- Writes an attribute of the model, or of a variable or constraint at an index. -/
def setAttr (t : ValueType) (name : String) (index : Option Nat) (v : t.Value) : ModelM σ Unit :=
  change ("set_" ++ readName t index) (Engine.setAttr t name index v)

/-- Reads an attribute at so many indexes from one on. -/
def attrFrom (t : ValueType) (name : String) (start : Nat) : Nat → ModelM σ (List t.Value)
  | 0 => return []
  | n + 1 => do
    let v ← attr t name (some start)
    return v :: (← attrFrom t name (start + 1) n)

/-- Checks that a range of indexes ends in an index. -/
def checkRange (start len : Nat) : Except Error Unit :=
  match rangeEnd? start len with
  | some _ => .ok ()
  | none => .error (.invalidArgument (.indexRangeOverflow start len))

/-- Reads an attribute for a range of indexes. -/
def attrRange (t : ValueType) (name : String) (start len : Nat) : ModelM σ (List t.Value) := do
  check (checkRange start len)
  attrFrom t name start len

/-- Writes an attribute at indexes, one after the other. -/
def setAttrAt (t : ValueType) (name : String) (entries : List (Nat × t.Value)) : ModelM σ Unit :=
  entries.forM fun (i, v) => setAttr t name (some i) v

/-- Writes an attribute for a range of indexes. -/
def setAttrRange (t : ValueType) (name : String) (start : Nat) (vals : List t.Value) :
    ModelM σ Unit := do
  check (checkRange start vals.length)
  setAttrAt t name (vals.zipIdx.map fun (v, k) => (start + k, v))

/-- Reads an attribute for variables. -/
def attrVars (t : ValueType) (name : String) (xs : List Var) : ModelM σ (List t.Value) := do
  (← checked fun m => m.varIndexes xs).mapM fun j => attr t name (some j)

/-- Writes an attribute for variables. -/
def setAttrVars (t : ValueType) (name : String) (xs : List Var) (vals : List t.Value) :
    ModelM σ Unit := do
  check (checkLength .values xs.length vals.length)
  setAttrAt t name ((← checked fun m => m.varIndexes xs).zip vals)

/-- Reads an attribute for constraints. -/
def attrConss (t : ValueType) (name : String) (cs : List Cons) : ModelM σ (List t.Value) := do
  (← checked fun m => m.consIndexes cs).mapM fun i => attr t name (some i)

/-- Writes an attribute for constraints. -/
def setAttrConss (t : ValueType) (name : String) (cs : List Cons) (vals : List t.Value) :
    ModelM σ Unit := do
  check (checkLength .values cs.length vals.length)
  setAttrAt t name ((← checked fun m => m.consIndexes cs).zip vals)

/-- Checks that a variable can be asked for its attributes and coefficients. -/
def checkVar (x : Var) : ModelM σ Unit := do
  checkUsable
  discard (checked fun m => m.varIndex x)

/-- Checks that a constraint can be asked for its attributes and coefficients. -/
def checkCons (c : Cons) : ModelM σ Unit := do
  checkUsable
  discard (checked fun m => m.consIndex c)

/-! ## The objective -/

/-- The objective is minimized. -/
def isMinObjSense : ModelM σ Bool := return (← attr .int "MinSense" none : Int32) != 0

/-- The objective is maximized. -/
def isMaxObjSense : ModelM σ Bool := return (← attr .int "MinSense" none : Int32) == 0

/-- Has the objective minimized. -/
def setMinObjSense : ModelM σ Unit := setAttr .int "MinSense" none (1 : Int32)

/-- Has the objective maximized. -/
def setMaxObjSense : ModelM σ Unit := setAttr .int "MinSense" none (0 : Int32)

/-- The constant of the objective. -/
def objOffset : ModelM σ Float := attr .real "ObjConst" none

/-- Changes the constant of the objective. -/
def setObjOffset (c : Float) : ModelM σ Unit := setAttr .real "ObjConst" none c

/-- The objective coefficients of variables. -/
def objs (xs : List Var) : ModelM σ (List Float) := attrVars .real "Obj" xs

/-- Changes the objective coefficients of variables. -/
def setObjs (xs : List Var) (vals : List Float) : ModelM σ Unit := setAttrVars .real "Obj" xs vals

/-! ## Parameters -/

/-- Reads a parameter. -/
def param (t : ValueType) (name : String) : ModelM σ t.Value := do
  match ← withEngine (Engine.param name t) with
  | .error code => fail "get_param" code
  | .ok v =>
    match v.value? t with
    | some v => return v
    | none => throw (.invalidArgument (.paramType name t))

/-- Sets a parameter. -/
def setParam (name : String) (v : ParamValue) : ModelM σ Unit :=
  call "set_param" (Engine.setParam name v)

/-- Shows the engine's log on the console or not. -/
def setLogToConsole (on : Bool) : ModelM σ Unit := withEngine (Engine.setLogToConsole on)

/-- Sets all options that are given. -/
def applyConfig (c : Config) : ModelM σ Unit := do
  c.params.forM fun (name, v) => setParam name v
  if let some on := c.logToConsole then setLogToConsole on

end MathProgram.Model
