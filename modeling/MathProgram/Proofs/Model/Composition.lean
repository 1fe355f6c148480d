import MathProgram.Proofs.Engine.Findings
import MathProgram.Proofs.Model.Calls
import MathProgram.Proofs.Solver.Exchange

/-!
# What the calls of a model are composed of

A call of a model works on its engine by calls of the engine alone. What it does besides leaves the
engine, asks nothing of the library and frees nothing (`Aside`). One call of the engine at most is
such that it may find something (`Call.finder?`). `Composed` says this of a computation, and
`Call.composed` of all calls but freeing. So what holds of these calls of the engine, of what is
done aside, and of one computation after another once it holds of both, holds of every call of a
model, by induction on the composition.
-/

namespace MathProgram

variable {σ α β : Type}

namespace Model

/-- Noting that the problem was changed leaves the engine as it is. -/
theorem engine_touched (m : Model) : m.touched.engine = m.engine := by
  unfold touched
  split <;> rfl

/-- Noting that the problem was changed frees nothing. -/
theorem state_touched (m : Model) (h : m.touched.state = .freed) : m.state = .freed := by
  unfold touched at h
  split at h
  · exact h
  · cases h

end Model

namespace ModelM

/-- A computation leaves the engine of a model as it is, asks nothing of the library and does not
free the model. -/
def Aside (act : ModelM σ α) : Prop := ∀ (m : Model) (h : Host σ),
  (act.run m h).1.2.engine = m.engine ∧ ((act.run m h).1.2.state = .freed → m.state = .freed) ∧
    h.Quiet (act.run m h).2

/-- A computation is composed of what is done aside and of calls of the engine, of which none but
`f?` may find something. -/
inductive Composed [Solver σ] (f? : Option Engine.Method) : {α : Type} → ModelM σ α → Prop
  | aside {α : Type} {act : ModelM σ α} (hact : Aside act) : Composed f? act
  | method (c : Engine.Method) (hc : c.Finds → f? = some c) : Composed f? (onEngine c.run)
  | bind {α β : Type} {act : ModelM σ α} {next : α → ModelM σ β} (hact : Composed f? act)
      (hnext : ∀ a, Composed f? (next a)) : Composed f? (act >>= next)

variable [Solver σ] {f? : Option Engine.Method}

namespace Composed

/-- Giving a value. -/
theorem pure (a : α) : Composed f? (Pure.pure a : ModelM σ α) :=
  aside fun _ h => ⟨rfl, id, .refl h⟩

/-- Failing. -/
theorem throw (e : Error) : Composed f? (throw e : ModelM σ α) :=
  aside fun _ h => ⟨rfl, id, .refl h⟩

/-- Looking at the model. -/
theorem get : Composed f? (MonadState.get : ModelM σ Model) := aside fun _ h => ⟨rfl, id, .refl h⟩

/-- A computation on the host that asks nothing. -/
theorem host {act : HostM σ α} (hact : HostM.Quiet act) : Composed f? (ModelM.host act) :=
  aside fun _ h => ⟨rfl, id, hact h⟩

/-- A check. -/
theorem check (r : Except Error α) : Composed f? (ModelM.check r : ModelM σ α) :=
  aside fun _ h => ⟨rfl, id, .refl h⟩

/-- A check of arguments against the model. -/
theorem checked (f : Model → Except Error α) : Composed f? (ModelM.checked f : ModelM σ α) :=
  aside fun _ h => ⟨rfl, id, .refl h⟩

/-- Noting that the problem was changed. -/
theorem touch : Composed f? (ModelM.touch : ModelM σ Unit) :=
  aside fun m h => ⟨m.engine_touched, m.state_touched, .refl h⟩

/-- Marking the model as solved. -/
theorem solved : Composed f? (modify fun m => { m with state := .solved } : ModelM σ PUnit) :=
  aside fun _ h => ⟨rfl, nofun, .refl h⟩

/-- Taking over a problem that was read. -/
theorem reloaded : Composed f? (modify Model.reloaded : ModelM σ PUnit) :=
  aside fun _ h => ⟨rfl, nofun, .refl h⟩

/-- Composition preserves this. -/
theorem compositional : Compositional (m := ModelM σ) (Composed f?) := ⟨pure, bind⟩

/-- A computation on every item of a list, with all results. -/
theorem mapM {xs : List α} {act : α → ModelM σ β} (hact : ∀ x, Composed f? (act x)) :
    Composed f? (xs.mapM act) := compositional.mapM fun x _ => hact x

/-- A computation on every item of a list. -/
theorem forM {xs : List α} {act : α → ModelM σ PUnit} (hact : ∀ x, Composed f? (act x)) :
    Composed f? (xs.forM act) := compositional.forM fun x _ => hact x

/-- A computation so many times. -/
theorem times {n : ℕ} {act : ModelM σ α} (hact : Composed f? act) :
    Composed f? (ModelM.times n act) := of_times compositional hact

/-- Failing with a result code. -/
theorem fail {operation : String} {code : Int32} :
    Composed f? (ModelM.fail operation code : ModelM σ α) := (host .record).bind fun _ => throw _

/-- Failing with a result code that is not zero. -/
theorem checkCode {operation : String} {code : Int32} :
    Composed f? (ModelM.checkCode operation code : ModelM σ Unit) := ite_of (pure _) fail

variable {operation : String}

/-- A computation on the engine, unless the model has been freed. -/
theorem withEngine {act : EngineM σ α} (hact : Composed f? (onEngine act)) :
    Composed f? (ModelM.withEngine act) := (checked _).bind fun _ => hact

/-- A call of the engine. -/
theorem call {act : EngineM σ Int32} (hact : Composed f? (onEngine act)) :
    Composed f? (ModelM.call operation act) := (withEngine hact).bind fun _ => checkCode

/-- A call of the engine with an output. -/
theorem callFor {act : EngineM σ (Int32 × α)} (hact : Composed f? (onEngine act)) :
    Composed f? (ModelM.callFor operation act) :=
  (withEngine hact).bind fun _ => checkCode.bind fun _ => pure _

/-- A call of the engine that changes the problem. -/
theorem change {act : EngineM σ Int32} (hact : Composed f? (onEngine act)) :
    Composed f? (ModelM.change operation act) := (call hact).bind fun _ => touch

end Composed

end ModelM

namespace Model

open ModelM

variable [Solver σ] {f? : Option Engine.Method}

/-! ## Parts of calls -/

/-- Adding a column. -/
theorem composed_pushCol {c : ColData} {rows : List ℕ} {vals : List Float} :
    Composed f? (pushCol c rows vals : ModelM σ Var) := by
  refine (Composed.call (.method (.addCol c rows vals) False.elim)).bind fun _ =>
    .aside fun m h => ?_
  let m' : Model := { m with vars := m.vars ++ [⟨m.id, m.vars.length, m.varGen⟩] }
  exact ⟨m'.engine_touched, m'.state_touched, ⟨rfl, rfl⟩⟩

/-- Adding a row. -/
theorem composed_pushRow {row : StatedRow Float} {name : Option String} :
    Composed f? (pushRow row name : ModelM σ Cons) := by
  refine (Composed.checked _).bind fun (cols, coefs) => (Composed.call
    (.method (.addRow ⟨row.lower, row.upper, name⟩ cols coefs) False.elim)).bind
      fun _ => .aside fun m h => ?_
  let m' : Model := { m with conss := m.conss ++ [⟨m.id, m.conss.length, m.consGen⟩] }
  exact ⟨m'.engine_touched, m'.state_touched, ⟨rfl, rfl⟩⟩

/-- Adding a variable with its column. -/
theorem composed_addVarWithCol {c : ColData} {a : Column Float} :
    Composed f? (addVarWithCol c a : ModelM σ Var) :=
  (Composed.checked _).bind fun _ => composed_pushCol

/-- Adding a constraint. -/
theorem composed_addCons {left right : Side Float} {sense : Sense} {name : Option String} :
    Composed f? (addCons left sense right name : ModelM σ Cons) := by
  unfold addCons
  cases statedRow? left sense right with
  | none => exact .throw _
  | some row => exact composed_pushRow

/-- All variables. -/
theorem composed_allVars : Composed f? (allVars : ModelM σ (List Var)) :=
  (Composed.checked _).bind fun _ => Composed.get.bind fun _ => .pure _

/-- All constraints. -/
theorem composed_allConss : Composed f? (allConss : ModelM σ (List Cons)) :=
  (Composed.checked _).bind fun _ => Composed.get.bind fun _ => .pure _

/-- What may be missing. -/
theorem composed_orFail {operation : String} {code : ResultCode} {a : Option α} :
    Composed f? (orFail operation code a : ModelM σ α) := by
  cases a
  · exact .fail
  · exact .pure _

/-- Deleting variables. -/
theorem composed_deleteVars {xs : List Var} : Composed f? (deleteVars xs : ModelM σ Unit) := by
  cases xs with
  | nil => exact .pure _
  | cons x xs =>
    exact (Composed.checked _).bind fun js =>
      (Composed.call (.method (.deleteCols (distinct js)) False.elim)).bind fun _ =>
        .aside fun m _ => ⟨m.renewVars.engine_touched, m.renewVars.state_touched, ⟨rfl, rfl⟩⟩

/-- Deleting constraints. -/
theorem composed_deleteConss {cs : List Cons} : Composed f? (deleteConss cs : ModelM σ Unit) := by
  cases cs with
  | nil => exact .pure _
  | cons c cs =>
    exact (Composed.checked _).bind fun is =>
      (Composed.call (.method (.deleteRows (distinct is)) False.elim)).bind fun _ =>
        .aside fun m _ => ⟨m.renewConss.engine_touched, m.renewConss.state_touched, ⟨rfl, rfl⟩⟩

/-- Fetching a line of the matrix. -/
theorem composed_fetchLine {operation : String}
    {fetch : LineBuffers → EngineM σ (Int32 × LineBuffers)}
    (hfetch : ∀ b, Composed f? (onEngine (fetch b))) : Composed f? (fetchLine operation fetch) :=
  (Composed.callFor (hfetch _)).bind fun _ => (Composed.callFor (hfetch _)).bind fun _ => .pure _

/-- Replacing the objective. -/
theorem composed_setQuadraticObjective {obj : QuadExpr Float} :
    Composed f? (setQuadraticObjective obj : ModelM σ Unit) := by
  have hattr {name : String} {index : Option ℕ} {v : Float} : Composed f?
      (call "set_quadratic_objective" (Engine.setRealAttr name index v) : ModelM σ Unit) :=
    .call (.method (.setAttr .real name index v) False.elim)
  refine (Composed.checked _).bind fun (cols, coefs) => (Composed.checked _).bind
    fun (cols₁, cols₂) => (Composed.checked _).bind fun _ => (Composed.checked _).bind
      fun objs => ?_
  -- The old coefficients go, the new ones and the offset come, and then the quadratic form.
  refine (Composed.forM fun _ => hattr).bind fun _ => hattr.bind fun _ => ?_
  refine (Composed.call (.method .deleteAllQuadElements False.elim)).bind fun _ => ?_
  refine (Composed.call (.method (.setQuadElements cols₁ cols₂ obj.coefs) False.elim)).bind
    fun _ => ?_
  exact Composed.touch.bind fun _ => .host .record

/-- Reading an attribute. -/
theorem composed_attr {t : ValueType} {name : String} {index : Option ℕ} :
    Composed f? (attr t name index : ModelM σ t.Value) :=
  .callFor (.method (.attr t name index) False.elim)

/-- Reading an attribute at indexes in a row. -/
theorem composed_attrFrom {t : ValueType} {name : String} {start n : ℕ} :
    Composed f? (attrFrom t name start n : ModelM σ (List t.Value)) := by
  induction n generalizing start with
  | zero => exact .pure _
  | succ n ih => exact composed_attr.bind fun _ => ih.bind fun _ => .pure _

/-- Writing an attribute. -/
theorem composed_setAttr {t : ValueType} {name : String} {index : Option ℕ} {v : t.Value} :
    Composed f? (setAttr t name index v : ModelM σ Unit) :=
  .change (.method (.setAttr t name index v) False.elim)

/-- Writing an attribute at indexes. -/
theorem composed_setAttrAt {t : ValueType} {name : String} {entries : List (ℕ × t.Value)} :
    Composed f? (setAttrAt t name entries : ModelM σ Unit) := .forM fun _ => composed_setAttr

/-- Reading an attribute for variables. -/
theorem composed_attrVars {t : ValueType} {name : String} {xs : List Var} :
    Composed f? (attrVars t name xs : ModelM σ (List t.Value)) :=
  (Composed.checked _).bind fun _ => .mapM fun _ => composed_attr

/-- Writing an attribute for variables. -/
theorem composed_setAttrVars {t : ValueType} {name : String} {xs : List Var}
    {vals : List t.Value} : Composed f? (setAttrVars t name xs vals : ModelM σ Unit) :=
  (Composed.check _).bind fun _ => (Composed.checked _).bind fun _ => composed_setAttrAt

/-- Reading a parameter. -/
theorem composed_param {t : ValueType} {name : String} :
    Composed f? (param t name : ModelM σ t.Value) := by
  refine (Composed.withEngine (.method (.param name t) False.elim)).bind fun r => ?_
  cases r with
  | error code => exact .fail
  | ok v =>
    dsimp only
    split
    · exact .pure _
    · exact .throw _

/-- Setting a parameter. -/
theorem composed_setParam {name : String} {v : ParamValue} :
    Composed f? (setParam name v : ModelM σ Unit) := .call (.method (.setParam name v) False.elim)

/-- Setting options. -/
theorem composed_applyConfig {c : Config} : Composed f? (applyConfig c : ModelM σ Unit) := by
  refine (Composed.forM fun _ => composed_setParam).bind fun _ => ?_
  cases c.logToConsole with
  | none => exact .pure _
  | some on => exact .withEngine (.method (.setLogToConsole on) False.elim)

/-- Reading a problem. -/
theorem composed_readProb {file : List UInt8} : Composed f? (readProb file : ModelM σ Unit) := by
  refine (Composed.check _).bind fun name =>
    (Composed.withEngine (.method (.readProb name) False.elim)).bind fun r => ?_
  cases r with
  | none => exact .throw _
  | some code =>
    exact Composed.checkCode.bind fun _ => Composed.reloaded.bind fun _ =>
      Composed.get.bind fun _ => .host .record

/-- Looking up a job. -/
theorem composed_retrieveTask {id : String} :
    Composed f? (retrieveTask id : ModelM σ RemoteJob) := by
  refine (Composed.withEngine (.method (.retrieveTask id) False.elim)).bind fun r => ?_
  cases r with
  | error code => exact .fail
  | ok report =>
    dsimp only
    split
    · exact .throw _
    · exact ite_of (Composed.solved.bind fun _ => .pure _) (.pure _)

/-- What follows the solve of the engine in a solve. -/
theorem composed_solved : Composed f? (do
    modify fun m => { m with state := .solved }
    let status ← onEngine Engine.status
    record .debug "solve" "Solve finished"
      [("status", .text "success"), ("model_status", .int status.toInt)] : ModelM σ Unit) :=
  Composed.solved.bind fun _ => (Composed.method .status False.elim).bind fun _ => .host .record

/-- The members of a conflict among the handles of a roster. -/
theorem composed_conflictMembers {k kind : Kind} {flagName : String} {handles : List (Handle k)} :
    Composed f? (conflictMembers kind flagName handles : ModelM σ _) := by
  refine .bind (.mapM fun h =>
    (Composed.method (.attr .int flagName (some h.index)) False.elim).bind fun (code, flag) =>
      Composed.checkCode.bind fun _ => ?_) fun _ => .pure _
  cases IisBound.ofCode? flag
  · exact .throw _
  · exact .pure _

/-- What follows the conflict search of the engine. -/
theorem composed_conflict : Composed f? (do
    let m ← get
    let rows ← conflictMembers .constraint "RowIIS" m.conss
    let cols ← conflictMembers .variable "ColIIS" m.vars
    record .debug "compute_iis" "Computed IIS"
      [("rows", .int rows.length), ("cols", .int cols.length)]
    return ⟨rows, cols⟩ : ModelM σ Conflict) :=
  Composed.get.bind fun _ => composed_conflictMembers.bind fun _ =>
    composed_conflictMembers.bind fun _ => (Composed.host .record).bind fun _ => .pure _

/-- What follows the engine's reading of a task file. -/
theorem composed_recordTask {name : String} {parts : Sections} : Composed f? (do
    if parts.model then modify reloaded
    recordFile "read_task" "Read task" name [("model", .bool parts.model),
      ("param", .bool parts.param), ("soln", .bool parts.soln)] : ModelM σ Unit) :=
  ite_of (Composed.reloaded.bind fun _ => .host .record) (.host .record)

end Model

/-! ## Calls -/

namespace Call

open Model ModelM

/-- The call of its engine by which a call of a model may find something. -/
def finder? : Call → Option Engine.Method
  | solveProb => some .solveProb
  | submitTask => some .submitTask
  | computeIis => some .computeIis
  | readTask file parts => (fileName file).toOption.map fun name => .readTask name parts
  | _ => none

variable [Solver σ]

/-- Every call but freeing is composed of what is done aside and of calls of the engine, of which
the one by which it may find something is known. -/
theorem composed {c : Call} (hc : c ≠ .free) :
    Composed c.finder? (c.run : ModelM σ c.Result) := by
  cases c with
  | addVar => exact composed_pushCol
  | addVarWithCol => exact composed_addVarWithCol
  | addVarWithConss =>
    exact (Composed.checked _).bind fun _ => (Composed.check _).bind fun _ => composed_pushCol
  | addVars => exact .times composed_pushCol
  | addVarsWith =>
    exact (Composed.check _).bind fun _ => (Composed.check _).bind fun _ =>
      (Composed.check _).bind fun _ => (Composed.check _).bind fun _ =>
        .mapM fun _ => composed_pushCol
  | addVarsWithCols =>
    exact (Composed.check _).bind fun _ => (Composed.check _).bind fun _ =>
      (Composed.check _).bind fun _ => (Composed.check _).bind fun _ =>
        (Composed.check _).bind fun _ => .mapM fun _ => composed_addVarWithCol
  | addCons => exact composed_addCons
  | addRange => exact composed_pushRow
  | addConss => exact .times composed_pushRow
  | addConssWith | addRanges =>
    exact (Composed.check _).bind fun _ => (Composed.check _).bind fun _ =>
      (Composed.check _).bind fun _ => .mapM fun _ => composed_pushRow
  | allVars => exact composed_allVars
  | allConss => exact composed_allConss
  | numVars => exact composed_allVars.bind fun _ => .pure _
  | numConss => exact composed_allConss.bind fun _ => .pure _
  | var => exact composed_allVars.bind fun _ => composed_orFail
  | cons => exact composed_allConss.bind fun _ => composed_orFail
  | varByName =>
    exact composed_allVars.bind fun _ => Composed.get.bind fun _ => composed_orFail
  | consByName =>
    exact composed_allConss.bind fun _ => Composed.get.bind fun _ => composed_orFail
  | deleteVars => exact composed_deleteVars
  | deleteConss => exact composed_deleteConss
  | sync => exact (Composed.checked _).bind fun _ => .aside fun _ h => ⟨rfl, id, .refl h⟩
  | col =>
    exact (Composed.checked _).bind fun j =>
      (composed_fetchLine fun b => .method (.fetchCols [j] b) False.elim).bind fun _ =>
        (Composed.checked _).bind fun _ => .pure _
  | exprLinear =>
    exact (Composed.checked _).bind fun i =>
      (composed_fetchLine fun b => .method (.fetchRows [i] b) False.elim).bind fun _ =>
        (Composed.checked _).bind fun _ => .pure _
  | elements =>
    exact (Composed.checked _).bind fun _ => .callFor (.method (.elements _ _) False.elim)
  | quadraticElements =>
    exact (Composed.checked _).bind fun _ => .callFor (.method (.quadElements _ _) False.elim)
  | setElements =>
    exact (Composed.checked _).bind fun _ => (Composed.check _).bind fun _ =>
      .change (.method (.setElements _ _ _) False.elim)
  | setQuadraticElements =>
    exact (Composed.checked _).bind fun _ => (Composed.check _).bind fun _ =>
      .change (.method (.setQuadElements _ _ _) False.elim)
  | deleteElements =>
    exact (Composed.checked _).bind fun _ => .change (.method (.deleteElements _ _) False.elim)
  | deleteQuadraticElements =>
    exact (Composed.checked _).bind fun _ => .change (.method (.deleteQuadElements _ _) False.elim)
  | deleteAllElements => exact .change (.method .deleteAllElements False.elim)
  | deleteAllQuadraticElements => exact .change (.method .deleteAllQuadElements False.elim)
  | setQuadraticObjective => exact composed_setQuadraticObjective
  | attr => exact composed_attr
  | setAttr => exact composed_setAttr
  | attrRange => exact (Composed.check _).bind fun _ => composed_attrFrom
  | setAttrRange => exact (Composed.check _).bind fun _ => composed_setAttrAt
  | attrVars => exact composed_attrVars
  | setAttrVars => exact composed_setAttrVars
  | attrConss => exact (Composed.checked _).bind fun _ => .mapM fun _ => composed_attr
  | setAttrConss =>
    exact (Composed.check _).bind fun _ => (Composed.checked _).bind fun _ =>
      composed_setAttrAt
  | checkVar | checkCons =>
    exact (Composed.checked _).bind fun _ => (Composed.checked _).bind fun _ => .pure _
  | isMinObjSense | isMaxObjSense => exact composed_attr.bind fun _ => .pure _
  | setMinObjSense | setMaxObjSense | setObjOffset => exact composed_setAttr
  | objOffset => exact composed_attr
  | objs => exact composed_attrVars
  | setObjs => exact composed_setAttrVars
  | param => exact composed_param
  | setParam => exact composed_setParam
  | setLogToConsole => exact .withEngine (.method (.setLogToConsole _) False.elim)
  | setLogCallback => exact .withEngine (.method (.setLogCallback _) False.elim)
  | applyConfig => exact composed_applyConfig
  | readTask file parts =>
    -- Which call of the engine this makes depends on its argument: the name of the file may be
    -- refused before anything is read.
    show Composed ((fileName file).toOption.map fun name => .readTask name parts)
      (Model.readTask file parts)
    rw [Model.readTask]
    cases fileName file with
    | error err => exact .aside fun _ h => ⟨rfl, id, .refl h⟩
    | ok name =>
      exact (Composed.call (.method (.readTask name parts) fun _ => rfl)).bind
        fun _ => composed_recordTask
  | writeTask =>
    exact (Composed.check _).bind fun _ => .call (.method (.writeTask _ _) False.elim)
  | setLogFile => exact .call (.method (.setLogFile _) False.elim)
  | readProb => exact composed_readProb
  | writeProb => exact (Composed.check _).bind fun _ => .call (.method (.writeProb _) False.elim)
  | writeSoln => exact (Composed.check _).bind fun _ => .call (.method (.writeSoln _) False.elim)
  | displayResults => exact .call (.method .displayResults False.elim)
  | explainResult | explainStatus => exact (Composed.checked _).bind fun _ => .pure _
  | retrieveTask => exact composed_retrieveTask
  | solveProb =>
    exact Composed.get.bind fun _ => (Composed.host .record).bind fun _ =>
      (Composed.call (.method .solveProb fun _ => rfl)).bind fun _ => composed_solved
  | status => exact (Composed.withEngine (.method .status False.elim)).bind fun _ => .pure _
  | computeIis =>
    exact (Composed.call (.method .computeIis fun _ => rfl)).bind fun _ => composed_conflict
  | submitTask =>
    exact (Composed.withEngine (.method .submitTask fun _ => rfl)).bind fun _ =>
      (Composed.host .record).bind fun _ => .pure _
  | free => exact absurd rfl hc

end Call

end MathProgram
