import MathProgram.Model.Lifecycle
import MathProgram.Proofs.Model.Growth

/-!
# What the calls of a model do

`Call` lists the calls of a model, with their arguments. With most of them the model grows. The
others are deletions, the reading of problems, synchronisation, solves and lookups of jobs that mark
the model solved, and freeing; and two calls that can fail after the problem was changed, which is
not noted then: reading a task file and replacing the objective. `Call.effect` tells from a call and
its result which of these it was, `Call.scope` from the call alone what it may write of the columns
and rows that are there, and `Call.happens` says what it did to the model. Everything that is proved
about runs of calls is proved from it.
-/

namespace MathProgram

open ModelM

variable {σ α β : Type} {P : Store.Op → Prop} {W : Scope}

namespace Model

/-! ## Calls with which a model grows -/

section Entities

/-- Adding a variable with its column. -/
theorem leads_addVarWithCol {c : ColData} {a : Column Float} :
    Leads W (addVarWithCol c a : ModelM σ Var) :=
  (Leads.checked _).bind fun _ => leads_pushCol

/-- Adding a variable that takes part in constraints. -/
theorem leads_addVarWithConss {c : ColData} {cs : List Cons} {coefs : Option (List Float)} :
    Leads W (addVarWithConss c cs coefs : ModelM σ Var) :=
  (Leads.checked _).bind fun _ => (Leads.check _).bind fun _ => leads_pushCol

/-- Adding variables from lists of data. -/
theorem leads_addVarsWith {d : ColLists} : Leads W (addVarsWith d : ModelM σ (List Var)) :=
  (Leads.check _).bind fun _ => (Leads.check _).bind fun _ => (Leads.check _).bind fun _ =>
    (Leads.check _).bind fun _ => .mapM fun _ => leads_pushCol

/-- Adding variables from lists of data, with their columns. -/
theorem leads_addVarsWithCols {d : ColLists} {columns : List (Column Float)} :
    Leads W (addVarsWithCols d columns : ModelM σ (List Var)) :=
  (Leads.check _).bind fun _ => (Leads.check _).bind fun _ => (Leads.check _).bind fun _ =>
    (Leads.check _).bind fun _ => (Leads.check _).bind fun _ => .mapM fun _ => leads_addVarWithCol

/-- Adding a constraint. -/
theorem leads_addCons {left right : Side Float} {sense : Sense} {name : Option String} :
    Leads W (addCons left sense right name : ModelM σ Cons) := by
  unfold addCons
  cases statedRow? left sense right with
  | none => exact .throw _
  | some row => exact leads_pushRow

/-- Adding constraints against right-hand sides. -/
theorem leads_addConssWith {es : List (LinearExpr Float)} {senses : List Sense} {bs : List Float}
    {names : Option (List String)} :
    Leads W (addConssWith es senses bs names : ModelM σ (List Cons)) :=
  (Leads.check _).bind fun _ => (Leads.check _).bind fun _ => (Leads.check _).bind fun _ =>
    .mapM fun _ => leads_pushRow

/-- Adding constraints between bounds. -/
theorem leads_addRanges {es : List (LinearExpr Float)} {lowers uppers : List Float}
    {names : Option (List String)} :
    Leads W (addRanges es lowers uppers names : ModelM σ (List Cons)) :=
  (Leads.check _).bind fun _ => (Leads.check _).bind fun _ => (Leads.check _).bind fun _ =>
    .mapM fun _ => leads_pushRow

/-- All variables. -/
theorem drives_allVars : Drives P (allVars : ModelM σ (List Var)) :=
  Drives.bind (.checked _) fun _ => Drives.get.bind fun _ => .pure _

/-- All constraints. -/
theorem drives_allConss : Drives P (allConss : ModelM σ (List Cons)) :=
  Drives.bind (.checked _) fun _ => Drives.get.bind fun _ => .pure _

/-- What may be missing. -/
theorem drives_orFail {operation : String} {code : ResultCode} {a : Option α} :
    Drives P (orFail operation code a : ModelM σ α) := by
  cases a
  · exact .fail
  · exact .pure _

end Entities

section Elements

/-- Fetching a line of the matrix. -/
theorem drives_fetchLine {operation : String}
    {fetch : LineBuffers → EngineM σ (Int32 × LineBuffers)}
    (hfetch : ∀ b, Engine.Drives P (fetch b)) : Drives P (fetchLine operation fetch) :=
  (Drives.callFor (hfetch _)).bind fun _ => (Drives.callFor (hfetch _)).bind fun _ => .pure _

/-- The column of a variable. -/
theorem drives_col {x : Var} : Drives P (col x : ModelM σ (Column Float)) :=
  (Drives.checked _).bind fun _ => (drives_fetchLine fun _ => Engine.drives_fetch).bind fun _ =>
    (Drives.checked _).bind fun _ => .pure _

/-- The expression of a constraint. -/
theorem drives_exprLinear {c : Cons} : Drives P (exprLinear c : ModelM σ (LinearExpr Float)) :=
  (Drives.checked _).bind fun _ => (drives_fetchLine fun _ => Engine.drives_fetch).bind fun _ =>
    (Drives.checked _).bind fun _ => .pure _

/-- The entries at positions. -/
theorem drives_elements {cs : List Cons} {xs : List Var} :
    Drives P (elements cs xs : ModelM σ (List Float)) :=
  (Drives.checked _).bind fun _ => .callFor Engine.drives_query

/-- The entries of the quadratic form for pairs of variables. -/
theorem drives_quadraticElements {xs ys : List Var} :
    Drives P (quadraticElements xs ys : ModelM σ (List Float)) :=
  (Drives.checked _).bind fun _ => .callFor Engine.drives_query

/-- Setting the entries at positions. -/
theorem leads_setElements {cs : List Cons} {xs : List Var} {vals : List Float} :
    Leads W (setElements cs xs vals : ModelM σ Unit) :=
  (Leads.checked _).bind fun (rows, cols) => (Leads.check _).bind fun _ =>
    leads_change (Engine.performs_edit (.setElements rows cols vals) rfl trivial) trivial nofun

/-- Removing the entries at positions. -/
theorem leads_deleteElements {cs : List Cons} {xs : List Var} :
    Leads W (deleteElements cs xs : ModelM σ Unit) :=
  (Leads.checked _).bind fun (rows, cols) =>
    leads_change (Engine.performs_edit (.deleteElements rows cols) rfl trivial) trivial nofun

/-- Removing all entries. -/
theorem leads_deleteAllElements : Leads W (deleteAllElements : ModelM σ Unit) :=
  leads_change (Engine.performs_edit .deleteAllElements rfl trivial) trivial nofun

/-- Setting the entries of the quadratic form for pairs of variables. -/
theorem leads_setQuadraticElements {xs ys : List Var} {vals : List Float} :
    Leads W (setQuadraticElements xs ys vals : ModelM σ Unit) :=
  (Leads.checked _).bind fun (cols₁, cols₂) => (Leads.check _).bind fun _ =>
    leads_change (Engine.performs_edit (.setQuadElements cols₁ cols₂ vals) rfl trivial) trivial
      nofun

/-- Removing the entries of the quadratic form for pairs of variables. -/
theorem leads_deleteQuadraticElements {xs ys : List Var} :
    Leads W (deleteQuadraticElements xs ys : ModelM σ Unit) :=
  (Leads.checked _).bind fun (cols₁, cols₂) =>
    leads_change (Engine.performs_edit (.deleteQuadElements cols₁ cols₂) rfl trivial) trivial nofun

/-- Removing all entries of the quadratic form. -/
theorem leads_deleteAllQuadraticElements :
    Leads W (deleteAllQuadraticElements : ModelM σ Unit) :=
  leads_change (Engine.performs_edit .deleteAllQuadElements rfl trivial) trivial nofun

end Elements

section Attributes

/-- Reading an attribute. -/
theorem drives_attr {t : ValueType} {name : String} {index : Option ℕ} :
    Drives P (attr t name index : ModelM σ t.Value) := .callFor Engine.drives_attr

/-- Reading an attribute at indexes in a row. -/
theorem drives_attrFrom {t : ValueType} {name : String} {start n : ℕ} :
    Drives P (attrFrom t name start n : ModelM σ (List t.Value)) := by
  induction n generalizing start with
  | zero => exact .pure _
  | succ n ih => exact drives_attr.bind fun _ => ih.bind fun _ => .pure _

/-- Reading an attribute for variables. -/
theorem drives_attrVars {t : ValueType} {name : String} {xs : List Var} :
    Drives P (attrVars t name xs : ModelM σ (List t.Value)) :=
  (Drives.checked _).bind fun _ => .mapM fun _ => drives_attr

/-- Reading an attribute for constraints. -/
theorem drives_attrConss {t : ValueType} {name : String} {cs : List Cons} :
    Drives P (attrConss t name cs : ModelM σ (List t.Value)) :=
  (Drives.checked _).bind fun _ => .mapM fun _ => drives_attr

/-- Writing an attribute writes the field of its name at the index. -/
theorem leads_setAttr {t : ValueType} {name : String} {index : Option ℕ} {v : t.Value}
    (hW : ∀ k (f : Field k) j, f.attr = (t, name) → index = some j → W k f j) :
    Leads W (setAttr t name index v : ModelM σ Unit) := by
  have hscope (k : Kind) (f : Field k) (j : ℕ) (h : f.attr = (t, name) ∧ index = some j) :
      W k f j := hW k f j h.1 h.2
  cases t
  · exact leads_change (Engine.performs_edit (.setIntAttr name index v) rfl trivial) trivial hscope
  · exact leads_change (Engine.performs_edit (.setRealAttr name index v) rfl trivial) trivial hscope
  · exact leads_change (Engine.performs_edit (.setStrAttr name index v) rfl trivial) trivial hscope

/-- Writing an attribute at indexes. -/
theorem leads_setAttrAt {t : ValueType} {name : String} {entries : List (ℕ × t.Value)}
    (hW : ∀ k (f : Field k), f.attr = (t, name) → ∀ e ∈ entries, W k f e.1) :
    Leads W (setAttrAt t name entries : ModelM σ Unit) := by
  refine .forM fun e he => leads_setAttr fun k f j hf hj => ?_
  rw [← Option.some.inj hj]
  exact hW k f hf e he

/-- Writing an attribute for a range of indexes. -/
theorem leads_setAttrRange {t : ValueType} {name : String} {start : ℕ} {vals : List t.Value}
    (hW : ∀ k (f : Field k) j, f.attr = (t, name) → start ≤ j → j < start + vals.length → W k f j) :
    Leads W (setAttrRange t name start vals : ModelM σ Unit) := by
  refine (Leads.check _).bind fun _ => leads_setAttrAt fun k f hf e he => ?_
  obtain ⟨⟨v, l⟩, hl, rfl⟩ := List.mem_map.1 he
  obtain ⟨-, hlt, -⟩ := List.mem_zipIdx hl
  exact hW k f (start + l) hf (Nat.le_add_right ..) (by omega)

/-- Writing an attribute for variables or constraints. -/
theorem leads_setAttrHandles {k : Kind} {t : ValueType} {name : String} {xs : List (Handle k)}
    {vals : List t.Value}
    (hW : ∀ k (f : Field k) j, f.attr = (t, name) → j ∈ xs.map (·.index) → W k f j) :
    Leads W (do
      check (checkLength .values xs.length vals.length)
      setAttrAt t name ((← checked fun m => xs.mapM m.accept).zip vals) : ModelM σ Unit) := by
  refine (Leads.check _).bind fun _ => .bind_checked fun m is his => ?_
  obtain ⟨-, rfl⟩ := mapM_accept_eq_ok_iff.1 his
  exact leads_setAttrAt fun k f hf e he => hW k f e.1 hf (List.of_mem_zip he).1

/-- Reading a parameter. -/
theorem drives_param {t : ValueType} {name : String} :
    Drives P (param t name : ModelM σ t.Value) := by
  refine (Drives.withEngine Engine.drives_param).bind fun r => ?_
  cases r with
  | error code => exact .fail
  | ok v =>
    dsimp only
    split
    · exact .pure _
    · exact .throw _

/-- Setting a parameter. -/
theorem drives_setParam {name : String} {v : ParamValue} :
    Drives Store.Op.Quiet (setParam name v : ModelM σ Unit) :=
  .call (Engine.drives_edit (.setParam name v) rfl trivial)

/-- Setting options. -/
theorem drives_applyConfig {c : Config} :
    Drives Store.Op.Quiet (applyConfig c : ModelM σ Unit) := by
  refine (Drives.forM fun _ => drives_setParam).bind fun _ => ?_
  cases c.logToConsole
  · exact .pure _
  · exact .withEngine (Engine.drives_modifyLog fun _ => trivial)

end Attributes

section Solving

/-- Writing a task file. -/
theorem drives_writeTask {file : List UInt8} {parts : Sections} :
    Drives P (writeTask file parts : ModelM σ Unit) :=
  (Drives.check _).bind fun _ => .call (Engine.drives_guardedCode Engine.drives_saveTask)

/-- The members of a conflict among the handles of a roster. -/
theorem drives_conflictMembers {k kind : Kind} {flagName : String} {handles : List (Handle k)} :
    Drives P (conflictMembers kind flagName handles : ModelM σ _) := by
  have hflag (h : Handle k) : Drives P (onEngine (Engine.intAttr flagName (some h.index)) :
      ModelM σ (Int32 × Int32)) := .of_eq fun m host => by
    obtain ⟨r, host', hframe, hrun⟩ := Engine.run_query .getIntAttrIndex 0
      (·.intAttr flagName (some h.index)) m.engine host
    have hflag : (Engine.intAttr flagName (some h.index)).run m.engine host =
        ((r, m.engine), host') := hrun
    rw [run_onEngine, hflag]
    exact ⟨hframe, rfl⟩
  refine .bind (.mapM fun h => (hflag h).bind fun (code, flag) => Drives.checkCode.bind fun _ => ?_)
    fun _ => .pure _
  cases IisBound.ofCode? flag
  · exact .throw _
  · exact .pure _

variable [Solver σ]

/-- Writing the problem. -/
theorem drives_writeProb {file : List UInt8} : Drives P (writeProb file : ModelM σ Unit) :=
  (Drives.check _).bind fun _ => .call Engine.drives_writeProb

/-- Writing the solution. -/
theorem drives_writeSoln {file : List UInt8} : Drives P (writeSoln file : ModelM σ Unit) :=
  (Drives.check _).bind fun _ => .call Engine.drives_writeSoln

/-- Finding an infeasible subsystem. -/
theorem drives_computeIis : Drives Store.Op.Quiet (computeIis : ModelM σ Conflict) :=
  (Drives.call (Engine.drives_computeIis fun _ _ => trivial)).bind fun _ => Drives.get.bind fun _ =>
    drives_conflictMembers.bind fun _ => drives_conflictMembers.bind fun _ =>
      Drives.record.bind fun _ => .pure _

/-- Submitting a job. -/
theorem drives_submitTask : Drives Store.Op.Quiet (submitTask : ModelM σ String) :=
  (Drives.withEngine Engine.drives_submitTask).bind fun _ => Drives.record.bind fun _ => .pure _

end Solving

end Model

/-! ## Calls -/

/-- A call of a model, with its arguments. -/
inductive Call where
  | addVar (c : ColData)
  | addVarWithCol (c : ColData) (a : Column Float)
  | addVarWithConss (c : ColData) (cs : List Cons) (coefs : Option (List Float))
  | addVars (count : ℕ) (isInteger : Bool)
  | addVarsWith (d : Model.ColLists)
  | addVarsWithCols (d : Model.ColLists) (columns : List (Column Float))
  | addCons (left : Side Float) (sense : Sense) (right : Side Float) (name : Option String)
  | addRange (e : LinearExpr Float) (lower upper : Float) (name : Option String)
  | addConss (count : ℕ)
  | addConssWith (es : List (LinearExpr Float)) (senses : List Sense) (bs : List Float)
    (names : Option (List String))
  | addRanges (es : List (LinearExpr Float)) (lowers uppers : List Float)
    (names : Option (List String))
  | allVars
  | allConss
  | numVars
  | numConss
  | var (j : ℕ)
  | cons (i : ℕ)
  | varByName (name : String)
  | consByName (name : String)
  | deleteVars (xs : List Var)
  | deleteConss (cs : List Cons)
  | sync
  | col (x : Var)
  | exprLinear (c : Cons)
  | elements (cs : List Cons) (xs : List Var)
  | setElements (cs : List Cons) (xs : List Var) (vals : List Float)
  | deleteElements (cs : List Cons) (xs : List Var)
  | deleteAllElements
  | quadraticElements (xs ys : List Var)
  | setQuadraticElements (xs ys : List Var) (vals : List Float)
  | deleteQuadraticElements (xs ys : List Var)
  | deleteAllQuadraticElements
  | setQuadraticObjective (obj : QuadExpr Float)
  | attr (t : ValueType) (name : String) (index : Option ℕ)
  | setAttr (t : ValueType) (name : String) (index : Option ℕ) (v : t.Value)
  | attrRange (t : ValueType) (name : String) (start len : ℕ)
  | setAttrRange (t : ValueType) (name : String) (start : ℕ) (vals : List t.Value)
  | attrVars (t : ValueType) (name : String) (xs : List Var)
  | setAttrVars (t : ValueType) (name : String) (xs : List Var) (vals : List t.Value)
  | attrConss (t : ValueType) (name : String) (cs : List Cons)
  | setAttrConss (t : ValueType) (name : String) (cs : List Cons) (vals : List t.Value)
  | checkVar (x : Var)
  | checkCons (c : Cons)
  | isMinObjSense
  | isMaxObjSense
  | setMinObjSense
  | setMaxObjSense
  | objOffset
  | setObjOffset (c : Float)
  | objs (xs : List Var)
  | setObjs (xs : List Var) (vals : List Float)
  | param (t : ValueType) (name : String)
  | setParam (name : String) (v : ParamValue)
  | setLogToConsole (on : Bool)
  | applyConfig (c : Config)
  | readTask (file : List UInt8) (parts : Sections)
  | writeTask (file : List UInt8) (parts : Sections)
  | setLogFile (file : Option String)
  | setLogCallback (callback : Option String)
  | readProb (file : List UInt8)
  | writeProb (file : List UInt8)
  | writeSoln (file : List UInt8)
  | displayResults
  | explainResult (code : Int32)
  | explainStatus (s : Status)
  | retrieveTask (id : String)
  | solveProb
  | status
  | computeIis
  | submitTask
  | free

namespace Call

/-- The type of the result of a call. -/
def Result : Call → Type
  | addVar _ | addVarWithCol .. | addVarWithConss .. | var _ | varByName _ => Var
  | addVars .. | addVarsWith _ | addVarsWithCols .. | allVars => List Var
  | addCons .. | addRange .. | cons _ | consByName _ => Cons
  | addConss _ | addConssWith .. | addRanges .. | allConss => List Cons
  | numVars | numConss => ℕ
  | col _ => Column Float
  | exprLinear _ => LinearExpr Float
  | elements .. | quadraticElements .. | objs _ => List Float
  | attr t .. | param t _ => t.Value
  | attrRange t .. | attrVars t .. | attrConss t .. => List t.Value
  | isMinObjSense | isMaxObjSense => Bool
  | objOffset => Float
  | explainResult _ | explainStatus _ | submitTask => String
  | status => Status
  | retrieveTask _ => RemoteJob
  | computeIis => Conflict
  | _ => Unit

/-- Runs a call. -/
def run [Solver σ] : (c : Call) → ModelM σ c.Result
  | addVar c => Model.addVar c
  | addVarWithCol c a => Model.addVarWithCol c a
  | addVarWithConss c cs coefs => Model.addVarWithConss c cs coefs
  | addVars count isInteger => Model.addVars count isInteger
  | addVarsWith d => Model.addVarsWith d
  | addVarsWithCols d columns => Model.addVarsWithCols d columns
  | addCons left sense right name => Model.addCons left sense right name
  | addRange e lower upper name => Model.addRange e lower upper name
  | addConss count => Model.addConss count
  | addConssWith es senses bs names => Model.addConssWith es senses bs names
  | addRanges es lowers uppers names => Model.addRanges es lowers uppers names
  | allVars => Model.allVars
  | allConss => Model.allConss
  | numVars => Model.numVars
  | numConss => Model.numConss
  | var j => Model.var j
  | cons i => Model.cons i
  | varByName name => Model.varByName name
  | consByName name => Model.consByName name
  | deleteVars xs => Model.deleteVars xs
  | deleteConss cs => Model.deleteConss cs
  | sync => Model.sync
  | col x => Model.col x
  | exprLinear c => Model.exprLinear c
  | elements cs xs => Model.elements cs xs
  | setElements cs xs vals => Model.setElements cs xs vals
  | deleteElements cs xs => Model.deleteElements cs xs
  | deleteAllElements => Model.deleteAllElements
  | quadraticElements xs ys => Model.quadraticElements xs ys
  | setQuadraticElements xs ys vals => Model.setQuadraticElements xs ys vals
  | deleteQuadraticElements xs ys => Model.deleteQuadraticElements xs ys
  | deleteAllQuadraticElements => Model.deleteAllQuadraticElements
  | setQuadraticObjective obj => Model.setQuadraticObjective obj
  | attr t name index => Model.attr t name index
  | setAttr t name index v => Model.setAttr t name index v
  | attrRange t name start len => Model.attrRange t name start len
  | setAttrRange t name start vals => Model.setAttrRange t name start vals
  | attrVars t name xs => Model.attrVars t name xs
  | setAttrVars t name xs vals => Model.setAttrVars t name xs vals
  | attrConss t name cs => Model.attrConss t name cs
  | setAttrConss t name cs vals => Model.setAttrConss t name cs vals
  | checkVar x => Model.checkVar x
  | checkCons c => Model.checkCons c
  | isMinObjSense => Model.isMinObjSense
  | isMaxObjSense => Model.isMaxObjSense
  | setMinObjSense => Model.setMinObjSense
  | setMaxObjSense => Model.setMaxObjSense
  | objOffset => Model.objOffset
  | setObjOffset c => Model.setObjOffset c
  | objs xs => Model.objs xs
  | setObjs xs vals => Model.setObjs xs vals
  | param t name => Model.param t name
  | setParam name v => Model.setParam name v
  | setLogToConsole on => Model.setLogToConsole on
  | applyConfig c => Model.applyConfig c
  | readTask file parts => Model.readTask file parts
  | writeTask file parts => Model.writeTask file parts
  | setLogFile file => Model.setLogFile file
  | setLogCallback callback => Model.setLogCallback callback
  | readProb file => Model.readProb file
  | writeProb file => Model.writeProb file
  | writeSoln file => Model.writeSoln file
  | displayResults => Model.displayResults
  | explainResult code => Model.explainResult code
  | explainStatus s => Model.explainStatus s
  | retrieveTask id => Model.retrieveTask id
  | solveProb => Model.solveProb
  | status => Model.status
  | computeIis => Model.computeIis
  | submitTask => Model.submitTask
  | free => ExceptT.lift fun m => do return ((), ← m.free)

/-- What a call was to a model. -/
inductive Effect where
  /-- The model grew. -/
  | grows
  /-- Columns or rows were deleted. -/
  | deletes (k : Kind) (removed : List ℕ)
  /-- A problem was read. -/
  | loads
  /-- The rosters were renewed. -/
  | syncs
  /-- The model was marked as solved, by a solve or for a job that is finished. -/
  | marks
  /-- The model was freed. -/
  | frees
  /-- The problem section of a task file may be in place, although reading the file failed. -/
  | spoils
  /-- Parts of an objective may be in place, although replacing the objective failed. -/
  | drafts

/-- The effect of a call with its result. -/
def effect (c : Call) (r : Except Error c.Result) : Effect :=
  match c, r with
  | deleteVars (x :: xs), .ok _ => .deletes .variable (Model.distinct ((x :: xs).map (·.index)))
  | deleteConss (c :: cs), .ok _ =>
    .deletes .constraint (Model.distinct ((c :: cs).map (·.index)))
  | sync, .ok _ => .syncs
  | setQuadraticObjective _, .error _ => .drafts
  | readTask _ parts, r =>
    if parts.model then
      match r with
      | .ok _ => .loads
      | .error _ => .spoils
    else .grows
  | readProb _, .ok _ => .loads
  | retrieveTask _, .ok job => if job.state = .finished then .marks else .grows
  | solveProb, .ok _ => .marks
  | free, _ => .frees
  | _, _ => .grows

/-- What a call may write of the columns and rows that are there. -/
def scope : Call → Scope
  | setAttr t name index _, _, f, j => f.attr = (t, name) ∧ index = some j
  | setAttrRange t name start vals, _, f, j =>
    f.attr = (t, name) ∧ start ≤ j ∧ j < start + vals.length
  | setAttrVars t name xs _, _, f, j => f.attr = (t, name) ∧ j ∈ xs.map (·.index)
  | setAttrConss t name cs _, _, f, j => f.attr = (t, name) ∧ j ∈ cs.map (·.index)
  | setObjs xs _, _, f, j => f.attr = (.real, "Obj") ∧ j ∈ xs.map (·.index)
  | setQuadraticObjective _, _, f, _ => f.attr = (.real, "Obj")
  | _, _, _, _ => False

/-- What an effect makes of a model, if nothing outside of a scope is written of the columns and
rows that stay. -/
def Happens (W : Scope) : Effect → Model → Model → Prop
  | .grows, m, m' => m.Grows W m'
  | .deletes k removed, m, m' => m.state ≠ .freed ∧ ∃ s,
    (Store.Op.deletion k removed).run m.engine.store = (.ok (), s) ∧
      m' = { (m.withStore s).renew k with state := .populated }
  | .loads, m, m' => m.state ≠ .freed ∧ ∃ (e : Engine) (ops : List Store.Op),
    (∀ op ∈ ops, op.Loads) ∧ e.store = m.engine.store.after ops ∧
      m' = Model.reloaded { m with engine := e }
  | .syncs, m, m' => m.state ≠ .freed ∧ m' = m.renewVars.renewConss
  | .marks, m, m' => m.state ≠ .freed ∧ ∃ (e : Engine) (ops : List Store.Op),
    (∀ op ∈ ops, op.Quiet) ∧ e.store = m.engine.store.after ops ∧
      m' = { m with engine := e, state := .solved }
  | .frees, m, m' => (m.state = .freed ∧ m' = m) ∨ m.state ≠ .freed ∧ ∃ e : Engine,
    e.store = m.engine.store ∧ m' = { m with engine := e, state := .freed, env := none }
  | .spoils, m, m' => ∃ (e : Engine) (ops : List Store.Op), (∀ op ∈ ops, op.Loads) ∧
    e.store = m.engine.store.after ops ∧ m' = { m with engine := e } ∧
      (m.state = .freed → m' = m)
  | .drafts, m, m' => ∃ (e : Engine) (ops : List Store.Op),
    (∀ op ∈ ops, op.InPlace ∧ op.Within W) ∧ e.store = m.engine.store.after ops ∧
      m' = { m with engine := e } ∧ (m.state = .freed → m' = m)

/-- Whatever a call does, the store of the engine is changed by operations. -/
theorem Happens.store_after {effect : Effect} {m m' : Model} (h : Happens W effect m m') :
    ∃ ops, m'.engine.store = m.engine.store.after ops := by
  cases effect with
  | grows =>
    obtain ⟨ops, -, hstore⟩ := Model.Grows.store h
    exact ⟨ops, hstore⟩
  | deletes k removed =>
    obtain ⟨-, s, hs, rfl⟩ := h
    refine ⟨[.deletion k removed], ?_⟩
    rw [Store.after_cons, hs]
    cases k <;> rfl
  | loads | marks =>
    obtain ⟨-, e, ops, -, hstore, rfl⟩ := h
    exact ⟨ops, hstore⟩
  | syncs =>
    obtain ⟨-, rfl⟩ := h
    exact ⟨[], rfl⟩
  | frees =>
    obtain ⟨-, rfl⟩ | ⟨-, e, hstore, rfl⟩ := h
    · exact ⟨[], rfl⟩
    · exact ⟨[], hstore⟩
  | spoils | drafts =>
    obtain ⟨e, ops, -, hstore, rfl, -⟩ := h
    exact ⟨ops, hstore⟩

end Call

namespace Model

open Call

/-! ## The other calls -/

/-- Has the engine delete columns or rows. -/
def engineDeletion : Kind → List ℕ → EngineM σ Int32
  | .variable => Engine.deleteCols
  | .constraint => Engine.deleteRows

/-- Deletes variables or constraints. -/
def deletion : (k : Kind) → List (Handle k) → ModelM σ Unit
  | .variable => deleteVars
  | .constraint => deleteConss

/-- Deleting checks all handles, has the engine delete what they stand for, each once, and renews
the roster. -/
theorem exists_deletion_steps {k : Kind} (x : Handle k) (xs : List (Handle k)) :
    ∃ (operation : String) (rest : List ℕ → ModelM σ Unit),
      (∀ is m (h : Host σ), ∃ h', h.Frame h' ∧
        (rest is).run m h = ((.ok (), (m.renew k).touched), h')) ∧
      deletion k (x :: xs) = (checked fun m => (x :: xs).mapM m.accept) >>= fun js =>
        call operation (engineDeletion k (distinct js)) >>= fun _ => rest (distinct js) := by
  cases k
  · refine ⟨"delete_vars", fun is => do
      modify renewVars
      touch
      record .debug "delete_vars" "Deleted variables"
        [("deleted", .int is.length), ("num_vars", .int (← get).vars.length)], ?_, rfl⟩
    intro is m h
    refine ⟨_, ?_, rfl⟩
    exact ⟨rfl, rfl⟩
  · refine ⟨"delete_conss", fun is => do
      modify renewConss
      touch
      record .debug "delete_conss" "Deleted constraints"
        [("deleted", .int is.length), ("num_conss", .int (← get).conss.length)], ?_, rfl⟩
    intro is m h
    refine ⟨_, ?_, rfl⟩
    exact ⟨rfl, rfl⟩

/-- The engine performs the deletion. -/
theorem performs_engineDeletion (k : Kind) (is : List ℕ) :
    Engine.Performs (.deletion k is) (engineDeletion k is : EngineM σ Int32) := by
  cases k
  · exact Engine.performs_edit (.deleteCols is) rfl trivial
  · exact Engine.performs_edit (.deleteRows is) rfl trivial

/-- Deleting: some handle is not accepted or the call fails, and the model stays as it is, or what
the handles stand for is deleted. -/
theorem happens_deletion {k : Kind} (x : Handle k) (xs : List (Handle k)) (m : Model) {h : Host σ}
    (hh : h.Honest) :
    h.Frame ((deletion k (x :: xs)).run m h).2 ∧
      ((∃ err, ((deletion k (x :: xs)).run m h).1 = (.error err, m)) ∨
        ∃ m', ((deletion k (x :: xs)).run m h).1 = (.ok (), m') ∧
          Happens W (.deletes k (distinct ((x :: xs).map (·.index)))) m m') := by
  obtain ⟨operation, rest, hrest, hsteps⟩ := exists_deletion_steps (σ := σ) x xs
  have hchecked : (checked fun m => (x :: xs).mapM m.accept : ModelM σ (List ℕ)).run m h =
      (((x :: xs).mapM m.accept, m), h) := rfl
  rw [hsteps, run_bind, hchecked]
  cases hjs : (x :: xs).mapM m.accept with
  | error err => exact ⟨.refl h, .inl ⟨err, rfl⟩⟩
  | ok js =>
    obtain ⟨-, rfl⟩ := mapM_accept_eq_ok_iff.1 hjs
    dsimp only
    rw [run_bind]
    obtain ⟨h', hframe, ⟨err, hrun⟩ | ⟨hfreed, s, hs, hrun⟩⟩ := run_call_of_performs operation
      (performs_engineDeletion k (distinct ((x :: xs).map (·.index)))) m hh
    · rw [hrun]
      exact ⟨hframe, .inl ⟨err, rfl⟩⟩
    · obtain ⟨h'', hframe', hrun'⟩ :=
        hrest (distinct ((x :: xs).map (·.index))) (m.withStore s) h'
      have htouched : ((m.withStore s).renew k).touched =
          { (m.withStore s).renew k with state := .populated } := by
        cases k <;> exact if_neg hfreed
      rw [hrun]
      dsimp only
      rw [hrun', htouched]
      exact ⟨hframe.trans hframe', .inr ⟨_, rfl, hfreed, s, hs, rfl⟩⟩

/-- Deleting variables. -/
theorem happens_deleteVars (xs : List Var) (m : Model) {h : Host σ} (hh : h.Honest) :
    h.Frame ((deleteVars xs).run m h).2 ∧
      Happens W (effect (.deleteVars xs) ((deleteVars xs).run m h).1.1) m
        ((deleteVars xs).run m h).1.2 := by
  cases xs with
  | nil => exact Leads.pure () m h hh
  | cons x xs =>
    have hdeletion : deleteVars (x :: xs) = (deletion .variable (x :: xs) : ModelM σ Unit) := rfl
    rw [hdeletion]
    obtain ⟨hframe, ⟨err, hrun⟩ | ⟨m', hrun, hm⟩⟩ := happens_deletion x xs m hh
    · rw [hrun]
      exact ⟨hframe, Grows.refl m⟩
    · rw [hrun]
      exact ⟨hframe, hm⟩

/-- Deleting constraints. -/
theorem happens_deleteConss (cs : List Cons) (m : Model) {h : Host σ} (hh : h.Honest) :
    h.Frame ((deleteConss cs).run m h).2 ∧
      Happens W (effect (.deleteConss cs) ((deleteConss cs).run m h).1.1) m
        ((deleteConss cs).run m h).1.2 := by
  cases cs with
  | nil => exact Leads.pure () m h hh
  | cons c cs =>
    have hdeletion : deleteConss (c :: cs) = (deletion .constraint (c :: cs) : ModelM σ Unit) := rfl
    rw [hdeletion]
    obtain ⟨hframe, ⟨err, hrun⟩ | ⟨m', hrun, hm⟩⟩ := happens_deletion c cs m hh
    · rw [hrun]
      exact ⟨hframe, Grows.refl m⟩
    · rw [hrun]
      exact ⟨hframe, hm⟩

/-- Replacing the objective: what was done to the engine is noted if all of it was done. -/
theorem concludes_setQuadraticObjective (obj : QuadExpr Float) :
    Concludes (fun op => op.InPlace ∧ op.Within (scope (.setQuadraticObjective obj))) touched
      (setQuadraticObjective obj : ModelM σ Unit) := by
  have hcall (op : Store.Op) {c : EngineCall} {f : Store → Except ResultCode Store}
      (hop : op.run = TaskFile.attempt f) (hinPlace : op.InPlace)
      (hwithin : op.Within (scope (.setQuadraticObjective obj))) :
      Drives (fun op => op.InPlace ∧ op.Within (scope (.setQuadraticObjective obj)))
        (call "set_quadratic_objective" (Engine.edit c f) : ModelM σ Unit) :=
    .call (Engine.drives_edit op hop ⟨hinPlace, hwithin⟩)
  refine .bind (.checked _) fun (cols, coefs) => .bind (.checked _) fun (cols₁, cols₂) =>
    .bind (.checked _) fun _ => .bind (.checked _) fun objs => ?_
  refine .bind (.forM fun (c, j) => ?_) fun _ => ?_
  · exact hcall (.setRealAttr "Obj" (some j) c) rfl trivial fun _ _ _ => And.left
  refine .bind (hcall (.setRealAttr "ObjConst" none _) rfl trivial fun _ _ _ h => nomatch h.2)
    fun _ => ?_
  refine .bind (hcall .deleteAllQuadElements rfl trivial nofun) fun _ => ?_
  refine .call (Engine.drives_edit (.setQuadElements cols₁ cols₂ obj.coefs) rfl
    ⟨trivial, nofun⟩) fun m h => ⟨_, (), ?_, rfl⟩
  exact ⟨rfl, rfl⟩

/-- Reading a task file whose problem is chosen. -/
theorem concludes_readTask (file : List UInt8) {parts : Sections} (hparts : parts.model = true) :
    Concludes Store.Op.Loads reloaded (readTask file parts : ModelM σ Unit) := by
  obtain ⟨model, param, soln⟩ := parts
  obtain rfl : model = true := hparts
  refine .bind (.check _) fun _ =>
    .call (Engine.drives_guardedCode (Engine.drives_loadTask fun _ => rfl))
      fun m h => ⟨_, (), ?_, rfl⟩
  exact ⟨rfl, rfl⟩

/-- Reading a task file whose problem is not chosen. -/
theorem drives_readTask {file : List UInt8} {parts : Sections} (hparts : parts.model = false) :
    Drives Store.Op.Quiet (readTask file parts : ModelM σ Unit) := by
  obtain ⟨model, param, soln⟩ := parts
  obtain rfl : model = false := hparts
  exact .bind (.check _) fun _ =>
    (Drives.call (Engine.drives_guardedCode (Engine.drives_loadTask fun _ => rfl))).bind fun _ =>
      .of_eq fun _ _ => ⟨⟨rfl, rfl⟩, rfl⟩

/-- Bringing the rosters in step. -/
theorem happens_sync (m : Model) (h : Host σ) : h.Frame ((sync).run m h).2 ∧
    Happens W (effect .sync ((sync).run m h).1.1) m ((sync).run m h).1.2 := by
  rw [sync, run_bind, run_checkUsable]
  by_cases hfreed : m.state = .freed
  · rw [if_pos hfreed]
    exact ⟨.refl h, Grows.refl m⟩
  · rw [if_neg hfreed]
    exact ⟨.refl h, hfreed, rfl⟩

/-- Replacing the objective: if that fails half way, what was done is not noted. -/
theorem happens_setQuadraticObjective (obj : QuadExpr Float) (m : Model) (h : Host σ) :
    h.Frame ((setQuadraticObjective obj).run m h).2 ∧
      Happens (scope (.setQuadraticObjective obj))
        (effect (.setQuadraticObjective obj) ((setQuadraticObjective obj).run m h).1.1) m
        ((setQuadraticObjective obj).run m h).1.2 := by
  obtain ⟨hframe, e, ops, hops, hstore, ⟨hfreed, a, hrun⟩ | ⟨hfreed, err, hrun⟩⟩ :=
    concludes_setQuadraticObjective obj m h
  · rw [hrun]
    have htouched : touched { m with engine := e } = { m with engine := e, state := .populated } :=
      if_neg hfreed
    rw [htouched]
    exact ⟨hframe, Grows.of_inPlace hfreed hops hstore⟩
  · rw [hrun]
    exact ⟨hframe, e, ops, hops, hstore, rfl, fun hm => by rw [hfreed hm]⟩

/-- Reading a task file: the model takes a problem over if one is chosen and the reading succeeds.
-/
theorem happens_readTask (file : List UInt8) (parts : Sections) (m : Model) {h : Host σ}
    (hh : h.Honest) : h.Frame ((readTask file parts).run m h).2 ∧
      Happens W (effect (.readTask file parts) ((readTask file parts).run m h).1.1) m
        ((readTask file parts).run m h).1.2 := by
  obtain ⟨model, param, soln⟩ := parts
  cases model with
  | false => exact Leads.of_drives (drives_readTask rfl) m h hh
  | true =>
    obtain ⟨hframe, e, ops, hops, hstore, ⟨hfreed, a, hrun⟩ | ⟨hfreed, err, hrun⟩⟩ :=
      concludes_readTask file (show Sections.model ⟨true, param, soln⟩ = true from rfl) m h
    · rw [hrun]
      exact ⟨hframe, hfreed, e, ops, hops, hstore, rfl⟩
    · rw [hrun]
      exact ⟨hframe, e, ops, hops, hstore, rfl, fun hm => by rw [hfreed hm]⟩

/-- Looking up a job: the model is marked as solved if the job is reported as finished. -/
theorem happens_retrieveTask (id : String) (m : Model) (h : Host σ) :
    h.Frame ((retrieveTask id).run m h).2 ∧
      Happens W (effect (.retrieveTask id) ((retrieveTask id).run m h).1.1) m
        ((retrieveTask id).run m h).1.2 := by
  rw [retrieveTask, run_bind, run_withEngine]
  by_cases hfreed : m.state = .freed
  · rw [if_pos hfreed]
    exact ⟨.refl h, .refl m⟩
  · rw [if_neg hfreed]
    have hdrives : Engine.Drives Store.Op.Quiet (Engine.retrieveTask id : EngineM σ _) :=
      Engine.drives_retrieveTask
    obtain ⟨hframe, ops, hops, hstore⟩ := hdrives m.engine h
    have hgrows : m.Grows W _ := .of_quiet hfreed hops hstore
    rcases ((Engine.retrieveTask id).run m.engine h).1.1 with code | report
    · exact ⟨hframe.trans ⟨rfl, rfl⟩, hgrows⟩
    · dsimp only
      cases JobState.ofWord? report.state with
      | none => exact ⟨hframe, hgrows⟩
      | some state =>
        by_cases hstate : state = .finished
        · subst hstate
          exact ⟨hframe, hfreed, _, ops, hops, hstore, rfl⟩
        · dsimp only
          rw [if_neg hstate]
          have heffect : effect (.retrieveTask id) (.ok ⟨id, state, knownStatus report.modelStatus,
              report.result, report.hasSolution⟩) = .grows := if_neg hstate
          refine ⟨hframe, ?_⟩
          show Happens W (effect (.retrieveTask id) (.ok ⟨id, state, knownStatus report.modelStatus,
              report.result, report.hasSolution⟩)) m _
          rw [heffect]
          exact hgrows

/-- Freeing. -/
theorem happens_free [Solver σ] (m : Model) (h : Host σ) : h.Frame ((Call.free.run).run m h).2 ∧
    Happens W .frees m ((Call.free.run).run m h).1.2 := by
  have hrun : (Call.free.run).run m h = ((.ok (), (m.free.run h).1), (m.free.run h).2) := rfl
  rw [hrun, free]
  by_cases hfreed : m.state = .freed
  · rw [if_pos hfreed]
    exact ⟨.refl h, .inl ⟨hfreed, rfl⟩⟩
  · rw [if_neg hfreed]
    obtain ⟨hframe, ops, hops, hstore⟩ :=
      Engine.drives_releaseKeeper (P := fun _ => False) m.engine h
    obtain rfl : ops = [] := List.eq_nil_iff_forall_not_mem.2 hops
    cases henv : m.env with
    | none => exact ⟨hframe.trans ⟨rfl, rfl⟩, .inr ⟨hfreed, _, hstore, rfl⟩⟩
    | some env => exact ⟨hframe.trans ⟨rfl, rfl⟩, .inr ⟨hfreed, _, hstore, rfl⟩⟩

variable [Solver σ]

/-- Reading a problem: the model takes it over, or nothing was read. -/
theorem happens_readProb (file : List UInt8) (m : Model) (h : Host σ) :
    h.Frame ((readProb file).run m h).2 ∧
      Happens W (effect (.readProb file) ((readProb file).run m h).1.1) m
        ((readProb file).run m h).1.2 := by
  rw [readProb, run_bind, run_check]
  cases fileName file with
  | error err => exact ⟨.refl h, Grows.refl m⟩
  | ok name =>
    dsimp only
    rw [run_bind, run_withEngine]
    by_cases hfreed : m.state = .freed
    · rw [if_pos hfreed]
      exact ⟨.refl h, Grows.refl m⟩
    rw [if_neg hfreed]
    obtain ⟨hframe, ops, hops, hstore⟩ := Engine.drives_readProb name m.engine h
    have hunread := Engine.store_readProb name m.engine h
    rcases hread : (Engine.readProb name).run m.engine h with ⟨⟨r, e⟩, h'⟩
    rw [hread] at hframe hstore hunread
    -- If nothing was read the engine may have been asked for a fault, which it has noted.
    have hgrows (hr : r ≠ some ResultCode.okay.code) : m.Grows W { m with engine := e } :=
      Grows.of_quiet hfreed (List.forall_mem_nil Store.Op.Quiet) (hunread hr)
    cases r with
    | none => exact ⟨hframe, hgrows nofun⟩
    | some code =>
      dsimp only
      by_cases hcode : code = ResultCode.okay.code
      · subst hcode
        exact ⟨hframe.trans ⟨rfl, rfl⟩, hfreed, e, ops, hops, hstore, rfl⟩
      · obtain ⟨journal, hcheck⟩ :=
          run_checkCode_of_ne "read_prob" hcode { m with engine := e } h'
        rw [run_bind, hcheck]
        exact ⟨hframe.trans ⟨rfl, rfl⟩, hgrows fun h => hcode (Option.some.inj h)⟩

/-- A solve of a model that has not been freed marks it if the engine's code is zero, and leaves it
as it is otherwise, with what the engine did. -/
theorem run_solveProb (m : Model) (h : Host σ) : ∃ journal h',
    let r := Engine.solveProb.run m.engine { h with journal }
    h.Frame h' ∧ solveProb.run m h =
      (if m.state = .freed then (.error .freed, m)
        else if r.1.1 = ResultCode.okay.code then
          (.ok (), { m with engine := r.1.2, state := .solved })
        else (.error (.engine r.1.1 (ResultCode.explain r.1.1)), { m with engine := r.1.2 }),
        h') := by
  -- Before the call an event is recorded; after it the status is read for one, which cannot fail.
  have hfirst : ∃ journal, solveProb.run m h = (call "solve" Engine.solveProb >>= fun _ => do
      modify fun m => { m with state := .solved }
      let status ← onEngine Engine.status
      record .debug "solve" "Solve finished"
        [("status", .text "success"), ("model_status", .int status.toInt)] :
          ModelM σ Unit).run m { h with journal } := ⟨_, rfl⟩
  have hrest (m : Model) (h : Host σ) : ∃ journal, (do
      let status ← onEngine Engine.status
      record .debug "solve" "Solve finished"
        [("status", .text "success"), ("model_status", .int status.toInt)] :
          ModelM σ Unit).run m h = ((.ok (), m), { h with journal }) := by
    obtain ⟨code, hstatus⟩ := Engine.run_status m.engine h
    rw [run_bind, run_onEngine, hstatus]
    exact ⟨_, rfl⟩
  obtain ⟨journal, hrun⟩ := hfirst
  obtain ⟨hframe, -⟩ := Engine.drives_solveProb (P := Store.Op.Quiet) trivial (fun _ => trivial)
    m.engine { h with journal }
  rw [hrun, run_bind, run_call]
  refine ⟨journal, ?_⟩
  generalize Engine.solveProb.run m.engine { h with journal } = r at hframe
  have hjournal : h.Frame { h with journal } := ⟨rfl, rfl⟩
  have hframe' := hjournal.trans hframe
  dsimp only
  by_cases hfreed : m.state = .freed
  · simp only [if_pos hfreed]
    exact ⟨{ h with journal }, hjournal, rfl⟩
  simp only [if_neg hfreed]
  by_cases hcode : r.1.1 = ResultCode.okay.code
  · obtain ⟨journal', hrun'⟩ := hrest { m with engine := r.1.2, state := .solved } r.2
    rw [if_pos hcode, hcode, run_checkCode_okay]
    exact ⟨{ r.2 with journal := journal' }, hframe'.trans ⟨rfl, rfl⟩, hrun'⟩
  · obtain ⟨journal', hcheck⟩ := run_checkCode_of_ne "solve" hcode { m with engine := r.1.2 } r.2
    rw [if_neg hcode, hcheck]
    exact ⟨{ r.2 with journal := journal' }, hframe'.trans ⟨rfl, rfl⟩, rfl⟩

/-- A solve marks the model if it ends well. -/
theorem happens_solveProb (m : Model) (h : Host σ) :
    h.Frame ((solveProb).run m h).2 ∧
      Happens W (effect .solveProb ((solveProb).run m h).1.1) m ((solveProb).run m h).1.2 := by
  obtain ⟨journal, h', hframe, hrun⟩ := run_solveProb m h
  obtain ⟨-, ops, hops, hstore⟩ := Engine.drives_solveProb (P := Store.Op.Quiet) trivial
    (fun _ => trivial) m.engine { h with journal }
  rw [hrun]
  refine ⟨hframe, ?_⟩
  split_ifs with hfreed hcode
  · exact Grows.refl m
  · exact ⟨hfreed, _, ops, hops, hstore, rfl⟩
  · exact Grows.of_quiet hfreed hops hstore

end Model

/-! ## All calls -/

namespace Call

open Model

variable [Solver σ]

/-- What a call did to the model. -/
theorem happens (c : Call) (m : Model) {h : Host σ} (hh : h.Honest) :
    h.Frame (c.run.run m h).2 ∧
      Happens c.scope (c.effect (c.run.run m h).1.1) m (c.run.run m h).1.2 := by
  cases c with
  -- Calls with which the model grows.
  | addVar => exact leads_pushCol m h hh
  | addVarWithCol => exact leads_addVarWithCol m h hh
  | addVarWithConss => exact leads_addVarWithConss m h hh
  | addVars => exact Leads.times leads_pushCol m h hh
  | addVarsWith => exact leads_addVarsWith m h hh
  | addVarsWithCols => exact leads_addVarsWithCols m h hh
  | addCons => exact leads_addCons m h hh
  | addRange => exact leads_pushRow m h hh
  | addConss => exact Leads.times leads_pushRow m h hh
  | addConssWith => exact leads_addConssWith m h hh
  | addRanges => exact leads_addRanges m h hh
  | setElements => exact leads_setElements m h hh
  | deleteElements => exact leads_deleteElements m h hh
  | deleteAllElements => exact leads_deleteAllElements m h hh
  | setQuadraticElements => exact leads_setQuadraticElements m h hh
  | deleteQuadraticElements => exact leads_deleteQuadraticElements m h hh
  | deleteAllQuadraticElements => exact leads_deleteAllQuadraticElements m h hh
  | setAttr => exact leads_setAttr (fun _ _ _ hf hj => ⟨hf, hj⟩) m h hh
  | setAttrRange => exact leads_setAttrRange (fun _ _ _ hf hle hlt => ⟨hf, hle, hlt⟩) m h hh
  | setAttrVars => exact leads_setAttrHandles (fun _ _ _ hf hj => ⟨hf, hj⟩) m h hh
  | setAttrConss => exact leads_setAttrHandles (fun _ _ _ hf hj => ⟨hf, hj⟩) m h hh
  | setMinObjSense | setMaxObjSense | setObjOffset =>
    exact leads_setAttr (fun _ _ _ _ => nofun) m h hh
  | setObjs => exact leads_setAttrHandles (fun _ _ _ hf hj => ⟨hf, hj⟩) m h hh
  -- Calls that have nothing to do with the problem.
  | allVars => exact Leads.of_drives drives_allVars m h hh
  | allConss => exact Leads.of_drives drives_allConss m h hh
  | numVars => exact Leads.of_drives (drives_allVars.bind fun _ => .pure _) m h hh
  | numConss => exact Leads.of_drives (drives_allConss.bind fun _ => .pure _) m h hh
  | var => exact Leads.of_drives (drives_allVars.bind fun _ => drives_orFail) m h hh
  | cons => exact Leads.of_drives (drives_allConss.bind fun _ => drives_orFail) m h hh
  | varByName =>
    exact Leads.of_drives
      (drives_allVars.bind fun _ => Drives.get.bind fun _ => drives_orFail) m h hh
  | consByName =>
    exact Leads.of_drives
      (drives_allConss.bind fun _ => Drives.get.bind fun _ => drives_orFail) m h hh
  | col => exact Leads.of_drives drives_col m h hh
  | exprLinear => exact Leads.of_drives drives_exprLinear m h hh
  | elements => exact Leads.of_drives drives_elements m h hh
  | quadraticElements => exact Leads.of_drives drives_quadraticElements m h hh
  | attr => exact Leads.of_drives drives_attr m h hh
  | attrRange =>
    exact Leads.of_drives ((Drives.check _).bind fun _ => drives_attrFrom) m h hh
  | attrVars => exact Leads.of_drives drives_attrVars m h hh
  | attrConss => exact Leads.of_drives drives_attrConss m h hh
  | checkVar | checkCons =>
    exact Leads.of_drives
      ((Drives.checked _).bind fun _ => (Drives.checked _).bind fun _ => .pure _) m h hh
  | isMinObjSense | isMaxObjSense =>
    exact Leads.of_drives (drives_attr.bind fun _ => .pure _) m h hh
  | objOffset => exact Leads.of_drives drives_attr m h hh
  | objs => exact Leads.of_drives drives_attrVars m h hh
  | param => exact Leads.of_drives drives_param m h hh
  | setParam => exact Leads.of_drives drives_setParam m h hh
  | setLogToConsole | setLogCallback =>
    exact Leads.of_drives (.withEngine (Engine.drives_modifyLog fun _ => trivial)) m h hh
  | applyConfig => exact Leads.of_drives drives_applyConfig m h hh
  | writeTask => exact Leads.of_drives drives_writeTask m h hh
  | setLogFile =>
    exact Leads.of_drives (.call (Engine.drives_setLogFile fun _ => trivial)) m h hh
  | writeProb => exact Leads.of_drives drives_writeProb m h hh
  | writeSoln => exact Leads.of_drives drives_writeSoln m h hh
  | displayResults => exact Leads.of_drives (.call Engine.drives_displayResults) m h hh
  | explainResult | explainStatus =>
    exact Leads.of_drives ((Drives.checked _).bind fun _ => .pure _) m h hh
  | status =>
    exact Leads.of_drives ((Drives.withEngine Engine.drives_status).bind fun _ => .pure _) m h hh
  | computeIis => exact Leads.of_drives drives_computeIis m h hh
  | submitTask => exact Leads.of_drives drives_submitTask m h hh
  -- The other calls.
  | deleteVars xs => exact happens_deleteVars xs m hh
  | deleteConss cs => exact happens_deleteConss cs m hh
  | sync => exact happens_sync m h
  | setQuadraticObjective obj => exact happens_setQuadraticObjective obj m h
  | readTask file parts => exact happens_readTask file parts m hh
  | readProb file => exact happens_readProb file m h
  | retrieveTask id => exact happens_retrieveTask id m h
  | solveProb => exact happens_solveProb m h
  | free => exact happens_free m h

/-- Only a failed reading of a task file spoils a model. -/
theorem effect_eq_spoils {c : Call} {r : Except Error c.Result} (h : c.effect r = .spoils) :
    ∃ file parts err, c = .readTask file parts ∧ r = .error err := by
  unfold effect at h
  split at h <;> try cases h
  · -- A reading of a task file; it spoils the model if the problem is chosen and the call fails.
    rename_i file parts r
    split_ifs at h
    cases r with
    | ok a => cases h
    | error err => exact ⟨file, parts, err, rfl, rfl⟩
  · -- A job that is looked up.
    split_ifs at h

end Call

/-! ## Runs of calls -/

/-- A new model takes the host's next number, and its handles are those of all columns and rows. -/
theorem Model.run_ofEngine (engine : Engine) (h : Host σ) : ∃ state journal,
    (state = .created ∨ state = .populated) ∧ (ofEngine engine).run h =
      ({ ({ id := h.models, engine : Model }).renewVars.renewConss with state },
        { h with models := h.models + 1, journal }) := by
  have hrun : ∃ journal, (ofEngine engine).run h =
      (let m := ({ id := h.models, engine : Model }).renewVars.renewConss
       if m.vars.isEmpty && m.conss.isEmpty then m else { m with state := .populated },
        { h with models := h.models + 1, journal }) := ⟨_, rfl⟩
  obtain ⟨journal, hrun⟩ := hrun
  rw [hrun]
  dsimp only
  split
  · exact ⟨.created, journal, .inl rfl, rfl⟩
  · exact ⟨.populated, journal, .inr rfl, rfl⟩

/-- A call of a model, with the host on which it is made. -/
structure Turn (σ : Type) where
  call : Call
  host : Host σ

namespace Turn

variable [Solver σ]

/-- The model that a turn leaves. -/
def after (t : Turn σ) (m : Model) : Model := (t.call.run.run m t.host).1.2

/-- What the call of a turn was to the model. -/
def effect (t : Turn σ) (m : Model) : Call.Effect :=
  t.call.effect (t.call.run.run m t.host).1.1

/-- A turn fails to read a task file. -/
def FailsToReadTask (t : Turn σ) (m : Model) : Prop := ∃ file parts err,
  t.call = .readTask file parts ∧ (t.call.run.run m t.host).1.1 = .error err

/-- What a turn does to a model. -/
theorem happens (t : Turn σ) (ht : t.host.Honest) (m : Model) :
    Call.Happens t.call.scope (t.effect m) m (t.after m) := (t.call.happens m ht).2

end Turn

namespace Model

variable [Solver σ]

/-- The model that turns leave, one after another. -/
def afterTurns (m : Model) (ts : List (Turn σ)) : Model := ts.foldl (fun m t => t.after m) m

@[simp] theorem afterTurns_nil (m : Model) : m.afterTurns ([] : List (Turn σ)) = m := rfl

@[simp] theorem afterTurns_cons (m : Model) (t : Turn σ) (ts : List (Turn σ)) :
    m.afterTurns (t :: ts) = (t.after m).afterTurns ts := rfl

@[simp] theorem afterTurns_append (m : Model) (ts ts' : List (Turn σ)) :
    m.afterTurns (ts ++ ts') = (m.afterTurns ts).afterTurns ts' := List.foldl_append ..

/-- The store of the engine stays reachable. -/
theorem reachable_afterTurns {ts : List (Turn σ)} {m : Model} (hs : m.engine.store.Reachable)
    (hhonest : ∀ t ∈ ts, t.host.Honest) : (m.afterTurns ts).engine.store.Reachable := by
  induction ts generalizing m with
  | nil => exact hs
  | cons t ts ih =>
    obtain ⟨ht, hts⟩ := List.forall_mem_cons.1 hhonest
    obtain ⟨ops, hstore⟩ := (t.happens ht m).store_after
    refine ih ?_ hts
    rw [hstore]
    exact hs.after ops

end Model

end MathProgram
