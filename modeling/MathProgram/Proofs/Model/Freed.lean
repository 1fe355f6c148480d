import MathProgram.Proofs.Model.Arguments
import MathProgram.Proofs.Model.Identity
import MathProgram.Proofs.Model.ReadBack
import MathProgram.Proofs.Model.Refusal

/-!
# Calls of a freed model

A model that has been freed stays so, and no call changes it. That it has been freed is noticed when
a call turns to the engine. So a call fails for this reason if nothing is wrong with its arguments
as far as they are looked at before (`Call.screening`), and if there is something to do for it
(`Call.idle?`): a call with wrong arguments fails for them, and one with nothing to do succeeds
(`freed_models_stay_freed`).
-/

namespace MathProgram

open ModelM Model

variable {σ α β : Type} {k : Kind}

/-! ## What is looked at first -/

/-- All handles are accepted, or the call fails for the first one that is not. -/
def Model.screen (m : Model) (xs : List (Handle k)) : Except Error Unit :=
  discard (xs.mapM m.accept)

/-- The handles of an addition are accepted. -/
def Addition.screening (a : Addition k) (m : Model) : Except Error Unit :=
  m.screen (a.passed.map (·.1))

/-- The arguments of a batch are right for the first of its additions. -/
def Batch.screening (b : Batch k) (m : Model) : Except Error Unit := do
  match ← b.additions with
  | [] => return ()
  | a :: _ => a.screening m

/-- What a batch gives that has no additions. -/
def Batch.idle? (b : Batch k) : Option (List (Handle k)) :=
  match b.additions with
  | .ok [] => some []
  | _ => none

namespace Call

/-- What is checked of the arguments of a call before it is checked that the model has not been
freed. -/
def screening : Call → Model → Except Error Unit
  | addVarWithCol c a, m => (Addition.varWithCol c a).screening m
  | addVarWithConss _ cs coefs, m => do
    m.screen cs
    checkOptional .coefficients cs.length coefs
  | addVars count isInteger, m => (Batch.vars count isInteger).screening m
  | addVarsWith d, m => (Batch.varsWith d).screening m
  | addVarsWithCols d columns, m => (Batch.varsWithCols d columns).screening m
  | addCons left sense right name, m =>
    match statedRow? left sense right with
    | some row => (Addition.cons row name).screening m
    | none => .error (.invalidArgument .constantSides)
  | addRange e lower upper name, m => (Addition.cons (rowBetween e lower upper) name).screening m
  | addConss count, m => (Batch.conss count).screening m
  | addConssWith es senses bs names, m => (Batch.conssWith es senses bs names).screening m
  | addRanges es lowers uppers names, m => (Batch.ranges es lowers uppers names).screening m
  | deleteVars xs, m | attrVars _ _ xs, m | objs xs, m => m.screen xs
  | deleteConss cs, m | attrConss _ _ cs, m => m.screen cs
  | col x, m => m.screen [x]
  | exprLinear c, m => m.screen [c]
  | elements cs xs, m | deleteElements cs xs, m => discard (m.positions cs xs)
  | setElements cs xs vals, m => do
    discard (m.positions cs xs)
    checkLength .values cs.length vals.length
  | quadraticElements xs ys, m | deleteQuadraticElements xs ys, m => discard (m.quadPositions xs ys)
  | setQuadraticElements xs ys vals, m => do
    discard (m.quadPositions xs ys)
    checkLength .values xs.length vals.length
  | setQuadraticObjective obj, m => do
    m.screen obj.linear.purge.vars
    discard (m.quadPositions obj.vars1 obj.vars2)
  | attrRange _ _ start len, _ => checkRange start len
  | setAttrRange _ _ start vals, _ => checkRange start vals.length
  | setAttrVars _ _ xs vals, m => do
    checkLength .values xs.length vals.length
    m.screen xs
  | setObjs xs vals, m => do
    checkLength .values xs.length vals.length
    m.screen xs
  | setAttrConss _ _ cs vals, m => do
    checkLength .values cs.length vals.length
    m.screen cs
  | readTask file _, _ | writeTask file _, _ | readProb file, _ | writeProb file, _
  | writeSoln file, _ => discard (fileName file)
  | _, _ => .ok ()

/-- What a call gives that has nothing to do: no additions, no handles, no indexes, no options, or
a model to free that has been freed. -/
def idle? : (c : Call) → Option c.Result
  | addVars count isInteger => (Batch.vars count isInteger).idle?
  | addVarsWith d => (Batch.varsWith d).idle?
  | addVarsWithCols d columns => (Batch.varsWithCols d columns).idle?
  | addConss count => (Batch.conss count).idle?
  | addConssWith es senses bs names => (Batch.conssWith es senses bs names).idle?
  | addRanges es lowers uppers names => (Batch.ranges es lowers uppers names).idle?
  | deleteVars [] | deleteConss [] | setAttrRange _ _ _ [] | setAttrVars _ _ [] _
  | setAttrConss _ _ [] _ | setObjs [] _ | free => some ()
  | attrRange _ _ _ 0 | attrVars _ _ [] | attrConss _ _ [] => some ([] : List _)
  | objs [] => some ([] : List Float)
  | applyConfig c => if c.isEmpty then some () else none
  | _ => none

/-- What a call of a freed model gives. -/
def whenFreed (c : Call) (m : Model) : Except Error c.Result := do
  c.screening m
  c.idle?.elim (throw .freed) pure

end Call

/-! ## Computations that change nothing -/

/-- A computation gives a result on any host, and changes neither the model nor the host. -/
def Model.Gives (m : Model) (act : ModelM σ α) (r : Except Error α) : Prop :=
  ∀ h, act.run m h = ((r, m), h)

namespace Model.Gives

variable {m : Model} {act : ModelM σ α} {next : α → ModelM σ β} {err : Error}
  {s : Except Error Unit}

/-- Giving a value. -/
theorem pure (a : α) : m.Gives (Pure.pure a : ModelM σ α) (.ok a) := fun _ => rfl

/-- Failing. -/
theorem throw (err : Error) : m.Gives (throw err : ModelM σ α) (.error err) := fun _ => rfl

/-- A check, and then a computation. -/
theorem check_bind {r : Except Error α} {r' : Except Error β}
    (h : ∀ a, r = .ok a → m.Gives (next a) r') :
    m.Gives (check r >>= next) (discard r >>= fun _ => r') := fun host => by
  rw [run_bind, run_check]
  cases r with
  | error err => rfl
  | ok a => exact h a rfl host

/-- A check of which nothing is used further on, and then a computation. -/
theorem check_unit_bind {r : Except Error Unit} {next : Unit → ModelM σ β} {r' : Except Error β}
    (h : m.Gives (next ()) r') : m.Gives (check r >>= next) (r >>= fun _ => r') := fun host => by
  rw [run_bind, run_check]
  cases r with
  | error err => rfl
  | ok a => exact h host

/-- A check of arguments against the model, and then a computation. -/
theorem checked_bind {f : Model → Except Error α} {r' : Except Error β}
    (h : ∀ a, f m = .ok a → m.Gives (next a) r') :
    m.Gives (checked f >>= next) (discard (f m) >>= fun _ => r') := check_bind h

/-- What follows a failure is left out. -/
theorem bind_throw (hact : m.Gives act (s >>= fun _ => .error err)) :
    m.Gives (act >>= next) (s >>= fun _ => .error err) := fun host => by
  rw [run_bind, hact host]
  cases s <;> rfl

/-- What follows a failure is left out. -/
theorem bind_error (hact : m.Gives act (.error err)) : m.Gives (act >>= next) (.error err) :=
  bind_throw (s := .ok ()) hact

/-- Two checks are one after the other. -/
theorem assoc {s' : Except Error Unit} {r : Except Error α}
    (hact : m.Gives act (s >>= fun _ => s' >>= fun _ => r)) :
    m.Gives act ((s >>= fun _ => s') >>= fun _ => r) := by
  rwa [bind_assoc]

end Model.Gives

/-! ## Computations on a freed model -/

namespace Model

open Gives

/-- The check of one handle. -/
theorem screen_singleton (m : Model) (x : Handle k) : m.screen [x] = discard (m.accept x) := by
  rw [screen, List.mapM_cons, List.mapM_nil]
  cases m.accept x <;> rfl

/-- Coefficients that are not given are as many as they have to be. -/
theorem checkLength_getD (n : ℕ) (coefs : Option (List Float)) :
    checkLength .coefficients n (coefs.getD (List.replicate n 1)).length =
      checkOptional .coefficients n coefs := by
  cases coefs with
  | none => exact if_pos (List.length_replicate ..).symm
  | some coefs => rfl

/-- The check of an expression is that of its handles. -/
theorem discard_linearParts (m : Model) (e : LinearExpr Float) :
    discard (m.linearParts e) = m.screen e.vars := by
  have hparts : m.linearParts e = e.vars.mapM m.accept >>= fun js => pure (js, e.coefs) := rfl
  rw [hparts, screen]
  cases e.vars.mapM m.accept <;> rfl

/-- Indexes of handles are as many as these. -/
theorem length_of_accepted {m : Model} {xs : List (Handle k)} {is : List ℕ}
    (h : xs.mapM m.accept = .ok is) : is.length = xs.length := by
  rw [(mapM_accept_eq_ok_iff.1 h).2, List.length_map]

/-- Positions are as many as the constraints they are given by. -/
theorem length_of_positions {m : Model} {cs : List Cons} {xs : List Var} {rows cols : List ℕ}
    (h : m.positions cs xs = .ok (rows, cols)) : rows.length = cs.length := by
  obtain ⟨-, -, h⟩ := bind_eq_ok.1 h
  obtain ⟨rows', hrows, h⟩ := bind_eq_ok.1 h
  obtain ⟨cols', -, h⟩ := bind_eq_ok.1 h
  obtain ⟨rfl, rfl⟩ := Prod.mk.inj (Except.ok.inj h)
  exact length_of_accepted (k := .constraint) hrows

/-- Positions are as many as the first variables they are given by. -/
theorem length_of_quadPositions {m : Model} {xs ys : List Var} {is js : List ℕ}
    (h : m.quadPositions xs ys = .ok (is, js)) : is.length = xs.length := by
  obtain ⟨-, -, h⟩ := bind_eq_ok.1 h
  obtain ⟨is', his, h⟩ := bind_eq_ok.1 h
  obtain ⟨js', -, h⟩ := bind_eq_ok.1 h
  obtain ⟨rfl, rfl⟩ := Prod.mk.inj (Except.ok.inj h)
  exact length_of_accepted (k := .variable) his

variable {m : Model} (hm : m.state = .freed)

include hm

/-- The check that the model has not been freed. -/
theorem gives_checkUsable : m.Gives (checkUsable : ModelM σ Unit) (.error .freed) := fun h => by
  rw [run_checkUsable, if_pos hm]

/-- A computation on the engine. -/
theorem gives_withEngine {act : EngineM σ α} :
    m.Gives (withEngine act) (.error .freed) := (gives_checkUsable hm).bind_error

/-- A call of the engine. -/
theorem gives_call {operation : String} {act : EngineM σ Int32} :
    m.Gives (call operation act) (.error .freed) := (gives_withEngine hm).bind_error

/-- A call of the engine with an output. -/
theorem gives_callFor {operation : String} {act : EngineM σ (Int32 × α)} :
    m.Gives (callFor operation act) (.error .freed) := (gives_withEngine hm).bind_error

/-- A call of the engine that changes the problem. -/
theorem gives_change {operation : String} {act : EngineM σ Int32} :
    m.Gives (change operation act) (.error .freed) := (gives_call hm).bind_error

/-- Adding a column. -/
theorem gives_pushCol {c : ColData} {rows : List ℕ} {vals : List Float} :
    m.Gives (pushCol c rows vals : ModelM σ Var) (.error .freed) := (gives_call hm).bind_error

/-- An addition fails for its handles or because the model has been freed. -/
theorem gives_addition (a : Addition k) :
    m.Gives (a.run : ModelM σ (Handle k)) (a.screening m >>= fun _ => .error .freed) := by
  cases a with
  | var c => exact gives_pushCol hm
  | varWithCol c a => exact checked_bind fun _ _ => gives_pushCol hm
  | cons row name =>
    have hscreen : discard (m.linearParts row.expr.purge) =
        (Addition.cons row name).screening m :=
      discard_linearParts m row.expr.purge
    rw [← hscreen]
    exact checked_bind fun _ _ => gives_call hm |>.bind_error

/-- A batch fails for its arguments or because the model has been freed, unless it has no additions.
-/
theorem gives_batch (b : Batch k) : m.Gives (b.run : ModelM σ (List (Handle k)))
    (b.screening m >>= fun _ => b.idle?.elim (.error .freed) .ok) := by
  rw [b.run_eq, Batch.screening, Batch.idle?]
  cases hadded : b.additions with
  | error err => exact fun h => rfl
  | ok added =>
    cases added with
    | nil => exact Gives.pure []
    | cons a added =>
      have hmapM : m.Gives ((a :: added).mapM Addition.run : ModelM σ (List (Handle k)))
          (a.screening m >>= fun _ => .error .freed) := by
        rw [List.mapM_cons]
        exact bind_throw (gives_addition hm a)
      exact hmapM

/-- Something is read for every one of some handles. -/
theorem gives_forHandles (t : ValueType) (name : String) (xs : List (Handle k)) :
    m.Gives (checked (fun m => xs.mapM m.accept) >>= fun is => is.mapM fun i =>
        (attr t name (some i) : ModelM σ t.Value))
      (m.screen xs >>= fun _ => match xs with
        | [] => .ok []
        | _ :: _ => .error .freed) := by
  refine checked_bind fun is his => ?_
  have hlength := length_of_accepted his
  cases xs with
  | nil =>
    obtain rfl := List.length_eq_zero_iff.1 hlength
    exact Gives.pure []
  | cons x xs =>
    cases is with
    | nil => cases hlength
    | cons i is =>
      rw [List.mapM_cons]
      exact bind_error (gives_callFor hm)

/-- An attribute is written at indexes. -/
theorem gives_setAttrAt {t : ValueType} {name : String} {entries : List (ℕ × t.Value)} :
    m.Gives (setAttrAt t name entries : ModelM σ Unit) (match entries with
      | [] => .ok ()
      | _ :: _ => .error .freed) := by
  cases entries with
  | nil => exact Gives.pure ()
  | cons entry entries => exact bind_error (gives_change hm)

/-- An attribute is written for handles. -/
theorem gives_setForHandles (t : ValueType) (name : String) (xs : List (Handle k))
    (vals : List t.Value) :
    m.Gives (check (checkLength .values xs.length vals.length) >>= fun _ =>
        checked (fun m => xs.mapM m.accept) >>= fun is =>
          (setAttrAt t name (is.zip vals) : ModelM σ Unit))
      ((checkLength .values xs.length vals.length >>= fun _ => m.screen xs) >>= fun _ =>
        match xs with
        | [] => .ok ()
        | _ :: _ => .error .freed) := by
  by_cases hlength : xs.length = vals.length
  · refine assoc (check_unit_bind (checked_bind fun is his => ?_))
    have hlength' := length_of_accepted his
    cases xs with
    | nil =>
      obtain rfl := List.length_eq_zero_iff.1 hlength'
      exact Gives.pure ()
    | cons x xs =>
      obtain ⟨i, is, rfl⟩ := List.exists_cons_of_length_eq_add_one hlength'
      obtain ⟨v, vals, rfl⟩ := List.exists_cons_of_length_eq_add_one hlength.symm
      exact gives_setAttrAt hm
  · have hcheck : checkLength .values xs.length vals.length =
        .error (.lengthMismatch .values xs.length vals.length) := if_neg hlength
    rw [hcheck]
    exact fun _ => rfl

/-- Options are set. -/
theorem gives_applyConfig (c : Config) : m.Gives (applyConfig c : ModelM σ Unit)
    (if c.isEmpty then .ok () else .error .freed) := by
  have hempty : c.isEmpty = (c.params.isEmpty && c.logToConsole.isNone) := by
    obtain ⟨_ | _, _ | _, _ | _, _ | _, _ | _, _ | _, _⟩ := c <;> rfl
  rw [hempty, applyConfig]
  cases c.params with
  | nil =>
    cases c.logToConsole with
    | none => exact Gives.pure ()
    | some on => exact gives_withEngine hm
  | cons entry entries => exact bind_error (bind_error (gives_call hm))

end Model

namespace Call

variable [Solver σ] {m : Model}

open Gives

/-- A call of a freed model other than a solve gives what it is said to give. -/
theorem gives (hm : m.state = .freed) (c : Call) (hc : c ≠ .solveProb) :
    m.Gives (c.run : ModelM σ c.Result) (c.whenFreed m) := by
  cases c with
  | addVar => exact gives_pushCol hm
  | addVarWithCol c a => exact gives_addition hm (.varWithCol c a)
  | addVarWithConss c cs coefs =>
    refine assoc (checked_bind fun rows _ => ?_)
    rw [← checkLength_getD]
    exact check_unit_bind (gives_pushCol hm)
  | addVars count isInteger => exact gives_batch hm (.vars count isInteger)
  | addVarsWith d => exact gives_batch hm (.varsWith d)
  | addVarsWithCols d columns => exact gives_batch hm (.varsWithCols d columns)
  | addConss count => exact gives_batch hm (.conss count)
  | addConssWith es senses bs names => exact gives_batch hm (.conssWith es senses bs names)
  | addRanges es lowers uppers names => exact gives_batch hm (.ranges es lowers uppers names)
  | addCons left sense right name =>
    have hrun : (addCons left sense right name : Call).run =
        (Model.addCons left sense right name : ModelM σ Cons) := rfl
    rw [whenFreed, screening, hrun, Model.addCons]
    cases statedRow? left sense right with
    | none => exact Gives.throw _
    | some row => exact gives_addition hm (.cons row name)
  | addRange e lower upper name => exact gives_addition hm (.cons (rowBetween e lower upper) name)
  | allVars | allConss | sync => exact (gives_checkUsable hm).bind_error
  | numVars | numConss | var | cons | varByName | consByName =>
    exact ((gives_checkUsable hm).bind_error).bind_error
  | deleteVars xs =>
    cases xs with
    | nil => exact Gives.pure ()
    | cons x xs => exact checked_bind fun _ _ => (gives_call hm).bind_error
  | deleteConss cs =>
    cases cs with
    | nil => exact Gives.pure ()
    | cons c cs => exact checked_bind fun _ _ => (gives_call hm).bind_error
  | col x =>
    have hscreen : (Call.col x).screening m = discard (m.accept x) := screen_singleton m x
    rw [whenFreed, hscreen]
    exact checked_bind fun _ _ => bind_error (bind_error (gives_callFor hm))
  | exprLinear c =>
    have hscreen : (Call.exprLinear c).screening m = discard (m.accept c) := screen_singleton m c
    rw [whenFreed, hscreen]
    exact checked_bind fun _ _ => bind_error (bind_error (gives_callFor hm))
  | elements cs xs => exact checked_bind fun _ _ => gives_callFor hm
  | setElements cs xs vals =>
    refine assoc (checked_bind fun parts hpos => ?_)
    obtain ⟨rows, cols⟩ := parts
    rw [← length_of_positions hpos]
    exact check_unit_bind (gives_change hm)
  | deleteElements cs xs => exact checked_bind fun _ _ => gives_change hm
  | deleteAllElements => exact gives_change hm
  | quadraticElements xs ys => exact checked_bind fun _ _ => gives_callFor hm
  | setQuadraticElements xs ys vals =>
    refine assoc (checked_bind fun parts hpos => ?_)
    obtain ⟨rows, cols⟩ := parts
    rw [← length_of_quadPositions hpos]
    exact check_unit_bind (gives_change hm)
  | deleteQuadraticElements xs ys => exact checked_bind fun _ _ => gives_change hm
  | deleteAllQuadraticElements => exact gives_change hm
  | setQuadraticObjective obj =>
    have hscreen : m.screen obj.linear.purge.vars = discard (m.linearParts obj.linear.purge) :=
      (discard_linearParts m _).symm
    refine assoc ?_
    rw [hscreen]
    exact checked_bind fun _ _ => checked_bind fun _ _ => (gives_checkUsable hm).bind_error
  | attr => exact gives_callFor hm
  | setAttr => exact gives_change hm
  | attrRange t name start len =>
    cases len with
    | zero => exact check_unit_bind (Gives.pure [])
    | succ len => exact check_unit_bind (bind_error (gives_callFor hm))
  | setAttrRange t name start vals =>
    cases vals with
    | nil => exact check_unit_bind (gives_setAttrAt hm)
    | cons v vals => exact check_unit_bind (gives_setAttrAt hm)
  | attrVars t name xs =>
    have hgives := gives_forHandles (σ := σ) hm t name xs
    cases xs <;> exact hgives
  | setAttrVars t name xs vals =>
    have hgives := gives_setForHandles (σ := σ) hm t name xs vals
    cases xs <;> exact hgives
  | attrConss t name cs =>
    have hgives := gives_forHandles (σ := σ) hm t name cs
    cases cs <;> exact hgives
  | setAttrConss t name cs vals =>
    have hgives := gives_setForHandles (σ := σ) hm t name cs vals
    cases cs <;> exact hgives
  | objs xs =>
    have hgives := gives_forHandles (σ := σ) hm .real "Obj" xs
    cases xs <;> exact hgives
  | setObjs xs vals =>
    have hgives := gives_setForHandles (σ := σ) hm .real "Obj" xs vals
    cases xs <;> exact hgives
  | checkVar | checkCons => exact (gives_checkUsable hm).bind_error
  | isMinObjSense | isMaxObjSense => exact (gives_callFor hm).bind_error
  | setMinObjSense | setMaxObjSense | setObjOffset => exact gives_change hm
  | objOffset => exact gives_callFor hm
  | param => exact (gives_withEngine hm).bind_error
  | setParam | setLogFile | displayResults => exact gives_call hm
  | setLogToConsole | setLogCallback => exact gives_withEngine hm
  | applyConfig c =>
    have hgives := gives_applyConfig (σ := σ) hm c
    have hwhen : (Call.applyConfig c).whenFreed m =
        (if c.isEmpty then some () else none).elim (.error .freed) .ok := rfl
    rw [hwhen]
    cases hempty : c.isEmpty <;> rw [hempty] at hgives <;> exact hgives
  | readTask file parts => exact check_bind fun _ _ => (gives_call hm).bind_error
  | writeTask file parts => exact check_bind fun _ _ => gives_call hm
  | readProb file => exact check_bind fun _ _ => (gives_withEngine hm).bind_error
  | writeProb file => exact check_bind fun _ _ => gives_call hm
  | writeSoln file => exact check_bind fun _ _ => gives_call hm
  | explainResult | explainStatus => exact (gives_checkUsable hm).bind_error
  | retrieveTask | status | submitTask => exact (gives_withEngine hm).bind_error
  | solveProb => exact absurd rfl hc
  | computeIis => exact (gives_call hm).bind_error
  | free =>
    have hfree (h : Host σ) : m.free.run h = (m, h) := by
      rw [Model.free, if_pos hm]
      rfl
    intro h
    have hrun : (Call.free.run).run m h = ((.ok (), (m.free.run h).1), (m.free.run h).2) := rfl
    rw [hrun, hfree]
    rfl

/-- A solve of a freed model records an event and fails. -/
theorem run_solveProb_freed (hm : m.state = .freed) (h : Host σ) : ∃ journal,
    Model.solveProb.run m h = ((.error .freed, m), { h with journal }) := by
  have hrest (next : Unit → ModelM σ Unit) (h : Host σ) :
      (call "solve" Engine.solveProb >>= next).run m h = ((.error .freed, m), h) :=
    (gives_call hm).bind_error h
  exact ⟨_, hrest _ _⟩

/-! ## Why a call fails -/

/-- A batch fails for its arguments first. -/
theorem byArgument_batch (b : Batch k) : ByArgument (b.screening m) := by
  refine b.byArgument_additions.bind fun added => ?_
  cases added with
  | nil => exact .ok ()
  | cons a added => exact byArgument_mapM_accept.discard

/-- What is looked at first has to do with the arguments only. -/
theorem byArgument_screening (c : Call) : ByArgument (c.screening m) := by
  cases c with
  | addVarWithCol | addRange | deleteVars | deleteConss | attrVars | attrConss | objs | col
  | exprLinear => exact byArgument_mapM_accept.discard
  | addVarWithConss =>
    exact byArgument_mapM_accept.discard.bind fun _ => byArgument_checkOptional
  | addVars | addVarsWith | addVarsWithCols | addConss | addConssWith | addRanges =>
    exact byArgument_batch _
  | addCons left sense right =>
    rw [screening]
    cases statedRow? left sense right with
    | none => exact .error trivial
    | some row => exact byArgument_mapM_accept.discard
  | elements | deleteElements => exact byArgument_positions.discard
  | setElements => exact byArgument_positions.discard.bind fun _ => byArgument_checkLength
  | quadraticElements | deleteQuadraticElements => exact byArgument_quadPositions.discard
  | setQuadraticElements =>
    exact byArgument_quadPositions.discard.bind fun _ => byArgument_checkLength
  | setQuadraticObjective =>
    exact byArgument_mapM_accept.discard.bind fun _ => byArgument_quadPositions.discard
  | attrRange | setAttrRange => exact byArgument_checkRange
  | setAttrVars | setAttrConss | setObjs =>
    exact byArgument_checkLength.bind fun _ => byArgument_mapM_accept.discard
  | readTask | writeTask | readProb | writeProb | writeSoln => exact byArgument_fileName.discard
  | _ => exact .ok ()

/-- A call of a freed model fails because of that if nothing is wrong with its arguments and there
is something to do. -/
theorem whenFreed_eq_freed_iff (c : Call) (m : Model) :
    c.whenFreed m = .error .freed ↔ c.screening m = .ok () ∧ c.idle? = none := by
  rw [whenFreed]
  cases hs : c.screening m with
  | error err =>
    refine ⟨fun h => ?_, fun h => nomatch h.1⟩
    obtain rfl := Except.error.inj h
    exact absurd (byArgument_screening c _ hs) not_false
  | ok =>
    cases c.idle? with
    | none => exact iff_of_true rfl ⟨rfl, rfl⟩
    | some r => exact iff_of_false nofun nofun

end Call

/-! ## Main theorem -/

namespace Model

variable [Solver σ]

/-- What a call of a freed model gives, and what it changes: nothing but the journal, where a solve
notes that it begins. -/
theorem run_of_freed {m : Model} (hm : m.state = .freed) (c : Call) (h : Host σ) :
    ∃ journal, c.run.run m h = ((c.whenFreed m, m), { h with journal }) ∧
      (c ≠ .solveProb → journal = h.journal) := by
  by_cases hc : c = .solveProb
  · subst hc
    obtain ⟨journal, hrun⟩ := Call.run_solveProb_freed hm h
    exact ⟨journal, hrun, fun h => absurd rfl h⟩
  · exact ⟨h.journal, c.gives hm hc h, fun _ => rfl⟩

/-- Turns leave a freed model as it is. -/
theorem afterTurns_of_freed {m : Model} (hm : m.state = .freed) (ts : List (Turn σ)) :
    m.afterTurns ts = m := by
  induction ts with
  | nil => rfl
  | cons t ts ih =>
    obtain ⟨journal, hrun, -⟩ := run_of_freed hm t.call t.host
    have hafter : t.after m = m := congrArg (·.1.2) hrun
    rw [afterTurns_cons, hafter, ih]

/-- Freeing leaves a freed model. -/
theorem state_free (m : Model) (h : Host σ) : (m.free.run h).1.state = .freed := by
  obtain ⟨hm, hsame⟩ | ⟨-, e, -, hfreed⟩ := (happens_free (W := Scope.empty) m h).2
  · exact (congrArg Model.state hsame).trans hm
  · exact congrArg Model.state hfreed

/-- A model that is freed stays as freeing has left it, whatever is called afterwards. A call gives
then what is wrong with its arguments as far as they are looked at first; else, it succeeds if there
is nothing to do for it, and fails because the model has been freed if there is something to do. It
changes nothing but the journal, and that only if it is a solve. Copying the model fails. -/
theorem freed_models_stay_freed (m : Model) (h : Host σ) (ts : List (Turn σ)) :
    let m' := (m.free.run h).1
    m'.state = .freed ∧ m'.afterTurns ts = m' ∧
      (∀ (c : Call) (h' : Host σ), ∃ journal,
        c.run.run (m'.afterTurns ts) h' = ((c.whenFreed m', m'), { h' with journal }) ∧
          (c ≠ .solveProb → journal = h'.journal)) ∧
      (∀ c : Call, c.whenFreed m' = .error .freed ↔ c.screening m' = .ok () ∧ c.idle? = none) ∧
      ∀ h' : Host σ, duplicate.run (m'.afterTurns ts) h' = ((.error .freed, m'), h') := by
  intro m'
  have hm' : m'.state = .freed := state_free m h
  have hstays : m'.afterTurns ts = m' := afterTurns_of_freed hm' ts
  rw [hstays]
  refine ⟨hm', rfl, run_of_freed hm', fun c => c.whenFreed_eq_freed_iff m', fun h' => ?_⟩
  rw [World.run_duplicate, if_pos hm']

/-- Calls of a freed model that do not fail because of that: three have nothing to do and succeed,
and one is given a value for no variable. -/
theorem succeeds_though_freed :
    let m := (((create true .plain none).run idleHost).1.free.run idleHost).1
    m.state = .freed ∧
      (Call.deleteVars []).run.run m idleHost = ((.ok (), m), idleHost) ∧
      (Call.addVars 0 false).run.run m idleHost = ((.ok ([] : List Var), m), idleHost) ∧
      (Call.applyConfig {}).run.run m idleHost = ((.ok (), m), idleHost) ∧
      (Call.setObjs [] [1]).run.run m idleHost =
        ((.error (.lengthMismatch .values 0 1), m), idleHost) :=
  ⟨rfl, rfl, rfl, rfl, rfl⟩

end Model

end MathProgram
