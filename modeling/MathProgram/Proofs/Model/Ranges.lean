import MathProgram.Proofs.Model.Freed

/-!
# Calls that go out of range

Three calls use numbers of the engine as positions in a roster, or the other way round: the column
of a variable and the expression of a constraint are read over the handles of the lines that cross,
and an objective is spread over as many coefficients as there are columns. They go out of range just
if a roster and the engine disagree there (`Call.Oversteps`, `Call.leavesRange`). No other call does
but the reading of a problem by the solver library (`Model.outOfRange_readProb`).
-/

namespace MathProgram

open ModelM Model

variable {σ α β : Type} {k l : Kind}

/-! ## Computations that stay in range -/

namespace ModelM

/-- A computation is not abandoned at an index that is out of range. -/
def StaysInRange (act : ModelM σ α) : Prop :=
  ∀ (m : Model) (h : Host σ), (act.run m h).1.1 ≠ .error .outOfRange

namespace StaysInRange

/-- A computation that does not fail. -/
theorem of_ok {act : ModelM σ α} (h : ∀ m h, ∃ a, (act.run m h).1.1 = .ok a) :
    StaysInRange act := fun m host herr => by
  obtain ⟨a, ha⟩ := h m host
  cases ha.symm.trans herr

/-- Giving a value. -/
theorem pure (a : α) : StaysInRange (Pure.pure a : ModelM σ α) := of_ok fun _ _ => ⟨a, rfl⟩

/-- Looking at the model. -/
theorem get : StaysInRange (MonadState.get : ModelM σ Model) := of_ok fun m _ => ⟨m, rfl⟩

/-- Recording an event. -/
theorem record {level : Level} {operation message : String} {fields : List (String × FieldValue)} :
    StaysInRange (ModelM.record level operation message fields : ModelM σ Unit) :=
  of_ok fun _ _ => ⟨_, rfl⟩

/-- Failing for another reason. -/
theorem throw {err : Error} (herr : err ≠ .outOfRange) :
    StaysInRange (throw err : ModelM σ α) := fun _ _ h => herr (Except.error.inj h)

/-- A check of arguments. -/
theorem check {r : Except Error α} (hr : ByArgument r) :
    StaysInRange (ModelM.check r : ModelM σ α) := fun _ _ h => hr _ h

/-- A check of arguments against the model. -/
theorem checked {f : Model → Except Error α} (hf : ∀ m, ByArgument (f m)) :
    StaysInRange (ModelM.checked f : ModelM σ α) := fun m _ h => hf m _ h

/-- One computation after another. -/
theorem bind {act : ModelM σ α} {next : α → ModelM σ β} (hact : StaysInRange act)
    (hnext : ∀ a, StaysInRange (next a)) : StaysInRange (act >>= next) := fun m h herr => by
  have hfirst := hact m h
  rw [run_bind] at herr
  rcases hrun : act.run m h with ⟨⟨err | a, m'⟩, h'⟩ <;> rw [hrun] at hfirst herr
  · exact hfirst (congrArg Except.error (Except.error.inj herr))
  · exact hnext a m' h' herr

/-- Composition preserves this. -/
theorem compositional : Compositional (m := ModelM σ) StaysInRange := ⟨pure, bind⟩

/-- A computation on every item of a list, with all results. -/
theorem mapM {xs : List α} {act : α → ModelM σ β} (hact : ∀ x, StaysInRange (act x)) :
    StaysInRange (xs.mapM act) := compositional.mapM fun x _ => hact x

/-- A computation on every item of a list. -/
theorem forM {xs : List α} {act : α → ModelM σ PUnit} (hact : ∀ x, StaysInRange (act x)) :
    StaysInRange (xs.forM act) := compositional.forM fun x _ => hact x

/-- Failing with a result code. -/
theorem fail {operation : String} {code : Int32} :
    StaysInRange (ModelM.fail operation code : ModelM σ α) := record.bind fun _ => throw (by simp)

/-- Failing with a result code that is not zero. -/
theorem checkCode {operation : String} {code : Int32} :
    StaysInRange (ModelM.checkCode operation code : ModelM σ Unit) := by
  unfold ModelM.checkCode
  split_ifs
  · exact pure ()
  · exact fail

/-- The check that the model has not been freed. -/
theorem checkUsable : StaysInRange (ModelM.checkUsable : ModelM σ Unit) := fun m h herr => by
  rw [run_checkUsable] at herr
  dsimp only at herr
  split_ifs at herr
  cases herr

/-- A computation on the engine. -/
theorem withEngine {act : EngineM σ α} : StaysInRange (ModelM.withEngine act) :=
  checkUsable.bind fun _ => of_ok fun _ _ => ⟨_, rfl⟩

/-- A call of the engine. -/
theorem call {operation : String} {act : EngineM σ Int32} :
    StaysInRange (ModelM.call operation act) := withEngine.bind fun _ => checkCode

/-- A call of the engine with an output. -/
theorem callFor {operation : String} {act : EngineM σ (Int32 × α)} :
    StaysInRange (ModelM.callFor operation act) :=
  withEngine.bind fun _ => checkCode.bind fun _ => pure _

/-- A call of the engine that changes the problem. -/
theorem change {operation : String} {act : EngineM σ Int32} :
    StaysInRange (ModelM.change operation act) := call.bind fun _ => of_ok fun _ _ => ⟨_, rfl⟩

end StaysInRange

/-- On a model and a host a computation goes out of range only under a condition, and if the engine
has no script it does so just then. -/
def LeavesRange (act : ModelM σ α) (m : Model) (h : Host σ) (P : Prop) : Prop :=
  ((act.run m h).1.1 = .error .outOfRange → P) ∧
    (m.engine.scripted = false → P → (act.run m h).1.1 = .error .outOfRange)

namespace LeavesRange

variable {m : Model} {h : Host σ} {P Q : Prop}

/-- A computation that stays in range does not go out of it. -/
theorem never {act : ModelM σ α} (hact : StaysInRange act) : LeavesRange act m h False :=
  ⟨fun herr => absurd herr (hact m h), fun _ => False.elim⟩

/-- The condition in other words. -/
theorem congr {act : ModelM σ α} (hact : LeavesRange act m h P) (hPQ : P ↔ Q) :
    LeavesRange act m h Q := by
  rwa [LeavesRange, ← hPQ]

/-- A check of arguments, which has to be passed under the condition, and then a computation. -/
theorem checked_bind {f : Model → Except Error α} {next : α → ModelM σ β} (hf : ByArgument (f m))
    (hP : P → ∃ a, f m = .ok a) (hnext : ∀ a, f m = .ok a → LeavesRange (next a) m h P) :
    LeavesRange (checked f >>= next) m h P := by
  rw [LeavesRange, run_bind, run_checked]
  cases hfm : f m with
  | error err =>
    refine ⟨fun herr => ?_, fun _ h => ?_⟩
    · obtain rfl := Except.error.inj herr
      exact (hf _ hfm).elim
    · obtain ⟨a, ha⟩ := hP h
      cases hfm.symm.trans ha
  | ok a => exact hnext a hfm

end LeavesRange

end ModelM

namespace Model

open StaysInRange

/-- An addition. -/
theorem staysInRange_addition (a : Addition k) :
    StaysInRange (a.run : ModelM σ (Handle k)) := by
  cases a with
  | var c => exact call.bind fun _ => of_ok fun _ _ => ⟨_, rfl⟩
  | varWithCol c a =>
    exact (checked fun _ => byArgument_mapM_accept (k := .constraint)).bind fun _ =>
      call.bind fun _ => of_ok fun _ _ => ⟨_, rfl⟩
  | cons row name =>
    exact (checked fun _ => byArgument_linearParts).bind fun _ =>
      call.bind fun _ => of_ok fun _ _ => ⟨_, rfl⟩

/-- A batch of additions. -/
theorem staysInRange_batch (b : Batch k) : StaysInRange (b.run : ModelM σ (List (Handle k))) := by
  rw [b.run_eq]
  exact (check b.byArgument_additions).bind fun _ => .mapM fun a => staysInRange_addition a

/-- Adding a constraint. -/
theorem staysInRange_addCons {left right : Side Float} {sense : Sense} {name : Option String} :
    StaysInRange (addCons left sense right name : ModelM σ Cons) := by
  rw [addCons]
  cases statedRow? left sense right with
  | none => exact throw (by simp)
  | some row => exact staysInRange_addition (.cons row name)

/-- Finding a variable or a constraint. -/
theorem staysInRange_orFail {operation : String} {code : ResultCode} {o : Option α} :
    StaysInRange (orFail operation code o : ModelM σ α) := by
  cases o
  · exact fail
  · exact pure _

/-- All variables. -/
theorem staysInRange_allVars : StaysInRange (allVars : ModelM σ (List Var)) :=
  checkUsable.bind fun _ => get.bind fun _ => pure _

/-- All constraints. -/
theorem staysInRange_allConss : StaysInRange (allConss : ModelM σ (List Cons)) :=
  checkUsable.bind fun _ => get.bind fun _ => pure _

/-- Deleting variables. -/
theorem staysInRange_deleteVars {xs : List Var} : StaysInRange (deleteVars xs : ModelM σ Unit) := by
  cases xs with
  | nil => exact pure ()
  | cons x xs =>
    exact (checked fun _ => byArgument_mapM_accept (k := .variable)).bind fun _ =>
      call.bind fun _ => of_ok fun _ _ => ⟨_, rfl⟩

/-- Deleting constraints. -/
theorem staysInRange_deleteConss {cs : List Cons} :
    StaysInRange (deleteConss cs : ModelM σ Unit) := by
  cases cs with
  | nil => exact pure ()
  | cons c cs =>
    exact (checked fun _ => byArgument_mapM_accept (k := .constraint)).bind fun _ =>
      call.bind fun _ => of_ok fun _ _ => ⟨_, rfl⟩

/-- Reading an attribute at indexes from one on. -/
theorem staysInRange_attrFrom {t : ValueType} {name : String} {start n : ℕ} :
    StaysInRange (attrFrom t name start n : ModelM σ (List t.Value)) := by
  induction n generalizing start with
  | zero => exact pure _
  | succ n ih => exact callFor.bind fun _ => ih.bind fun _ => pure _

/-- Reading an attribute for handles. -/
theorem staysInRange_forHandles {t : ValueType} {name : String} {xs : List (Handle k)} :
    StaysInRange (ModelM.checked (fun m => xs.mapM m.accept) >>= fun is => is.mapM fun i =>
      (attr t name (some i) : ModelM σ t.Value)) :=
  (checked fun _ => byArgument_mapM_accept).bind fun _ => .mapM fun _ => callFor

/-- Writing an attribute for handles. -/
theorem staysInRange_setForHandles {t : ValueType} {name : String} {xs : List (Handle k)}
    {vals : List t.Value} :
    StaysInRange (ModelM.check (checkLength .values xs.length vals.length) >>= fun _ =>
      ModelM.checked (fun m => xs.mapM m.accept) >>= fun is =>
        (setAttrAt t name (is.zip vals) : ModelM σ Unit)) :=
  (check byArgument_checkLength).bind fun _ =>
    (checked fun _ => byArgument_mapM_accept).bind fun _ => .forM fun _ => change

/-- Reading a parameter. -/
theorem staysInRange_param {t : ValueType} {name : String} :
    StaysInRange (param t name : ModelM σ t.Value) := by
  refine withEngine.bind fun r => ?_
  cases r with
  | error code => exact fail
  | ok v =>
    dsimp only
    cases v.value? t with
    | none => exact throw (by simp)
    | some v => exact pure v

/-- Setting options. -/
theorem staysInRange_applyConfig {c : Config} : StaysInRange (applyConfig c : ModelM σ Unit) := by
  refine .bind (.forM fun _ => call) fun _ => ?_
  cases c.logToConsole with
  | none => exact pure ()
  | some on => exact withEngine

/-- Reading a task file. -/
theorem staysInRange_readTask {file : List UInt8} {parts : Sections} :
    StaysInRange (readTask file parts : ModelM σ Unit) :=
  (check byArgument_fileName).bind fun _ => call.bind fun _ => by
    split_ifs <;> exact of_ok fun _ _ => ⟨_, rfl⟩

/-- Looking up a job. -/
theorem staysInRange_retrieveTask {id : String} :
    StaysInRange (retrieveTask id : ModelM σ RemoteJob) := by
  refine withEngine.bind fun r => ?_
  cases r with
  | error code => exact fail
  | ok report =>
    dsimp only
    cases JobState.ofWord? report.state with
    | none => exact throw (by simp)
    | some state =>
      dsimp only
      split_ifs <;> exact of_ok fun _ _ => ⟨_, rfl⟩

/-- The members of a conflict. -/
theorem staysInRange_conflictMembers {kind : Kind} {flagName : String} {handles : List (Handle k)} :
    StaysInRange (conflictMembers kind flagName handles : ModelM σ _) := by
  have honEngine {act : EngineM σ (Int32 × Int32)} : StaysInRange (onEngine act) :=
    of_ok fun _ _ => ⟨_, rfl⟩
  refine .bind (.mapM fun x => honEngine.bind fun answer => checkCode.bind fun _ => ?_)
    fun _ => pure _
  obtain ⟨code, flag⟩ := answer
  cases IisBound.ofCode? flag with
  | none => exact throw (by simp)
  | some b => exact pure _

end Model

/-! ## Calls that use an index -/

namespace Model

/-- A handle is accepted, and its line has an entry for which there is no handle. -/
def Overhangs (m : Model) (x : Handle k) : Prop :=
  m.accept x = .ok x.index ∧
    ∃ e ∈ (m.problem.lines k).line x.index, (m.roster k.other).length ≤ e.1

end Model

namespace Call

/-- A call has handles that are accepted, and comes to an index that is out of range: of a line, or
of a coefficient in an objective. -/
def Oversteps (m : Model) : Call → Prop
  | col x => m.Overhangs x
  | exprLinear c => m.Overhangs c
  | setQuadraticObjective obj =>
    (∀ x ∈ obj.linear.purge.vars ++ (obj.vars1 ++ obj.vars2), ¬m.Rejects x) ∧
      ∃ x ∈ obj.linear.purge.vars, m.engine.numCols ≤ x.index
  | _ => False

/-- The kind of the handles that have to be in step for a call to stay in range. -/
def bounding : Call → Kind
  | col _ => .constraint
  | _ => .variable

end Call

namespace Model

/-- The terms of a line, entry by entry. -/
theorem termsOver_cons {handles : List (Handle k)} {i : ℕ} {v : Float} {line : List (ℕ × Float)} :
    termsOver handles ((i, v) :: line) =
      (handles[i]?.elim (.error .outOfRange) .ok) >>= fun x =>
        (termsOver handles line).map ((x, v) :: ·) := by
  rw [termsOver, List.mapM_cons, ← termsOver]
  dsimp only
  cases handles[i]? with
  | none => rfl
  | some x => cases termsOver handles line <;> rfl

/-- A line is not put into terms just if it has an entry without a handle. -/
theorem termsOver_eq_error_iff {handles : List (Handle k)} {line : List (ℕ × Float)} {err : Error} :
    termsOver handles line = .error err ↔
      err = .outOfRange ∧ ∃ e ∈ line, handles.length ≤ e.1 := by
  induction line with
  | nil => exact iff_of_false nofun fun h => by simp at h
  | cons e line ih =>
    obtain ⟨i, v⟩ := e
    rw [termsOver_cons]
    by_cases hi : handles.length ≤ i
    · rw [List.getElem?_eq_none hi]
      refine ⟨fun h => ⟨(Except.error.inj h).symm, _, List.mem_cons_self, hi⟩, fun h => ?_⟩
      exact congrArg Except.error h.1.symm
    · have hrest : (∃ e ∈ (i, v) :: line, handles.length ≤ e.1) ↔
          ∃ e ∈ line, handles.length ≤ e.1 := by
        simp [hi]
      rw [List.getElem?_eq_getElem (not_le.1 hi), hrest, ← ih]
      cases termsOver handles line with
      | error err' => exact Iff.rfl
      | ok ts => exact iff_of_false nofun nofun

/-- Fetching a line that the engine does not have fails with a result code. -/
theorem fails_fetchLine {m : Model} (operation : String) {c : EngineCall}
    {f : LineBuffers → Problem → ResultCode × LineBuffers} {lines : Sparse Float} {n i : ℕ}
    {code : ResultCode} (hfreed : m.state ≠ .freed) (hcode : code.code ≠ ResultCode.okay.code)
    (hf : ∀ b, f b m.problem = Problem.fetchLines lines n code [i] b) (hi : n ≤ i)
    {h : Host σ} (hh : h.Honest) : ∃ m' h' code', (Model.fetchLine operation fun b =>
      Engine.fetch c (f b) b : ModelM σ (List (ℕ × Float))).run m h =
        ((.error (.engine code' (ResultCode.explain code')), m'), h') := by
  have hbeyond (b : LineBuffers) : f b m.engine.store.problem = (code, b) :=
    (hf b).trans (if_pos (by simpa using hi))
  -- Already the first of the two calls gives a code that is not zero.
  have hfirst : ∃ code' b e h', code' ≠ ResultCode.okay.code ∧
      (Engine.fetch c (f ⟨0, [], [], []⟩) ⟨0, [], [], []⟩).run m.engine h =
        (((code', b), e), h') := by
    obtain ⟨h', -, hrun | ⟨n, code', -, hverdict, hrun⟩⟩ :=
      Engine.run_fetch c (f ⟨0, [], [], []⟩) ⟨0, [], [], []⟩ m.engine h
    · rw [hbeyond] at hrun
      exact ⟨_, _, _, h', hcode, hrun⟩
    · exact ⟨_, _, _, h', hh.code_ne_okay hverdict, hrun⟩
  obtain ⟨code', b, e, h', hcode', hfirst⟩ := hfirst
  obtain ⟨journal, hcheck⟩ := run_checkCode_of_ne operation hcode' { m with engine := e } h'
  refine ⟨{ m with engine := e }, { h' with journal }, code', ?_⟩
  rw [Model.fetchLine, run_bind, callFor, run_bind, run_withEngine, if_neg hfreed, hfirst]
  dsimp only
  rw [run_bind, hcheck]

variable {m : Model} {h : Host σ}

/-- A line is fetched and put into terms. This goes out of range if there is an entry without a
handle. -/
theorem leavesRange_line (hp : m.problem.WellFormed) (hfreed : m.state ≠ .freed) (hh : h.Honest)
    {operation : String} {c : EngineCall} {f : LineBuffers → Problem → ResultCode × LineBuffers}
    {i : ℕ} {code : ResultCode} (hcode : code.code ≠ ResultCode.okay.code)
    (hf : ∀ b, f b m.problem =
      Problem.fetchLines (m.problem.lines k) (m.problem.count k) code [i] b)
    {next : Terms l Float → ModelM σ β} (hnext : ∀ ts, StaysInRange (next ts)) :
    LeavesRange ((Model.fetchLine operation fun b => Engine.fetch c (f b) b) >>= fun line =>
      ModelM.checked (fun m => termsOver (m.roster l) line) >>= next) m h
        (∃ e ∈ (m.problem.lines k).line i, (m.roster l).length ≤ e.1) := by
  rw [LeavesRange, run_bind]
  by_cases hi : i < m.problem.count k
  · have hanswers : m.Answers c (Model.fetchLine operation fun b => Engine.fetch c (f b) b :
        ModelM σ (List (ℕ × Float))) ((m.problem.lines k).line i) := .fetchLine hfreed hf hi
    obtain ⟨h', -, hrun | ⟨n, code, hscripted, -, hrun⟩⟩ := hanswers h hh
    · rw [hrun]
      dsimp only
      rw [run_bind, run_checked]
      cases hterms : termsOver (m.roster l) ((m.problem.lines k).line i) with
      | error err =>
        obtain ⟨rfl, hentry⟩ := termsOver_eq_error_iff.1 hterms
        exact ⟨fun _ => hentry, fun _ _ => rfl⟩
      | ok ts =>
        refine ⟨fun herr => absurd herr (hnext ts m h'), fun _ hentry => ?_⟩
        cases hterms.symm.trans (termsOver_eq_error_iff.2 ⟨rfl, hentry⟩)
    · rw [hrun]
      exact ⟨nofun, fun hplain => nomatch hplain.symm.trans hscripted⟩
  · obtain ⟨m', h', code', hrun⟩ :=
      fails_fetchLine operation (c := c) hfreed hcode hf (not_lt.1 hi) hh
    rw [hrun]
    refine ⟨nofun, fun _ hentry => ?_⟩
    obtain ⟨e, he, -⟩ := hentry
    exact absurd (hp.lines_lt (Sparse.mem_line.1 he)).1 hi

/-- Reading the column of a variable. -/
theorem leavesRange_col (hp : m.problem.WellFormed) (hfreed : m.state ≠ .freed) (hh : h.Honest)
    (x : Var) : LeavesRange (col x) m h (m.Overhangs x) := by
  refine .checked_bind (byArgument_accept (k := .variable)) (fun hx => ⟨_, hx.1⟩) fun j hj => ?_
  obtain rfl := (accept_eq_ok_iff (k := .variable).1 hj).2.2.2
  refine .congr (leavesRange_line (k := .variable) (l := .constraint)
    (f := fun b p => p.fetchCols [x.index] b) hp hfreed hh (by decide) (fun _ => rfl)
      fun _ => .pure _) ?_
  exact (and_iff_right hj).symm

/-- Reading the expression of a constraint. -/
theorem leavesRange_exprLinear (hp : m.problem.WellFormed) (hfreed : m.state ≠ .freed)
    (hh : h.Honest) (c : Cons) : LeavesRange (exprLinear c) m h (m.Overhangs c) := by
  refine .checked_bind (byArgument_accept (k := .constraint)) (fun hc => ⟨_, hc.1⟩) fun i hi => ?_
  obtain rfl := (accept_eq_ok_iff (k := .constraint).1 hi).2.2.2
  refine .congr (leavesRange_line (k := .constraint) (l := .variable)
    (f := fun b p => p.fetchRows [c.index] b) hp hfreed hh (by decide) (fun _ => rfl)
      fun _ => .pure _) ?_
  exact (and_iff_right hi).symm

/-- Replacing the objective. -/
theorem leavesRange_setQuadraticObjective (hfreed : m.state ≠ .freed) (obj : QuadExpr Float) :
    LeavesRange (setQuadraticObjective obj) m h ((Call.setQuadraticObjective obj).Oversteps m) := by
  have hlength : obj.vars1.length = obj.vars2.length := by
    rw [QuadExpr.vars1, QuadExpr.vars2, List.length_map, List.length_map]
  have hlinear := Checks.linearParts (m := m) obj.linear.purge
  have hpairs := Checks.quadPositions (m := m) hlength
  refine .checked_bind byArgument_linearParts (fun hobj => hlinear.2 fun x hx =>
    hobj.1 x (List.mem_append_left _ hx)) fun linear hparts => ?_
  refine .checked_bind byArgument_quadPositions (fun hobj => hpairs.2 fun x hx =>
    hobj.1 x (List.mem_append_right _ hx)) fun positions hpositions => ?_
  have haccepted : ∀ x ∈ obj.linear.purge.vars ++ (obj.vars1 ++ obj.vars2), ¬m.Rejects x :=
    List.forall_mem_append.2 ⟨hlinear.not_rejects hparts, hpairs.not_rejects hpositions⟩
  -- Of the linear part the indexes remain.
  obtain ⟨cols, hcols, hpure⟩ := bind_eq_ok.1 hparts
  obtain rfl := Except.ok.inj hpure
  obtain ⟨-, rfl⟩ := mapM_accept_eq_ok_iff.1 hcols
  have hany : (obj.linear.purge.vars.map (·.index)).any (m.engine.numCols ≤ ·) = true ↔
      (Call.setQuadraticObjective obj).Oversteps m := by
    refine Iff.trans ?_ (and_iff_right haccepted).symm
    simp
  rw [LeavesRange, run_bind, run_checkUsable, if_neg hfreed]
  dsimp only
  rw [run_bind, run_checked, scatter]
  by_cases houtside : (obj.linear.purge.vars.map (·.index)).any (m.engine.numCols ≤ ·) = true
  · rw [if_pos houtside]
    exact ⟨fun _ => hany.1 houtside, fun _ _ => rfl⟩
  · rw [if_neg houtside]
    refine ⟨fun herr => absurd herr ?_, fun _ h => absurd (hany.2 h) houtside⟩
    refine (StaysInRange.forM fun _ => .call).bind (fun _ => ?_) m h
    exact StaysInRange.call.bind fun _ => StaysInRange.call.bind fun _ => StaysInRange.call.bind
      fun _ => .of_ok fun _ _ => ⟨_, rfl⟩

end Model

/-! ## All calls -/

section

variable [Solver σ] {m : Model} {h : Host σ}

open StaysInRange

/-- Reading a problem goes out of range only if the solver library reads it. -/
theorem Model.outOfRange_readProb {file : List UInt8}
    (hout : ((readProb file).run m h).1.1 = .error .outOfRange) :
    ∃ name, fileName file = .ok name ∧ m.engine.keepsFile name = false := by
  rw [readProb, run_bind, run_check] at hout
  cases hname : fileName file with
  | error err =>
    rw [hname] at hout
    obtain rfl := Except.error.inj hout
    exact (byArgument_fileName _ hname).elim
  | ok name =>
    refine ⟨name, rfl, Bool.eq_false_iff.2 fun hkeeps => ?_⟩
    rw [hname] at hout
    dsimp only at hout
    rw [run_bind, run_withEngine] at hout
    split_ifs at hout
    · cases hout
    · obtain ⟨code, hcode⟩ := Engine.code_readProb hkeeps h
      dsimp only at hout
      rw [hcode] at hout
      exact (checkCode.bind fun _ => of_ok fun _ _ => ⟨_, rfl⟩) _ _ hout

/-- No call of a freed model goes out of range. -/
theorem Model.stays_in_range_of_freed (hm : m.state = .freed) (c : Call) :
    (c.run.run m h).1.1 ≠ .error .outOfRange := fun hout => by
  obtain ⟨journal, hrun, -⟩ := run_of_freed hm c h
  rw [hrun] at hout
  dsimp only [Call.whenFreed] at hout
  cases hscreening : c.screening m with
  | error err =>
    rw [hscreening] at hout
    obtain rfl := Except.error.inj hout
    exact c.byArgument_screening _ hscreening
  | ok =>
    rw [hscreening] at hout
    cases hidle : c.idle? <;> rw [hidle] at hout <;> cases hout

/-- A call goes out of range just if it oversteps, if it is not one that reads a problem. -/
theorem Call.leavesRange (hp : m.problem.WellFormed) (hfreed : m.state ≠ .freed) (hh : h.Honest)
    {c : Call} (hc : ∀ file, c ≠ .readProb file) : LeavesRange c.run m h (c.Oversteps m) := by
  cases c with
  | col x => exact leavesRange_col hp hfreed hh x
  | exprLinear c => exact leavesRange_exprLinear hp hfreed hh c
  | setQuadraticObjective obj => exact leavesRange_setQuadraticObjective hfreed obj
  | readProb file => exact absurd rfl (hc file)
  | addVar c => exact .never (staysInRange_addition (.var c))
  | addVarWithCol c a => exact .never (staysInRange_addition (.varWithCol c a))
  | addVarWithConss c cs coefs =>
    exact .never ((checked fun _ => byArgument_mapM_accept (k := .constraint)).bind fun _ =>
      (check byArgument_checkLength).bind fun _ => call.bind fun _ => of_ok fun _ _ => ⟨_, rfl⟩)
  | addVars count isInteger => exact .never (staysInRange_batch (.vars count isInteger))
  | addVarsWith d => exact .never (staysInRange_batch (.varsWith d))
  | addVarsWithCols d columns => exact .never (staysInRange_batch (.varsWithCols d columns))
  | addCons => exact .never staysInRange_addCons
  | addRange e lower upper name =>
    exact .never (staysInRange_addition (.cons (rowBetween e lower upper) name))
  | addConss count => exact .never (staysInRange_batch (.conss count))
  | addConssWith es senses bs names =>
    exact .never (staysInRange_batch (.conssWith es senses bs names))
  | addRanges es lowers uppers names =>
    exact .never (staysInRange_batch (.ranges es lowers uppers names))
  | allVars => exact .never staysInRange_allVars
  | allConss => exact .never staysInRange_allConss
  | numVars => exact .never (staysInRange_allVars.bind fun _ => .pure _)
  | numConss => exact .never (staysInRange_allConss.bind fun _ => .pure _)
  | var => exact .never (staysInRange_allVars.bind fun _ => staysInRange_orFail)
  | cons => exact .never (staysInRange_allConss.bind fun _ => staysInRange_orFail)
  | varByName =>
    exact .never (staysInRange_allVars.bind fun _ => get.bind fun _ => staysInRange_orFail)
  | consByName =>
    exact .never (staysInRange_allConss.bind fun _ => get.bind fun _ => staysInRange_orFail)
  | deleteVars => exact .never staysInRange_deleteVars
  | deleteConss => exact .never staysInRange_deleteConss
  | sync => exact .never (checkUsable.bind fun _ => of_ok fun _ _ => ⟨_, rfl⟩)
  | elements => exact .never ((checked fun _ => byArgument_positions).bind fun _ => callFor)
  | setElements =>
    exact .never ((checked fun _ => byArgument_positions).bind fun _ =>
      (check byArgument_checkLength).bind fun _ => change)
  | deleteElements =>
    exact .never ((checked fun _ => byArgument_positions).bind fun _ => change)
  | quadraticElements =>
    exact .never ((checked fun _ => byArgument_quadPositions).bind fun _ => callFor)
  | setQuadraticElements =>
    exact .never ((checked fun _ => byArgument_quadPositions).bind fun _ =>
      (check byArgument_checkLength).bind fun _ => change)
  | deleteQuadraticElements =>
    exact .never ((checked fun _ => byArgument_quadPositions).bind fun _ => change)
  | deleteAllElements | deleteAllQuadraticElements | setAttr | setMinObjSense | setMaxObjSense
  | setObjOffset => exact .never change
  | attr | objOffset => exact .never callFor
  | attrRange =>
    exact .never ((check byArgument_checkRange).bind fun _ => staysInRange_attrFrom)
  | setAttrRange =>
    exact .never ((check byArgument_checkRange).bind fun _ => .forM fun _ => change)
  | attrVars | objs => exact .never (staysInRange_forHandles (k := .variable))
  | attrConss => exact .never (staysInRange_forHandles (k := .constraint))
  | setAttrVars | setObjs => exact .never (staysInRange_setForHandles (k := .variable))
  | setAttrConss => exact .never (staysInRange_setForHandles (k := .constraint))
  | checkVar =>
    exact .never (checkUsable.bind fun _ =>
      (checked fun _ => byArgument_accept (k := .variable)).bind fun _ => .pure _)
  | checkCons =>
    exact .never (checkUsable.bind fun _ =>
      (checked fun _ => byArgument_accept (k := .constraint)).bind fun _ => .pure _)
  | isMinObjSense | isMaxObjSense => exact .never (callFor.bind fun _ => .pure _)
  | param => exact .never staysInRange_param
  | setParam | setLogFile | displayResults => exact .never call
  | setLogToConsole | setLogCallback => exact .never withEngine
  | applyConfig => exact .never staysInRange_applyConfig
  | readTask => exact .never staysInRange_readTask
  | writeTask | writeProb | writeSoln =>
    exact .never ((check byArgument_fileName).bind fun _ => call)
  | explainResult | explainStatus => exact .never (checkUsable.bind fun _ => .pure _)
  | retrieveTask => exact .never staysInRange_retrieveTask
  | solveProb =>
    exact .never (get.bind fun _ => record.bind fun _ => call.bind fun _ =>
      of_ok fun _ _ => ⟨_, rfl⟩)
  | status => exact .never (withEngine.bind fun _ => .pure _)
  | computeIis =>
    exact .never (call.bind fun _ => get.bind fun _ => staysInRange_conflictMembers.bind fun _ =>
      staysInRange_conflictMembers.bind fun _ => record.bind fun _ => .pure _)
  | submitTask => exact .never (withEngine.bind fun _ => record.bind fun _ => .pure _)
  | free => exact .never (of_ok fun _ _ => ⟨_, rfl⟩)

end

end MathProgram
