import MathProgram.Engine.Solving
import MathProgram.Proofs.Engine.Files
import MathProgram.Proofs.Host
import MathProgram.Proofs.Store.Operations

/-!
# Engines work by operations on the store

All that the calls of an engine do to its store are operations of the store. `Drives P` says of a
computation that it changes the store by operations that satisfy `P`, none of them perhaps, and
leaves the models and the faults of the host alone. `Performs op` is about one operation: the call
fails without an effect, or succeeds and its effect is that of the operation. It rests on faults
that are not prescribed with the code of success.
-/

namespace MathProgram.Engine

open EngineM (host)
open Store (Op)

variable {σ α β : Type} {P : Op → Prop}

/-- A computation changes the store by operations of a sort, and the host within its frame. -/
def Drives (P : Op → Prop) (act : EngineM σ α) : Prop :=
  ∀ (e : Engine) (h : Host σ), h.Frame (act.run e h).2 ∧
    ∃ ops, (∀ op ∈ ops, P op) ∧ (act.run e h).1.2.store = e.store.after ops

/-- A call fails without an effect, or succeeds with that of an operation. -/
def Performs (op : Op) (act : EngineM σ Int32) : Prop :=
  ∀ (e : Engine) (h : Host σ), h.Honest → h.Frame (act.run e h).2 ∧
    (((act.run e h).1.1 ≠ ResultCode.okay.code ∧ (act.run e h).1.2 = e) ∨
      ((act.run e h).1.1 = ResultCode.okay.code ∧ ∃ s, op.run e.store = (.ok (), s) ∧
        (act.run e h).1.2 = { e with store := s }))

namespace Drives

/-- A computation that leaves the store as it is. -/
theorem of_eq {act : EngineM σ α} (h : ∀ (e : Engine) (h : Host σ),
    h.Frame (act.run e h).2 ∧ (act.run e h).1.2.store = e.store) : Drives P act := fun e h₁ =>
  ⟨(h e h₁).1, [], by simp, (h e h₁).2⟩

/-- A computation that runs one operation. -/
theorem of_run {act : EngineM σ α} (op : Op) (hop : P op) (h : ∀ (e : Engine) (h : Host σ),
    h.Frame (act.run e h).2 ∧ (act.run e h).1.2.store = (op.run e.store).2) : Drives P act :=
  fun e h₁ => ⟨(h e h₁).1, [op], by simpa using hop, (h e h₁).2⟩

/-- Giving a value. -/
theorem pure (a : α) : Drives P (Pure.pure a : EngineM σ α) := of_eq fun _ h => ⟨.refl h, rfl⟩

/-- Looking at the engine. -/
theorem get : Drives P (MonadState.get : EngineM σ Engine) := of_eq fun _ h => ⟨.refl h, rfl⟩

/-- A computation on the host. -/
theorem host {act : HostM σ α} (hact : Framed act) : Drives P (EngineM.host act) :=
  of_eq fun _ h => ⟨hact h, rfl⟩

/-- Looking at the host. -/
theorem getHost : Drives P (EngineM.host MonadState.get : EngineM σ (Host σ)) :=
  host fun h => .refl h

/-- Operations of a sort are also of a wider sort. -/
theorem mono {Q : Op → Prop} {act : EngineM σ α} (hact : Drives P act) (hPQ : ∀ op, P op → Q op) :
    Drives Q act := fun e h => by
  obtain ⟨hframe, ops, hops, hstore⟩ := hact e h
  exact ⟨hframe, ops, fun op hop => hPQ op (hops op hop), hstore⟩

/-- One computation after another. -/
theorem bind {act : EngineM σ α} {next : α → EngineM σ β} (hact : Drives P act)
    (hnext : ∀ a, Drives P (next a)) : Drives P (act >>= next) := fun e h => by
  obtain ⟨hframe, ops, hops, hstore⟩ := hact e h
  obtain ⟨hframe', ops', hops', hstore'⟩ :=
    hnext (act.run e h).1.1 (act.run e h).1.2 (act.run e h).2
  refine ⟨hframe.trans hframe', ops ++ ops', ?_, ?_⟩
  · exact List.forall_mem_append.2 ⟨hops, hops'⟩
  · rw [EngineM.run_bind, hstore', hstore, Store.after_append]

/-- Composition preserves this. -/
theorem compositional : Compositional (m := EngineM σ) (Drives P) := ⟨pure, bind⟩

end Drives

/-! ## Calls that can be made to fail -/

/-- Asking for a fault changes nothing but the count of calls. -/
theorem drives_fault? {c : EngineCall} : Drives P (fault? c : EngineM σ (Option Int32)) :=
  Drives.get.bind fun _ => ite_of (.host Host.framed_fault?) (.pure _)

/-- On an honest host a fault does not have the code of success. -/
theorem fault?_ne_okay (c : EngineCall) (e : Engine) {h : Host σ} (hh : h.Honest) :
    ((fault? c).run e h).1.1 ≠ some ResultCode.okay.code := by
  have hrun : (fault? c).run e h = (if e.scripted then host (Host.fault? c)
      else pure none : EngineM σ (Option Int32)).run e h := rfl
  rw [hrun]
  cases e.scripted
  · exact nofun
  · exact hh c _

/-- A call with an output that can be made to fail. -/
theorem drives_guarded {c : EngineCall} {untouched : α} {act : EngineM σ (Int32 × α)}
    (hact : Drives P act) : Drives P (guarded c untouched act) := by
  refine drives_fault?.bind fun code => ?_
  cases code with
  | none => exact hact
  | some code => exact .pure _

/-- A call without an output that can be made to fail. -/
theorem drives_guardedCode {c : EngineCall} {act : EngineM σ Int32} (hact : Drives P act) :
    Drives P (guardedCode c act) := by
  refine drives_fault?.bind fun code => ?_
  cases code with
  | none => exact hact
  | some code => exact .pure _

/-- Putting the result of a change in place. -/
theorem run_changeStore (f : Store → Except ResultCode Store) (e : Engine) (h : Host σ) :
    (changeStore f).run e h =
      ((codeOf (f e.store), { e with store := (TaskFile.attempt f e.store).2 }), h) := by
  have hget (next : Engine → EngineM σ Int32) : (get >>= next).run e h = (next e).run e h := rfl
  rw [changeStore, hget, TaskFile.attempt]
  cases f e.store <;> rfl

/-- A call that changes the store does what the operation does. -/
theorem drives_edit {c : EngineCall} {f : Store → Except ResultCode Store} (op : Op)
    (hop : op.run = TaskFile.attempt f) (hP : P op) : Drives P (edit c f : EngineM σ Int32) := by
  refine drives_guardedCode <| .of_run op hP fun e h => ?_
  rw [run_changeStore, hop]
  exact ⟨.refl h, rfl⟩

/-- A call that changes the store performs the operation. -/
theorem performs_edit {c : EngineCall} {f : Store → Except ResultCode Store} (op : Op)
    (hop : op.run = TaskFile.attempt f) (hdirect : op.Direct) :
    Performs op (edit c f : EngineM σ Int32) := fun e h hh => by
  refine ⟨(drives_edit (P := fun _ => True) op hop trivial e h).1, ?_⟩
  have hfault := fault?_ne_okay c e hh
  have hengine : ((fault? c).run e h).1.2 = e := by
    obtain ⟨_, _, hrun⟩ := run_fault? c e h
    rw [hrun]
  rw [edit, guardedCode, EngineM.run_bind, hengine]
  cases hcode : ((fault? c).run e h).1.1 with
  | some code =>
    -- A fault ends the call at once, and its code is not that of success.
    rw [hcode] at hfault
    exact .inl ⟨fun hokay => hfault (congrArg some hokay), rfl⟩
  | none =>
    dsimp only
    rw [run_changeStore]
    have hs := hdirect.proper e.store
    rw [hop] at hs ⊢
    unfold TaskFile.attempt at hs ⊢
    cases hf : f e.store with
    | error err =>
      rw [hf] at hs
      exact .inl ⟨hs err rfl, rfl⟩
    | ok s => exact .inr ⟨rfl, s, rfl, rfl⟩

/-! ## Reading -/

/-- A call that reads the store leaves the engine as it is. -/
theorem run_query (c : EngineCall) (untouched : α) (f : Store → Except ResultCode α) (e : Engine)
    (h : Host σ) : ∃ r h', h.Frame h' ∧ (query c untouched f).run e h = ((r, e), h') := by
  have hframe := (drives_fault? (c := c) (P := fun _ => True) e h).1
  obtain ⟨code, script, hfault⟩ := run_fault? c e h
  rw [hfault] at hframe
  rw [query, guarded, EngineM.run_bind, hfault]
  cases code with
  | some code => exact ⟨_, _, hframe, rfl⟩
  | none =>
    have hget (next : Engine → EngineM σ (Int32 × α)) (h : Host σ) :
        (get >>= next).run e h = (next e).run e h := rfl
    dsimp only
    rw [hget]
    cases f e.store <;> exact ⟨_, _, hframe, rfl⟩

/-- A call that reads the store. -/
theorem drives_query {c : EngineCall} {untouched : α} {f : Store → Except ResultCode α} :
    Drives P (query c untouched f : EngineM σ (Int32 × α)) := .of_eq fun e h => by
  obtain ⟨r, h', hframe, hrun⟩ := run_query c untouched f e h
  rw [hrun]
  exact ⟨hframe, rfl⟩

/-- Fetching lines of the matrix. -/
theorem drives_fetch {c : EngineCall} {f : Problem → ResultCode × LineBuffers} {b : LineBuffers} :
    Drives P (fetch c f b : EngineM σ (Int32 × LineBuffers)) :=
  drives_guarded <| Drives.get.bind fun _ => .pure _

/-- Reading an attribute. -/
theorem drives_attr {t : ValueType} {name : String} {index : Option ℕ} :
    Drives P (attr t name index : EngineM σ (Int32 × t.Value)) := by
  cases t <;> exact drives_query

/-- Reading a parameter. -/
theorem drives_param {name : String} {type : ValueType} :
    Drives P (param name type : EngineM σ (Except Int32 ParamValue)) := by
  refine Drives.get.bind fun e => Drives.getHost.bind fun h => ?_
  dsimp only
  split <;> exact .pure _

/-- The number of the status is read off. -/
theorem run_status (e : Engine) (h : Host σ) : ∃ code, status.run e h = ((code, e), h) := by
  have hget (next : Engine → EngineM σ Int32) : (get >>= next).run e h = (next e).run e h := rfl
  have hhost (next : Host σ → EngineM σ Int32) :
      (EngineM.host get >>= next).run e h = (next h).run e h := rfl
  rw [status, hget, hhost]
  dsimp only
  split <;> exact ⟨_, rfl⟩

/-- The number of the status. -/
theorem drives_status : Drives P (status : EngineM σ Int32) := .of_eq fun e h => by
  obtain ⟨code, hrun⟩ := run_status e h
  rw [hrun]
  exact ⟨.refl h, rfl⟩

/-- Looking up a job. -/
theorem drives_retrieveTask {id : String} :
    Drives P (retrieveTask id : EngineM σ (Except Int32 JobReport)) := by
  refine Drives.get.bind fun e => Drives.getHost.bind fun h => ?_
  cases e.store.job? id <;> exact .pure _

/-! ## The log -/

/-- Writing to the log. -/
theorem drives_log {message : String} : Drives P (log message : EngineM σ Unit) :=
  Drives.get.bind fun _ => .host LogSink.framed_write

/-- Changing where the log goes. -/
theorem drives_modifyLog {f : LogSink → LogSink} (hP : ∀ log, P (.setLog log)) :
    Drives P (modifyLog f : EngineM σ Unit) := fun e h =>
  ⟨.refl h, [.setLog (f e.store.log)], List.forall_mem_singleton.2 (hP _), rfl⟩

/-- Setting the file of the log. -/
theorem drives_setLogFile {file : Option String} (hP : ∀ log, P (.setLog log)) :
    Drives P (setLogFile file : EngineM σ Int32) := by
  refine drives_guardedCode <| Drives.get.bind fun _ =>
    (Drives.host LogSink.framed_withFile).bind fun r => ?_
  cases r with
  | error e => exact .pure _
  | ok log => exact (drives_modifyLog hP).bind fun _ => .pure _

/-- Writing a summary to the log. -/
theorem drives_displayResults : Drives P (displayResults : EngineM σ Int32) :=
  drives_guardedCode <| Drives.get.bind fun _ => drives_log.bind fun _ => .pure _

/-! ## Files -/

/-- Saving a task file. -/
theorem drives_saveTask {file : String} {parts : Sections} :
    Drives P (saveTask file parts : EngineM σ Int32) :=
  Drives.get.bind fun _ => (Drives.host Host.framed_modifyDisk).bind fun _ =>
    ite_of (.pure _) (.pure _)

/-- Loading a task file. -/
theorem drives_loadTask {file : String} {parts : Sections}
    (hP : ∀ bytes, P (.readTask bytes parts)) :
    Drives P (loadTask file parts : EngineM σ Int32) := fun e h => by
  rw [run_loadTask]
  cases h.disk.find file with
  | missing => exact ⟨.refl h, [], by simp, rfl⟩
  | folder => exact ⟨.refl h, [], by simp, rfl⟩
  | file bytes => exact ⟨.refl h, [.readTask bytes parts], by simpa using hP bytes, rfl⟩

/-- Saving the solution. -/
theorem drives_saveSolution {file : String} : Drives P (saveSolution file : EngineM σ Int32) := by
  refine Drives.get.bind fun e => ?_
  cases e.store.solutionText with
  | error e => exact .pure _
  | ok text =>
    exact (Drives.host Host.framed_modifyDisk).bind fun _ => ite_of (.pure _) (.pure _)

section

variable [Solver σ]

/-- Destroying the instance of the last solve. -/
theorem drives_releaseKeeper : Drives P (releaseKeeper : EngineM σ Unit) := by
  refine Drives.get.bind fun e => ?_
  cases e.keeper with
  | none => exact .pure _
  | some h =>
    exact (Drives.host InstanceId.framed_destroy).bind fun _ => .of_eq fun _ h => ⟨.refl h, rfl⟩

/-- Putting a problem in place that was read from a file. -/
theorem drives_adopt {file : String} {f : ModelFile} :
    Drives Op.Loads (adopt file f : EngineM σ (Option Int32)) := by
  unfold adopt
  cases f.entries? with
  | none => exact .pure _
  | some entries =>
    refine .bind (fun e h => ?_) fun code => ite_of ?_ (.pure _)
    · rw [run_changeStore]
      refine ⟨.refl h, ?_⟩
      -- The data comes first; the sense and the constant follow if it is in place.
      cases hs : e.store.edit fun p => p.replaceData f.cols f.rows entries [] with
      | error err =>
        refine ⟨[], by simp, ?_⟩
        dsimp only [TaskFile.attempt]
        rw [hs]
        rfl
      | ok s =>
        refine ⟨[.replaceProblem f.cols f.rows entries [], .setMinSense f.program.minSense,
          .setObjConst f.program.offset], by simp [Op.Loads], ?_⟩
        dsimp only [TaskFile.attempt, Store.after_cons, Store.after_nil, Op.run]
        rw [hs]
        rfl
    · exact drives_releaseKeeper.bind fun _ =>
        (Drives.host Host.framed_record).bind fun _ => .pure _

/-- Having a problem read by the solver library. -/
theorem drives_readNative {file : String} :
    Drives Op.Loads (readNative file : EngineM σ (Option Int32)) := by
  refine (Drives.host Solver.framed_openModel).bind fun r => ?_
  cases r with
  | error e => exact .pure _
  | ok r =>
    exact drives_adopt.bind fun _ => (Drives.host InstanceId.framed_destroy).bind fun _ => .pure _

/-- Reading a problem file. -/
theorem drives_readProb (file : String) :
    Drives Op.Loads (readProb file : EngineM σ (Option Int32)) := by
  refine drives_fault?.bind fun code => ?_
  cases code with
  | some code => exact .pure _
  | none =>
    exact Drives.get.bind fun e => ite_of ((drives_loadTask fun _ => rfl).bind fun _ => .pure _)
      drives_readNative

/-- A problem that cannot be put in place leaves the store as it is. -/
theorem store_adopt {file : String} {f : ModelFile} {e : Engine} {h : Host σ}
    (hr : ((adopt file f).run e h).1.1 ≠ some ResultCode.okay.code) :
    ((adopt file f).run e h).1.2.store = e.store := by
  unfold adopt at hr ⊢
  cases hentries : f.entries? with
  | none => rfl
  | some entries =>
    rw [hentries] at hr
    dsimp only at hr ⊢
    rw [EngineM.run_bind, run_changeStore] at hr ⊢
    dsimp only at hr ⊢
    cases hs : e.store.edit fun p => p.replaceData f.cols f.rows entries [] with
    | ok s =>
      rw [hs] at hr
      exact absurd rfl hr
    | error err =>
      rw [hs] at hr
      have hfail (g : Store → Except ResultCode Store) :
          (Except.error err >>= g) = .error err := rfl
      dsimp only [TaskFile.attempt] at hr ⊢
      rw [hs, hfail] at *
      by_cases hcode : (codeOf (Except.error err : Except ResultCode Store) ==
          ResultCode.okay.code) = true
      · rw [if_pos hcode] at hr
        exact absurd (congrArg some (eq_of_beq hcode)) hr
      · rw [if_neg hcode]
        rfl

/-- A failed reading by the solver library leaves the store as it is. -/
theorem store_readNative {file : String} {e : Engine} {h : Host σ}
    (hr : ((readNative file).run e h).1.1 ≠ some ResultCode.okay.code) :
    ((readNative file).run e h).1.2.store = e.store := by
  have hopen : (host (Solver.openModel file).run : EngineM σ _).run e h =
      ((((Solver.openModel file).run h).1, e), ((Solver.openModel file).run h).2) := rfl
  rw [readNative, EngineM.run_bind, hopen] at hr ⊢
  revert hr
  rcases ((Solver.openModel file).run h).1 with err | ⟨i, f⟩
  · exact fun _ => rfl
  · exact fun hr => store_adopt hr

/-- A task file from which the problem alone is read is not found to be faulty once the problem is
in place. -/
theorem not_failsLate_problemOnly {bytes : List UInt8} {s s' : Store} {err : ResultCode} :
    ¬TaskFile.FailsLate bytes problemOnly s err s' := by
  rintro ⟨doc, d, s₁, -, hparse, -, hfault⟩
  obtain ⟨_, -, hd⟩ := bind_eq_ok.1 hparse
  obtain ⟨model, -, hd⟩ := bind_eq_ok.1 hd
  obtain ⟨params, hparams, hd⟩ := bind_eq_ok.1 hd
  obtain ⟨solution, hsolution, hd⟩ := bind_eq_ok.1 hd
  cases hd
  cases hfault with
  | param hps => cases hparams; cases hps
  | solution _ hsol => cases hsolution; cases hsol

/-- Reading a problem file: a fault is prescribed, or the file is read by the engine or by the
solver library. -/
theorem run_readProb (file : String) (e : Engine) (h : Host σ) : ∃ script,
    (∃ code, (readProb file).run e h = ((some code, e), { h with script })) ∨
      (readProb file).run e h =
        (if e.keepsFile file then do return some (← loadTask file problemOnly)
          else readNative file : EngineM σ (Option Int32)).run e { h with script } := by
  obtain ⟨fault, script, hfault⟩ := run_fault? .readProb e h
  refine ⟨script, ?_⟩
  rw [readProb, EngineM.run_bind, hfault]
  cases fault with
  | some code => exact .inl ⟨code, rfl⟩
  | none => exact .inr rfl

/-- Reading a file that the engine keeps itself gives a code. -/
theorem code_readProb {file : String} {e : Engine} (hkeeps : e.keepsFile file = true)
    (h : Host σ) : ∃ code, ((readProb file).run e h).1.1 = some code := by
  obtain ⟨script, ⟨code, hrun⟩ | hrun⟩ := run_readProb file e h
  · exact ⟨code, by rw [hrun]⟩
  · rw [hrun, if_pos hkeeps]
    exact ⟨_, rfl⟩

/-- A failed reading leaves the store as it is. -/
theorem store_readProb (file : String) (e : Engine) (h : Host σ)
    (hr : ((readProb file).run e h).1.1 ≠ some ResultCode.okay.code) :
    ((readProb file).run e h).1.2.store = e.store := by
  obtain ⟨script, ⟨code, hrun⟩ | hrun⟩ := run_readProb file e h
  · rw [hrun]
  · rw [hrun] at hr ⊢
    by_cases hkeeps : e.keepsFile file = true
    · rw [if_pos hkeeps] at hr ⊢
      have hcode : ((loadTask file problemOnly).run e { h with script }).1.1 ≠
          ResultCode.okay.code := fun hcode => hr (congrArg some hcode)
      obtain hsame | ⟨_, _, _, -, hlate, -⟩ :=
        run_loadTask_of_ne file problemOnly e { h with script } hcode
      · exact congrArg Engine.store hsame
      · exact absurd hlate not_failsLate_problemOnly
    · rw [if_neg hkeeps] at hr ⊢
      exact store_readNative hr

/-- Writing a problem file. -/
theorem drives_writeProb {file : String} : Drives P (writeProb file : EngineM σ Int32) :=
  drives_guardedCode <| Drives.get.bind fun _ => ite_of drives_saveTask <|
    (Drives.host Solver.framed_writeModel).bind fun _ => .pure _

/-- Writing a solution file. -/
theorem drives_writeSoln {file : String} : Drives P (writeSoln file : EngineM σ Int32) := by
  refine drives_guardedCode <| Drives.get.bind fun e => ?_
  split
  · exact (Drives.host (InstanceId.framed_onFile Host.framed_ask)).bind fun _ => .pure _
  · exact drives_saveSolution

/-! ## Solving -/

section Solve

variable (hinvalidate : P .invalidate) (hsolution : ∀ sol, P (.setSolution sol))

include hinvalidate hsolution

/-- Solving with the solver library. -/
theorem drives_solveNative : Drives P (solveNative : EngineM σ Int32) := by
  refine Drives.get.bind fun e => ite_of (drives_log.bind fun _ => .pure _) ?_
  refine .bind (.of_run .invalidate hinvalidate fun _ h => ⟨.refl h, rfl⟩) fun _ => ?_
  refine drives_releaseKeeper.bind fun _ => Drives.get.bind fun e => ?_
  refine (Drives.host Solver.framed_solve).bind fun r => ?_
  cases r with
  | error e => exact .pure _
  | ok solved =>
    exact .bind (.of_run (.setSolution solved.solution) (hsolution _) fun _ h => ⟨.refl h, rfl⟩)
      fun _ => .pure _

/-- Solving without regard to the script. -/
theorem drives_solveOwn : Drives P (solveOwn : EngineM σ Int32) := by
  refine Drives.get.bind fun e => ?_
  cases e.backend with
  | plain => exact drives_log.bind fun _ => .pure _
  | solver => exact drives_solveNative hinvalidate hsolution

/-- Solving. -/
theorem drives_solveProb : Drives P (solveProb : EngineM σ Int32) := by
  refine Drives.get.bind fun e =>
    Drives.compositional.join (.host Host.framed_nextSolve?) (.pure _) fun prescribed => ?_
  cases prescribed with
  | none => exact drives_solveOwn hinvalidate hsolution
  | some o =>
    obtain ⟨code, solution⟩ := o
    cases solution with
    | none => exact .pure _
    | some sol =>
      exact .bind (.of_run (.setSolution sol) (hsolution sol) fun _ h => ⟨.refl h, rfl⟩)
        fun _ => .pure _

end Solve

/-- Finding an infeasible subsystem. -/
theorem drives_computeIis (hP : ∀ rows cols, P (.setIis rows cols)) :
    Drives P (computeIis : EngineM σ Int32) := by
  have hplace (flags : IisFlags) (code : Int32) : Drives P (do
      modify fun e : Engine => { e with store := e.store.setIis flags.rows flags.cols }
      return code : EngineM σ Int32) :=
    .bind (.of_run (.setIis flags.rows flags.cols) (hP _ _) fun _ h => ⟨.refl h, rfl⟩)
      fun _ => .pure _
  have hown : Drives P (conflictOwn : EngineM σ Int32) := by
    refine Drives.get.bind fun e => ?_
    cases e.backend with
    | plain => exact .pure _
    | solver =>
      refine Drives.get.bind fun e => (Drives.host Solver.framed_conflict).bind fun r => ?_
      cases r with
      | error e => exact .pure _
      | ok flags => exact hplace flags _
  refine Drives.get.bind fun e =>
    Drives.compositional.join (.host Host.framed_nextConflict?) (.pure _) fun prescribed => ?_
  cases prescribed with
  | none => exact hown
  | some o =>
    obtain ⟨code, flags⟩ := o
    cases flags with
    | none => exact .pure _
    | some flags => exact hplace flags _

/-- Solving as a job. -/
theorem drives_submitTask : Drives Op.Quiet (submitTask : EngineM σ String) := by
  refine (drives_solveProb trivial fun _ => trivial).bind fun code => ?_
  exact .of_run (.recordJob code) trivial fun _ h => ⟨.refl h, rfl⟩

end

end MathProgram.Engine
