import MathProgram.Proofs.Engine.Operations
import MathProgram.Proofs.Store.Findings

/-!
# What an engine has found

`Method` lists the calls of an engine, with their arguments. Three of them find something: a solve,
also one that is submitted as a job, a conflict search, and the reading of a task file that gives a
solution. What these do is said by `Solves`, `Searches` and `Reads`, and whatever else is called,
the engine `Retains` what it has found: it holds nothing that was not there before, for the same
problem, and it keeps the instance of its last solve or gives it up. So after any call a finding is
an old one, or the call has stored it (`Method.gains`).
-/

namespace MathProgram.Engine

open EngineM (host)

variable {σ α β : Type} {e e' e'' : Engine} {h : Host σ}

/-! ## Retaining -/

/-- A later engine of the same kind retains the findings of its store, and keeps its instance or has
given it up. -/
structure Retains (e e' : Engine) : Prop where
  backend : e'.backend = e.backend
  scripted : e'.scripted = e.scripted
  keeper : e'.keeper = e.keeper ∨ e'.keeper = none
  store : ∀ f, e.store.Retains f e'.store

namespace Retains

/-- An engine retains what it has. -/
theorem refl (e : Engine) : Retains e e := ⟨rfl, rfl, .inl rfl, fun f => .refl f e.store⟩

/-- What is retained twice is retained. -/
theorem trans (h₁ : Retains e e') (h₂ : Retains e' e'') : Retains e e'' where
  backend := h₂.backend.trans h₁.backend
  scripted := h₂.scripted.trans h₁.scripted
  keeper := h₂.keeper.elim (fun h => h₁.keeper.imp h.trans h.trans) .inr
  store f := (h₁.store f).trans (h₂.store f)

/-- A store that retains its findings, in place of the old one. -/
theorem of_store {s : Store} (h : ∀ f, e.store.Retains f s) : Retains e { e with store := s } :=
  ⟨rfl, rfl, .inl rfl, h⟩

end Retains

/-- A computation after which an engine retains what it had. -/
def Retaining (act : EngineM σ α) : Prop := ∀ (e : Engine) (h : Host σ), e.Retains (act.run e h).1.2

namespace Retaining

/-- Giving a value. -/
theorem pure (a : α) : Retaining (Pure.pure a : EngineM σ α) := fun e _ => .refl e

/-- Looking at the engine. -/
theorem get : Retaining (MonadState.get : EngineM σ Engine) := fun e _ => .refl e

/-- A computation on the host. -/
theorem host (act : HostM σ α) : Retaining (EngineM.host act) := fun e _ => .refl e

/-- One computation after another. -/
theorem bind {act : EngineM σ α} {next : α → EngineM σ β} (hact : Retaining act)
    (hnext : ∀ a, Retaining (next a)) : Retaining (act >>= next) := fun e h =>
  (hact e h).trans (hnext _ _ _)

/-- A computation that leaves the engine as it is. -/
theorem of_eq {act : EngineM σ α} (h : ∀ (e : Engine) (h : Host σ), (act.run e h).1.2 = e) :
    Retaining act := fun e h₁ => (h e h₁).symm ▸ .refl e

/-- Asking for a fault. -/
theorem fault? (c : EngineCall) : Retaining (fault? c : EngineM σ (Option Int32)) :=
  get.bind fun _ => ite_of (.host _) (.pure _)

/-- A call with an output that can be made to fail. -/
theorem guarded {c : EngineCall} {untouched : α} {act : EngineM σ (Int32 × α)}
    (hact : Retaining act) : Retaining (guarded c untouched act) := by
  refine (fault? c).bind fun code => ?_
  cases code with
  | none => exact hact
  | some code => exact .pure _

/-- A call without an output that can be made to fail. -/
theorem guardedCode {c : EngineCall} {act : EngineM σ Int32} (hact : Retaining act) :
    Retaining (guardedCode c act) := by
  refine (fault? c).bind fun code => ?_
  cases code with
  | none => exact hact
  | some code => exact .pure _

/-- A call that changes the store. -/
theorem edit {c : EngineCall} {g : Store → Except ResultCode Store}
    (hg : ∀ f s s', g s = .ok s' → Store.Retains f s s') :
    Retaining (edit c g : EngineM σ Int32) := by
  refine guardedCode fun e h => ?_
  rw [run_changeStore]
  exact .of_store fun f => TaskFile.attempt_invariant (.refl f e.store) fun s' => hg f _ s'

/-- A call that changes the problem. -/
theorem editProblem {c : EngineCall} {g : Problem → Except ResultCode Problem} :
    Retaining (Engine.edit c (·.edit g) : EngineM σ Int32) := edit fun _ _ _ => Store.retains_edit

/-- A call that reads the store. -/
theorem query {c : EngineCall} {untouched : α} {g : Store → Except ResultCode α} :
    Retaining (query c untouched g : EngineM σ (Int32 × α)) := of_eq fun e h => by
  obtain ⟨r, h', -, hrun⟩ := run_query c untouched g e h
  rw [hrun]

/-- Fetching lines of the matrix. -/
theorem fetch {c : EngineCall} {g : Problem → ResultCode × LineBuffers} {b : LineBuffers} :
    Retaining (fetch c g b : EngineM σ (Int32 × LineBuffers)) :=
  guarded <| get.bind fun _ => .pure _

/-- Changing where the log goes. -/
theorem modifyLog {g : LogSink → LogSink} : Retaining (modifyLog g : EngineM σ Unit) :=
  fun _ _ => .of_store fun _ => .of_eq rfl rfl rfl

/-- Writing to the log. -/
theorem log {message : String} : Retaining (log message : EngineM σ Unit) :=
  get.bind fun _ => .host _

end Retaining

/-! ## Calls that find nothing -/

/-- Reading an attribute. -/
theorem retaining_attr {t : ValueType} {name : String} {index : Option ℕ} :
    Retaining (attr t name index : EngineM σ (Int32 × t.Value)) := by
  cases t <;> exact .query

/-- Writing an attribute. -/
theorem retaining_setAttr {t : ValueType} {name : String} {index : Option ℕ} {v : t.Value} :
    Retaining (setAttr t name index v : EngineM σ Int32) := by
  cases t
  · exact .edit fun _ _ _ => Store.retains_setIntAttr
  · exact .edit fun _ _ _ => Store.retains_setRealAttr
  · exact .edit fun _ _ _ => Store.retains_setStrAttr

/-- Reading a parameter. -/
theorem retaining_param {name : String} {type : ValueType} :
    Retaining (param name type : EngineM σ (Except Int32 ParamValue)) := by
  refine Retaining.get.bind fun e => (Retaining.host _).bind fun h => ?_
  dsimp only
  split <;> exact .pure _

/-- Setting the file of the log. -/
theorem retaining_setLogFile {file : Option String} :
    Retaining (setLogFile file : EngineM σ Int32) := by
  refine .guardedCode <| Retaining.get.bind fun _ => (Retaining.host _).bind fun r => ?_
  cases r with
  | error e => exact .pure _
  | ok log => exact Retaining.modifyLog.bind fun _ => .pure _

/-- Saving a task file. -/
theorem retaining_saveTask {file : String} {parts : Sections} :
    Retaining (saveTask file parts : EngineM σ Int32) :=
  .of_eq fun e h => by rw [run_saveTask]

/-- Saving the solution. -/
theorem retaining_saveSolution {file : String} :
    Retaining (saveSolution file : EngineM σ Int32) := by
  refine Retaining.get.bind fun e => ?_
  cases e.store.solutionText with
  | error e => exact .pure _
  | ok text => exact (Retaining.host _).bind fun _ => ite_of (.pure _) (.pure _)

/-- A file from which the problem alone is read gives no solution. -/
theorem retaining_loadTask_problemOnly {file : String} :
    Retaining (loadTask file problemOnly : EngineM σ Int32) := fun e h => by
  rw [run_loadTask]
  cases h.disk.find file with
  | missing => exact .refl e
  | folder => exact .refl e
  | file bytes =>
    obtain hretains | ⟨sol, s, hgives, -⟩ := TaskFile.loadBytes_cases bytes problemOnly e.store
    · exact .of_store hretains
    · exact nomatch hgives.soln

/-- Looking up a job. -/
theorem retaining_retrieveTask {id : String} :
    Retaining (retrieveTask id : EngineM σ (Except Int32 JobReport)) := by
  refine Retaining.get.bind fun e => (Retaining.host _).bind fun h => ?_
  cases e.store.job? id <;> exact .pure _

/-- The number of the status. -/
theorem retaining_status : Retaining (status : EngineM σ Int32) := .of_eq fun e h => by
  obtain ⟨code, hrun⟩ := run_status e h
  rw [hrun]

/-- Recording a job. -/
theorem retains_recordJob (e : Engine) (code : Int32) :
    e.Retains { e with store := (e.store.recordJob code).2 } :=
  .of_store fun _ => .of_eq rfl rfl rfl

section

variable [Solver σ]

/-- The host after an engine has destroyed its instance. -/
def released (e : Engine) (h : Host σ) : Host σ :=
  match e.keeper with
  | some k => (k.destroy.run h).2
  | none => h

/-- Destroying the instance of the last solve. -/
theorem run_releaseKeeper (e : Engine) (h : Host σ) :
    releaseKeeper.run e h = (((), { e with keeper := none }), e.released h) := by
  obtain ⟨backend, store, keeper, scripted⟩ := e
  cases keeper <;> rfl

/-- Destroying the instance of the last solve. -/
theorem retaining_releaseKeeper : Retaining (releaseKeeper : EngineM σ Unit) := fun e h => by
  rw [run_releaseKeeper]
  exact ⟨rfl, rfl, .inr rfl, fun f => .refl f e.store⟩

/-- Putting a problem in place that was read from a file: its sense and its constant are set in a
store that holds nothing. -/
theorem retaining_adopt {file : String} {p : ModelFile} :
    Retaining (adopt file p : EngineM σ (Option Int32)) := by
  unfold adopt
  cases p.entries? with
  | none => exact .pure _
  | some entries =>
    refine .bind (fun e h => ?_) fun code => ite_of ?_ (.pure _)
    · rw [run_changeStore]
      refine .of_store fun f => TaskFile.attempt_invariant (.refl f e.store) fun s' hs' => ?_
      obtain ⟨s, hs, hs'⟩ := bind_eq_ok.1 hs'
      obtain ⟨q, -, rfl⟩ := Store.edit_eq_ok hs
      cases hs'
      exact .of_blank ((Store.blank_withProblem e.store q).congr rfl rfl)
    · exact retaining_releaseKeeper.bind fun _ => (Retaining.host _).bind fun _ => .pure _

/-- Having a problem read by the solver library. -/
theorem retaining_readNative {file : String} :
    Retaining (readNative file : EngineM σ (Option Int32)) := by
  refine (Retaining.host _).bind fun r => ?_
  cases r with
  | error e => exact .pure _
  | ok r => exact retaining_adopt.bind fun _ => (Retaining.host _).bind fun _ => .pure _

/-- Reading a problem file. -/
theorem retaining_readProb {file : String} :
    Retaining (readProb file : EngineM σ (Option Int32)) := by
  refine (Retaining.fault? _).bind fun code => ?_
  cases code with
  | some code => exact .pure _
  | none =>
    exact Retaining.get.bind fun e =>
      ite_of (retaining_loadTask_problemOnly.bind fun _ => .pure _) retaining_readNative

/-- Writing a problem file. -/
theorem retaining_writeProb {file : String} : Retaining (writeProb file : EngineM σ Int32) :=
  .guardedCode <| Retaining.get.bind fun _ => ite_of retaining_saveTask <|
    (Retaining.host _).bind fun _ => .pure _

/-- Writing a solution file. -/
theorem retaining_writeSoln {file : String} : Retaining (writeSoln file : EngineM σ Int32) := by
  refine .guardedCode <| Retaining.get.bind fun e => ?_
  split
  · exact (Retaining.host _).bind fun _ => .pure _
  · exact retaining_saveSolution

/-! ## Calls that find something -/

/-- The outcome that the script prescribes for a solve. -/
def prescribedSolve? (e : Engine) (h : Host σ) : Option SolveOutcome :=
  if e.scripted then h.script.solves.head? else none

/-- The outcome that the script prescribes for a conflict search. -/
def prescribedConflict? (e : Engine) (h : Host σ) : Option IisOutcome :=
  if e.scripted then h.script.conflicts.head? else none

/-- What a solve does to an engine, and the solution it stores. -/
inductive Solves (e : Engine) (h : Host σ) : Option Solution → Engine → Prop
  /-- Nothing is run and nothing prescribed. -/
  | idle : Solves e h none e
  /-- The script prescribes a solution. -/
  | prescribed {o : SolveOutcome} {sol : Solution} (ho : e.prescribedSolve? h = some o)
    (hsol : o.solution = some sol) :
    Solves e h (some sol) { e with store := e.store.setSolution sol }
  /-- The library fails. -/
  | failed : Solves e h none { e with store := e.store.invalidate, keeper := none }
  /-- The library has run, and its instance is kept. -/
  | run {solved : Solver.Solved} {h' : Host σ} (hown : e.prescribedSolve? h = none)
    (hbackend : e.backend = .solver)
    (hlinear : (e.store.problem.hasQuadratic && e.store.problem.hasIntegers) = false)
    (hsolve : (Solver.solve e.store.invalidate).run (e.released h) = (.ok solved, h')) :
    Solves e h (some solved.solution)
      { e with
        store := e.store.invalidate.setSolution solved.solution
        keeper := some solved.keeper }

/-- What a conflict search does to an engine, and the flags it stores. -/
inductive Searches (e : Engine) (h : Host σ) : Option IisFlags → Engine → Prop
  /-- Nothing is found and nothing prescribed. -/
  | idle : Searches e h none e
  /-- The script prescribes flags. -/
  | prescribed {o : IisOutcome} {flags : IisFlags} (ho : e.prescribedConflict? h = some o)
    (hflags : o.flags = some flags) :
    Searches e h (some flags) { e with store := e.store.setIis flags.rows flags.cols }
  /-- The library has found flags. -/
  | run {flags : IisFlags} {h' : Host σ} (hown : e.prescribedConflict? h = none)
    (hbackend : e.backend = .solver)
    (hconflict : (Solver.conflict e.store).run h = (.ok flags, h')) :
    Searches e h (some flags) { e with store := e.store.setIis flags.rows flags.cols }

/-- What reading a task file does to an engine, and the solution it stores. -/
inductive Reads (file : String) (parts : Sections) (e : Engine) (h : Host σ) :
    Option Solution → Engine → Prop
  /-- No solution is stored. -/
  | plain {e' : Engine} (hretains : e.Retains e') : Reads file parts e h none e'
  /-- The file gives a solution, which is put in place last. -/
  | solution {bytes : List UInt8} {sol : Solution} {s : Store}
    (hfault : ((fault? .readTask).run e h).1.1 = none)
    (hfind : h.disk.find file = .file bytes) (hgives : TaskFile.Gives bytes parts sol)
    (hload : TaskFile.loadBytes bytes parts e.store = (.ok (), s.setSolution sol))
    (hretains : ∀ f, e.store.Retains f s) :
    Reads file parts e h (some sol) { e with store := s.setSolution sol }

/-- A solve takes over what is prescribed for it, or is left to the engine. -/
theorem run_solveProb (e : Engine) (h : Host σ) :
    solveProb.run e h = match e.prescribedSolve? h with
      | none => solveOwn.run e h
      | some o => ((o.code, match o.solution with
          | some sol => { e with store := e.store.setSolution sol }
          | none => e),
        { h with script := { h.script with solves := h.script.solves.tail } }) := by
  obtain ⟨backend, store, keeper, scripted⟩ := e
  obtain ⟨solver, disk, journal, instances, requests, script, models, live⟩ := h
  obtain ⟨solves, conflicts, status, jobState, jobStatus, param, faults⟩ := script
  cases scripted with
  | false => rfl
  | true =>
    cases solves with
    | nil => rfl
    | cons o rest =>
      obtain ⟨code, _ | sol⟩ := o
      · rfl
      · rfl

/-- A conflict search takes over what is prescribed for it, or is left to the engine. -/
theorem run_computeIis (e : Engine) (h : Host σ) :
    computeIis.run e h = match e.prescribedConflict? h with
      | none => conflictOwn.run e h
      | some o => ((o.code, match o.flags with
          | some flags => { e with store := e.store.setIis flags.rows flags.cols }
          | none => e),
        { h with script := { h.script with conflicts := h.script.conflicts.tail } }) := by
  obtain ⟨backend, store, keeper, scripted⟩ := e
  obtain ⟨solver, disk, journal, instances, requests, script, models, live⟩ := h
  obtain ⟨solves, conflicts, status, jobState, jobStatus, param, faults⟩ := script
  cases scripted with
  | false => rfl
  | true =>
    cases conflicts with
    | nil => rfl
    | cons o rest =>
      obtain ⟨code, _ | flags⟩ := o
      · rfl
      · rfl

/-- Solving with the solver library: unless the library cannot take the problem, what was found is
discarded and the instance destroyed before it runs. -/
theorem run_solveNative (e : Engine) (h : Host σ) :
    (solveNative.run e h).1 =
      if e.store.problem.hasQuadratic && e.store.problem.hasIntegers then
        (ResultCode.abortSolverNotAvailable.code, e)
      else match ((Solver.solve e.store.invalidate).run (e.released h)).1 with
        | .error c => (c.code, { e with store := e.store.invalidate, keeper := none })
        | .ok solved =>
          (solved.code.code,
            { e with
              store := e.store.invalidate.setSolution solved.solution
              keeper := some solved.keeper }) := by
  have hget (next : Engine → EngineM σ Int32) : (get >>= next).run e h = (next e).run e h := rfl
  rw [solveNative, hget]
  dsimp only
  by_cases hboth : (e.store.problem.hasQuadratic && e.store.problem.hasIntegers) = true
  · rw [if_pos hboth, if_pos hboth]
    rfl
  · rw [if_neg hboth, if_neg hboth]
    have hdiscard (next : Unit → EngineM σ Int32) :
        (modify (fun e => { e with store := e.store.invalidate }) >>= next).run e h =
          (next ()).run { e with store := e.store.invalidate } h := rfl
    rw [hdiscard, EngineM.run_bind, run_releaseKeeper]
    -- The instance is gone; what remains is the run of the library.
    have hsolve (e : Engine) (h : Host σ)
        (next : Except ResultCode Solver.Solved → EngineM σ Int32) :
        (get >>= fun e => host (Solver.solve e.store).run >>= next).run e h =
          (next ((Solver.solve e.store).run h).1).run e ((Solver.solve e.store).run h).2 := rfl
    dsimp only
    rw [hsolve]
    have hreleased : ({ e with store := e.store.invalidate } : Engine).released h =
        e.released h := rfl
    rw [hreleased]
    cases ((Solver.solve e.store.invalidate).run (e.released h)).1 <;> rfl

/-- What a solve does to an engine. -/
theorem solves_solveProb (e : Engine) (h : Host σ) :
    ∃ sol, e.Solves h sol (solveProb.run e h).1.2 := by
  rw [run_solveProb]
  cases ho : e.prescribedSolve? h with
  | some o =>
    dsimp only
    cases hsol : o.solution with
    | none => exact ⟨none, .idle⟩
    | some sol => exact ⟨some sol, .prescribed ho hsol⟩
  | none =>
    have hget (next : Engine → EngineM σ Int32) : (get >>= next).run e h = (next e).run e h := rfl
    dsimp only
    rw [solveOwn, hget]
    cases hbackend : e.backend with
    | plain => exact ⟨none, .idle⟩
    | solver =>
      dsimp only
      rw [run_solveNative]
      split
      · exact ⟨none, .idle⟩
      · rename_i hlinear
        rcases hsolve : (Solver.solve e.store.invalidate).run (e.released h) with ⟨_ | solved, h'⟩
        · exact ⟨none, .failed⟩
        · have hcontinuous := Bool.eq_false_of_not_eq_true hlinear
          exact ⟨some solved.solution, .run ho hbackend hcontinuous hsolve⟩

/-- What a conflict search does to an engine. -/
theorem searches_computeIis (e : Engine) (h : Host σ) :
    ∃ flags, e.Searches h flags (computeIis.run e h).1.2 := by
  rw [run_computeIis]
  cases ho : e.prescribedConflict? h with
  | some o =>
    dsimp only
    cases hflags : o.flags with
    | none => exact ⟨none, .idle⟩
    | some flags => exact ⟨some flags, .prescribed ho hflags⟩
  | none =>
    have hget (next : Engine → EngineM σ Int32) : (get >>= next).run e h = (next e).run e h := rfl
    have hconflict (next : Except ResultCode IisFlags → EngineM σ Int32) :
        (get >>= fun e => host (Solver.conflict e.store).run >>= next).run e h =
          (next ((Solver.conflict e.store).run h).1).run e
            ((Solver.conflict e.store).run h).2 := rfl
    dsimp only
    rw [conflictOwn, hget]
    cases hbackend : e.backend with
    | plain => exact ⟨none, .idle⟩
    | solver =>
      dsimp only
      rw [hconflict]
      rcases hrun : (Solver.conflict e.store).run h with ⟨_ | flags, h'⟩
      · exact ⟨none, .idle⟩
      · exact ⟨some flags, .run ho hbackend hrun⟩

end

/-- What reading a task file does to an engine. -/
theorem reads_readTask (file : String) (parts : Sections) (e : Engine) (h : Host σ) :
    ∃ sol, Reads file parts e h sol ((readTask file parts).run e h).1.2 := by
  obtain ⟨code, script, hfault⟩ := run_fault? .readTask e h
  have hretains := Retaining.fault? (σ := σ) .readTask e h
  rw [readTask, guardedCode, EngineM.run_bind, hfault]
  cases code with
  | some code => exact ⟨none, .plain (.refl e)⟩
  | none =>
    dsimp only
    rw [run_loadTask]
    cases hfind : h.disk.find file with
    | missing => exact ⟨none, .plain (.refl e)⟩
    | folder => exact ⟨none, .plain (.refl e)⟩
    | file bytes =>
      dsimp only
      obtain hstore | ⟨sol, s, hgives, hload, hs⟩ := TaskFile.loadBytes_cases bytes parts e.store
      · exact ⟨none, .plain (.of_store hstore)⟩
      · rw [hload]
        exact ⟨some sol, .solution (congrArg (·.1.1) hfault) hfind hgives hload hs⟩

section

variable {stored : (f : Finding) → f.Value → Prop} {file : String} {parts : Sections}

/-- What a solve stores. -/
theorem Solves.gains [Solver σ] {sol : Option Solution} (hsolves : e.Solves h sol e')
    (hstored : ∀ sol e', e.Solves h (some sol) e' → stored .solution sol.unbased) :
    e.store.Gains stored e'.store := by
  cases hsolves with
  | idle => exact .of_retains fun f => .refl f e.store
  | prescribed ho hsol => exact .setSolution (.refl _ _) (hstored _ _ (.prescribed ho hsol))
  | failed => exact .of_retains fun f => .of_blank (Store.blank_invalidate e.store)
  | run hown hbackend hlinear hsolve =>
    exact .setSolution (.of_blank (Store.blank_invalidate e.store))
      (hstored _ _ (.run hown hbackend hlinear hsolve))

/-- What a conflict search stores. -/
theorem Searches.gains [Solver σ] {flags : Option IisFlags} (hsearches : e.Searches h flags e')
    (hstored : ∀ flags e', e.Searches h (some flags) e' → stored .conflict flags) :
    e.store.Gains stored e'.store := by
  cases hsearches with
  | idle => exact .of_retains fun f => .refl f e.store
  | prescribed ho hflags => exact .setIis (hstored _ _ (.prescribed ho hflags))
  | run hown hbackend hrun => exact .setIis (hstored _ _ (.run hown hbackend hrun))

/-- What the reading of a task file stores. -/
theorem Reads.gains {sol : Option Solution} (hreads : Reads file parts e h sol e')
    (hstored : ∀ sol e', Reads file parts e h (some sol) e' → stored .solution sol.unbased) :
    e.store.Gains stored e'.store := by
  cases hreads with
  | plain hretains => exact .of_retains hretains.store
  | solution hfault hfind hgives hload hs =>
    exact .setSolution (hs _) (hstored _ _ (.solution hfault hfind hgives hload hs))

end

/-! ## The calls of an engine -/

/-- A call of an engine, with its arguments. -/
inductive Method where
  | addCol (c : ColData) (rows : List ℕ) (vals : List Float)
  | addRow (r : RowData) (cols : List ℕ) (vals : List Float)
  | deleteCols (cols : List ℕ)
  | deleteRows (rows : List ℕ)
  | fetchCols (cols : List ℕ) (b : LineBuffers)
  | fetchRows (rows : List ℕ) (b : LineBuffers)
  | elements (rows cols : List ℕ)
  | setElements (rows cols : List ℕ) (vals : List Float)
  | deleteElements (rows cols : List ℕ)
  | deleteAllElements
  | quadElements (cols₁ cols₂ : List ℕ)
  | setQuadElements (cols₁ cols₂ : List ℕ) (vals : List Float)
  | deleteQuadElements (cols₁ cols₂ : List ℕ)
  | deleteAllQuadElements
  | attr (t : ValueType) (name : String) (index : Option ℕ)
  | setAttr (t : ValueType) (name : String) (index : Option ℕ) (v : t.Value)
  | param (name : String) (type : ValueType)
  | setParam (name : String) (v : ParamValue)
  | setLogToConsole (on : Bool)
  | setLogCallback (callback : Option String)
  | setLogFile (file : Option String)
  | displayResults
  | readTask (file : String) (parts : Sections)
  | writeTask (file : String) (parts : Sections)
  | readProb (file : String)
  | writeProb (file : String)
  | writeSoln (file : String)
  | solveProb
  | computeIis
  | status
  | submitTask
  | retrieveTask (id : String)
  | free

namespace Method

/-- The type of the result of a call. -/
def Result : Method → Type
  | fetchCols .. | fetchRows .. => Int32 × LineBuffers
  | elements .. | quadElements .. => Int32 × List Float
  | attr t .. => Int32 × t.Value
  | param .. => Except Int32 ParamValue
  | readProb _ => Option Int32
  | submitTask => String
  | retrieveTask _ => Except Int32 JobReport
  | setLogToConsole _ | setLogCallback _ | free => Unit
  | _ => Int32

variable [Solver σ]

/-- Runs a call. -/
def run : (c : Method) → EngineM σ c.Result
  | addCol c rows vals => Engine.addCol c rows vals
  | addRow r cols vals => Engine.addRow r cols vals
  | deleteCols cols => Engine.deleteCols cols
  | deleteRows rows => Engine.deleteRows rows
  | fetchCols cols b => Engine.fetchCols cols b
  | fetchRows rows b => Engine.fetchRows rows b
  | elements rows cols => Engine.elements rows cols
  | setElements rows cols vals => Engine.setElements rows cols vals
  | deleteElements rows cols => Engine.deleteElements rows cols
  | deleteAllElements => Engine.deleteAllElements
  | quadElements cols₁ cols₂ => Engine.quadElements cols₁ cols₂
  | setQuadElements cols₁ cols₂ vals => Engine.setQuadElements cols₁ cols₂ vals
  | deleteQuadElements cols₁ cols₂ => Engine.deleteQuadElements cols₁ cols₂
  | deleteAllQuadElements => Engine.deleteAllQuadElements
  | attr t name index => Engine.attr t name index
  | setAttr t name index v => Engine.setAttr t name index v
  | param name type => Engine.param name type
  | setParam name v => Engine.setParam name v
  | setLogToConsole on => Engine.setLogToConsole on
  | setLogCallback callback => Engine.setLogCallback callback
  | setLogFile file => Engine.setLogFile file
  | displayResults => Engine.displayResults
  | readTask file parts => Engine.readTask file parts
  | writeTask file parts => Engine.writeTask file parts
  | readProb file => Engine.readProb file
  | writeProb file => Engine.writeProb file
  | writeSoln file => Engine.writeSoln file
  | solveProb => Engine.solveProb
  | computeIis => Engine.computeIis
  | status => Engine.status
  | submitTask => Engine.submitTask
  | retrieveTask id => Engine.retrieveTask id
  | free => Engine.free

/-- A call that may find something. -/
def Finds : Method → Prop
  | solveProb | submitTask | computeIis | readTask .. => True
  | _ => False

/-- A call that cannot find anything retains what the engine has. -/
theorem retaining {c : Method} (hc : ¬c.Finds) : Retaining (c.run : EngineM σ c.Result) := by
  cases c with
  | addCol | addRow | deleteCols | deleteRows => exact .editProblem
  | setElements | deleteElements | deleteAllElements => exact .editProblem
  | setQuadElements | deleteQuadElements | deleteAllQuadElements => exact .editProblem
  | fetchCols | fetchRows => exact .fetch
  | elements | quadElements => exact .query
  | attr => exact retaining_attr
  | setAttr => exact retaining_setAttr
  | param => exact retaining_param
  | setParam => exact .edit fun _ _ _ => Store.retains_setParam
  | setLogToConsole | setLogCallback => exact .modifyLog
  | setLogFile => exact retaining_setLogFile
  | displayResults =>
    exact .guardedCode <| Retaining.get.bind fun _ => Retaining.log.bind fun _ => .pure _
  | writeTask => exact .guardedCode retaining_saveTask
  | readProb => exact retaining_readProb
  | writeProb => exact retaining_writeProb
  | writeSoln => exact retaining_writeSoln
  | status => exact retaining_status
  | retrieveTask => exact retaining_retrieveTask
  | free => exact retaining_releaseKeeper
  | readTask | solveProb | computeIis | submitTask => exact absurd trivial hc

/-- A call stores a finding: a solve or the reading of a task file a solution, a conflict search the
flags of its members. -/
def Stores (c : Method) (e : Engine) (h : Host σ) : (f : Finding) → f.Value → Prop
  | .solution, v => ∃ sol e', sol.unbased = v ∧ match c with
    | solveProb | submitTask => e.Solves h (some sol) e'
    | readTask file parts => Reads file parts e h (some sol) e'
    | _ => False
  | .conflict, v => ∃ e', match c with
    | computeIis => e.Searches h (some v) e'
    | _ => False

/-- After any call a finding is an old one for the same problem, or the call has stored it. -/
theorem gains (c : Method) (e : Engine) (h : Host σ) :
    e.store.Gains (c.Stores e h) (c.run.run e h).1.2.store := by
  by_cases hc : c.Finds
  · cases c with
    | solveProb =>
      obtain ⟨sol, hsolves⟩ := solves_solveProb e h
      exact hsolves.gains fun sol e' hsolves => ⟨sol, e', rfl, hsolves⟩
    | submitTask =>
      obtain ⟨sol, hsolves⟩ := solves_solveProb e h
      refine .trans (hsolves.gains fun sol e' hsolves => ⟨sol, e', rfl, hsolves⟩)
        (retains_recordJob _ (solveProb.run e h).1.1).store
    | computeIis =>
      obtain ⟨flags, hsearches⟩ := searches_computeIis e h
      exact hsearches.gains fun flags e' hsearches => ⟨e', hsearches⟩
    | readTask file parts =>
      obtain ⟨sol, hreads⟩ := reads_readTask file parts e h
      exact hreads.gains fun sol e' hreads => ⟨sol, e', rfl, hreads⟩
    | _ => cases hc
  · exact .of_retains (retaining hc e h).store

end Method

end MathProgram.Engine
