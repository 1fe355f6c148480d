import MathProgram.Proofs.Engine.Findings
import MathProgram.Proofs.Solver.Instances

/-!
# The instance of an engine

An engine keeps the instance of its last solve. Each of its calls exchanges this instance for the
one it keeps afterwards, if any (`Exchanges`), so every other instance that a call creates is
destroyed when the call is over, whatever the library answers (`Method.exchanges`). Most calls ask
nothing of the library and keep what they have (`Still`). A call leaves a new instance only by a
solve that runs to completion (`Completes`, `keeper_solveProb`).
-/

namespace MathProgram.Engine

open EngineM (host)

variable {σ α β : Type}

/-! ## Calls that ask nothing -/

/-- A computation asks nothing of the library, and keeps the instance. -/
def Still (act : EngineM σ α) : Prop :=
  ∀ (e : Engine) (h : Host σ), (act.run e h).1.2.keeper = e.keeper ∧ h.Quiet (act.run e h).2

namespace Still

/-- Giving a value. -/
theorem pure (a : α) : Still (Pure.pure a : EngineM σ α) := fun _ h => ⟨rfl, .refl h⟩

/-- Looking at the engine. -/
theorem get : Still (MonadState.get : EngineM σ Engine) := fun _ h => ⟨rfl, .refl h⟩

/-- A computation on the host that asks nothing. -/
theorem host {act : HostM σ α} (hact : HostM.Quiet act) : Still (EngineM.host act) := fun _ h =>
  ⟨rfl, hact h⟩

/-- One computation after another. -/
theorem bind {act : EngineM σ α} {next : α → EngineM σ β} (hact : Still act)
    (hnext : ∀ a, Still (next a)) : Still (act >>= next) := fun e h => by
  obtain ⟨hkeeper, hquiet⟩ := hact e h
  obtain ⟨hkeeper', hquiet'⟩ := hnext (act.run e h).1.1 (act.run e h).1.2 (act.run e h).2
  exact ⟨hkeeper'.trans hkeeper, hquiet.trans hquiet'⟩

/-- A change of the engine that keeps the instance. -/
theorem modify {f : Engine → Engine} (hf : ∀ e, (f e).keeper = e.keeper) :
    Still (modify f : EngineM σ PUnit) := fun e h => ⟨hf e, .refl h⟩

/-- Asking for a fault. -/
theorem fault? {c : EngineCall} : Still (fault? c : EngineM σ (Option Int32)) :=
  get.bind fun _ => ite_of (host .fault?) (.pure _)

/-- A call with an output that can be made to fail. -/
theorem guarded {c : EngineCall} {untouched : α} {act : EngineM σ (Int32 × α)} (hact : Still act) :
    Still (guarded c untouched act) := by
  refine fault?.bind fun code => ?_
  cases code with
  | none => exact hact
  | some code => exact .pure _

/-- A call without an output that can be made to fail. -/
theorem guardedCode {c : EngineCall} {act : EngineM σ Int32} (hact : Still act) :
    Still (guardedCode c act) := by
  refine fault?.bind fun code => ?_
  cases code with
  | none => exact hact
  | some code => exact .pure _

/-- Changing the store by an operation that may fail. -/
theorem changeStore {f : Store → Except ResultCode Store} :
    Still (changeStore f : EngineM σ Int32) := fun e h => by
  rw [run_changeStore]
  exact ⟨rfl, .refl h⟩

/-- A call that changes the store. -/
theorem edit {c : EngineCall} {f : Store → Except ResultCode Store} :
    Still (edit c f : EngineM σ Int32) := guardedCode changeStore

/-- A call that reads the store. -/
theorem query {c : EngineCall} {untouched : α} {f : Store → Except ResultCode α} :
    Still (query c untouched f : EngineM σ (Int32 × α)) := by
  refine guarded <| get.bind fun e => ?_
  cases f e.store <;> exact .pure _

/-- Fetching lines of the matrix. -/
theorem fetch {c : EngineCall} {f : Problem → ResultCode × LineBuffers} {b : LineBuffers} :
    Still (fetch c f b : EngineM σ (Int32 × LineBuffers)) :=
  guarded <| get.bind fun _ => .pure _

/-- Reading an attribute. -/
theorem attr {t : ValueType} {name : String} {index : Option ℕ} :
    Still (attr t name index : EngineM σ (Int32 × t.Value)) := by
  cases t <;> exact query

/-- Writing an attribute. -/
theorem setAttr {t : ValueType} {name : String} {index : Option ℕ} {v : t.Value} :
    Still (setAttr t name index v : EngineM σ Int32) := by
  cases t <;> exact edit

/-- Reading a parameter. -/
theorem param {name : String} {type : ValueType} :
    Still (param name type : EngineM σ (Except Int32 ParamValue)) := by
  refine get.bind fun e => (host .get).bind fun h => ?_
  dsimp only
  split <;> exact .pure _

/-- Writing to the log. -/
theorem log {message : String} : Still (log message : EngineM σ Unit) :=
  get.bind fun _ => host .log

/-- Changing where the log goes. -/
theorem modifyLog {f : LogSink → LogSink} : Still (modifyLog f : EngineM σ Unit) :=
  modify fun _ => rfl

/-- Setting the file of the log. -/
theorem setLogFile {file : Option String} : Still (setLogFile file : EngineM σ Int32) := by
  refine guardedCode <| get.bind fun _ => (host .withFile).bind fun r => ?_
  cases r with
  | error e => exact .pure _
  | ok log => exact modifyLog.bind fun _ => .pure _

/-- Writing a summary to the log. -/
theorem displayResults : Still (displayResults : EngineM σ Int32) :=
  guardedCode <| get.bind fun _ => log.bind fun _ => .pure _

/-- Loading a task file. -/
theorem loadTask {file : String} {parts : Sections} :
    Still (loadTask file parts : EngineM σ Int32) := fun e h => by
  rw [run_loadTask]
  cases h.disk.find file <;> exact ⟨rfl, .refl h⟩

/-- Saving a task file. -/
theorem saveTask {file : String} {parts : Sections} :
    Still (saveTask file parts : EngineM σ Int32) :=
  get.bind fun _ => (host .modifyDisk).bind fun _ => ite_of (.pure _) (.pure _)

/-- Saving the solution. -/
theorem saveSolution {file : String} : Still (saveSolution file : EngineM σ Int32) := by
  refine get.bind fun e => ?_
  cases e.store.solutionText with
  | error e => exact .pure _
  | ok text => exact (host .modifyDisk).bind fun _ => ite_of (.pure _) (.pure _)

/-- The number of the status. -/
theorem status : Still (status : EngineM σ Int32) := fun e h => by
  obtain ⟨code, hrun⟩ := run_status e h
  rw [hrun]
  exact ⟨rfl, .refl h⟩

/-- Looking up a job. -/
theorem retrieveTask {id : String} :
    Still (retrieveTask id : EngineM σ (Except Int32 JobReport)) := by
  refine get.bind fun e => (host .get).bind fun h => ?_
  cases e.store.job? id <;> exact .pure _

end Still

/-! ## Calls that exchange the instance -/

/-- A computation exchanges the instance of the engine for the one that the engine keeps afterwards.
-/
def Exchanges (act : EngineM σ α) : Prop :=
  ∀ (e : Engine) (h : Host σ), h.Orderly → (∀ k, e.keeper = some k → h.Alive k) →
    Exchange e.keeper (act.run e h).1.2.keeper h (act.run e h).2

namespace Exchanges

/-- A computation that keeps the instance. -/
theorem of_still {act : EngineM σ α} (hact : Still act) : Exchanges act := fun e h hh hold => by
  obtain ⟨hkeeper, hquiet⟩ := hact e h
  rw [hkeeper]
  exact .of_quiet hh hold hquiet

/-- A computation on the host that leaves no instance. -/
theorem host {act : HostM σ α} (hact : HostM.Trades none (fun _ => none) act) :
    Exchanges (EngineM.host act) := fun _ h hh hold => hact.frame h hh hold

/-- One computation after another. -/
theorem bind {act : EngineM σ α} {next : α → EngineM σ β} (hact : Exchanges act)
    (hnext : ∀ a, Exchanges (next a)) : Exchanges (act >>= next) := fun e h hh hold => by
  have hx := hact e h hh hold
  exact hx.trans hh (hnext _ _ _ hx.orderly fun _ => hx.new_alive)

/-- Composition preserves this. -/
theorem compositional : Compositional (m := EngineM σ) Exchanges :=
  ⟨fun a => of_still (.pure a), bind⟩

/-- A call without an output that can be made to fail. -/
theorem guardedCode {c : EngineCall} {act : EngineM σ Int32} (hact : Exchanges act) :
    Exchanges (guardedCode c act) := by
  refine (of_still .fault?).bind fun code => ?_
  cases code with
  | none => exact hact
  | some code => exact of_still (.pure _)

/-- A computation that depends on the engine. -/
theorem read {next : Engine → EngineM σ α}
    (hnext : ∀ (e : Engine) (h : Host σ), h.Orderly → (∀ k, e.keeper = some k → h.Alive k) →
      Exchange e.keeper ((next e).run e h).1.2.keeper h ((next e).run e h).2) :
    Exchanges (get >>= next) := hnext

end Exchanges

/-! ## The calls that work with the library -/

section

variable [Solver σ]

/-- Destroying the instance of the last solve. -/
theorem exchanges_releaseKeeper : Exchanges (releaseKeeper : EngineM σ Unit) :=
  fun e h hh hold => by
    rw [run_releaseKeeper, released]
    cases hkeeper : e.keeper with
    | none => exact .of_quiet hh nofun (.refl h)
    | some k => exact InstanceId.trades_destroy h hh fun j hj => hold j (hkeeper.trans hj)

/-- Putting a problem in place that was read from a file. -/
theorem exchanges_adopt {file : String} {f : ModelFile} :
    Exchanges (adopt file f : EngineM σ (Option Int32)) := by
  unfold adopt
  cases f.entries? with
  | none => exact .of_still (.pure _)
  | some entries =>
    exact (Exchanges.of_still .changeStore).bind fun _ =>
      ite_of (exchanges_releaseKeeper.bind fun _ =>
        .of_still ((Still.host .record).bind fun _ => .pure _)) (.of_still (.pure _))

/-- Having a problem read by the solver library: the instance that reads is destroyed after the
engine has given up its own. -/
theorem exchanges_readNative {file : String} :
    Exchanges (readNative file : EngineM σ (Option Int32)) := fun e h hh hold => by
  have hopen : Exchange none
      (SolverM.left (fun r => some r.1) none ((Solver.openModel file).run.run h).1) h
      ((Solver.openModel file).run.run h).2 := Solver.trades_openModel h hh fun j hj => by cases hj
  have hread : (host (Solver.openModel file).run : EngineM σ _).run e h =
      ((((Solver.openModel file).run.run h).1, e), ((Solver.openModel file).run.run h).2) := rfl
  rw [readNative, EngineM.run_bind, hread]
  rcases hr : (Solver.openModel file).run.run h with ⟨err | ⟨k, f⟩, h₁⟩ <;> rw [hr] at hopen
  · exact hopen.frame hold
  · have hkept (j : InstanceId) (hj : e.keeper = some j) : h₁.Alive j :=
      (hopen.alive j).2 (.inl ⟨hold j hj, fun hnone => by cases hnone⟩)
    have hadopt : Exchange e.keeper ((adopt file f).run e h₁).1.2.keeper h₁
        ((adopt file f).run e h₁).2 := exchanges_adopt e h₁ hopen.orderly hkept
    exact hopen.around hh hold hadopt fun hk =>
      InstanceId.trades_destroy _ hadopt.orderly fun j hj => Option.some.inj hj ▸ hk

/-- Reading a problem file. -/
theorem exchanges_readProb {file : String} :
    Exchanges (readProb file : EngineM σ (Option Int32)) := by
  refine (Exchanges.of_still .fault?).bind fun code => ?_
  cases code with
  | some code => exact .of_still (.pure _)
  | none =>
    exact (Exchanges.of_still .get).bind fun _ =>
      ite_of (.of_still (Still.loadTask.bind fun _ => .pure _)) exchanges_readNative

/-- Writing a problem file. -/
theorem exchanges_writeProb {file : String} : Exchanges (writeProb file : EngineM σ Int32) :=
  .guardedCode <| (Exchanges.of_still .get).bind fun _ => ite_of (.of_still .saveTask) <|
    (Exchanges.host Solver.trades_writeModel.run).bind fun _ => .of_still (.pure _)

/-- Writing a solution file: the instance of the last solve writes it. -/
theorem exchanges_writeSoln {file : String} : Exchanges (writeSoln file : EngineM σ Int32) := by
  refine .guardedCode <| .read fun e h hh hold => ?_
  split
  · rename_i k _ hkeeper
    rw [hkeeper] at hold
    have hwrite : Exchange (some k) (some k) h ((k.writeSolution file).run.run h).2 :=
      InstanceId.tries_writeSolution.run h hh hold
    rw [← hkeeper] at hwrite
    exact hwrite
  · exact Exchanges.of_still .saveSolution e h hh hold

/-- Solving with the solver library: the instance is destroyed, and that of the new solve is kept.
-/
theorem exchanges_solveNative : Exchanges (solveNative : EngineM σ Int32) := by
  refine .read fun e h hh hold => ?_
  dsimp only
  split
  · exact Exchanges.of_still (Still.log.bind fun _ => .pure _) e h hh hold
  · let blank : Engine := { e with store := e.store.invalidate }
    have hrelease : Exchange e.keeper none h (blank.released h) := by
      have hx := exchanges_releaseKeeper blank h hh hold
      rw [run_releaseKeeper] at hx
      exact hx
    have hsolve : Exchange none (SolverM.left (fun solved => some solved.keeper) none
        ((Solver.solve blank.store).run.run (blank.released h)).1) (blank.released h)
        ((Solver.solve blank.store).run.run (blank.released h)).2 :=
      Solver.trades_solve (blank.released h) hrelease.orderly nofun
    have hx := hrelease.trans hh hsolve
    have hdiscard (next : Unit → EngineM σ Int32) :
        (modify (fun e => { e with store := e.store.invalidate }) >>= next).run e h =
          (next ()).run blank h := rfl
    have hlibrary (e : Engine) (h : Host σ)
        (next : Except ResultCode Solver.Solved → EngineM σ Int32) :
        (get >>= fun e => host (Solver.solve e.store).run >>= next).run e h =
          (next ((Solver.solve e.store).run.run h).1).run e ((Solver.solve e.store).run.run h).2 :=
      rfl
    rw [hdiscard, EngineM.run_bind, run_releaseKeeper]
    dsimp only
    rw [hlibrary]
    dsimp only
    -- What follows the run of the library takes over the instance that it leaves.
    rcases hr : (Solver.solve blank.store).run.run (blank.released h) with ⟨_ | solved, h'⟩ <;>
      rw [hr] at hx <;> exact hx

/-- Solving without regard to the script. -/
theorem exchanges_solveOwn : Exchanges (solveOwn : EngineM σ Int32) := by
  refine (Exchanges.of_still .get).bind fun e => ?_
  cases e.backend with
  | plain => exact .of_still (Still.log.bind fun _ => .pure _)
  | solver => exact exchanges_solveNative

/-- Solving. -/
theorem exchanges_solveProb : Exchanges (solveProb : EngineM σ Int32) := by
  refine (Exchanges.of_still .get).bind fun e =>
    Exchanges.compositional.join (.of_still (.host .nextSolve?)) (.of_still (.pure _))
      fun prescribed => ?_
  cases prescribed with
  | none => exact exchanges_solveOwn
  | some o =>
    obtain ⟨code, solution⟩ := o
    cases solution with
    | none => exact .of_still (.pure _)
    | some sol => exact .of_still <| .bind (.modify fun _ => rfl) fun _ => .pure _

/-- Finding an infeasible subsystem. -/
theorem exchanges_computeIis : Exchanges (computeIis : EngineM σ Int32) := by
  have hplace (flags : IisFlags) (code : Int32) : Exchanges (do
      modify fun e : Engine => { e with store := e.store.setIis flags.rows flags.cols }
      return code : EngineM σ Int32) :=
    .of_still <| .bind (.modify fun _ => rfl) fun _ => .pure _
  have hown : Exchanges (conflictOwn : EngineM σ Int32) := by
    refine (Exchanges.of_still .get).bind fun e => ?_
    cases e.backend with
    | plain => exact .of_still (.pure _)
    | solver =>
      refine (Exchanges.of_still .get).bind fun e =>
        (Exchanges.host Solver.trades_conflict.run).bind fun r => ?_
      cases r with
      | error e => exact .of_still (.pure _)
      | ok flags => exact hplace flags _
  refine (Exchanges.of_still .get).bind fun e =>
    Exchanges.compositional.join (.of_still (.host .nextConflict?)) (.of_still (.pure _))
      fun prescribed => ?_
  cases prescribed with
  | none => exact hown
  | some o =>
    obtain ⟨code, flags⟩ := o
    cases flags with
    | none => exact .of_still (.pure _)
    | some flags => exact hplace flags _

/-- Every call of an engine exchanges its instance for the one that it keeps afterwards. -/
theorem Method.exchanges (c : Method) : Exchanges (c.run : EngineM σ c.Result) := by
  cases c with
  | addCol | addRow | deleteCols | deleteRows => exact .of_still .edit
  | setElements | deleteElements | deleteAllElements => exact .of_still .edit
  | setQuadElements | deleteQuadElements | deleteAllQuadElements => exact .of_still .edit
  | fetchCols | fetchRows => exact .of_still .fetch
  | elements | quadElements => exact .of_still .query
  | attr => exact .of_still .attr
  | setAttr => exact .of_still .setAttr
  | param => exact .of_still .param
  | setParam => exact .of_still .edit
  | setLogToConsole | setLogCallback => exact .of_still .modifyLog
  | setLogFile => exact .of_still .setLogFile
  | displayResults => exact .of_still .displayResults
  | readTask => exact .of_still (.guardedCode .loadTask)
  | writeTask => exact .of_still (.guardedCode .saveTask)
  | readProb => exact exchanges_readProb
  | writeProb => exact exchanges_writeProb
  | writeSoln => exact exchanges_writeSoln
  | solveProb => exact exchanges_solveProb
  | computeIis => exact exchanges_computeIis
  | status => exact .of_still .status
  | submitTask => exact exchanges_solveProb.bind fun _ => .of_still fun _ h => ⟨rfl, .refl h⟩
  | retrieveTask => exact .of_still .retrieveTask
  | free => exact exchanges_releaseKeeper

/-! ## The instance that is kept -/

/-- A conflict search keeps the instance. -/
theorem Searches.keeper {e e' : Engine} {h : Host σ} {flags : Option IisFlags}
    (hsearches : e.Searches h flags e') : e'.keeper = e.keeper := by
  cases hsearches <;> rfl

omit [Solver σ] in
/-- The reading of a task file keeps the instance or gives it up. -/
theorem Reads.keeper {e e' : Engine} {h : Host σ} {file : String} {parts : Sections}
    {sol : Option Solution} (hreads : Reads file parts e h sol e') :
    e'.keeper = e.keeper ∨ e'.keeper = none := by
  cases hreads with
  | plain hretains => exact hretains.keeper
  | solution => exact .inl rfl

/-- A solve of an engine runs to completion, with an instance: it is left to the library, which can
take the problem and runs without an error. -/
def Completes (e : Engine) (h : Host σ) (k : InstanceId) : Prop :=
  e.prescribedSolve? h = none ∧ e.backend = .solver ∧
    (e.store.problem.hasQuadratic && e.store.problem.hasIntegers) = false ∧
    ∃ solved h', (Solver.solve e.store.invalidate).run (e.released h) = (.ok solved, h') ∧
      solved.keeper = k

/-- What an engine keeps after a solve is the instance with which the solve ran to completion. After
any other one it is what the engine had before, or nothing. -/
theorem keeper_solveProb (e : Engine) (h : Host σ) :
    (∃ k, e.Completes h k ∧ (solveProb.run e h).1.2.keeper = some k) ∨
      (∀ k, ¬e.Completes h k) ∧ ((solveProb.run e h).1.2.keeper = e.keeper ∨
        (solveProb.run e h).1.2.keeper = none) := by
  rw [run_solveProb]
  cases ho : e.prescribedSolve? h with
  | some o =>
    refine .inr ⟨fun k hk => ?_, .inl ?_⟩
    · cases ho.symm.trans hk.1
    · dsimp only
      cases o.solution <;> rfl
  | none =>
    have hget (next : Engine → EngineM σ Int32) : (get >>= next).run e h = (next e).run e h := rfl
    dsimp only
    rw [solveOwn, hget]
    cases hbackend : e.backend with
    | plain =>
      refine .inr ⟨fun k hk => ?_, .inl rfl⟩
      cases hbackend.symm.trans hk.2.1
    | solver =>
      dsimp only
      rw [run_solveNative]
      by_cases hboth : (e.store.problem.hasQuadratic && e.store.problem.hasIntegers) = true
      · rw [if_pos hboth]
        refine .inr ⟨fun k hk => ?_, .inl rfl⟩
        cases hboth.symm.trans hk.2.2.1
      · rw [if_neg hboth]
        rcases hsolve : (Solver.solve e.store.invalidate).run (e.released h) with ⟨_ | solved, h'⟩
        · refine .inr ⟨fun k hk => ?_, .inr rfl⟩
          obtain ⟨-, -, -, solved, h', hok, -⟩ := hk
          cases hsolve.symm.trans hok
        · have hcontinuous := Bool.eq_false_of_not_eq_true hboth
          exact .inl ⟨solved.keeper, ⟨ho, hbackend, hcontinuous, solved, h', hsolve, rfl⟩, rfl⟩

namespace Method

/-- A call is a solve that runs to completion, with an instance. -/
def Completes (c : Method) (e : Engine) (h : Host σ) (k : InstanceId) : Prop :=
  match c with
  | solveProb | submitTask => e.Completes h k
  | _ => False

/-- The instance that an engine keeps after a call is that of a solve that has run to completion; or
the call was no such solve, and the engine had the instance before. -/
theorem kept {c : Method} {e : Engine} {h : Host σ} {k : InstanceId}
    (hk : (c.run.run e h).1.2.keeper = some k) :
    c.Completes e h k ∨ e.keeper = some k ∧ ∀ j, ¬c.Completes e h j := by
  have hsolve (hk : (Engine.solveProb.run e h).1.2.keeper = some k) :
      e.Completes h k ∨ e.keeper = some k ∧ ∀ j, ¬e.Completes h j := by
    obtain ⟨j, hj, hkeeper⟩ | ⟨hnever, hkeeper | hkeeper⟩ := keeper_solveProb e h
    · exact .inl (Option.some.inj (hkeeper.symm.trans hk) ▸ hj)
    · exact .inr ⟨hkeeper.symm.trans hk, hnever⟩
    · cases hkeeper.symm.trans hk
  have hretained (hkeeper : (c.run.run e h).1.2.keeper = e.keeper ∨
      (c.run.run e h).1.2.keeper = none) : e.keeper = some k := by
    obtain hkeeper | hkeeper := hkeeper
    · exact hkeeper.symm.trans hk
    · cases hkeeper.symm.trans hk
  by_cases hc : c.Finds
  · cases c with
    | solveProb => exact hsolve hk
    | submitTask => exact hsolve hk
    | computeIis =>
      obtain ⟨flags, hsearches⟩ := searches_computeIis e h
      exact .inr ⟨hretained (.inl hsearches.keeper), fun _ => not_false⟩
    | readTask file parts =>
      obtain ⟨sol, hreads⟩ := reads_readTask file parts e h
      exact .inr ⟨hretained hreads.keeper, fun _ => not_false⟩
    | _ => cases hc
  · refine .inr ⟨hretained (retaining hc e h).keeper, fun j => ?_⟩
    cases c <;> first | exact not_false | exact absurd trivial hc

/-- Freeing an engine leaves it no instance. -/
theorem keeper_free (e : Engine) (h : Host σ) :
    ((free : Method).run.run e h).1.2.keeper = none := by
  have hrun : ((free : Method).run.run e h : (Unit × Engine) × Host σ) = _ := run_releaseKeeper e h
  rw [hrun]

end Method

end

end MathProgram.Engine
