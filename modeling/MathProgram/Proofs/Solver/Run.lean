import Mathlib.Data.Nat.Notation
import Mathlib.Tactic.SplitIfs
import MathProgram.Solver.Outcome

/-!
# Runs of computations with a solver library

What the building blocks of such a computation do when they are run on a host: it is left at the
first failure, and an instance is destroyed after it. What becomes of an instance depends on a few
answers of the library: whether one is created, whether it takes a program, whether it runs, and
what it says then (`Solver.creates`, `passed`, `ran`, `statusOf`). A solve that succeeds `Assembles`
its solution from an instance that it has created, loaded with the problem and run itself.
-/

namespace MathProgram

variable {σ α β : Type}

/-! ## Buffers -/

/-- A buffer of the length that is asked for stays as it is. -/
theorem resized_of_length {α : Type} {n : ℕ} {fill : α} {xs : List α} (h : xs.length = n) :
    resized n fill xs = xs := by
  rw [resized, List.take_of_length_le (Nat.le_of_eq h), h, Nat.sub_self, List.replicate_zero,
    List.append_nil]

/-- A buffer has the length that is asked for. -/
theorem length_resized {α : Type} (n : ℕ) (fill : α) (xs : List α) :
    (resized n fill xs).length = n := by
  rw [resized, List.length_append, List.length_take, List.length_replicate]
  omega

/-! ## Steps -/

/-- The run of one computation on the host after another. -/
theorem HostM.run_bind (act : HostM σ α) (next : α → HostM σ β) (h : Host σ) :
    (act >>= next).run h = (next (act.run h).1).run (act.run h).2 := rfl

/-- The run of one computation after another: that is left out if the first fails. -/
theorem SolverM.run_bind (act : SolverM σ α) (next : α → SolverM σ β) (h : Host σ) :
    (act >>= next).run h = match act.run h with
      | (.ok a, h) => (next a).run h
      | (.error e, h) => (.error e, h) := by
  have hrun : (act >>= next).run h = (ExceptT.bindCont next (act.run h).1).run (act.run h).2 := rfl
  rw [hrun]
  rcases act.run h with ⟨_ | _, _⟩ <;> rfl

/-- A computation on the host does not fail. -/
theorem SolverM.run_host (act : HostM σ α) (h : Host σ) :
    (SolverM.host act).run h = (.ok (act.run h).1, (act.run h).2) := rfl

/-- A request with a return code. -/
theorem InstanceId.run_orFail (e : ResultCode) (request : HostM σ Int32) (h : Host σ) :
    (orFail e request).run h =
      (if (request.run h).1 == failure then .error e else .ok (), (request.run h).2) := by
  have hrun : (orFail e request).run h =
      (if (request.run h).1 == failure then throw e else pure () : SolverM σ Unit).run
        (request.run h).2 := rfl
  rw [hrun]
  split <;> rfl

variable [Solver σ]

/-- An instance is created if the library says so. -/
theorem InstanceId.run_create? (h : Host σ) :
    ∃ (created : Bool) (solver : σ) (journal : Journal),
      Solver.answer (.create h.instances) h.solver = (created, solver) ∧
      create?.run h = if created then
          (some h.instances,
            { h with
              solver, journal
              instances := h.instances + 1
              requests := h.requests.push (.create h.instances) })
        else (none, { h with solver, journal }) := by
  have hrun (created : Bool) (solver : σ) : ∃ journal : Journal,
      (if created then do
          modify fun s =>
            { s with
              instances := h.instances + 1
              requests := s.requests.push (.create h.instances) }
          Host.record .trace .solverLink "highs" "create" "Created HiGHS instance" []
          return some h.instances
        else do
          Host.record .warn .solverLink "highs" "create" "Highs_create returned null"
            [("status", .text "error")]
          return none : HostM σ (Option InstanceId)).run { h with solver } =
        if created then
          (some h.instances,
            { h with
              solver, journal
              instances := h.instances + 1
              requests := h.requests.push (.create h.instances) })
        else (none, { h with solver, journal }) := by
    cases created <;> exact ⟨_, rfl⟩
  obtain ⟨journal, hrun⟩ := hrun (Solver.answer (.create h.instances) h.solver).1
    (Solver.answer (.create h.instances) h.solver).2
  exact ⟨_, _, journal, rfl, hrun⟩

/-- Writing a solution is asked of the library, if it can be told the name of the file. -/
theorem InstanceId.requests_writeSolution (k : InstanceId) {file : String}
    (hfile : passable file = true) (h : Host σ) :
    ((k.writeSolution file).run h).2.requests = h.requests.push (.writeSolution k file) := by
  have hwrite : (k.writeSolution file : SolverM σ Unit) =
      orFail .fileWriteError (Host.ask (.writeSolution k file)) := if_pos hfile
  rw [hwrite]
  exact congrArg (fun r => r.2.requests)
    (run_orFail .fileWriteError (Host.ask (.writeSolution k file)) h)

/-- Going on with an instance that is destroyed if that fails. -/
theorem InstanceId.run_destroyedOnFailure (k : InstanceId) (body : SolverM σ α) (h : Host σ) :
    (k.destroyedOnFailure body).run h = match body.run h with
      | (.ok a, h) => (.ok a, h)
      | (.error e, h) => (.error e, (k.destroy.run h).2) := by
  have hbind (next : Except ResultCode α → HostM σ (Except ResultCode α)) :
      (body.run >>= next) h = (next (body.run h).1).run (body.run h).2 := rfl
  rw [destroyedOnFailure, ExceptT.run_mk, hbind]
  rcases body.run h with ⟨_ | _, _⟩ <;> rfl

namespace Solver

open SolverM (host)

/-! ## Answers -/

/-- What the library answers when a program is passed, and its state then. -/
def passed (x : σ) (k : InstanceId) (lp : LinearProgram) : Int32 × σ :=
  answer (.passProgram k lp) x

/-- What the library answers when it has to run, and its state then. -/
def ran (x : σ) (k : InstanceId) : Int32 × σ := answer (.run k) x

/-- What the library answers when it is asked for the status of the problem. -/
def statusOf (x : σ) (k : InstanceId) : Int32 := (answer (.modelStatus k) x).1

/-- The library creates an instance. -/
def creates (x : σ) (k : InstanceId) : Bool := (answer (.create k) x).1

/-- A new instance is not to be had: the library creates none, or the method is not known. -/
def unready? (s : Store) (h : Host σ) : Option ResultCode :=
  if creates h.solver h.instances then
    if (methodSettings? s.params).isNone then some .abortInvalidMethod else none
  else some .noMemory

/-- Creating an instance. -/
theorem run_creates (h : Host σ) : ∃ h', (InstanceId.create?).run h =
    (if creates h.solver h.instances then some h.instances else none, h') := by
  obtain ⟨created, solver, journal, hanswer, hrun⟩ := InstanceId.run_create? h
  have hcreates : creates h.solver h.instances = created := congrArg Prod.fst hanswer
  rw [hrun, hcreates]
  cases created <;> exact ⟨_, rfl⟩

/-- Setting the options for parameters fails if the method is not known. -/
theorem run_applyParams (k : InstanceId) (t : ParamTable) (h : Host σ) : ∃ h',
    (applyParams k t).run h =
      (if (methodSettings? t).isNone then .error .abortInvalidMethod else .ok (), h') := by
  rw [applyParams, SolverM.run_bind]
  cases methodSettings? t <;> exact ⟨_, rfl⟩

/-- What follows the creation of an instance that is configured. -/
def setup (s : Store) (k : InstanceId) : SolverM σ InstanceId := do
  host (k.setOutput s.log.toConsole)
  applyParams k s.params
  return k

/-- An instance is configured unless the method is not known. -/
theorem run_setup (s : Store) (k : InstanceId) (h : Host σ) : ∃ h', (setup s k).run h =
    (if (methodSettings? s.params).isNone then .error .abortInvalidMethod else .ok k, h') := by
  obtain ⟨h', hparams⟩ := run_applyParams k s.params ((k.setOutput s.log.toConsole).run h).2
  have hrun : (setup s k).run h = (applyParams k s.params >>= fun _ => pure k : SolverM σ _).run
      ((k.setOutput s.log.toConsole).run h).2 := rfl
  rw [hrun, SolverM.run_bind, hparams]
  split_ifs <;> exact ⟨_, rfl⟩

/-- A new instance is configured, or it is not to be had. -/
theorem run_configured (s : Store) (h : Host σ) : ∃ h', (configured s).run h =
    (match unready? s h with
      | some e => .error e
      | none => .ok h.instances, h') := by
  obtain ⟨h₁, hcreate⟩ := run_creates h
  rw [configured, SolverM.run_bind, SolverM.run_host, hcreate, unready?]
  cases creates h.solver h.instances with
  | false => exact ⟨h₁, rfl⟩
  | true =>
    obtain ⟨h₂, hsetup⟩ := run_setup s h.instances h₁
    rw [setup] at hsetup
    simp only [if_true]
    rw [InstanceId.run_destroyedOnFailure, hsetup]
    split_ifs <;> exact ⟨_, rfl⟩

/-- Passing a program. -/
theorem run_passProgram (lp : LinearProgram) (k : InstanceId) (h : Host σ) : ∃ h',
    (k.passProgram lp).run h =
      (if (passed h.solver k lp).1 == InstanceId.failure then .error .modelInputError else .ok (),
        h') ∧ h'.solver = (passed h.solver k lp).2 :=
  ⟨_, InstanceId.run_orFail .modelInputError _ h, rfl⟩

/-- Running. -/
theorem run_run (k : InstanceId) (h : Host σ) : ∃ h',
    k.run.run h = ((ran h.solver k).1 != InstanceId.failure, h') ∧
      h'.solver = (ran h.solver k).2 := ⟨_, rfl, rfl⟩

/-! ## Whole solves -/

/-- A solve of a store on a host assembles its outcome: an instance is created and loaded with the
problem, it is run, and the solution is collected from it. -/
def Assembles (s : Store) (h : Host σ) (solved : Solved) : Prop :=
  ∃ (h₁ h₂ h₃ : Host σ) (journal : Journal) (modelStatus : Int32),
    (loaded s).run h = (.ok solved.keeper, h₁) ∧
    solved.keeper.run.run { h₁ with journal } = (true, h₂) ∧
    solved.keeper.modelStatus.run h₂ = (modelStatus, h₃) ∧
    ((collect solved.keeper s.problem modelStatus).run h₃).1 = (solved.code, solved.solution)

/-- What a solve gives is assembled from its own instance. -/
theorem assembles_of_solve {s : Store} {h h' : Host σ} {solved : Solved}
    (hsolve : (solve s).run h = (.ok solved, h')) : Assembles s h solved := by
  rw [solve, SolverM.run_bind] at hsolve
  rcases hloaded : (loaded s).run h with ⟨e | k, h₁⟩ <;> rw [hloaded] at hsolve
  · cases hsolve
  · dsimp only at hsolve
    rw [InstanceId.run_destroyedOnFailure] at hsolve
    have hmk (act : HostM σ (Except ResultCode Solved)) (h : Host σ) :
        (ExceptT.mk act : SolverM σ Solved).run h = act.run h := rfl
    rw [hmk, HostM.run_bind, HostM.run_bind] at hsolve
    -- An event is recorded before the instance is run.
    have hrecord : ∃ journal, ((Host.record .debug .solver "highs" "solve" "Starting HiGHS"
        [("num_cols", .int s.numCols), ("num_rows", .int s.numRows),
         ("mip", .bool s.problem.hasIntegers), ("qp", .bool s.problem.hasQuadratic)] :
          HostM σ Unit).run h₁).2 = { h₁ with journal } := ⟨_, rfl⟩
    obtain ⟨journal, hrecord⟩ := hrecord
    rw [hrecord] at hsolve
    rcases hworked : k.run.run { h₁ with journal } with ⟨_ | _, h₂⟩ <;> rw [hworked] at hsolve
    · cases hsolve
    · cases hsolve
      exact ⟨h₁, h₂, _, journal, _, hloaded, hworked, rfl, rfl⟩

end Solver

end MathProgram
