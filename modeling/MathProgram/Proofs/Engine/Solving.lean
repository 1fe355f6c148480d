import MathProgram.Proofs.Engine.Findings
import MathProgram.Proofs.Solver.Assembly

/-!
# Solves with the solver library

A solve leaves the problem, the parameters and the jobs of an engine as they are. What it makes of
the solution does not depend on the library's good behaviour: whatever the library answers, the
store holds an assembled solution afterwards if the solve has finished, and none if it has not.
-/

namespace MathProgram

variable {σ : Type} [Solver σ]

/-- A solve that stops is not reported as success. -/
theorem Solver.Stops.code_ne_okay {s : Store} {h : Host σ} {c : ResultCode} (hstops : Stops s h c) :
    c.code ≠ ResultCode.okay.code := by
  cases hstops <;> decide

namespace Engine

/-- A solve changes nothing of a store but what it has found. -/
theorem kept_by_solveNative (e : Engine) (h : Host σ) :
    ∃ solution iis, (solveNative.run e h).1.2.store = { e.store with solution, iis } := by
  rw [run_solveNative]
  split_ifs
  · exact ⟨e.store.solution, e.store.iis, rfl⟩
  · cases ((Solver.solve e.store.invalidate).run (e.released h)).1 with
    | error c => exact ⟨{}, none, rfl⟩
    | ok solved => exact ⟨solved.solution, none, rfl⟩

/-- A solve of a problem that the library can take: it stops with a code and without a solution, or
it stores what is assembled. -/
theorem run_solveNative_of_solvable {e : Engine}
    (hsolvable : ¬(e.store.problem.hasQuadratic = true ∧ e.store.problem.hasIntegers = true))
    (h : Host σ) :
    (∀ c, Solver.Stops e.store.invalidate (e.released h) c →
      (solveNative.run e h).1 =
        (c.code, { e with store := e.store.invalidate, keeper := none })) ∧
    ((¬∃ c, Solver.Stops e.store.invalidate (e.released h) c) → ∃ (solved : Solver.Solved)
      (modelStatus : Int32) (feasible : Bool),
      (solveNative.run e h).1 = (solved.code.code,
        { e with
          store := e.store.invalidate.setSolution solved.solution
          keeper := some solved.keeper }) ∧
      Solver.Finishes e.store.invalidate (e.released h) modelStatus ∧
      solved.solution.Assembled e.store.problem ∧
      (solved.solution.status, solved.code) =
        SolverStatus.outcome (SolverStatus.ofCode? modelStatus) feasible) := by
  have hrun := run_solveNative e h
  rw [if_neg (by rwa [Bool.and_eq_true])] at hrun
  constructor
  · intro c hstops
    rw [hrun, Solver.solve_eq_error_iff.2 hstops]
  · intro hstops
    cases hsolve : ((Solver.solve e.store.invalidate).run (e.released h)).1 with
    | error c => exact absurd ⟨c, Solver.solve_eq_error_iff.1 hsolve⟩ hstops
    | ok solved =>
      obtain ⟨modelStatus, feasible, hfinishes, hassembled, houtcome⟩ :=
        Solver.assembled_of_solve hsolve
      rw [hsolve] at hrun
      exact ⟨solved, modelStatus, feasible, hrun, hfinishes, hassembled, houtcome⟩

/-- Whatever the library answers, a solve leaves the problem, the parameters and the jobs as they
are. It refuses a quadratic problem with integers and leaves everything as it is. If it stops before
there is a result, it says so by its code and leaves no solution and no infeasible subsystem.
Otherwise it stores a solution that is assembled for the problem, and its code is that of success
unless the library has reached a limit or found the problem in error. -/
theorem solution_assembly (e : Engine) (h : Host σ) :
    let code := (solveNative.run e h).1.1
    let e' := (solveNative.run e h).1.2
    let p := e.store.problem
    (e'.store.problem = p ∧ e'.store.params = e.store.params ∧ e'.store.jobs = e.store.jobs) ∧
    (p.hasQuadratic = true ∧ p.hasIntegers = true →
      code = ResultCode.abortSolverNotAvailable.code ∧ e' = e) ∧
    (¬(p.hasQuadratic = true ∧ p.hasIntegers = true) →
      (∀ c, Solver.Stops e.store.invalidate (e.released h) c →
        code = c.code ∧ code ≠ ResultCode.okay.code ∧
          e'.store.solution = {} ∧ e'.store.iis = none) ∧
      ((¬∃ c, Solver.Stops e.store.invalidate (e.released h) c) → ∃ modelStatus,
        Solver.Finishes e.store.invalidate (e.released h) modelStatus ∧
          e'.store.solution.Assembled p ∧ e'.store.iis = none ∧
          (code = ResultCode.okay.code ↔
            ¬SolverStatus.Aborted (SolverStatus.ofCode? modelStatus)))) := by
  intro code e' p
  refine ⟨?kept, fun hrefused => ?refused, fun hsolvable => ⟨fun c hstops => ?stops, ?finishes⟩⟩
  case kept =>
    obtain ⟨solution, iis, hstore⟩ := kept_by_solveNative e h
    dsimp only [e']
    rw [hstore]
    exact ⟨rfl, rfl, rfl⟩
  case refused =>
    have hrun := run_solveNative e h
    rw [if_pos (Bool.and_eq_true_iff.2 hrefused)] at hrun
    exact ⟨congrArg Prod.fst hrun, congrArg Prod.snd hrun⟩
  case stops =>
    have hrun := (run_solveNative_of_solvable hsolvable h).1 c hstops
    have hcode : code = c.code := congrArg Prod.fst hrun
    refine ⟨hcode, hcode ▸ hstops.code_ne_okay, ?_⟩
    dsimp only [e']
    rw [hrun]
    exact ⟨rfl, rfl⟩
  case finishes =>
    intro hstops
    obtain ⟨solved, modelStatus, feasible, hrun, hfinishes, hassembled, houtcome⟩ :=
      (run_solveNative_of_solvable hsolvable h).2 hstops
    have hsolved : solved.code = (SolverStatus.outcome _ feasible).2 :=
      congrArg Prod.snd houtcome
    have hcode : code = solved.code.code := congrArg Prod.fst hrun
    refine ⟨modelStatus, hfinishes, ?_, ?_, ?_⟩
    · dsimp only [e']
      rw [hrun]
      exact hassembled
    · dsimp only [e']
      rw [hrun]
      rfl
    · rw [hcode, hsolved]
      exact SolverStatus.outcome_eq_okay_iff ..

end Engine

end MathProgram
