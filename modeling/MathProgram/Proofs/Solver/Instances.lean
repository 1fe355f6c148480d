import MathProgram.Proofs.Solver.Exchange
import MathProgram.Solver.Conflict
import MathProgram.Solver.ModelFile

/-!
# Instances are handed on

All work with the library is put together from computations that take over an instance or leave one,
through failures as well. Loading and solving leave an instance when they succeed and none when they
fail (`Solver.trades_solve`), and so does opening a file; writing a problem and searching for a
conflict leave none (`Solver.trades_writeModel`, `Solver.trades_conflict`).
-/

namespace MathProgram

open HostM (Trades)

variable {σ α β : Type}

/-! ## Requests to an instance -/

namespace InstanceId

variable {k : InstanceId}

/-- A computation works with an instance, and leaves it. -/
abbrev Uses (k : InstanceId) (act : HostM σ α) : Prop := Trades (some k) (fun _ => some k) act

/-- A computation that may fail works with an instance, and leaves it also when it fails. -/
abbrev Tries (k : InstanceId) (act : SolverM σ α) : Prop :=
  SolverM.Trades (some k) (fun _ => some k) (some k) act

/-- A request whose failure is a result code. -/
theorem tries_orFail {e : ResultCode} {request : HostM σ Int32} (hrequest : k.Uses request) :
    k.Tries (orFail e request) :=
  (SolverM.Trades.host hrequest).bind fun _ => ite_of (.throw _) (.pure rfl)

/-- A request about a file. -/
theorem tries_onFile {name : String} {e : ResultCode} {request : HostM σ Int32}
    (hrequest : k.Uses request) : k.Tries (onFile name e request) :=
  ite_of (tries_orFail hrequest) (.throw _)

/-- Passing names. -/
theorem uses_passNames {names : List (Option String)} {request : Int32 → String → HostM σ Unit}
    (hrequest : ∀ i name, k.Uses (request i name)) : k.Uses (passNames names request) := by
  refine .forM fun (name, i) => ?_
  cases name with
  | none => exact .pure rfl
  | some name => exact ite_of (hrequest _ _) (.pure rfl)

variable [Solver σ]

/-- Asking an instance. -/
theorem trades_ask {r : Request} (hr : r.Asks k) :
    Trades (some k) (fun _ => some k) (Host.ask r : HostM σ r.Answer) := fun _ hh hold =>
  .of_asks hr hh (hold k rfl) (Array.toList_push ..) rfl

/-- Creating an instance. -/
theorem trades_create? : Trades none id (create? : HostM σ (Option InstanceId)) := fun h hh _ => by
  obtain ⟨created, solver, journal, -, hrun⟩ := run_create? h
  rw [hrun]
  cases created with
  | true => exact .of_create hh (Array.toList_push ..) rfl
  | false => exact .of_quiet hh nofun ⟨rfl, rfl⟩

/-- Destroying an instance. -/
theorem trades_destroy : Trades (some k) (fun _ => none) (k.destroy : HostM σ Unit) :=
  fun _ hh hold => .of_destroy hh (hold k rfl) (Array.toList_push ..) rfl

/-- Going on with an instance that is destroyed on failure. -/
theorem trades_destroyedOnFailure {body : SolverM σ α} {new : α → Option InstanceId}
    (hbody : SolverM.Trades (some k) new (some k) body) :
    SolverM.Trades (some k) new none (k.destroyedOnFailure body) := by
  refine Trades.bind hbody fun r => ?_
  cases r with
  | ok a => exact .pure rfl
  | error e => exact trades_destroy.bind fun _ => .pure rfl

/-- Going on with an instance that is destroyed in the end. -/
theorem trades_destroyedAfter {body : SolverM σ α} (hbody : k.Tries body) :
    SolverM.Trades (some k) (fun _ => none) none (k.destroyedAfter body) := by
  refine Trades.bind hbody fun r => ?_
  cases r <;> exact trades_destroy.bind fun _ => .pure rfl

/-- Setting options. -/
theorem uses_setOptions {settings : List (String × OptionValue)} :
    k.Uses (k.setOptions settings : HostM σ Unit) :=
  .forM fun _ => (trades_ask (by rfl)).bind fun _ => ite_of (.of_quiet .record) (.pure rfl)

/-- Passing a linear program. -/
theorem tries_passProgram {lp : LinearProgram} : k.Tries (k.passProgram lp : SolverM σ Unit) :=
  tries_orFail <| (Trades.of_quiet .record).bind fun _ => trades_ask (by rfl)

/-- Passing a quadratic form. -/
theorem tries_passHessian {q : Hessian} : k.Tries (k.passHessian q : SolverM σ Unit) :=
  tries_orFail <| (Trades.of_quiet .record).bind fun _ => trades_ask (by rfl)

/-- Passing the names of columns and rows. -/
theorem uses_passAllNames {p : Problem} : k.Uses (k.passAllNames p : HostM σ Unit) :=
  (uses_passNames fun _ _ => trades_ask (by rfl)).bind fun _ =>
    uses_passNames fun _ _ => trades_ask (by rfl)

/-- Running the solver. -/
theorem uses_run : k.Uses (k.run : HostM σ Bool) := (trades_ask (by rfl)).bind fun _ => .pure rfl

/-- Asking for a whole number by its name. -/
theorem uses_intInfo? {name : String} : k.Uses (k.intInfo? name : HostM σ (Option Int32)) :=
  (trades_ask (by rfl)).bind fun _ => .pure rfl

/-- Asking for a real number by its name. -/
theorem uses_realInfo? {name : String} : k.Uses (k.realInfo? name : HostM σ (Option Float)) :=
  (trades_ask (by rfl)).bind fun _ => .pure rfl

/-- Asking for a kind of solution. -/
theorem uses_hasFeasible {kind : String} : k.Uses (k.hasFeasible kind : HostM σ Bool) :=
  uses_intInfo?.bind fun _ => .pure rfl

/-- Asking for the values. -/
theorem uses_solution? {n m : ℕ} : k.Uses (k.solution? n m : HostM σ (Option RawSolution)) :=
  (trades_ask (by rfl)).bind fun _ => .pure rfl

/-- Asking for the basis statuses. -/
theorem uses_basis? {n m : ℕ} :
    k.Uses (k.basis? n m : HostM σ (Option (List Int32 × List Int32))) :=
  uses_intInfo?.bind fun _ => ite_of (.pure rfl) ((trades_ask (by rfl)).bind fun _ => .pure rfl)

/-- Asking for the linear program that was read. -/
theorem uses_program? : k.Uses (k.program? : HostM σ (Option LinearProgram)) :=
  (trades_ask (by rfl)).bind fun _ => (trades_ask (by rfl)).bind fun _ =>
    (trades_ask (by rfl)).bind fun _ =>
    ite_of (.pure rfl) ((trades_ask (by rfl)).bind fun _ => ite_of (.pure rfl) (.pure rfl))

/-- Writing a solution. -/
theorem tries_writeSolution {name : String} : k.Tries (k.writeSolution name : SolverM σ Unit) :=
  tries_onFile (trades_ask (by rfl))

end InstanceId

/-! ## The work with a solver library -/

namespace Solver

open InstanceId

variable [Solver σ]

/-- Setting the options for the parameters. -/
theorem tries_applyParams {k : InstanceId} {t : ParamTable} :
    k.Tries (applyParams k t : SolverM σ Unit) := by
  refine (SolverM.Trades.host uses_setOptions).bind fun _ => ?_
  cases methodSettings? t with
  | none => exact .throw _
  | some settings => exact .host uses_setOptions

/-- An instance with the options of a store is left, or none on failure. -/
theorem trades_configured {s : Store} :
    SolverM.Trades none some none (configured s : SolverM σ InstanceId) := by
  refine (SolverM.Trades.host trades_create?).bind fun k => ?_
  cases k with
  | none => exact .throw _
  | some k =>
    exact trades_destroyedOnFailure <| (SolverM.Trades.host uses_setOptions).bind fun _ =>
      tries_applyParams.bind fun _ => .pure rfl

/-- An instance with the problem of a store is left, or none on failure. -/
theorem trades_loaded {s : Store} :
    SolverM.Trades none some none (loaded s : SolverM σ InstanceId) := by
  have hnames (k : InstanceId) : SolverM.Trades (some k) some (some k) (do
      SolverM.host (k.passAllNames s.problem)
      return k : SolverM σ InstanceId) :=
    (SolverM.Trades.host uses_passAllNames).bind fun _ => .pure rfl
  exact trades_configured.bind fun k => trades_destroyedOnFailure <|
    tries_passProgram.bind fun _ =>
      ite_of (tries_passHessian.bind fun _ => hnames k) (hnames k)

/-- Collecting the outcome of a run. -/
theorem uses_collect {k : InstanceId} {p : Problem} {modelStatus : Int32} :
    k.Uses (collect k p modelStatus : HostM σ (ResultCode × Solution)) := by
  have hvalues (sol : Solution) : k.Uses (withValues k p sol : HostM σ Solution) := by
    refine uses_hasFeasible.bind fun feasible => ite_of (.pure rfl) ?_
    refine uses_solution?.bind fun raw => ?_
    cases raw with
    | none => exact .pure rfl
    | some raw =>
      exact .bind (trades_ask (by rfl)) fun _ =>
        Trades.compositional.join (.pure rfl) uses_hasFeasible fun _ => .pure rfl
  have hgaps (sol : Solution) : k.Uses (withGaps k sol : HostM σ Solution) :=
    uses_realInfo?.bind fun _ => uses_realInfo?.bind fun _ => .pure rfl
  have hbases (sol : Solution) : k.Uses (withBases k p sol : HostM σ Solution) := by
    refine uses_basis?.bind fun basis => ?_
    cases basis <;> exact .pure rfl
  have hstats (sol : Solution) : k.Uses (withStats k sol : HostM σ Solution) :=
    (trades_ask (by rfl)).bind fun _ => uses_intInfo?.bind fun _ =>
      uses_intInfo?.bind fun _ => .pure rfl
  refine uses_hasFeasible.bind fun feasible =>
    Trades.compositional.join (.pure rfl) (hvalues _) fun sol => ?_
  refine ite_of (.bind (hgaps _) ?rest) (Trades.compositional.join (hbases _) (.pure rfl) ?rest)
  exact fun sol => (hstats _).bind fun _ => (Trades.of_quiet .record).bind fun _ => .pure rfl

/-- A solve leaves the instance that has run, or none on failure. -/
theorem trades_solve {s : Store} :
    SolverM.Trades none (fun solved => some solved.keeper) none (solve s : SolverM σ Solved) := by
  refine trades_loaded.bind fun k => trades_destroyedOnFailure ?_
  refine Trades.bind (.of_quiet .record) fun _ => uses_run.bind fun _ => ite_of ?_ ?_
  · exact .bind (trades_ask (by rfl)) fun _ => .bind uses_collect fun _ =>
      .bind (.of_quiet .log) fun _ => .pure rfl
  · exact .bind (.of_quiet .record) fun _ => .bind (.of_quiet .log) fun _ => .pure rfl

/-- A file that is read leaves the instance that has read it, or none on failure. -/
theorem trades_openModel {name : String} :
    SolverM.Trades none (fun r => some r.1) none
      (openModel name : SolverM σ (InstanceId × ModelFile)) := by
  refine (SolverM.Trades.host trades_create?).bind fun k => ?_
  cases k with
  | none => exact .throw _
  | some k =>
    refine trades_destroyedOnFailure <| (SolverM.Trades.host uses_setOptions).bind fun _ =>
      (tries_onFile (trades_ask (by rfl))).bind fun _ =>
        (SolverM.Trades.host uses_program?).bind fun r => ?_
    have hname {r : Request} (hr : r.Asks k) (f : r.Answer → Option String) :
        k.Tries (SolverM.host do return f (← Host.ask r) : SolverM σ (Option String)) :=
      .host <| (trades_ask hr).bind fun _ => .pure rfl
    cases r with
    | none => exact .throw _
    | some program =>
      exact (SolverM.Trades.mapM fun _ => hname (by rfl) _).bind fun _ =>
        (SolverM.Trades.mapM fun _ => hname (by rfl) _).bind fun _ => .pure rfl

/-- Writing a problem leaves no instance. -/
theorem trades_writeModel {s : Store} {name : String} :
    SolverM.Trades none (fun _ => none) none (Solver.writeModel s name : SolverM σ Unit) :=
  trades_loaded.bind fun _ => trades_destroyedAfter <|
    (SolverM.Trades.host uses_setOptions).bind fun _ => tries_onFile (trades_ask (by rfl))

/-- Asking whether a linear program is infeasible leaves no instance. -/
theorem trades_infeasible {s : Store} {lp : LinearProgram} :
    SolverM.Trades none (fun _ => none) none (infeasible s lp : SolverM σ Bool) := by
  have hfailed {k : InstanceId} {e : ResultCode} : k.Tries (throw e : SolverM σ Unit) := .throw e
  refine trades_configured.bind fun k => trades_destroyedAfter <|
    (SolverM.Trades.host uses_setOptions).bind fun _ => tries_passProgram.bind fun _ =>
      (SolverM.Trades.host uses_run).bind fun _ => ite_of (hfailed.bind fun _ => ?_) ?_
  -- The status is looked at either way.
  all_goals
    refine (SolverM.Trades.host (trades_ask (by rfl))).bind fun code => ?_
    split <;> first | exact .pure rfl | exact .throw _

omit [Solver σ] in
/-- Trying out bounds leaves no instance, where none is left of one. -/
theorem trades_keptBounds {infeasible : LinearProgram → SolverM σ Bool}
    (h : ∀ lp, SolverM.Trades none (fun _ => none) none (infeasible lp)) (lp : LinearProgram)
    (bs : List BoundRef) :
    SolverM.Trades none (fun _ => none) none (Conflict.keptBounds infeasible lp bs) := by
  induction bs generalizing lp with
  | nil => exact .pure rfl
  | cons b bs ih => exact (h _).bind fun _ => ite_of (ih _) ((ih _).bind fun _ => .pure rfl)

/-- Finding a conflict leaves no instance. -/
theorem trades_conflict {s : Store} :
    SolverM.Trades none (fun _ => none) none (conflict s : SolverM σ IisFlags) := by
  have hfind (lp : LinearProgram) : SolverM.Trades none (fun _ => none) none
      (Conflict.find? (infeasible s : LinearProgram → SolverM σ Bool) lp) :=
    trades_infeasible.bind fun _ =>
      ite_of ((trades_keptBounds (fun _ => trades_infeasible) _ _).bind fun _ => .pure rfl)
        (.pure rfl)
  refine (hfind _).bind fun kept => ?_
  cases kept <;> exact (SolverM.Trades.host (.of_quiet .record)).bind fun _ => .pure rfl

end Solver

end MathProgram
