import MathProgram.Proofs.Basic
import MathProgram.Proofs.Solution
import MathProgram.Proofs.Solver.Run

/-!
# Solutions are assembled well

What a solve collects from an instance that has run depends on many answers of the library, each of
which may be anything or fail. A solution that comes out of it is `Assembled` nevertheless: its
lists are as long as the problem is large, or empty, and its bases are bases.

Each stage of the collecting is described by what it makes of the solution before it, whatever the
library answers (`HostM.Yields`). A solve that gives no solution `Stops` for one of a few reasons,
and otherwise it `Finishes` with a status of the problem, which decides on the result code.
-/

namespace MathProgram

variable {σ α β : Type}

/-! ## Results of computations -/

/-- A computation gives a value of some kind, whatever host it runs on. -/
def HostM.Yields (P : α → Prop) (act : HostM σ α) : Prop := ∀ h, P (act.run h).1

namespace HostM.Yields

variable {P : α → Prop} {Q : β → Prop}

/-- Nothing is said of the value. -/
theorem any (act : HostM σ α) : Yields (fun _ => True) act := fun _ => trivial

/-- A value that is there already. -/
theorem pure {a : α} (ha : P a) : Yields P (pure a : HostM σ α) := fun _ => ha

/-- One computation after another. -/
theorem bind {act : HostM σ α} {next : α → HostM σ β} (hact : Yields P act)
    (hnext : ∀ a, P a → Yields Q (next a)) : Yields Q (act >>= next) := fun h =>
  hnext _ (hact h) _

end HostM.Yields

open HostM (Yields)

/-! ## Solutions -/

/-- The values of a solution: all of them if there is a solution, and none otherwise. -/
structure Solution.Valued (sol : Solution) (numCols numRows : ℕ) : Prop where
  there : sol.hasSolution = true → sol.primal.length = numCols ∧
    sol.reducedCost.length = numCols ∧ sol.activity.length = numRows ∧ sol.dual.length = numRows
  missing : sol.hasSolution = false → sol.primal = [] ∧ sol.reducedCost = [] ∧
    sol.activity = [] ∧ sol.dual = []

/-- A solution of a problem with its values and its bases, one status for each column and row or
none. Problems with integers have no basis. -/
structure Solution.Based (sol : Solution) (p : Problem) : Prop where
  values : sol.Valued p.numCols p.numRows
  colBasis : IsBasis sol.colBasis p.numCols
  rowBasis : IsBasis sol.rowBasis p.numRows
  unbased : p.hasIntegers = true ∨ sol.hasSolution = false → sol.colBasis = [] ∧ sol.rowBasis = []

/-- What a solve leaves of a problem: with statistics. -/
structure Solution.Assembled (sol : Solution) (p : Problem) : Prop extends sol.Based p where
  stats : sol.stats.isSome = true

/-- No values at all. -/
theorem Solution.valued_status (status : Status) (n m : ℕ) :
    ({ status } : Solution).Valued n m := ⟨nofun, fun _ => ⟨rfl, rfl, rfl, rfl⟩⟩

/-! ## Codes -/

/-- The library has reached a limit or did not accept the problem. -/
def SolverStatus.Aborted (s : Option SolverStatus) : Prop :=
  s ∈ [some timeLimit, some iterationLimit, some interrupt, some modelError]

/-- The code of a solve is that of success unless the library has aborted it. -/
theorem SolverStatus.outcome_eq_okay_iff (s : Option SolverStatus) (feasible : Bool) :
    (outcome s feasible).2.code = ResultCode.okay.code ↔ ¬Aborted s := by
  unfold Aborted
  rcases s with _ | status
  · simp [outcome]
  · cases status <;> simp [outcome, ResultCode.code]

variable [Solver σ]

namespace Solver

/-! ## Stages of the collecting -/

section Stages

variable {k : InstanceId} {p : Problem}

/-- The values that an instance gives out have the lengths that are asked for. -/
theorem yields_solution? {n m : ℕ} : Yields (fun raw => ∀ r, raw = some r →
    r.colValue.length = n ∧ r.colDual.length = n ∧ r.rowValue.length = m ∧ r.rowDual.length = m)
    (k.solution? n m : HostM σ (Option RawSolution)) := by
  refine (Yields.any _).bind fun answer _ => ?_
  obtain ⟨code, raw⟩ := answer
  refine .pure fun r hr => ?_
  split_ifs at hr
  cases hr
  exact ⟨length_resized .., length_resized .., length_resized .., length_resized ..⟩

/-- The bases that an instance gives out have the lengths that are asked for. -/
theorem yields_basis? {n m : ℕ} : Yields (fun basis => ∀ cols rows, basis = some (cols, rows) →
    cols.length = n ∧ rows.length = m)
    (k.basis? n m : HostM σ (Option (List Int32 × List Int32))) := by
  refine (Yields.any _).bind fun validity _ => iteInduction (fun _ => .pure nofun) fun _ => ?_
  refine (Yields.any _).bind fun answer _ => ?_
  obtain ⟨code, cols, rows⟩ := answer
  refine .pure fun cols' rows' h => ?_
  split_ifs at h
  cases h
  exact ⟨length_resized .., length_resized ..⟩

/-- The solution of an empty problem has all values. -/
theorem valued_emptySolution (status : Status) :
    (emptySolution p status).Valued p.numCols p.numRows :=
  ⟨fun _ => ⟨List.length_replicate, List.length_map .., List.length_replicate,
    List.length_replicate⟩, nofun⟩

/-- The values are put in place, or the solution stays without. -/
theorem yields_withValues {sol : Solution} (hsol : sol.Valued p.numCols p.numRows) :
    Yields (fun sol' => sol'.Valued p.numCols p.numRows ∧ sol'.status = sol.status ∧
      sol'.colBasis = sol.colBasis ∧ sol'.rowBasis = sol.rowBasis)
      (withValues k p sol : HostM σ Solution) := by
  refine (Yields.any _).bind fun feasible _ =>
    iteInduction (fun _ => .pure ⟨hsol, rfl, rfl, rfl⟩) fun _ => ?_
  refine yields_solution?.bind fun raw hraw => ?_
  cases raw with
  | none => exact .pure ⟨hsol, rfl, rfl, rfl⟩
  | some raw =>
    obtain ⟨hcols, hcolDuals, hrows, hrowDuals⟩ := hraw raw rfl
    refine (Yields.any _).bind fun objective _ =>
      ite_of (.bind (.any _) ?rest) (.bind (.any _) ?rest)
    intro duals _
    cases duals with
    | true => exact .pure ⟨⟨fun _ => ⟨hcols, hcolDuals, hrows, hrowDuals⟩, nofun⟩, rfl, rfl, rfl⟩
    | false =>
      have hzeros (n : ℕ) : (List.replicate n (0 : Float)).length = n := List.length_replicate
      exact .pure ⟨⟨fun _ => ⟨hcols, hzeros _, hrows, hzeros _⟩, nofun⟩, rfl, rfl, rfl⟩

/-- The bound and the gaps are put in place. -/
theorem yields_withGaps (sol : Solution) : Yields (fun sol' => ∃ bound gapAbs gapRel,
    sol' = { sol with dualObjective := bound, mipGapAbs := gapAbs, mipGapRel := gapRel })
    (withGaps k sol : HostM σ Solution) :=
  (Yields.any _).bind fun _ _ => (Yields.any _).bind fun _ _ => .pure ⟨_, _, _, rfl⟩

/-- The bases are put in place, or the solution stays without. -/
theorem yields_withBases {sol : Solution} (hcol : sol.colBasis = []) (hrow : sol.rowBasis = []) :
    Yields (fun sol' => ∃ dualObjective colBasis rowBasis,
      sol' = { sol with dualObjective, colBasis, rowBasis } ∧ IsBasis colBasis p.numCols ∧
        IsBasis rowBasis p.numRows) (withBases k p sol : HostM σ Solution) := by
  refine yields_basis?.bind fun basis hbasis => ?_
  cases basis with
  | none =>
    have hcolBasis : IsBasis sol.colBasis p.numCols := hcol ▸ isBasis_nil _
    have hrowBasis : IsBasis sol.rowBasis p.numRows := hrow ▸ isBasis_nil _
    exact .pure ⟨sol.primalObjective, sol.colBasis, sol.rowBasis, rfl, hcolBasis, hrowBasis⟩
  | some basis =>
    obtain ⟨cols, rows⟩ := basis
    obtain ⟨hcols, hrows⟩ := hbasis cols rows rfl
    have hzip {α : Type} {n : ℕ} {statuses : List Int32} {lines : List α}
        (hstatuses : statuses.length = n) (hlines : lines.length = n) :
        (statuses.zip lines).length = n := by
      rw [List.length_zip, hstatuses, hlines, Nat.min_self]
    exact .pure ⟨_, _, _, rfl, isBasis_map (hzip hcols rfl) fun _ => ⟨_, rfl⟩,
      isBasis_map (hzip hrows rfl) fun _ => ⟨_, rfl⟩⟩

/-- The statistics are put in place. -/
theorem yields_withStats (sol : Solution) :
    Yields (fun sol' => ∃ stats, sol' = { sol with stats := some stats })
      (withStats k sol : HostM σ Solution) :=
  (Yields.any _).bind fun _ _ => (Yields.any _).bind fun _ _ => (Yields.any _).bind fun _ _ =>
    .pure ⟨_, rfl⟩

/-- The stage after the values: gaps for a problem with integers, and otherwise bases if there is a
solution. Either way the solution has its bases then. -/
theorem yields_based {sol : Solution} (hvalued : sol.Valued p.numCols p.numRows)
    (hcol : sol.colBasis = []) (hrow : sol.rowBasis = []) {Q : β → Prop}
    {next : Solution → HostM σ β}
    (hnext : ∀ sol', sol'.Based p ∧ sol'.status = sol.status → Yields Q (next sol')) :
    Yields Q (if p.hasIntegers then withGaps k sol >>= next
      else if sol.hasSolution then withBases k p sol >>= next else pure sol >>= next) := by
  have hunbased (sol' : Solution) (hcol : sol'.colBasis = []) (hrow : sol'.rowBasis = [])
      (hvalued : sol'.Valued p.numCols p.numRows) : sol'.Based p :=
    ⟨hvalued, hcol ▸ isBasis_nil _, hrow ▸ isBasis_nil _, fun _ => ⟨hcol, hrow⟩⟩
  have hgaps : Yields (fun sol' => sol'.Based p ∧ sol'.status = sol.status)
      (withGaps k sol : HostM σ Solution) := fun h => by
    obtain ⟨bound, gapAbs, gapRel, heq⟩ := yields_withGaps (k := k) sol h
    rw [heq]
    exact ⟨hunbased _ hcol hrow ⟨hvalued.there, hvalued.missing⟩, rfl⟩
  have hbases (hint : ¬p.hasIntegers = true) (hhas : sol.hasSolution = true) :
      Yields (fun sol' => sol'.Based p ∧ sol'.status = sol.status)
        (withBases k p sol : HostM σ Solution) := fun h => by
    obtain ⟨dualObjective, colBasis, rowBasis, heq, hcolBasis, hrowBasis⟩ :=
      yields_withBases (k := k) (p := p) hcol hrow h
    rw [heq]
    refine ⟨⟨⟨hvalued.there, hvalued.missing⟩, hcolBasis, hrowBasis, ?_⟩, rfl⟩
    rintro (hint' | hnone)
    · exact absurd hint' hint
    · exact absurd (hhas.symm.trans hnone) nofun
  exact iteInduction (fun _ => hgaps.bind hnext) fun hint =>
    iteInduction (fun hhas => (hbases hint hhas).bind hnext) fun _ =>
      .bind (.pure ⟨hunbased sol hcol hrow hvalued, rfl⟩) hnext

/-- What is collected is assembled, and its status and code are those for the status of the problem,
with or without a feasible point. -/
theorem yields_collect (modelStatus : Int32) :
    Yields (fun r => r.2.Assembled p ∧ ∃ feasible,
      (r.2.status, r.1) = SolverStatus.outcome (SolverStatus.ofCode? modelStatus) feasible)
      (collect k p modelStatus : HostM σ (ResultCode × Solution)) := by
  refine (Yields.any _).bind fun feasible _ => ?_
  dsimp only
  generalize houtcome : SolverStatus.outcome (SolverStatus.ofCode? modelStatus) feasible = outcome
  obtain ⟨status, code⟩ := outcome
  have hvalues : Yields (fun sol => sol.Valued p.numCols p.numRows ∧ sol.status = status ∧
      sol.colBasis = [] ∧ sol.rowBasis = []) (withValues k p { status } : HostM σ Solution) :=
    yields_withValues (Solution.valued_status ..)
  refine ite_of (.bind (.pure ⟨valued_emptySolution status, rfl, rfl, rfl⟩) ?rest)
    (hvalues.bind ?rest)
  rintro sol ⟨hvalued, hstatus, hcol, hrow⟩
  refine yields_based hvalued hcol hrow fun sol' ⟨hbased, hstatus'⟩ => ?_
  refine (yields_withStats sol').bind fun sol'' ⟨stats, heq⟩ => (Yields.any _).bind fun _ _ => ?_
  have hassembled : sol''.Assembled p := by
    rw [heq]
    exact ⟨⟨⟨hbased.values.there, hbased.values.missing⟩, hbased.colBasis, hbased.rowBasis,
      hbased.unbased⟩, rfl⟩
  have hsame : sol''.status = status := by
    rw [heq]
    exact hstatus'.trans hstatus
  refine .pure ⟨hassembled, feasible, ?_⟩
  rw [houtcome, hsame]

end Stages

/-! ## Solves -/

/-- What the library answers when a quadratic form is passed, and its state then. -/
def passedHessian (x : σ) (k : InstanceId) (q : Hessian) : Int32 × σ :=
  answer (.passHessian k q) x

/-- An instance does not take the problem of a store: its linear part or its quadratic form. -/
def refuses (s : Store) (x : σ) (k : InstanceId) : Bool :=
  (passed x k (.ofProblem s.problem)).1 == InstanceId.failure ||
    s.problem.hasQuadratic &&
      (passedHessian (passed x k (.ofProblem s.problem)).2 k (.ofProblem s.problem)).1 ==
        InstanceId.failure

/-- A solve stops before there is a result: no instance is created, the method is not known, the
instance does not take the problem, or it does not run. -/
inductive Stops (s : Store) (h : Host σ) : ResultCode → Prop
  | create (hcreate : creates h.solver h.instances = false) : Stops s h .noMemory
  | method (hcreate : creates h.solver h.instances = true)
    (hmethod : methodSettings? s.params = none) : Stops s h .abortInvalidMethod
  | problem {k : InstanceId} {h₁ : Host σ} (hconfigured : (configured s).run h = (.ok k, h₁))
    (hrefuses : refuses s h₁.solver k = true) : Stops s h .modelInputError
  | run {k : InstanceId} {h₁ : Host σ} (hloaded : (loaded s).run h = (.ok k, h₁))
    (hrun : (ran h₁.solver k).1 = InstanceId.failure) : Stops s h .error

/-- A solve finishes: an instance takes the problem and runs, and then tells this status. -/
def Finishes (s : Store) (h : Host σ) (modelStatus : Int32) : Prop :=
  ∃ k h₁, (loaded s).run h = (.ok k, h₁) ∧ (ran h₁.solver k).1 ≠ InstanceId.failure ∧
    statusOf (ran h₁.solver k).2 k = modelStatus

variable {s : Store} {h h₁ : Host σ} {k : InstanceId}

/-- Passing a quadratic form. -/
theorem run_passHessian (q : Hessian) (k : InstanceId) (h : Host σ) : ∃ h',
    (k.passHessian q).run h =
      (if (passedHessian h.solver k q).1 == InstanceId.failure then .error .modelInputError
        else .ok (), h') :=
  ⟨_, InstanceId.run_orFail .modelInputError _ h⟩

/-- An instance that is configured is loaded with the problem unless it does not take it. -/
theorem run_loaded (hconfigured : (configured s).run h = (.ok k, h₁)) : ∃ h₂,
    (loaded s).run h =
      (if refuses s h₁.solver k then .error .modelInputError else .ok k, h₂) := by
  obtain ⟨h₂, hpass, hsolver⟩ := run_passProgram (.ofProblem s.problem) k h₁
  obtain ⟨h₃, hhessian⟩ := run_passHessian (.ofProblem s.problem) k h₂
  rw [hsolver] at hhessian
  -- Passing the names comes last and does not fail.
  have hnames (h : Host σ) : ∃ h', (do
      SolverM.host (k.passAllNames s.problem)
      return k : SolverM σ InstanceId).run h = (.ok k, h') := ⟨_, rfl⟩
  rw [loaded, SolverM.run_bind, hconfigured]
  dsimp only
  rw [InstanceId.run_destroyedOnFailure, SolverM.run_bind, hpass, refuses]
  cases (passed h₁.solver k (.ofProblem s.problem)).1 == InstanceId.failure with
  | true => exact ⟨_, rfl⟩
  | false =>
    simp only [Bool.false_eq_true, if_false, Bool.false_or]
    cases s.problem.hasQuadratic with
    | false =>
      obtain ⟨h', hnames⟩ := hnames h₂
      simp only [Bool.false_eq_true, if_false, Bool.false_and, hnames]
      exact ⟨_, rfl⟩
    | true =>
      simp only [if_true, Bool.true_and]
      rw [SolverM.run_bind, hhessian]
      split_ifs
      · exact ⟨_, rfl⟩
      · obtain ⟨h', hnames⟩ := hnames h₃
        simp only [hnames]
        exact ⟨_, rfl⟩

/-- An instance that is loaded runs, and then the outcome is collected from it, or the solve fails.
-/
theorem run_solve_of_loaded (hloaded : (loaded s).run h = (.ok k, h₁)) :
    (ran h₁.solver k).1 = InstanceId.failure ∧ ((solve s).run h).1 = .error .error ∨
      (ran h₁.solver k).1 ≠ InstanceId.failure ∧ ∃ (h₂ : Host σ) (code : ResultCode)
        (sol : Solution), ((collect k s.problem (statusOf (ran h₁.solver k).2 k)).run h₂).1 =
          (code, sol) ∧ ((solve s).run h).1 = .ok ⟨code, sol, k⟩ := by
  have hmk (act : HostM σ (Except ResultCode Solved)) (h : Host σ) :
      (ExceptT.mk act : SolverM σ Solved).run h = act.run h := rfl
  -- An event is recorded before the instance is run, which does not change the library.
  have hrecord : ∃ h₂ : Host σ, ((Host.record .debug .solver "highs" "solve" "Starting HiGHS"
      [("num_cols", .int s.numCols), ("num_rows", .int s.numRows),
       ("mip", .bool s.problem.hasIntegers), ("qp", .bool s.problem.hasQuadratic)] :
        HostM σ Unit).run h₁).2 = h₂ ∧ h₂.solver = h₁.solver := ⟨_, rfl, rfl⟩
  obtain ⟨h₂, hrecord, hsolver₂⟩ := hrecord
  obtain ⟨h₃, hrun, hsolver₃⟩ := run_run k h₂
  rw [hsolver₂] at hrun hsolver₃
  rw [solve, SolverM.run_bind, hloaded]
  dsimp only
  rw [InstanceId.run_destroyedOnFailure, hmk, HostM.run_bind, hrecord, HostM.run_bind, hrun]
  by_cases hfailure : (ran h₁.solver k).1 = InstanceId.failure
  · refine .inl ⟨hfailure, ?_⟩
    rw [hfailure]
    rfl
  · refine .inr ⟨hfailure, ?_⟩
    have hstatus : (k.modelStatus.run h₃).1 = statusOf (ran h₁.solver k).2 k := by
      rw [← hsolver₃]
      rfl
    rw [← hstatus, bne_iff_ne.2 hfailure]
    exact ⟨_, _, _, rfl, rfl⟩

/-- An instance that is not to be had, or does not take the problem, ends the solve. -/
theorem run_solve_of_error {e : ResultCode} (hloaded : (loaded s).run h = (.error e, h₁)) :
    ((solve s).run h).1 = .error e := by
  rw [solve, SolverM.run_bind, hloaded]

/-- An instance that is not to be had is not loaded. -/
theorem run_loaded_of_error {e : ResultCode}
    (hconfigured : (configured s).run h = (.error e, h₁)) :
    (loaded s).run h = (.error e, h₁) := by
  rw [loaded, SolverM.run_bind, hconfigured]

/-- A solve gives an error exactly where it stops. -/
theorem solve_eq_error_iff {e : ResultCode} :
    ((solve s).run h).1 = .error e ↔ Stops s h e := by
  obtain ⟨h₁, hconfigured⟩ := run_configured s h
  constructor
  · intro hsolve
    cases hunready : unready? s h with
    | some e' =>
      rw [hunready] at hconfigured
      obtain rfl : e' = e := Except.error.inj
        ((run_solve_of_error (run_loaded_of_error hconfigured)).symm.trans hsolve)
      unfold unready? at hunready
      split_ifs at hunready with hcreate hmethod <;> cases hunready
      · exact .method hcreate (Option.isNone_iff_eq_none.1 hmethod)
      · exact .create (Bool.eq_false_iff.2 hcreate)
    | none =>
      rw [hunready] at hconfigured
      obtain ⟨h₂, hloaded⟩ := run_loaded hconfigured
      split_ifs at hloaded with hrefuses
      · obtain rfl : ResultCode.modelInputError = e := Except.error.inj
          ((run_solve_of_error hloaded).symm.trans hsolve)
        exact .problem hconfigured hrefuses
      · obtain ⟨hrun, hsolve'⟩ | ⟨-, _, _, _, -, hsolve'⟩ := run_solve_of_loaded hloaded
        · obtain rfl : ResultCode.error = e := Except.error.inj (hsolve'.symm.trans hsolve)
          exact .run hloaded hrun
        · cases hsolve'.symm.trans hsolve
  · intro hstops
    cases hstops with
    | create hcreate =>
      rw [unready?, hcreate] at hconfigured
      exact run_solve_of_error (run_loaded_of_error hconfigured)
    | method hcreate hmethod =>
      rw [unready?, hcreate, hmethod] at hconfigured
      exact run_solve_of_error (run_loaded_of_error hconfigured)
    | problem hconfigured hrefuses =>
      obtain ⟨h₂, hloaded⟩ := run_loaded hconfigured
      rw [if_pos hrefuses] at hloaded
      exact run_solve_of_error hloaded
    | run hloaded hrun =>
      obtain ⟨-, hsolve⟩ | ⟨hran, -⟩ := run_solve_of_loaded hloaded
      · exact hsolve
      · exact absurd hrun hran

/-- A solve that gives a solution has finished, and the solution is assembled, with the status and
the code for the status of the problem. -/
theorem assembled_of_solve {solved : Solved} (hsolve : ((solve s).run h).1 = .ok solved) :
    ∃ modelStatus feasible, Finishes s h modelStatus ∧ solved.solution.Assembled s.problem ∧
      (solved.solution.status, solved.code) =
        SolverStatus.outcome (SolverStatus.ofCode? modelStatus) feasible := by
  rcases hloaded : (loaded s).run h with ⟨e | k, h₁⟩
  · cases (run_solve_of_error hloaded).symm.trans hsolve
  · obtain ⟨-, hsolve'⟩ | ⟨hran, h₂, code, sol, hcollect, hsolve'⟩ := run_solve_of_loaded hloaded
    · cases hsolve'.symm.trans hsolve
    · obtain rfl := Except.ok.inj (hsolve'.symm.trans hsolve)
      obtain ⟨hassembled, feasible, houtcome⟩ := yields_collect (k := k) (p := s.problem) _ h₂
      rw [hcollect] at hassembled houtcome
      exact ⟨_, feasible, ⟨k, h₁, hloaded, hran, rfl⟩, hassembled, houtcome⟩

end Solver

end MathProgram
