import MathProgram.Proofs.Engine.Findings
import MathProgram.Proofs.Solver.Irreducible
import MathProgram.Proofs.Solver.Run
import MathProgram.Solver.Scripted

/-!
# Conflict searches

A conflict search tests programs by the solver library, each with an instance of its own. A test
`Fails` where the library cannot be asked or does not answer, with a result code for each way to
fail, and the search fails where one of its `Tests` fails. Otherwise it gives flags, and if the
library `Decides` all programs that arise, by a verdict that is monotone, the bounds flagged are
irreducible (`irreducible_conflict`).

That an option is refused is no failure of a test, and that the method is not known is one, whatever
the library would decide (`conflict_despite_refusal`).
-/

namespace MathProgram

variable {σ : Type} [Solver σ]

namespace Solver

open SolverM (host)

/-! ## One test -/

/-- The word of the library on the infeasibility of a program that has run. -/
def infeasible? (modelStatus : Int32) : Except ResultCode Bool :=
  match SolverStatus.ofCode? modelStatus with
  | some .infeasible | some .unboundedOrInfeasible => .ok true
  | some .optimal | some .modelEmpty | some .unbounded => .ok false
  | some .timeLimit => .error .abortTimeLimit
  | some .iterationLimit => .error .abortIterationLimit
  | _ => .error .error

/-- The result of a test by an instance, with the library in a given state: it takes the program,
runs, and says what it has found. -/
def tested (x : σ) (k : InstanceId) (lp : LinearProgram) : Except ResultCode Bool :=
  if (passed x k lp).1 == InstanceId.failure then .error .modelInputError
  else if (ran (passed x k lp).2 k).1 == InstanceId.failure then .error .error
  else infeasible? (statusOf (ran (passed x k lp).2 k).2 k)

/-- A new instance is ready for a test, and the library is in a given state then. -/
def Ready (s : Store) (h : Host σ) (k : InstanceId) (x : σ) : Prop :=
  ∃ h', (configured s).run h = (.ok k, h') ∧ x = ((k.setOutput false).run h').2.solver

/-- What an instance that is configured does for a test. -/
def test (lp : LinearProgram) (k : InstanceId) : SolverM σ Bool := do
  host (k.setOutput false)
  k.passProgram lp
  if !(← host k.run) then throw .error
  match SolverStatus.ofCode? (← host k.modelStatus) with
  | some .infeasible | some .unboundedOrInfeasible => return true
  | some .optimal | some .modelEmpty | some .unbounded => return false
  | some .timeLimit => throw .abortTimeLimit
  | some .iterationLimit => throw .abortIterationLimit
  | _ => throw .error

/-- A test has the result of the instance. -/
theorem run_test (lp : LinearProgram) (k : InstanceId) (h : Host σ) :
    ((test lp k).run h).1 = tested ((k.setOutput false).run h).2.solver k lp := by
  obtain ⟨h₁, hpass, hsolver₁⟩ := run_passProgram lp k ((k.setOutput false).run h).2
  obtain ⟨h₂, hrun, hsolver₂⟩ := run_run k h₁
  rw [test, SolverM.run_bind]
  dsimp only [SolverM.run_host]
  rw [SolverM.run_bind, hpass, tested]
  cases (passed ((k.setOutput false).run h).2.solver k lp).1 == InstanceId.failure with
  | true => rfl
  | false =>
    simp only [Bool.false_eq_true, if_false]
    rw [SolverM.run_bind, SolverM.run_host, hrun]
    dsimp only
    rw [hsolver₁, bne, Bool.not_not]
    cases (ran (passed ((k.setOutput false).run h).2.solver k lp).2 k).1 == InstanceId.failure with
    | true => rfl
    | false =>
      have hstatus : (k.modelStatus.run h₂).1 =
          statusOf (ran (passed ((k.setOutput false).run h).2.solver k lp).2 k).2 k := by
        rw [← hsolver₁, ← hsolver₂]
        rfl
      simp only [Bool.false_eq_true, if_false]
      rw [SolverM.run_bind, SolverM.run_host, hstatus, infeasible?]
      dsimp only
      rcases SolverStatus.ofCode? _ with _ | status
      · rfl
      · cases status <;> rfl

/-- A test fails if no instance is to be had, and otherwise has the result of its instance. -/
theorem run_infeasible (s : Store) (lp : LinearProgram) (h : Host σ) :
    (∀ e, unready? s h = some e → ((infeasible s lp).run h).1 = .error e) ∧
      (unready? s h = none → ∃ k x, Ready s h k x ∧
        ((infeasible s lp).run h).1 = tested x k lp) := by
  have hrun : infeasible s lp = (configured s >>= fun k => k.destroyedAfter (test lp k) :
      SolverM σ Bool) := rfl
  obtain ⟨h', hconfigured⟩ := run_configured s h
  rw [hrun, SolverM.run_bind, hconfigured]
  cases hready : unready? s h with
  | some e => exact ⟨fun e' he' => congrArg Except.error (Option.some.inj he'), nofun⟩
  | none =>
    rw [hready] at hconfigured
    exact ⟨nofun, fun _ => ⟨h.instances, _, ⟨h', hconfigured, rfl⟩, run_test lp h.instances h'⟩⟩

/-- A test fails, for one of these reasons: no instance is created, the method is not known, the
instance does not take the program or does not run, or it does not say whether the program is
infeasible. -/
inductive Fails (s : Store) (lp : LinearProgram) (h : Host σ) : ResultCode → Prop
  | create (hcreate : creates h.solver h.instances = false) : Fails s lp h .noMemory
  | method (hcreate : creates h.solver h.instances = true)
    (hmethod : methodSettings? s.params = none) : Fails s lp h .abortInvalidMethod
  | pass {k : InstanceId} {x : σ} (hready : Ready s h k x)
    (hpass : (passed x k lp).1 = InstanceId.failure) : Fails s lp h .modelInputError
  | run {k : InstanceId} {x : σ} (hready : Ready s h k x)
    (hpass : (passed x k lp).1 ≠ InstanceId.failure)
    (hrun : (ran (passed x k lp).2 k).1 = InstanceId.failure) : Fails s lp h .error
  | status {k : InstanceId} {x : σ} {e : ResultCode} (hready : Ready s h k x)
    (hpass : (passed x k lp).1 ≠ InstanceId.failure)
    (hrun : (ran (passed x k lp).2 k).1 ≠ InstanceId.failure)
    (hstatus : infeasible? (statusOf (ran (passed x k lp).2 k).2 k) = .error e) : Fails s lp h e

/-- There is one instance that is ready, and one state. -/
theorem Ready.unique {s : Store} {h : Host σ} {k k' : InstanceId} {x x' : σ} (hk : Ready s h k x)
    (hk' : Ready s h k' x') : k' = k ∧ x' = x := by
  obtain ⟨h₁, hrun, rfl⟩ := hk
  obtain ⟨h₂, hrun', rfl⟩ := hk'
  obtain ⟨hsame, rfl⟩ := Prod.mk.inj (hrun.symm.trans hrun')
  cases hsame
  exact ⟨rfl, rfl⟩

/-- An instance that is ready could be had. -/
theorem Ready.unready?_eq_none {s : Store} {h : Host σ} {k : InstanceId} {x : σ}
    (hk : Ready s h k x) : unready? s h = none := by
  obtain ⟨h₁, hrun, -⟩ := hk
  obtain ⟨h', hconfigured⟩ := run_configured s h
  cases hready : unready? s h with
  | none => rfl
  | some e =>
    rw [hready] at hconfigured
    cases hrun.symm.trans hconfigured

/-- The result of a test for which an instance is ready. -/
theorem Ready.infeasible {s : Store} {h : Host σ} {k : InstanceId} {x : σ} (hk : Ready s h k x)
    (lp : LinearProgram) : ((infeasible s lp).run h).1 = tested x k lp := by
  obtain ⟨k', x', hk', hrun⟩ := (run_infeasible s lp h).2 hk.unready?_eq_none
  obtain ⟨rfl, rfl⟩ := hk.unique hk'
  exact hrun

/-- A test gives an error exactly where it fails. -/
theorem infeasible_eq_error_iff (s : Store) (lp : LinearProgram) (h : Host σ) (e : ResultCode) :
    ((infeasible s lp).run h).1 = .error e ↔ Fails s lp h e := by
  constructor
  · intro hrun
    cases hunready : unready? s h with
    | some e' =>
      rw [(run_infeasible s lp h).1 e' hunready] at hrun
      cases hrun
      unfold unready? at hunready
      split_ifs at hunready with hcreate hmethod <;> cases hunready
      · exact .method hcreate (Option.isNone_iff_eq_none.1 hmethod)
      · exact .create (Bool.eq_false_of_not_eq_true hcreate)
    | none =>
      obtain ⟨k, x, hready, hresult⟩ := (run_infeasible s lp h).2 hunready
      rw [hresult, tested] at hrun
      split_ifs at hrun with hpass hran
      · cases hrun
        exact .pass hready (eq_of_beq hpass)
      · cases hrun
        exact .run hready (by simpa using hpass) (eq_of_beq hran)
      · exact .status hready (by simpa using hpass) (by simpa using hran) hrun
  · intro hfails
    cases hfails with
    | create hcreate => exact (run_infeasible s lp h).1 _ (by simp [unready?, hcreate])
    | method hcreate hmethod =>
      exact (run_infeasible s lp h).1 _ (by simp [unready?, hcreate, hmethod])
    | pass hready hpass => rw [hready.infeasible, tested, if_pos (beq_iff_eq.2 hpass)]
    | run hready hpass hran =>
      rw [hready.infeasible, tested, if_neg (by simpa using hpass), if_pos (beq_iff_eq.2 hran)]
    | status hready hpass hran hstatus =>
      rw [hready.infeasible, tested, if_neg (by simpa using hpass), if_neg (by simpa using hran),
        hstatus]

end Solver

namespace Conflict

/-! ## The search -/

omit [Solver σ]

/-- Trying out bounds in order reaches a test of a program on a host. -/
inductive Reaches (test : LinearProgram → SolverM σ Bool) :
    LinearProgram → List BoundRef → Host σ → LinearProgram → Host σ → Prop
  /-- It is the next one. -/
  | next (lp : LinearProgram) (b : BoundRef) (bs : List BoundRef) (h : Host σ) :
    Reaches test lp (b :: bs) h (lp.relax b) h
  /-- It comes after a bound that stays relaxed. -/
  | relaxed {lp lp' : LinearProgram} {b : BoundRef} {bs : List BoundRef} {h h₁ h' : Host σ}
    (htest : (test (lp.relax b)).run h = (.ok true, h₁))
    (hrest : Reaches test (lp.relax b) bs h₁ lp' h') : Reaches test lp (b :: bs) h lp' h'
  /-- It comes after a bound that has to stay. -/
  | stays {lp lp' : LinearProgram} {b : BoundRef} {bs : List BoundRef} {h h₁ h' : Host σ}
    (htest : (test (lp.relax b)).run h = (.ok false, h₁))
    (hrest : Reaches test lp bs h₁ lp' h') : Reaches test lp (b :: bs) h lp' h'

/-- A search tests the program itself, and goes on if that is infeasible. -/
inductive Tests (test : LinearProgram → SolverM σ Bool) (lp : LinearProgram) (h : Host σ) :
    LinearProgram → Host σ → Prop
  | first : Tests test lp h lp h
  | later {lp' : LinearProgram} {h₁ h' : Host σ} (htest : (test lp).run h = (.ok true, h₁))
    (hreaches : Reaches test lp lp.candidates h₁ lp' h') : Tests test lp h lp' h'

variable {test : LinearProgram → SolverM σ Bool} {lp lp' : LinearProgram} {bs : List BoundRef}
  {h h' : Host σ} {e : ResultCode} {verdict : LinearProgram → Bool}

/-- What is done with a result does not make it a failure or take it away. -/
theorem map_eq_error_iff {α β : Type} {r : Except ResultCode α} (f : α → β) :
    r.map f = .error e ↔ r = .error e := by
  cases r <;> simp [Except.map]

/-- The result of trying out one bound and then others. -/
theorem run_keptBounds_cons (test : LinearProgram → SolverM σ Bool) (lp : LinearProgram)
    (b : BoundRef) (bs : List BoundRef) (h : Host σ) :
    ((keptBounds test lp (b :: bs)).run h).1 = match (test (lp.relax b)).run h with
      | (.error e, _) => .error e
      | (.ok true, h₁) => ((keptBounds test (lp.relax b) bs).run h₁).1
      | (.ok false, h₁) => ((keptBounds test lp bs).run h₁).1.map (b :: ·) := by
  rw [keptBounds, SolverM.run_bind]
  rcases (test (lp.relax b)).run h with ⟨_ | _ | _, h₁⟩
  · rfl
  · simp only [Bool.false_eq_true, if_false]
    rw [SolverM.run_bind]
    rcases (keptBounds test lp bs).run h₁ with ⟨_ | _, h₂⟩ <;> rfl
  · rfl

/-- A failure of a test that is reached ends the trying out. -/
theorem Reaches.run_keptBounds (hreaches : Reaches test lp bs h lp' h')
    (hfails : ((test lp').run h').1 = .error e) :
    ((keptBounds test lp bs).run h).1 = .error e := by
  induction hreaches with
  | next lp b bs h =>
    rw [run_keptBounds_cons]
    rcases hrun : (test (lp.relax b)).run h with ⟨_ | _, h₁⟩ <;> rw [hrun] at hfails <;>
      cases hfails
    rfl
  | relaxed htest hrest ih =>
    rw [run_keptBounds_cons, htest]
    exact ih hfails
  | stays htest hrest ih =>
    rw [run_keptBounds_cons, htest]
    exact (map_eq_error_iff _).2 (ih hfails)

/-- Nothing else ends it. -/
theorem exists_reaches (hfails : ((keptBounds test lp bs).run h).1 = .error e) :
    ∃ lp' h', Reaches test lp bs h lp' h' ∧ ((test lp').run h').1 = .error e := by
  induction bs generalizing lp h with
  | nil => cases hfails
  | cons b bs ih =>
    rw [run_keptBounds_cons] at hfails
    rcases htest : (test (lp.relax b)).run h with ⟨e' | _ | _, h₁⟩ <;> rw [htest] at hfails
    · cases hfails
      exact ⟨lp.relax b, h, .next lp b bs h, congrArg Prod.fst htest⟩
    · obtain ⟨lp', h', hreaches, hfails⟩ := ih ((map_eq_error_iff _).1 hfails)
      exact ⟨lp', h', .stays htest hreaches, hfails⟩
    · obtain ⟨lp', h', hreaches, hfails⟩ := ih hfails
      exact ⟨lp', h', .relaxed htest hreaches, hfails⟩

/-- If a verdict decides the tests, the search filters by it. -/
theorem run_keptBounds_of_decides
    (hdecides : ∀ bs h, ((test (lp.relaxAll bs)).run h).1 = .ok (verdict (lp.relaxAll bs)))
    (bs : List BoundRef) (h : Host σ) :
    ∃ kept, ((keptBounds test lp bs).run h).1 = .ok kept ∧ Filtered verdict lp bs kept := by
  induction bs generalizing lp h with
  | nil => exact ⟨[], rfl, .done lp⟩
  | cons b bs ih =>
    have hb := hdecides [b] h
    rw [run_keptBounds_cons]
    rcases htest : (test (lp.relax b)).run h with ⟨r, h₁⟩
    obtain rfl : r = .ok (verdict (lp.relax b)) := (congrArg Prod.fst htest).symm.trans hb
    cases hverdict : verdict (lp.relax b) with
    | true =>
      obtain ⟨kept, hrun, hfiltered⟩ := ih (fun bs => hdecides (b :: bs)) h₁
      exact ⟨kept, hrun, .relaxed hverdict hfiltered⟩
    | false =>
      obtain ⟨kept, hrun, hfiltered⟩ := ih hdecides h₁
      refine ⟨b :: kept, ?_, .stays hverdict hfiltered⟩
      dsimp only
      rw [hrun]
      rfl

/-- The result of a search. -/
theorem run_find? (test : LinearProgram → SolverM σ Bool) (lp : LinearProgram) (h : Host σ) :
    ((find? test lp).run h).1 = match (test lp).run h with
      | (.error e, _) => .error e
      | (.ok true, h₁) => ((keptBounds test lp lp.candidates).run h₁).1.map some
      | (.ok false, _) => .ok none := by
  rw [find?, SolverM.run_bind]
  rcases (test lp).run h with ⟨_ | _ | _, h₁⟩
  · rfl
  · rfl
  · simp only [if_true]
    rw [SolverM.run_bind]
    rcases (keptBounds test lp lp.candidates).run h₁ with ⟨_ | _, h₂⟩ <;> rfl

/-- A search fails exactly if one of its tests fails, and as that does. -/
theorem run_find?_eq_error_iff : ((find? test lp).run h).1 = .error e ↔
    ∃ lp' h', Tests test lp h lp' h' ∧ ((test lp').run h').1 = .error e := by
  rw [run_find?]
  constructor
  · intro hfails
    rcases htest : (test lp).run h with ⟨e' | _ | _, h₁⟩ <;> rw [htest] at hfails
    · cases hfails
      exact ⟨lp, h, .first, congrArg Prod.fst htest⟩
    · cases hfails
    · obtain ⟨lp', h', hreaches, hfails⟩ := exists_reaches ((map_eq_error_iff _).1 hfails)
      exact ⟨lp', h', .later htest hreaches, hfails⟩
  · rintro ⟨lp', h', hreached | ⟨htest, hreaches⟩, hfails⟩
    · rcases htest : (test lp).run h with ⟨_ | _, h₁⟩ <;> rw [htest] at hfails <;> cases hfails
      rfl
    · rw [htest]
      exact (map_eq_error_iff _).2 (hreaches.run_keptBounds hfails)

/-- If a verdict decides the tests, the search ends with what it filters by the verdict, or with
nothing. -/
theorem run_find?_of_decides
    (hdecides : ∀ bs h, ((test (lp.relaxAll bs)).run h).1 = .ok (verdict (lp.relaxAll bs)))
    (h : Host σ) : (verdict lp = false ∧ ((find? test lp).run h).1 = .ok none) ∨
      (verdict lp = true ∧ ∃ kept, ((find? test lp).run h).1 = .ok (some kept) ∧
        Filtered verdict lp lp.candidates kept) := by
  rw [run_find?]
  rcases htest : (test lp).run h with ⟨r, h₁⟩
  obtain rfl : r = .ok (verdict lp) := (congrArg Prod.fst htest).symm.trans (hdecides [] h)
  cases hverdict : verdict lp with
  | false => exact .inl ⟨rfl, rfl⟩
  | true =>
    obtain ⟨kept, hrun, hfiltered⟩ := run_keptBounds_of_decides hdecides lp.candidates h₁
    refine .inr ⟨rfl, kept, ?_, hfiltered⟩
    dsimp only
    rw [hrun]
    rfl

end Conflict

namespace Solver

open Conflict

/-- The result of a conflict search. -/
theorem run_conflict (s : Store) (h : Host σ) :
    let lp := (LinearProgram.ofProblem s.problem).withoutObjective
    ((conflict s).run h).1 = (((find? (infeasible s) lp).run h).1).map fun kept =>
      flags lp (kept.getD []) := by
  intro lp
  rw [conflict, SolverM.run_bind]
  rcases (find? (infeasible s) lp).run h with ⟨_ | _ | _, h₁⟩ <;> rfl

/-- The answers of the library are decided by a verdict on the relaxations of a program: in every
state it creates instances, and an instance takes the program, runs, and says of it what the verdict
is. -/
structure Decides (σ : Type) [Solver σ] (lp : LinearProgram) (verdict : LinearProgram → Bool) :
    Prop where
  creates : ∀ (x : σ) (k : InstanceId), creates x k = true
  passes : ∀ (x : σ) (k : InstanceId) (bs : List BoundRef),
    (passed x k (lp.relaxAll bs)).1 ≠ InstanceId.failure
  runs : ∀ (x : σ) (k : InstanceId) (bs : List BoundRef),
    (ran (passed x k (lp.relaxAll bs)).2 k).1 ≠ InstanceId.failure
  reports : ∀ (x : σ) (k : InstanceId) (bs : List BoundRef),
    infeasible? (statusOf (ran (passed x k (lp.relaxAll bs)).2 k).2 k) =
      .ok (verdict (lp.relaxAll bs))

/-- A test has the verdict as its result. -/
theorem Decides.run_infeasible {lp : LinearProgram} {verdict : LinearProgram → Bool} {s : Store}
    (hdecides : Decides σ lp verdict) (hmethod : methodSettings? s.params ≠ none)
    (bs : List BoundRef) (h : Host σ) :
    ((infeasible s (lp.relaxAll bs)).run h).1 = .ok (verdict (lp.relaxAll bs)) := by
  have hready : unready? s h = none := by
    rw [unready?, if_pos (hdecides.creates h.solver h.instances), if_neg (by simpa using hmethod)]
  obtain ⟨k, x, -, hrun⟩ := (Solver.run_infeasible s (lp.relaxAll bs) h).2 hready
  rw [hrun, tested, if_neg (by simpa using hdecides.passes x k bs),
    if_neg (by simpa using hdecides.runs x k bs), hdecides.reports]

end Solver

namespace Engine

open Conflict Solver

/-- The program whose infeasibility is in question: the linear part of a problem, without its
objective. -/
def constraints (s : Store) : LinearProgram := (LinearProgram.ofProblem s.problem).withoutObjective

/-- A conflict search of an engine with a solver library and no script: its flags are stored, or its
error is given. -/
theorem run_computeIis_own {e : Engine} (hbackend : e.backend = .solver)
    (hplain : e.scripted = false) (h : Host σ) :
    (computeIis.run e h).1 = match ((conflict e.store).run h).1 with
      | .error err => (err.code, e)
      | .ok flags => (ResultCode.okay.code,
          { e with store := e.store.setIis flags.rows flags.cols }) := by
  obtain ⟨_, s, keeper, scripted⟩ := e
  obtain rfl := hbackend
  obtain rfl := hplain
  have hconflict (next : Except ResultCode IisFlags → EngineM σ Int32) :
      (get >>= fun e => EngineM.host (conflict e.store).run >>= next).run
          ⟨.solver, s, keeper, false⟩ h =
        (next ((conflict s).run h).1).run ⟨.solver, s, keeper, false⟩ ((conflict s).run h).2 := rfl
  have hrun : computeIis.run (⟨.solver, s, keeper, false⟩ : Engine) h =
      (get >>= fun e => EngineM.host (conflict e.store).run >>= fun r => match r with
        | .error err => return err.code
        | .ok flags => do
          modify fun e => { e with store := e.store.setIis flags.rows flags.cols }
          return ResultCode.okay.code : EngineM σ Int32).run ⟨.solver, s, keeper, false⟩ h := rfl
  rw [hrun, hconflict]
  cases ((conflict s).run h).1 <;> rfl

/-- What a conflict search of an engine with a solver library gives, whatever the problem. If a test
on the way fails, the code of its error is the result and the engine is as it was; if none fails,
flags are stored. If the library decides all programs with bounds of the problem relaxed, by a
verdict that is monotone, and the method is known, flags are stored that belong to the problem: they
are zero if the problem is feasible, and otherwise the bounds flagged are irreducible. -/
theorem irreducible_conflict (e : Engine) (hbackend : e.backend = .solver)
    (hplain : e.scripted = false) (h : Host σ) :
    (∀ lp h' err, Tests (infeasible e.store) (constraints e.store) h lp h' →
      Fails e.store lp h' err → (computeIis.run e h).1 = (err.code, e)) ∧
    ((∀ lp h' err, Tests (infeasible e.store) (constraints e.store) h lp h' →
      ¬Fails e.store lp h' err) → ∃ flags : IisFlags, (computeIis.run e h).1 =
        (ResultCode.okay.code, { e with store := e.store.setIis flags.rows flags.cols })) ∧
    (∀ verdict, Decides σ (constraints e.store) verdict → Monotone verdict (constraints e.store) →
      methodSettings? e.store.params ≠ none →
      ∃ flags : IisFlags, (computeIis.run e h).1 = (ResultCode.okay.code,
          { e with store := e.store.setIis flags.rows flags.cols }) ∧
        flags.BelongTo (constraints e.store) ∧
        (verdict (constraints e.store) = false → ∀ c ∈ flags.rows ++ flags.cols, c = 0) ∧
        (verdict (constraints e.store) = true →
          flags.Irreducible verdict (constraints e.store))) := by
  have hlp : (constraints e.store).Rectangular := LinearProgram.rectangular_ofProblem _
  have hfind : ((conflict e.store).run h).1 =
      ((find? (infeasible e.store) (constraints e.store)).run h).1.map fun kept =>
        flags (constraints e.store) (kept.getD []) := run_conflict e.store h
  rw [run_computeIis_own hbackend hplain]
  refine ⟨fun lp h' err htests hfails => ?_, fun hnone => ?_,
    fun verdict hdecides hmono hmethod => ?_⟩
  · have herror := run_find?_eq_error_iff.2
      ⟨lp, h', htests, (infeasible_eq_error_iff e.store lp h' err).2 hfails⟩
    rw [hfind, herror]
    rfl
  · cases hresult : ((find? (infeasible e.store) (constraints e.store)).run h).1 with
    | ok kept =>
      rw [hfind, hresult]
      exact ⟨_, rfl⟩
    | error err =>
      obtain ⟨lp, h', htests, hfails⟩ := run_find?_eq_error_iff.1 hresult
      exact absurd ((infeasible_eq_error_iff e.store lp h' err).1 hfails) (hnone lp h' err htests)
  · obtain ⟨hverdict, hresult⟩ | ⟨hverdict, kept, hresult, hfiltered⟩ :=
      run_find?_of_decides (hdecides.run_infeasible hmethod) h
    · rw [hfind, hresult]
      refine ⟨_, rfl, belongTo_flags hlp nofun, fun _ c hc => ?_,
        fun h => nomatch hverdict.symm.trans h⟩
      simp only [Option.getD_none, flags_nil, List.mem_append, List.mem_replicate] at hc
      exact hc.elim And.right And.right
    · rw [hfind, hresult]
      refine ⟨_, rfl, belongTo_flags hlp hfiltered.subset, fun hfalse => ?_,
        fun _ => hfiltered.irreducible hlp hmono hverdict⟩
      cases hverdict.symm.trans hfalse

/-- The bounds of a column cross, which makes a program infeasible; one without rows is infeasible
for no other reason. -/
def crosses (lp : LinearProgram) : Bool := (lp.lower.zip lp.upper).any fun (l, u) => u < l

/-- A library for programs without rows, with the program that it was given last. -/
structure BoxSolver where
  program : Option LinearProgram

/-- It says of a program that has run whether the bounds of a column cross, and answers everything
else as a library without prescribed answers. -/
def BoxSolver.answer : (r : Request) → BoxSolver → r.Answer × BoxSolver
  | .passProgram _ lp, _ => ((0 : Int32), ⟨some lp⟩)
  | .modelStatus _, x =>
    (if x.program.any crosses then SolverStatus.infeasible.code else SolverStatus.optimal.code, x)
  | r, x => ((ScriptedSolver.answer {} r).1, x)

instance : Solver BoxSolver := ⟨BoxSolver.answer⟩

/-- The library decides all programs. -/
theorem boxSolver_decides (lp : LinearProgram) : Decides BoxSolver lp crosses where
  creates _ _ := rfl
  passes _ _ _ := show (0 : Int32) ≠ -1 by decide
  runs _ _ _ := show (0 : Int32) ≠ -1 by decide
  reports x k bs := by
    have hstatus : statusOf (ran (passed x k (lp.relaxAll bs)).2 k).2 k =
        if crosses (lp.relaxAll bs) then SolverStatus.infeasible.code
        else SolverStatus.optimal.code := rfl
    rw [hstatus]
    cases crosses (lp.relaxAll bs) <;> rfl

/-- An engine whose problem is a column between 2 and 1. -/
def crossingEngine : Engine where
  backend := .solver
  store := .afterOps none [.addCol ⟨2, 1, 0, false, none⟩ [] []]

/-- Bounds of the column cross as long as neither is relaxed. -/
theorem crosses_relaxAll (bs : List BoundRef) :
    crosses ((constraints crossingEngine.store).relaxAll bs) =
      decide (.colLower 0 ∉ bs ∧ .colUpper 0 ∉ bs) := by
  have hlower : (constraints crossingEngine.store).lower = [2] := by decide
  have hupper : (constraints crossingEngine.store).upper = [1] := by decide
  rw [crosses, LinearProgram.lower_relaxAll, LinearProgram.upper_relaxAll, hlower, hupper]
  by_cases hl : BoundRef.colLower 0 ∈ bs <;> by_cases hu : BoundRef.colUpper 0 ∈ bs <;>
    simp only [List.mapIdx_cons, List.mapIdx_nil, hl, hu] <;> decide

/-- Relaxing either bound of the column makes the problem feasible. -/
theorem monotone_crosses : Monotone crosses (constraints crossingEngine.store) := by
  intro bs b hbs
  rw [crosses_relaxAll, decide_eq_false_iff_not] at hbs
  rw [← LinearProgram.relaxAll_concat, crosses_relaxAll, decide_eq_false_iff_not]
  exact fun h => hbs ⟨fun hl => h.1 (List.mem_append_left _ hl),
    fun hu => h.2 (List.mem_append_left _ hu)⟩

/-- Both bounds of the column are flagged, and nothing else can be. -/
theorem irreducible_conflict_crossing :
    Decides BoxSolver (constraints crossingEngine.store) crosses ∧
      Monotone crosses (constraints crossingEngine.store) ∧
      methodSettings? crossingEngine.store.params ≠ none ∧
      crosses (constraints crossingEngine.store) = true ∧
      ∃ flags : IisFlags,
        (computeIis.run crossingEngine ({ solver := ⟨none⟩ } : Host BoxSolver)).1 =
          (ResultCode.okay.code, { crossingEngine with
            store := crossingEngine.store.setIis flags.rows flags.cols }) ∧
        flags.BelongTo (constraints crossingEngine.store) ∧
        flags.Irreducible crosses (constraints crossingEngine.store) := by
  have hdecides := boxSolver_decides (constraints crossingEngine.store)
  have hmethod : methodSettings? crossingEngine.store.params ≠ none := by
    rw [← Option.isSome_iff_ne_none]
    decide
  have hcrosses : crosses (constraints crossingEngine.store) = true := crosses_relaxAll []
  obtain ⟨flags, hrun, hbelong, -, hirreducible⟩ :=
    (irreducible_conflict crossingEngine rfl rfl { solver := ⟨none⟩ }).2.2 crosses hdecides
      monotone_crosses hmethod
  exact ⟨hdecides, monotone_crosses, hmethod, hcrosses, flags, hrun, hbelong, hirreducible hcrosses⟩

/-- An engine whose problem is empty, and whose method has a number that is not known. -/
def unknownMethodEngine : Engine where
  backend := .solver
  store := .afterOps none [.setParam Param.method (.int 99)]

/-- A library that refuses an option and would find a problem optimal. -/
def refusingHost : Host ScriptedSolver :=
  { solver := { codes := [("output_flag", -1)], runs := [{ modelStatus := 7 }] } }

/-- Where the method is not known, there are no flags, though the library decides everything and the
problem is feasible. Where the library refuses an option, there are flags nevertheless. -/
theorem conflict_despite_refusal :
    (Decides BoxSolver (constraints unknownMethodEngine.store) crosses ∧
      Monotone crosses (constraints unknownMethodEngine.store) ∧
      crosses (constraints unknownMethodEngine.store) = false ∧
      (computeIis.run unknownMethodEngine ({ solver := ⟨none⟩ } : Host BoxSolver)).1.1 =
        ResultCode.abortInvalidMethod.code) ∧
    (refusingHost.solver.codeOf "output_flag" = InstanceId.failure ∧
      (computeIis.run crossingEngine refusingHost).1.1 = ResultCode.okay.code) := by
  have hnone (bs : List BoundRef) :
      crosses ((constraints unknownMethodEngine.store).relaxAll bs) = false := by
    have hlower : (constraints unknownMethodEngine.store).lower = [] := by decide
    rw [crosses, LinearProgram.lower_relaxAll, hlower]
    rfl
  refine ⟨⟨boxSolver_decides _, fun bs b _ => ?_, hnone [], ?_⟩, ?_, ?_⟩
  · rw [← LinearProgram.relaxAll_concat, hnone]
  · decide +kernel
  · decide
  · decide +kernel

end Engine

end MathProgram
