import MathProgram.Proofs.Engine.Findings
import MathProgram.Proofs.Store.Jobs

/-!
# Jobs of an engine

To submit a job is to solve the problem and to record what came of it; no other call of an engine
records a job (`Method.jobs_run`).
-/

namespace MathProgram.Engine

open Store (Op)

variable {σ : Type} [Solver σ]

/-- Whatever is called, but for a submission, it does nothing to the store that records a job. -/
theorem Method.drives_run {c : Method} (hc : c ≠ .submitTask) :
    Drives Op.RecordsNothing (c.run : EngineM σ c.Result) := by
  cases c with
  | addCol c rows vals => exact drives_edit (.addCol c rows vals) rfl trivial
  | addRow r cols vals => exact drives_edit (.addRow r cols vals) rfl trivial
  | deleteCols cols => exact drives_edit (.deleteCols cols) rfl trivial
  | deleteRows rows => exact drives_edit (.deleteRows rows) rfl trivial
  | setElements rows cols vals => exact drives_edit (.setElements rows cols vals) rfl trivial
  | deleteElements rows cols => exact drives_edit (.deleteElements rows cols) rfl trivial
  | deleteAllElements => exact drives_edit .deleteAllElements rfl trivial
  | setQuadElements cols₁ cols₂ vals =>
    exact drives_edit (.setQuadElements cols₁ cols₂ vals) rfl trivial
  | deleteQuadElements cols₁ cols₂ =>
    exact drives_edit (.deleteQuadElements cols₁ cols₂) rfl trivial
  | deleteAllQuadElements => exact drives_edit .deleteAllQuadElements rfl trivial
  | setAttr t name index v =>
    cases t
    · exact drives_edit (.setIntAttr name index v) rfl trivial
    · exact drives_edit (.setRealAttr name index v) rfl trivial
    · exact drives_edit (.setStrAttr name index v) rfl trivial
  | setParam name v => exact drives_edit (.setParam name v) rfl trivial
  | fetchCols | fetchRows => exact drives_fetch
  | elements | quadElements => exact drives_query
  | attr => exact drives_attr
  | param => exact drives_param
  | setLogToConsole | setLogCallback => exact drives_modifyLog fun _ => trivial
  | setLogFile => exact drives_setLogFile fun _ => trivial
  | displayResults => exact drives_displayResults
  | readTask => exact drives_guardedCode (drives_loadTask fun _ => trivial)
  | writeTask => exact drives_guardedCode drives_saveTask
  | readProb file =>
    refine (drives_readProb file).mono fun op hop => ?_
    cases op <;> first | exact trivial | exact hop
  | writeProb => exact drives_writeProb
  | writeSoln => exact drives_writeSoln
  | solveProb => exact drives_solveProb trivial fun _ => trivial
  | computeIis => exact drives_computeIis fun _ _ => trivial
  | status => exact drives_status
  | retrieveTask => exact drives_retrieveTask
  | free => exact drives_releaseKeeper
  | submitTask => exact absurd rfl hc

/-- Only a submission records a job. -/
theorem Method.jobs_run {c : Method} (hc : c ≠ .submitTask) (e : Engine) (h : Host σ) :
    (c.run.run e h).1.2.store.jobs = e.store.jobs := by
  obtain ⟨-, ops, hops, hstore⟩ := Method.drives_run hc e h
  rw [hstore]
  exact foldl_invariant (P := fun s : Store => s.jobs = e.store.jobs) rfl
    fun s hs op hop => ((hops op hop).jobs s).trans hs

/-- An engine submits a job: it solves the problem, records the outcome and gives the identifier. -/
structure Submits (e : Engine) (h : Host σ) (job : Job) : Prop where
  id : (submitTask.run e h).1.1 = job.id
  outcome : job.IsOutcome (solveProb.run e h).1.2.store (solveProb.run e h).1.1

/-- Submitting a job records just one, under the next number. -/
theorem exists_submits (e : Engine) (h : Host σ) : ∃ job : Job,
    (∀ job' : Job, Submits e h job' ↔ job' = job) ∧
      (submitTask.run e h).1.2.store.jobs = e.store.jobs ++ [job] ∧
      job.id = Job.idOf (e.store.jobs.length + 1) := by
  have hjobs : (solveProb.run e h).1.2.store.jobs = e.store.jobs :=
    Method.jobs_run (c := .solveProb) nofun e h
  have hid : (submitTask.run e h).1.1 =
      ((solveProb.run e h).1.2.store.recordJob (solveProb.run e h).1.1).1 := rfl
  obtain ⟨job, honly, hrecorded, hnumber⟩ :=
    (solveProb.run e h).1.2.store.exists_recordJob (solveProb.run e h).1.1
  rw [hjobs] at hrecorded hnumber
  refine ⟨job, fun job' => ?_, hrecorded, hnumber⟩
  rw [← honly job', ← hid]
  exact ⟨fun hjob => ⟨hjob.id.symm, hjob.outcome⟩, fun hjob => ⟨hjob.1.symm, hjob.2⟩⟩

/-- The script of a host leaves an engine its own reports of jobs. -/
def ReportsJobs (e : Engine) (h : Host σ) : Prop :=
  e.scripted = true → h.script.jobState = none ∧ h.script.jobStatus = none

omit [Solver σ] in
/-- What a call of an engine does that looks at it and at the host. -/
theorem run_getBoth {α : Type} (next : Engine → Host σ → EngineM σ α) (e : Engine) (h : Host σ) :
    (get >>= fun e => EngineM.host get >>= fun h => next e h).run e h = (next e h).run e h := rfl

omit [Solver σ] in
/-- An engine reports a job that its store has, and gives a code for any other. -/
theorem run_retrieveTask (id : String) {e : Engine} {h : Host σ} (hreports : e.ReportsJobs h) :
    (retrieveTask id).run e h =
      ((((e.store.job? id).map Job.report).mapError ResultCode.code, e), h) := by
  rw [retrieveTask, run_getBoth]
  cases e.store.job? id with
  | error c => rfl
  | ok job =>
    cases hscripted : e.scripted with
    | false => rfl
    | true =>
      obtain ⟨hstate, hstatus⟩ := hreports hscripted
      dsimp only
      rw [hstate, hstatus]
      rfl

end MathProgram.Engine
