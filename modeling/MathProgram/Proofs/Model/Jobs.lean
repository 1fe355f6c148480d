import MathProgram.Proofs.Engine.Jobs
import MathProgram.Proofs.Model.Findings
import MathProgram.Proofs.TaskFile.Parse

/-!
# Jobs are permanent

A model has its jobs in the store of its engine, where only a submission records one. That no other
call of the model does so follows from what the calls of the engine do, as jobs are `Stable`
(`Call.sameJobs`); copies take the jobs with them. So each step of a run appends a job to the list
or leaves it alone (`Step.jobs_after`), and the jobs of every run are `Permanent`, as those of a
store are (`Model.jobs_permanent`).

What is recalled is stated on three levels (`Model.Recalls`): what the store writes to the outputs,
what the engine reports, and what the model makes of the report.
-/

namespace MathProgram

open ModelM

variable {σ : Type} [Solver σ]

/-- A relation between engines: the second has the jobs of the first. -/
def Engine.SameJobs (e e' : Engine) : Prop := e'.store.jobs = e.store.jobs

/-- An engine has the same jobs after calls that find nothing. -/
instance Engine.stable_sameJobs : Engine.Stable σ Engine.SameJobs where
  refl _ := rfl
  trans h h' := h'.trans h
  method c hc := Method.jobs_run (c := c) fun hsubmit => hc (by rw [hsubmit]; trivial)

/-- The word for the state of a job is read as that state. -/
theorem JobState.ofWord?_word (s : JobState) : ofWord? s.word = some s := by
  cases s <;> decide

/-- A job as a model reports it. -/
def Job.remote (job : Job) : RemoteJob where
  id := job.id
  state := job.state
  modelStatus := job.modelStatus
  result := job.result
  hasSolution := job.hasSolution

namespace Model

/-- A model recalls a job under an identifier, or has a result code for it. If it has not been
freed, looking the job up gives its record, and a job that is finished leaves the model solved; a
code makes the lookup fail and leaves the model as it is. The script of the host is not to prescribe
what the engine reports. -/
structure Recalls (σ : Type) (m : Model) (id : String) (r : Except ResultCode Job) : Prop where
  store : m.engine.store.Recalls id r
  engine : ∀ h : Host σ, m.engine.ReportsJobs h → (Engine.retrieveTask id).run m.engine h =
    (((r.map Job.report).mapError ResultCode.code, m.engine), h)
  found : ∀ (job : Job) (h : Host σ), r = .ok job → m.state ≠ .freed → m.engine.ReportsJobs h →
    (retrieveTask id).run m h =
      ((.ok job.remote, if job.state = .finished then { m with state := .solved } else m), h)
  unknown : ∀ (code : ResultCode) (h : Host σ), r = .error code → m.state ≠ .freed →
    m.engine.ReportsJobs h → ∃ journal, (retrieveTask id).run m h =
      ((.error (.engine code.code (ResultCode.explain code.code)), m), { h with journal })

omit [Solver σ] in
/-- A model recalls what there is in the list of its engine's store. -/
theorem recalls_lookUp (m : Model) (id : String) :
    Recalls σ m id (Job.lookUp m.engine.store.jobs id) where
  store := m.engine.store.recalls_lookUp id
  engine h hreports := Engine.run_retrieveTask id hreports
  found job h hjob hfreed hreports := by
    have hengine : (Engine.retrieveTask id).run m.engine h = ((.ok job.report, m.engine), h) := by
      have hfound : m.engine.store.job? id = .ok job := hjob
      rw [Engine.run_retrieveTask id hreports, hfound]
      rfl
    obtain rfl := Job.id_of_lookUp hjob
    have hstate : JobState.ofWord? job.report.state = some job.state :=
      JobState.ofWord?_word job.state
    have hstatus : knownStatus job.report.modelStatus = job.modelStatus := by
      rw [knownStatus]
      exact congrArg (·.getD .unknown) (TaskFile.ofCode?_code job.modelStatus)
    rw [retrieveTask, run_bind, run_withEngine, if_neg hfreed, hengine]
    dsimp only
    rw [hstate, hstatus]
    by_cases hfinished : job.state = .finished
    · rw [if_pos hfinished]
      dsimp only
      rw [if_pos hfinished]
      rfl
    · rw [if_neg hfinished]
      dsimp only
      rw [if_neg hfinished]
      rfl
  unknown code h hcode hfreed hreports := by
    have hengine : (Engine.retrieveTask id).run m.engine h = ((.error code.code, m.engine), h) := by
      have hnone : m.engine.store.job? id = .error code := hcode
      rw [Engine.run_retrieveTask id hreports, hnone]
      rfl
    rw [retrieveTask, run_bind, run_withEngine, if_neg hfreed, hengine]
    exact ⟨_, rfl⟩

end Model

/-- The step submits a job: it is a call for it, and gives the identifier of the job. -/
def Step.Submits : Step σ → Model → Job → Prop
  | .call .submitTask h, m, job => m.state ≠ .freed ∧
    (Model.submitTask.run m h).1.1 = .ok job.id ∧ m.engine.Submits h job
  | .method .submitTask h, m, job => m.engine.Submits h job
  | _, _, _ => False

/-- Submitting a job: the engine is asked unless the model has been freed. -/
theorem Model.engine_submitTask (m : Model) (h : Host σ) : (submitTask.run m h).1.2.engine =
    if m.state = .freed then m.engine else (Engine.submitTask.run m.engine h).1.2 := by
  rw [submitTask, run_bind, run_withEngine]
  split_ifs <;> rfl

/-- A call of a model that submits a job gives its identifier. -/
theorem Model.submits_submitTask {m : Model} (hfreed : m.state ≠ .freed) (h : Host σ) (job : Job) :
    (Step.call .submitTask h).Submits m job ↔ m.engine.Submits h job := by
  have hrun : (submitTask.run m h).1.1 = .ok (Engine.submitTask.run m.engine h).1.1 := by
    rw [submitTask, run_bind, run_withEngine, if_neg hfreed]
    rfl
  refine ⟨fun hjob => hjob.2.2, fun hjob => ⟨hfreed, ?_, hjob⟩⟩
  rw [hrun, hjob.id]

/-- The call of an engine by which a job is submitted is made to submit a job. -/
theorem Call.ne_submitTask_of_finder? {c : Call} {c' : Engine.Method} (hc : c.finder? = some c')
    (hne : c ≠ .submitTask) : c' ≠ .submitTask := by
  rintro rfl
  cases c with
  | submitTask => exact hne rfl
  | readTask file parts =>
    obtain ⟨name, -, hmethod⟩ := Option.map_eq_some_iff.1 hc
    cases hmethod
  | _ => cases hc

/-- A call of a model that is not a submission records no job. -/
theorem Call.sameJobs {c : Call} (hc : c ≠ .submitTask) (m : Model) (h : Host σ) :
    m.engine.SameJobs (c.run.run m h).1.2.engine := by
  obtain ⟨-, hsame⟩ | ⟨c', hfinder, -, hsame⟩ := c.moves (R := Engine.SameJobs) m h
  · exact hsame
  · exact hsame.trans (c'.jobs_run (c.ne_submitTask_of_finder? hfinder hc) m.engine _)

/-- A step submits one job and records it under the next number, or it submits none and leaves the
jobs as they are. -/
theorem Step.jobs_after (t : Step σ) (m : Model) :
    (∃ job, (∀ job', t.Submits m job' ↔ job' = job) ∧
      (t.after m).engine.store.jobs = m.engine.store.jobs ++ [job] ∧
      job.id = Job.idOf (m.engine.store.jobs.length + 1)) ∨
    (∀ job, ¬t.Submits m job) ∧ (t.after m).engine.store.jobs = m.engine.store.jobs := by
  cases t with
  | method c h =>
    by_cases hc : c = .submitTask
    · subst hc
      exact .inl (m.engine.exists_submits h)
    · refine .inr ⟨fun job hjob => ?_, c.jobs_run hc m.engine h⟩
      cases c <;> first | exact hjob | exact hc rfl
  | call c h =>
    by_cases hc : c = .submitTask
    · subst hc
      have hengine : ((Step.call .submitTask h).after m).engine =
          if m.state = .freed then m.engine else (Engine.submitTask.run m.engine h).1.2 :=
        m.engine_submitTask h
      by_cases hfreed : m.state = .freed
      · rw [hengine, if_pos hfreed]
        exact .inr ⟨fun job hjob => hjob.1 hfreed, rfl⟩
      · rw [hengine, if_neg hfreed]
        obtain ⟨job, honly, hrecorded⟩ := m.engine.exists_submits h
        exact .inl ⟨job, fun job' => (Model.submits_submitTask hfreed h job').trans (honly job'),
          hrecorded⟩
    · refine .inr ⟨fun job hjob => ?_, c.sameJobs hc m h⟩
      cases c <;> first | exact hjob | exact hc rfl
  | copy h =>
    refine .inr ⟨fun job => id, ?_⟩
    rw [engine_copy]
    split_ifs <;> rfl
  | engineCopy => exact .inr ⟨fun job => id, rfl⟩

/-- Each step of a run of a model submits a job and records it, or leaves the jobs alone. -/
theorem Model.appends_afterSteps (m : Model) :
    Appends (fun steps : List (Step σ) => (m.afterSteps steps).engine.store.jobs)
      (fun done t job => t.Submits (m.afterSteps done) job) := fun done t => by
  dsimp only
  rw [afterSteps_concat]
  exact t.jobs_after (m.afterSteps done)

namespace Model

/-- Jobs are permanent. Take any run of a store, or of a model whose engine has a store that
operations lead to. Every submission gives an identifier. No two of them are the same, and whatever
is done afterwards, the identifier recalls what came of its own submission: the job is finished if
the solve ended with zero and has failed otherwise, with that result code, and with the status and
the flag that the store then had. An identifier that was not issued is not known: looking it up
fails with a code of its own, and neither the outputs nor the model change. -/
theorem jobs_permanent :
    (∀ (name : Option String) (ops : List Store.Op),
      Permanent ops [] (fun done op job => op.Submits (Store.afterOps name done) job)
        (Store.afterOps name ops).Recalls) ∧
    (∀ (m : Model) (steps : List (Step σ)), m.engine.store.Reachable →
      Permanent steps m.engine.store.jobs (fun done t job => t.Submits (m.afterSteps done) job)
        (Recalls σ (m.afterSteps steps))) ∧
    (∀ (s : Store) (result : Int32), ∃ job, (Store.Op.recordJob result).Submits s job) ∧
    ∀ (m : Model) (h : Host σ), m.state ≠ .freed →
      ∃ job, (Step.call .submitTask h).Submits m job := by
  refine ⟨Store.permanent_jobs, fun m steps hm => ?_, fun s result => ?_, fun m h hfreed => ?_⟩
  · exact .of_appends m.appends_afterSteps hm.numbered steps (recalls_lookUp _)
  · obtain ⟨job, honly, -⟩ := s.exists_recordJob result
    exact ⟨job, (honly job).2 rfl⟩
  · obtain ⟨job, honly, -⟩ := m.engine.exists_submits h
    exact ⟨job, (submits_submitTask hfreed h job).2 ((honly job).2 rfl)⟩

/-- A solve that ends with a solution is submitted, then a variable is added, and a solve that fails
is submitted. -/
def twoSubmissions : List (Step ScriptedSolver) := [
  .call .submitTask (hostOf { solves := [⟨0, some { status := .optimal, hasSolution := true }⟩] }),
  .call (.addVar ⟨0, 1, 1, false, none⟩) (hostOf {}),
  .call .submitTask (hostOf { solves := [⟨1, none⟩] })]

/-- The solution is gone with the added variable, but the first job is recalled with it. -/
theorem jobs_permanent_after_change :
    let m := newModel.afterSteps twoSubmissions
    m.engine.store.solution.hasSolution = false ∧ m.state ≠ .freed ∧
      ((retrieveTask "job-000001").run m (hostOf {})).1.1 =
        .ok ⟨"job-000001", .finished, .optimal, 0, true⟩ ∧
      ((retrieveTask "job-000002").run m (hostOf {})).1.1 =
        .ok ⟨"job-000002", .failed, .unknown, 1, false⟩ ∧
      ((retrieveTask "job-3").run m (hostOf {})).1.1 =
        .error (.engine ResultCode.remoteInvalidToken.code
          (ResultCode.explain ResultCode.remoteInvalidToken.code)) := by
  intro m
  have hreachable : newModel.engine.store.Reachable := ⟨none, [], rfl⟩
  have hfreed : m.state ≠ .freed := by decide
  have hreports : m.engine.ReportsJobs (hostOf {}) := fun _ => ⟨rfl, rfl⟩
  have hpermanent := (jobs_permanent (σ := ScriptedSolver)).2.1 newModel twoSubmissions hreachable
  have hfirst := hpermanent.recalled [] _ _ ⟨"job-000001", .finished, .optimal, 0, true⟩ rfl <|
    (submits_submitTask (by decide) _ _).2
      ⟨by decide, by decide, by decide, by decide,
        by decide⟩
  have hsecond := hpermanent.recalled (twoSubmissions.take 2) _ []
    ⟨"job-000002", .failed, .unknown, 1, false⟩ rfl <|
    (submits_submitTask (by decide) _ _).2
      ⟨by decide, by decide, by decide, by decide,
        by decide⟩
  have hthird : ∀ job ∈ m.engine.store.jobs, job.id ≠ "job-3" := by decide
  have hunknown := hpermanent.unknown "job-3" nofun fun done t since job hsplit hjob =>
    hthird job (by
      show job ∈ (newModel.afterSteps twoSubmissions).engine.store.jobs
      rw [hsplit]
      exact newModel.appends_afterSteps.mem_of_submits hjob)
  obtain ⟨journal, hlookup⟩ := hunknown.unknown _ (hostOf {}) rfl hfreed hreports
  exact ⟨by decide, hfreed, congrArg (·.1.1) (hfirst.found _ _ rfl hfreed hreports),
    congrArg (·.1.1) (hsecond.found _ _ rfl hfreed hreports), congrArg (·.1.1) hlookup⟩

end Model

end MathProgram
