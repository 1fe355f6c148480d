import MathProgram.Proofs.Decimal.Literal
import MathProgram.Proofs.Store.Atomic

/-!
# Jobs of a store

A store records jobs in a list to which it only ever adds. The identifier of a job is made of its
number in the list, and of nothing else: numbers are padded to six digits, and a longer one is
written in full, so different numbers have different texts (`Job.idOf_injective`). In a list that is
`Numbered` each job is therefore found under its own identifier, wherever it stands.

`Permanent` says of a run that its jobs are recalled as they were submitted, that their identifiers
are distinct and that no others are known. It holds where each step appends one record or leaves the
list alone (`Permanent.of_appends`), as the operations of a store do (`Store.permanent_jobs`).
-/

namespace MathProgram

namespace Job

variable {jobs : List Job} {job : Job} {id : String}

/-! ## Identifiers -/

/-- The digits of an identifier denote the number of the job, padded or not. -/
theorem digitsValue_padded (n k : ℕ) :
    Decimal.digitsValue 0 (List.replicate k '0' ++ Nat.toDigits 10 n) = n := by
  rw [Decimal.digitsValue_append, Decimal.digitsValue_replicate_zero, Nat.mul_zero,
    Decimal.digitsValue_toDigits]

/-- Different numbers give different identifiers. -/
theorem idOf_injective : Function.Injective idOf := by
  intro m n hid
  have hlist := congrArg String.toList hid
  simp only [idOf, String.toList_append, String.toList_ofList, List.append_cancel_left_eq] at hlist
  have hvalue := congrArg (Decimal.digitsValue 0) hlist
  rwa [digitsValue_padded, digitsValue_padded] at hvalue

example : [idOf 1, idOf 999999, idOf 1000000] = ["job-000001", "job-999999", "job-1000000"] := by
  decide

/-! ## Lists of jobs -/

/-- The jobs of a list have the identifiers of their numbers, from one on. -/
def Numbered (jobs : List Job) : Prop := ∀ i job, jobs[i]? = some job → job.id = idOf (i + 1)

/-- Looks up a job in a list. -/
def lookUp (jobs : List Job) (id : String) : Except ResultCode Job :=
  match jobs.find? (·.id == id) with
  | some job => .ok job
  | none => .error .remoteInvalidToken

/-- A job that is appended takes the next number. -/
theorem Numbered.concat (h : Numbered jobs) (hjob : job.id = idOf (jobs.length + 1)) :
    Numbered (jobs ++ [job]) := by
  intro i job' hi
  rw [List.getElem?_append] at hi
  split_ifs at hi with hlt
  · exact h i job' hi
  · obtain ⟨hlast, rfl⟩ := List.getElem?_eq_some_iff.1 hi
    rw [List.length_singleton] at hlast
    obtain rfl : i = jobs.length := by omega
    rwa [List.getElem_singleton]

/-- A job of the list is found under its identifier. -/
theorem Numbered.lookUp_of_mem (h : Numbered jobs) (hjob : job ∈ jobs) :
    lookUp jobs job.id = .ok job := by
  obtain ⟨i, hi⟩ := List.mem_iff_getElem?.1 hjob
  have hsome : (jobs.find? (·.id == job.id)).isSome :=
    List.find?_isSome.2 ⟨job, hjob, beq_self_eq_true job.id⟩
  obtain ⟨job', hfound⟩ := Option.isSome_iff_exists.1 hsome
  obtain ⟨k, hk⟩ := List.mem_iff_getElem?.1 (List.mem_of_find?_eq_some hfound)
  have hsame := List.find?_some hfound
  have hid : job'.id = job.id := eq_of_beq hsame
  -- Both have the number of the place where they stand, so they stand at the same place.
  have hplace : k + 1 = i + 1 := idOf_injective (by rw [← h k job' hk, ← h i job hi, hid])
  obtain rfl : k = i := Nat.succ_injective hplace
  obtain rfl : job' = job := Option.some.inj (hk.symm.trans hi)
  rw [lookUp, hfound]

/-- What is found has the identifier. -/
theorem id_of_lookUp (h : lookUp jobs id = .ok job) : job.id = id := by
  unfold lookUp at h
  cases hfound : jobs.find? (·.id == id) with
  | none =>
    rw [hfound] at h
    cases h
  | some job' =>
    rw [hfound] at h
    cases h
    have hsame := List.find?_some hfound
    exact eq_of_beq hsame

/-- No job is found under an identifier that none has. -/
theorem lookUp_of_forall_ne (h : ∀ job ∈ jobs, job.id ≠ id) :
    lookUp jobs id = .error .remoteInvalidToken := by
  have hnone : jobs.find? (·.id == id) = none :=
    List.find?_eq_none.2 fun job hjob heq => h job hjob (eq_of_beq heq)
  rw [lookUp, hnone]

/-- The job is the outcome of a solve that ended with a result code and left a store behind. -/
structure IsOutcome (job : Job) (s : Store) (result : Int32) : Prop where
  state : job.state = if result = 0 then .finished else .failed
  modelStatus : job.modelStatus = s.solution.status
  result : job.result = result
  hasSolution : job.hasSolution = s.solution.hasSolution

/-- What is reported of a job. -/
def report (job : Job) : Engine.JobReport where
  state := job.state.word
  modelStatus := job.modelStatus.code
  result := job.result
  hasSolution := job.hasSolution

/-- There is just one outcome under an identifier. -/
theorem IsOutcome.unique {job' : Job} {s : Store} {result : Int32} (h : job.IsOutcome s result)
    (h' : job'.IsOutcome s result) (hid : job.id = job'.id) : job = job' := by
  obtain ⟨hstate, hstatus, hresult, hsolution⟩ := h
  obtain ⟨hstate', hstatus', hresult', hsolution'⟩ := h'
  cases job
  cases job'
  dsimp only at *
  rw [hid, hstate, hstate', hstatus, hstatus', hresult, hresult', hsolution, hsolution']

end Job

/-! ## Runs -/

/-- The jobs of a run are permanent. A job that a step submits is recalled after the run as it was
submitted, no two of them have the same identifier, and an identifier that has been issued neither
by the run nor before it is not known. -/
structure Permanent {τ : Type} (steps : List τ) (earlier : List Job)
    (submits : List τ → τ → Job → Prop) (recalls : String → Except ResultCode Job → Prop) :
    Prop where
  kept : ∀ job ∈ earlier, recalls job.id (.ok job)
  recalled : ∀ done t since job, steps = done ++ t :: since → submits done t job →
    recalls job.id (.ok job)
  distinct : ∀ done t mid t' since job job', steps = done ++ t :: (mid ++ t' :: since) →
    submits done t job → submits (done ++ t :: mid) t' job' → job.id ≠ job'.id
  unknown : ∀ id, (∀ job ∈ earlier, job.id ≠ id) →
    (∀ done t since job, steps = done ++ t :: since → submits done t job → job.id ≠ id) →
      recalls id (.error .remoteInvalidToken)

section Runs

variable {τ : Type} {jobs : List τ → List Job} {submits : List τ → τ → Job → Prop}

/-- Each step of a run submits one job and appends it under the next number, or it submits none and
leaves the jobs as they are. -/
def Appends (jobs : List τ → List Job) (submits : List τ → τ → Job → Prop) : Prop := ∀ done t,
  (∃ job, (∀ job', submits done t job' ↔ job' = job) ∧ jobs (done ++ [t]) = jobs done ++ [job] ∧
    job.id = Job.idOf ((jobs done).length + 1)) ∨
  (∀ job, ¬submits done t job) ∧ jobs (done ++ [t]) = jobs done

namespace Appends

/-- The jobs stay numbered. -/
theorem numbered (h : Appends jobs submits) (hstart : Job.Numbered (jobs [])) (steps : List τ) :
    Job.Numbered (jobs steps) := by
  induction steps using List.reverseRecOn with
  | nil => exact hstart
  | append_singleton done t ih =>
    obtain ⟨job, -, hjobs, hid⟩ | ⟨-, hjobs⟩ := h done t
    · rw [hjobs]
      exact ih.concat hid
    · rwa [hjobs]

/-- Jobs that there are remain, in their places. -/
theorem prefix_append (h : Appends jobs submits) (done since : List τ) :
    jobs done <+: jobs (done ++ since) := by
  induction since using List.reverseRecOn with
  | nil => rw [List.append_nil]
  | append_singleton since t ih =>
    rw [← List.append_assoc]
    obtain ⟨job, -, hjobs, -⟩ | ⟨-, hjobs⟩ := h (done ++ since) t
    · rw [hjobs]
      exact ih.trans (List.prefix_append ..)
    · rwa [hjobs]

/-- A job that is submitted is appended under the next number. -/
theorem of_submits (h : Appends jobs submits) {done : List τ} {t : τ} {job : Job}
    (hjob : submits done t job) : jobs (done ++ [t]) = jobs done ++ [job] ∧
      job.id = Job.idOf ((jobs done).length + 1) := by
  obtain ⟨job', hsubmits, hjobs, hid⟩ | ⟨hnone, -⟩ := h done t
  · obtain rfl := (hsubmits job).1 hjob
    exact ⟨hjobs, hid⟩
  · exact absurd hjob (hnone job)

/-- A job that a step submits is there after the run. -/
theorem mem_of_submits (h : Appends jobs submits) {done since : List τ} {t : τ} {job : Job}
    (hjob : submits done t job) : job ∈ jobs (done ++ t :: since) := by
  have hprefix := h.prefix_append (done ++ [t]) since
  rw [List.append_assoc, List.singleton_append, (h.of_submits hjob).1] at hprefix
  exact hprefix.subset (List.mem_concat_self)

/-- A job that is there after a run was there before it, or a step has submitted it. -/
theorem mem_cases (h : Appends jobs submits) {steps : List τ} {job : Job}
    (hjob : job ∈ jobs steps) : job ∈ jobs [] ∨
      ∃ done t since, steps = done ++ t :: since ∧ submits done t job := by
  induction steps using List.reverseRecOn with
  | nil => exact .inl hjob
  | append_singleton done t ih =>
    have hearlier (hjob : job ∈ jobs done) : job ∈ jobs [] ∨
        ∃ done' t' since, done ++ [t] = done' ++ t' :: since ∧ submits done' t' job := by
      refine (ih hjob).imp_right fun ⟨done', t', since, hsplit, hsubmits⟩ => ?_
      exact ⟨done', t', since ++ [t], by rw [hsplit, List.append_assoc, List.cons_append], hsubmits⟩
    obtain ⟨job', hsubmits, hjobs, -⟩ | ⟨-, hjobs⟩ := h done t
    · rw [hjobs, List.mem_append, List.mem_singleton] at hjob
      obtain hjob | rfl := hjob
      · exact hearlier hjob
      · exact .inr ⟨done, t, [], rfl, (hsubmits job).2 rfl⟩
    · rw [hjobs] at hjob
      exact hearlier hjob

end Appends

/-- Where steps append their jobs to a list that is numbered, and a job is recalled by looking it up
in the list, the jobs of every run are permanent. -/
theorem Permanent.of_appends (h : Appends jobs submits) (hstart : Job.Numbered (jobs []))
    (steps : List τ) {recalls : String → Except ResultCode Job → Prop}
    (hrecalls : ∀ id, recalls id (Job.lookUp (jobs steps) id)) :
    Permanent steps (jobs []) submits recalls where
  kept job hjob := by
    rw [← (h.numbered hstart steps).lookUp_of_mem ((h.prefix_append [] steps).subset hjob)]
    exact hrecalls job.id
  recalled done t since job hsplit hjob := by
    have hmem : job ∈ jobs (done ++ t :: since) := h.mem_of_submits hjob
    rw [← hsplit] at hmem
    rw [← (h.numbered hstart steps).lookUp_of_mem hmem]
    exact hrecalls job.id
  distinct done t mid t' since job job' hsplit hjob hjob' hid := by
    obtain ⟨hjobs, hnumber⟩ := h.of_submits hjob
    have hlonger := (h.prefix_append (done ++ [t]) mid).length_le
    rw [List.append_assoc, List.singleton_append, hjobs, List.length_append,
      List.length_singleton] at hlonger
    rw [hnumber, (h.of_submits hjob').2] at hid
    have := Job.idOf_injective hid
    omega
  unknown id hearlier hsteps := by
    have hne : ∀ job ∈ jobs steps, job.id ≠ id := fun job hjob => by
      obtain hjob | ⟨done, t, since, hsplit, hsubmits⟩ := h.mem_cases hjob
      · exact hearlier job hjob
      · exact hsteps done t since job hsplit hsubmits
    rw [← Job.lookUp_of_forall_ne hne]
    exact hrecalls id

end Runs

namespace Store

variable {s s' : Store}

/-! ## Operations -/

/-- Writing a whole-number attribute records no job. -/
theorem jobs_setIntAttr {name : String} {index : Option ℕ} {v : Int32}
    (h : s.setIntAttr name index v = .ok s') : s'.jobs = s.jobs := by
  unfold setIntAttr at h
  split at h
  · split at h <;> cases h
    rfl
  · split at h
    · cases h
    · split at h
      · cases h
        rfl
      · obtain ⟨basis, -, h⟩ := bind_eq_ok.1 h
        cases h
        rfl
      · cases h
  · split at h
    · cases h
    · split at h
      · obtain ⟨basis, -, h⟩ := bind_eq_ok.1 h
        cases h
        rfl
      · cases h
  · cases h

/-- Writing a real attribute records no job. -/
theorem jobs_setRealAttr {name : String} {index : Option ℕ} {v : Float}
    (h : s.setRealAttr name index v = .ok s') : s'.jobs = s.jobs := by
  unfold setRealAttr at h
  grind [withProblem, invalidate, modifyCol, modifyRow]

/-- Writing a text attribute records no job. -/
theorem jobs_setStrAttr {name v : String} {index : Option ℕ}
    (h : s.setStrAttr name index v = .ok s') : s'.jobs = s.jobs := by
  unfold setStrAttr at h
  grind [setName]

/-- Setting a parameter records no job. -/
theorem jobs_setParam {name : String} {v : ParamValue} (h : s.setParam name v = .ok s') :
    s'.jobs = s.jobs := by
  unfold setParam at h
  cases hset : s.params.set name v with
  | error e => rw [hset] at h; cases h
  | ok t => rw [hset] at h; cases h; rfl

/-- An operation on the problem records no job. -/
theorem jobs_edit {f : Problem → Except ResultCode Problem} (h : s.edit f = .ok s') :
    s'.jobs = s.jobs := by
  obtain ⟨p, -, rfl⟩ := edit_eq_ok h
  rfl

/-- Loading a file of any bytes records no job. -/
theorem jobs_loadBytes (bytes : List UInt8) (parts : Sections) (s : Store) :
    (TaskFile.loadBytes bytes parts s).2.jobs = s.jobs := by
  refine TaskFile.loadBytes_invariant (P := fun s' => s'.jobs = s.jobs) bytes parts rfl
    (fun s₁ s₂ m hs h => ?_) (fun s₁ s₂ name v hs h => (jobs_setParam h).trans hs)
    fun s₁ sol hs => hs
  obtain ⟨s₃, hedit, h⟩ := bind_eq_ok.1 h
  cases h
  exact (jobs_edit hedit).trans hs

/-- The operation records a job. -/
def Op.Submits : Op → Store → Job → Prop
  | .recordJob result, s, job => job.id = (s.recordJob result).1 ∧ job.IsOutcome s result
  | _, _, _ => False

/-- The operation is not the one that records a job. -/
def Op.RecordsNothing : Op → Prop
  | .recordJob _ => False
  | _ => True

/-- An operation that is not for it records no job, whether it succeeds or fails. -/
theorem Op.RecordsNothing.jobs {op : Op} (hop : op.RecordsNothing) (s : Store) :
    (op.run s).2.jobs = s.jobs := by
  have hattempt {f : Store → Except ResultCode Store}
      (hf : ∀ s', f s = .ok s' → s'.jobs = s.jobs) : (TaskFile.attempt f s).2.jobs = s.jobs :=
    TaskFile.attempt_invariant (P := fun s' => s'.jobs = s.jobs) rfl hf
  cases op with
  | addCol | addRow | deleteCols | deleteRows | replaceProblem => exact hattempt fun _ => jobs_edit
  | setElements | deleteElements | deleteAllElements => exact hattempt fun _ => jobs_edit
  | setQuadElements | deleteQuadElements | deleteAllQuadElements =>
    exact hattempt fun _ => jobs_edit
  | setIntAttr => exact hattempt fun _ => jobs_setIntAttr
  | setRealAttr => exact hattempt fun _ => jobs_setRealAttr
  | setStrAttr => exact hattempt fun _ => jobs_setStrAttr
  | setParam => exact hattempt fun _ => jobs_setParam
  | readTask bytes parts => exact jobs_loadBytes bytes parts s
  | setName | setMinSense | setObjConst | setSolution | setIis | invalidate | setLog => rfl
  | recordJob => cases hop

/-- For a result code just one job is recorded, under the next number. -/
theorem exists_recordJob (s : Store) (result : Int32) : ∃ job : Job,
    (∀ job' : Job, (job'.id = (s.recordJob result).1 ∧ job'.IsOutcome s result) ↔ job' = job) ∧
      (s.recordJob result).2.jobs = s.jobs ++ [job] ∧ job.id = Job.idOf (s.jobs.length + 1) := by
  let job : Job := ⟨(s.recordJob result).1, if result == 0 then .finished else .failed,
    s.solution.status, result, s.solution.hasSolution⟩
  have hjob : job.IsOutcome s result := ⟨if_congr beq_iff_eq rfl rfl, rfl, rfl, rfl⟩
  refine ⟨job, fun job' => ⟨fun ⟨hid, hjob'⟩ => hjob'.unique hjob hid, ?_⟩, rfl, rfl⟩
  rintro rfl
  exact ⟨rfl, hjob⟩

/-! ## Looking up -/

/-- A store recalls a job under an identifier, or has a result code for it. Run in place, the lookup
writes the record of the job to the outputs; with a code it leaves them as they were. -/
structure Recalls (s : Store) (id : String) (r : Except ResultCode Job) : Prop where
  answers : s.job? id = r
  delivers : ∀ out : Engine.JobReport,
    ((Query.job id).procedure s).exec out = Query.delivered (r.map Job.report) out

/-- A store recalls what there is in its list. -/
theorem recalls_lookUp (s : Store) (id : String) : s.Recalls id (Job.lookUp s.jobs id) where
  answers := rfl
  delivers := Query.exec_procedure s (.job id)

/-- Of the operations on a store each appends a job or leaves the jobs alone. -/
theorem appends_afterOps (name : Option String) :
    Appends (fun ops => (afterOps name ops).jobs)
      (fun done op job => op.Submits (afterOps name done) job) := fun done op => by
  have hrun : afterOps name (done ++ [op]) = (op.run (afterOps name done)).2 := List.foldl_concat ..
  dsimp only
  rw [hrun]
  by_cases hop : op.RecordsNothing
  · refine .inr ⟨fun job hjob => ?_, hop.jobs _⟩
    cases op <;> first | exact hjob | exact hop
  · cases op with
    | recordJob result => exact .inl (exists_recordJob (afterOps name done) result)
    | _ => exact absurd trivial hop

/-- The jobs of a store are permanent. -/
theorem permanent_jobs (name : Option String) (ops : List Op) :
    Permanent ops [] (fun done op job => op.Submits (afterOps name done) job)
      (afterOps name ops).Recalls :=
  .of_appends (appends_afterOps name) nofun ops (recalls_lookUp _)

/-- The jobs of a reachable store are numbered. -/
theorem Reachable.numbered (h : s.Reachable) : Job.Numbered s.jobs := by
  obtain ⟨name, ops, rfl⟩ := h
  exact (appends_afterOps name).numbered nofun ops

end Store

end MathProgram
