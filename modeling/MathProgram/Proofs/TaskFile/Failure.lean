import Mathlib.Logic.Basic
import MathProgram.Proofs.Store.Reachable

/-!
# What a failed reading leaves behind

A file is refused before anything of it is put in place if it is no document, if a chosen section
has the wrong shape, or if its problem has an entry outside its rows and columns. Two faults are
found later, once the problem is in place (`LateFault`): a parameter whose value is none, which also
comes after the parameters before it, and a solution that does not fit, which comes after all
parameters. So reading a file is not all or nothing; `loadBytes_eq_error_iff` says exactly what it
is.
-/

namespace MathProgram.TaskFile

/-- All members have values that parameters can have. -/
def Readable (ps : List (String × Json)) : Prop := ∀ p ∈ ps, paramValue? p.2 ≠ none

/-- The parameter values of members, as far as they have one. -/
def paramValues (ps : List (String × Json)) : List (String × ParamValue) :=
  ps.filterMap fun (name, v) => (paramValue? v).map fun v => (name, v)

/-- Sets parameters one after another and passes over those that the store does not take. -/
def setParams (ps : List (String × ParamValue)) (s : Store) : Store :=
  ps.foldl (fun s p => (attempt (·.setParam p.1 p.2) s).2) s

/-- A fault that is found once the problem of a document is in place, with the code it is reported
by and the store it leaves. -/
inductive LateFault (d : Parsed) (s : Store) : ResultCode → Store → Prop
  /-- A parameter has a value that is none; those before it are set. -/
  | param {pre post : List (String × Json)} {name : String} {v : Json}
    (hps : d.params = some (pre ++ (name, v) :: post)) (hpre : Readable pre)
    (hv : paramValue? v = none) :
    LateFault d s .formatError (setParams (paramValues pre) s)
  /-- The solution does not fit; all parameters are set. -/
  | solution {sol : Solution} (hps : Readable (d.params.getD [])) (hsol : d.solution = some sol)
    (hfit : ¬sol.Fits s.numCols s.numRows) :
    LateFault d s .modelInputError (setParams (paramValues (d.params.getD [])) s)

/-- A file of these bytes is refused before anything of it is put in place. -/
def Refused (bytes : List UInt8) (parts : Sections) (s : Store) (e : ResultCode) : Prop :=
  (∃ err, Json.read bytes = .error err ∧ e = .formatError) ∨
    ∃ doc, Json.read bytes = .ok doc ∧ (parse doc parts = .error e ∨
      ∃ d, parse doc parts = .ok d ∧ placeModel d.model s = .error e)

/-- A file of these bytes is read and its problem put in place, and then there is a late fault. -/
def FailsLate (bytes : List UInt8) (parts : Sections) (s : Store) (e : ResultCode) (s' : Store) :
    Prop :=
  ∃ doc d s₁, Json.read bytes = .ok doc ∧ parse doc parts = .ok d ∧
    placeModel d.model s = .ok s₁ ∧ LateFault d s₁ e s'

/-- A store with the problem of a section in place and nothing of what was found for another. -/
structure Overwritten (m : ModelData) (s : Store) : Prop where
  name : s.problem.name = m.name
  minSense : s.problem.minSense = m.minSense
  objConst : s.problem.objConst = m.objConst
  cols : s.problem.cols = m.cols
  rows : s.problem.rows = m.rows
  solution : s.solution = {}
  iis : s.iis = none

variable {d : Parsed} {s s' : Store} {e : ResultCode} {ps pre rest : List (String × Json)}

/-! ## Parameters -/

/-- Setting parameters changes nothing but parameters. -/
theorem setParams_eq (ps : List (String × ParamValue)) (s : Store) :
    ∃ params, setParams ps s = { s with params } := by
  induction ps generalizing s with
  | nil => exact ⟨s.params, rfl⟩
  | cons p ps ih =>
    have hstep : ∃ params, (attempt (·.setParam p.1 p.2) s).2 = { s with params } := by
      dsimp only [attempt, Store.setParam]
      cases s.params.set p.1 p.2 with
      | error e => exact ⟨s.params, rfl⟩
      | ok params => exact ⟨params, rfl⟩
    obtain ⟨params, hparams⟩ := hstep
    obtain ⟨params', hparams'⟩ := ih { s with params }
    refine ⟨params', ?_⟩
    rw [setParams, List.foldl_cons, hparams]
    exact hparams'

/-- Members with values are set first, and then the others. -/
theorem applyParams_append (hpre : Readable pre) (rest : List (String × Json)) (s : Store) :
    applyParams (pre ++ rest) s = applyParams rest (setParams (paramValues pre) s) := by
  induction pre generalizing s with
  | nil => rfl
  | cons p pre ih =>
    obtain ⟨name, v⟩ := p
    obtain ⟨hv, hpre⟩ := List.forall_mem_cons.1 hpre
    obtain ⟨w, hw⟩ := Option.ne_none_iff_exists'.1 hv
    have hvalues : paramValues ((name, v) :: pre) = (name, w) :: paramValues pre := by
      simp only [paramValues, List.filterMap_cons, hw, Option.map_some]
    -- A member that the store does not take is passed over on both sides.
    rw [List.cons_append, applyParams, hw, hvalues, setParams, List.foldl_cons, attempt]
    dsimp only
    cases s.setParam name w with
    | error e => exact ih hpre s
    | ok s₁ => exact ih hpre s₁

/-- Among members either all have values, or there is a first that has none. -/
theorem readable_or_fault (ps : List (String × Json)) : Readable ps ∨
    ∃ pre name v post, ps = pre ++ (name, v) :: post ∧ Readable pre ∧ paramValue? v = none := by
  induction ps with
  | nil => exact .inl fun p hp => absurd hp List.not_mem_nil
  | cons p ps ih =>
    obtain ⟨name, v⟩ := p
    -- The first member has no value itself, or it goes in front of what is found behind it.
    by_cases hv : paramValue? v = none
    · exact .inr ⟨[], name, v, ps, rfl, fun p hp => absurd hp List.not_mem_nil, hv⟩
    · obtain hps | ⟨pre, name', v', post, rfl, hpre, hv'⟩ := ih
      · exact .inl (List.forall_mem_cons.2 ⟨hv, hps⟩)
      · exact .inr ⟨(name, v) :: pre, name', v', post, rfl, List.forall_mem_cons.2 ⟨hv, hpre⟩, hv'⟩

/-- No parameters are set like an empty list of them. -/
theorem placeParams_eq (ps : Option (List (String × Json))) (s : Store) :
    placeParams ps s = applyParams (ps.getD []) s := by
  cases ps <;> rfl

/-- Parameters that all have values are set. -/
theorem placeParams_of_readable (h : Readable (d.params.getD [])) (s : Store) :
    placeParams d.params s = (.ok (), setParams (paramValues (d.params.getD [])) s) := by
  have happend := applyParams_append h [] s
  rw [List.append_nil] at happend
  rw [placeParams_eq, happend]
  rfl

/-- Parameters before one without a value are set. -/
theorem placeParams_of_fault {name : String} {v : Json}
    (hps : d.params = some (pre ++ (name, v) :: rest)) (hpre : Readable pre)
    (hv : paramValue? v = none) (s : Store) :
    placeParams d.params s = (.error .formatError, setParams (paramValues pre) s) := by
  rw [placeParams_eq, hps, Option.getD_some, applyParams_append hpre, applyParams, hv]

/-! ## Documents -/

/-- The last step fails where there is a solution that does not fit. -/
theorem attempt_placeSolution_eq_error_iff {sol : Option Solution} :
    attempt (placeSolution sol) s = (.error e, s') ↔
      ∃ sol', sol = some sol' ∧ ¬sol'.Fits s.numCols s.numRows ∧ e = .modelInputError ∧ s' = s := by
  cases sol with
  | none =>
    have hdone : attempt (placeSolution none) s = (.ok (), s) := rfl
    rw [hdone]
    constructor
    · intro h
      cases h
    · rintro ⟨_, ⟨⟩, -⟩
  | some sol =>
    unfold attempt placeSolution
    dsimp only
    by_cases hfit : sol.Fits s.numCols s.numRows
    · rw [applySolution_of_fits hfit]
      refine ⟨nofun, ?_⟩
      rintro ⟨_, ⟨⟩, hnot, -⟩
      exact absurd hfit hnot
    · rw [applySolution_of_not_fits hfit]
      constructor
      · intro h
        cases h
        exact ⟨sol, rfl, hfit, rfl, rfl⟩
      · rintro ⟨_, -, -, rfl, rfl⟩
        rfl

/-- The last two steps fail where there is a late fault. -/
theorem placeRest_eq_error_iff :
    placeRest d.params d.solution s = (.error e, s') ↔ LateFault d s e s' := by
  -- Setting parameters does not change what a solution has to fit.
  have hsize (ps : List (String × ParamValue)) : (setParams ps s).numCols = s.numCols ∧
      (setParams ps s).numRows = s.numRows := by
    obtain ⟨params, h⟩ := setParams_eq ps s
    rw [h]
    exact ⟨rfl, rfl⟩
  unfold placeRest
  constructor
  · intro h
    obtain hps | ⟨pre, name, v, post, hps, hpre, hv⟩ := readable_or_fault (d.params.getD [])
    · rw [placeParams_of_readable hps] at h
      obtain ⟨sol, hsol, hfit, rfl, rfl⟩ := attempt_placeSolution_eq_error_iff.1 h
      rw [(hsize _).1, (hsize _).2] at hfit
      exact .solution hps hsol hfit
    · have hsome : d.params = some (pre ++ (name, v) :: post) := by
        cases hd : d.params with
        | none => rw [hd] at hps; simp at hps
        | some ps => rw [hd] at hps; exact congrArg some hps
      rw [placeParams_of_fault hsome hpre hv] at h
      cases h
      exact .param hsome hpre hv
  · rintro (⟨hps, hpre, hv⟩ | ⟨hps, hsol, hfit⟩)
    · rw [placeParams_of_fault hps hpre hv]
    · rw [placeParams_of_readable hps]
      rw [← (hsize (paramValues (d.params.getD []))).1,
        ← (hsize (paramValues (d.params.getD []))).2] at hfit
      exact attempt_placeSolution_eq_error_iff.2 ⟨_, hsol, hfit, rfl, rfl⟩

/-- Putting sections in place fails where the problem is refused, and where there is a late
fault. -/
theorem run_apply_eq_error_iff : (apply d).run s = (.error e, s') ↔
    (placeModel d.model s = .error e ∧ s' = s) ∨
      ∃ s₁, placeModel d.model s = .ok s₁ ∧ LateFault d s₁ e s' := by
  rw [run_apply]
  cases placeModel d.model s with
  | error e' => grind
  | ok s₁ =>
    dsimp only
    rw [placeRest_eq_error_iff]
    grind

/-- Reading a file fails where the file is refused, which changes nothing, and where there is a late
fault, which leaves what was put in place before. -/
theorem loadBytes_eq_error_iff {bytes : List UInt8} {parts : Sections} :
    loadBytes bytes parts s = (.error e, s') ↔
      (Refused bytes parts s e ∧ s' = s) ∨ FailsLate bytes parts s e s' := by
  unfold loadBytes Refused FailsLate
  cases Json.read bytes with
  | error err => grind
  | ok doc =>
    dsimp only
    unfold load
    cases hparse : parse doc parts with
    | error e' => grind
    | ok d =>
      dsimp only
      rw [run_apply_eq_error_iff]
      grind

/-! ## What a late fault leaves -/

/-- A problem that is put in place overwrites the store. -/
theorem overwritten_of_applyModel {m : ModelData} (h : applyModel m s = .ok s') :
    Overwritten m s' := by
  rw [applyModel] at h
  obtain ⟨s₁, hedit, hs'⟩ := bind_eq_ok.1 h
  obtain ⟨p, hp, rfl⟩ := Store.edit_eq_ok hedit
  cases hs'
  have hdata := Problem.replaceData_eq_ok hp
  have hcols : p.cols = m.cols := congrArg Problem.cols hdata
  have hrows : p.rows = m.rows := congrArg Problem.rows hdata
  exact ⟨rfl, rfl, rfl, hcols, hrows, rfl, rfl⟩

/-- After a late fault only parameters have changed. -/
theorem LateFault.params_eq (h : LateFault d s e s') : ∃ params, s' = { s with params } := by
  cases h with
  | param => exact setParams_eq _ s
  | solution => exact setParams_eq _ s

/-- A late fault is not reported as success. -/
theorem LateFault.code_ne_okay (h : LateFault d s e s') : e.code ≠ ResultCode.okay.code := by
  cases h with
  | param => decide
  | solution => decide

/-- A file that fails late is not reported as read. -/
theorem FailsLate.code_ne_okay {bytes : List UInt8} {parts : Sections}
    (h : FailsLate bytes parts s e s') : e.code ≠ ResultCode.okay.code := by
  obtain ⟨_, _, _, -, -, -, hfault⟩ := h
  exact hfault.code_ne_okay

/-- A file that fails late leaves other parameters at most if no problem was to be put in place, and
otherwise the file's problem in place of the store's. -/
theorem FailsLate.leaves {bytes : List UInt8} {parts : Sections}
    (h : FailsLate bytes parts s e s') :
    ∃ doc d, Json.read bytes = .ok doc ∧ parse doc parts = .ok d ∧
      ((d.model = none ∧ ∃ params, s' = { s with params }) ∨
        ∃ m, d.model = some m ∧ Overwritten m s') := by
  obtain ⟨doc, d, s₁, hread, hparse, hplace, hfault⟩ := h
  refine ⟨doc, d, hread, hparse, ?_⟩
  -- After the problem only parameters change, so the rest is what the first step left.
  obtain ⟨params, rfl⟩ := hfault.params_eq
  cases hmodel : d.model with
  | none =>
    rw [hmodel] at hplace
    cases hplace
    exact .inl ⟨rfl, params, rfl⟩
  | some m =>
    rw [hmodel] at hplace
    obtain ⟨hname, hsense, hconst, hcols, hrows, hsolution, hiis⟩ :=
      overwritten_of_applyModel hplace
    exact .inr ⟨m, rfl, hname, hsense, hconst, hcols, hrows, hsolution, hiis⟩

end MathProgram.TaskFile
