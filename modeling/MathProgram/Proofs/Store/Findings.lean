import MathProgram.Proofs.Store.Reachable

/-!
# What a store has found

A store holds two findings about its problem, the solution of the last solve and the infeasible
subsystem of the last conflict search. A later store `Retains` a finding if whatever it holds was
held before, and for the same problem. Names are no part of what a problem is about, and a basis can
be edited without a solve, so both are left out of account (`Problem.unnamed`, `Solution.unbased`).

Every operation on a problem discards the findings. The sense and the constant are set without that,
but a file sets them only after its problem is in place, in a store that holds nothing
(`TaskFile.retains_applyModel`); and its solution comes last (`loadBytes_cases`).
-/

namespace MathProgram

/-- A column without its name. -/
def ColData.unnamed (c : ColData) : ColData := { c with name := none }

/-- A row without its name. -/
def RowData.unnamed (r : RowData) : RowData := { r with name := none }

/-- A problem without its names: bounds, objective, integrality, matrix and quadratic form. -/
def Problem.unnamed (p : Problem) : Problem :=
  { p with name := "", cols := p.cols.map (·.unnamed), rows := p.rows.map (·.unnamed) }

namespace Solution

/-- A solution without its basis. -/
def unbased (sol : Solution) : Solution := { sol with colBasis := [], rowBasis := [] }

/-- There is something to report: values, a status or statistics. -/
def Held (sol : Solution) : Prop :=
  sol.hasSolution = true ∨ sol.status ≠ .unknown ∨ sol.stats.isSome = true

instance (sol : Solution) : Decidable sol.Held := by unfold Held; infer_instance

end Solution

/-- What a store can have found. -/
inductive Finding where
  | solution
  | conflict
  deriving DecidableEq, Repr

/-- The type of a finding. -/
def Finding.Value : Finding → Type
  | .solution => Solution
  | .conflict => IisFlags

namespace Store

/-- What a store has found. A solution counts if there is something to report. -/
def found (s : Store) : (f : Finding) → Option f.Value
  | .solution => if s.solution.Held then some s.solution.unbased else none
  | .conflict => s.iis

/-- A later store holds a finding only if it was held before, and the problem is the same. -/
def Retains (f : Finding) (s s' : Store) : Prop :=
  ∀ v, s'.found f = some v → s.found f = some v ∧ s'.problem.unnamed = s.problem.unnamed

/-- A later store holds what was held before for the same problem, or what is said to be stored. -/
def Gains (stored : (f : Finding) → f.Value → Prop) (s s' : Store) : Prop :=
  ∀ f v, s'.found f = some v →
    s.found f = some v ∧ s'.problem.unnamed = s.problem.unnamed ∨ stored f v

/-- A store has found nothing. -/
def Blank (s : Store) : Prop := ∀ f, s.found f = none

variable {f : Finding} {s s' s'' : Store}

/-! ## What is found -/

/-- A solution is found if it has something to report. -/
theorem found_solution_eq_some_iff {sol : Solution} :
    s.found .solution = some sol ↔ s.solution.Held ∧ s.solution.unbased = sol := by
  show (if s.solution.Held then some s.solution.unbased else none : Option Solution) = some sol ↔ _
  split_ifs with hheld
  · exact ⟨fun h => ⟨hheld, Option.some.inj h⟩, fun h => congrArg some h.2⟩
  · exact ⟨nofun, fun h => absurd h.1 hheld⟩

/-- What is found depends on the solution and the infeasible subsystem, but not on the basis. -/
theorem found_congr (hsolution : s'.solution.unbased = s.solution.unbased) (hiis : s'.iis = s.iis)
    (f : Finding) : s'.found f = s.found f := by
  cases f with
  | solution =>
    have hfound (s : Store) : s.found .solution =
        if s.solution.unbased.Held then some s.solution.unbased else none := rfl
    rw [hfound, hfound, hsolution]
  | conflict => exact hiis

/-! ## What is retained -/

namespace Retains

/-- A store retains what it holds. -/
theorem refl (f : Finding) (s : Store) : Retains f s s := fun _ h => ⟨h, rfl⟩

/-- What is retained twice is retained. -/
theorem trans (h₁ : Retains f s s') (h₂ : Retains f s' s'') : Retains f s s'' := fun v hv => by
  obtain ⟨hv', hproblem'⟩ := h₂ v hv
  obtain ⟨hv'', hproblem⟩ := h₁ v hv'
  exact ⟨hv'', hproblem'.trans hproblem⟩

/-- The same findings for the same problem. -/
theorem of_eq (hsolution : s'.solution.unbased = s.solution.unbased) (hiis : s'.iis = s.iis)
    (hproblem : s'.problem.unnamed = s.problem.unnamed) : Retains f s s' := fun _ hv =>
  ⟨found_congr hsolution hiis f ▸ hv, hproblem⟩

/-- Nothing is found. -/
theorem of_blank (h : s'.Blank) : Retains f s s' := fun _ hv =>
  nomatch (h f).symm.trans hv

end Retains

namespace Gains

variable {stored : (f : Finding) → f.Value → Prop}

/-- Nothing new is stored. -/
theorem of_retains (h : ∀ f, Retains f s s') : Gains stored s s' := fun f v hv => .inl (h f v hv)

/-- What is stored is retained. -/
theorem trans (h₁ : Gains stored s s') (h₂ : ∀ f, Retains f s' s'') : Gains stored s s'' :=
  fun f v hv => by
    obtain ⟨hv', hproblem'⟩ := h₂ f v hv
    exact (h₁ f v hv').imp_left fun ⟨hv'', hproblem⟩ => ⟨hv'', hproblem'.trans hproblem⟩

/-- A solution is put in place. -/
theorem setSolution {sol : Solution} (h : Retains .conflict s s')
    (hsol : stored .solution sol.unbased) : Gains stored s (s'.setSolution sol) := fun f v hv => by
  cases f with
  | solution =>
    obtain ⟨-, rfl⟩ := found_solution_eq_some_iff.1 hv
    exact .inr hsol
  | conflict => exact .inl (h v hv)

/-- Flags of members are put in place. -/
theorem setIis {flags : IisFlags} (hflags : stored .conflict flags) :
    Gains stored s (s.setIis flags.rows flags.cols) := fun f v hv => by
  cases f with
  | solution => exact .inl ⟨hv, rfl⟩
  | conflict =>
    cases hv
    exact .inr hflags

end Gains

/-- A problem that is put in place discards what was found. -/
theorem blank_withProblem (s : Store) (p : Problem) : (s.withProblem p).Blank := fun f => by
  cases f <;> rfl

/-- Discarding the findings. -/
theorem blank_invalidate (s : Store) : s.invalidate.Blank := blank_withProblem s s.problem

/-- Another problem without a change of the findings. -/
theorem Blank.congr (h : s.Blank) (hsolution : s'.solution = s.solution) (hiis : s'.iis = s.iis) :
    s'.Blank := fun f => by
  rw [found_congr (congrArg Solution.unbased hsolution) hiis, h f]

/-- An operation on the problem. -/
theorem retains_edit {g : Problem → Except ResultCode Problem} (h : s.edit g = .ok s') :
    Retains f s s' := by
  obtain ⟨p, -, rfl⟩ := edit_eq_ok h
  exact .of_blank (blank_withProblem s p)

/-- Writing a whole-number attribute: a basis status leaves the findings, and the problem with them.
-/
theorem retains_setIntAttr {name : String} {index : Option ℕ} {v : Int32}
    (h : s.setIntAttr name index v = .ok s') : Retains f s s' := by
  unfold setIntAttr at h
  split at h
  · split at h <;> cases h
    exact .of_blank (blank_withProblem _ _)
  · split at h
    · cases h
    · split at h
      · cases h
        exact .of_blank (blank_withProblem _ _)
      · obtain ⟨basis, -, h⟩ := bind_eq_ok.1 h
        cases h
        exact .of_eq rfl rfl rfl
      · cases h
  · split at h
    · cases h
    · split at h
      · obtain ⟨basis, -, h⟩ := bind_eq_ok.1 h
        cases h
        exact .of_eq rfl rfl rfl
      · cases h
  · cases h

/-- Writing a real attribute. -/
theorem retains_setRealAttr {name : String} {index : Option ℕ} {v : Float}
    (h : s.setRealAttr name index v = .ok s') : Retains f s s' := by
  unfold setRealAttr at h
  split at h
  · split at h <;> cases h
    exact .of_blank (blank_withProblem _ _)
  · split at h
    · cases h
    · split at h <;> cases h <;> exact .of_blank (blank_withProblem _ _)
  · split at h
    · cases h
    · split at h <;> cases h <;> exact .of_blank (blank_withProblem _ _)
  · cases h

/-- A change at one place of a list that a view of the items does not show. -/
theorem map_modify_of_eq {α β : Type} {view : α → β} {change : α → α}
    (h : ∀ a, view (change a) = view a) (xs : List α) (j : ℕ) :
    (xs.modify j change).map view = xs.map view := by
  refine List.ext_getElem? fun k => ?_
  rw [List.getElem?_map, List.getElem?_map, List.getElem?_modify]
  cases xs[k]? with
  | none => rfl
  | some a =>
    refine congrArg some ?_
    dsimp only
    split
    · exact h a
    · rfl

/-- Naming a column. -/
theorem unnamed_nameCol (p : Problem) (j : ℕ) (name : Option String) :
    ({ p with cols := p.cols.modify j fun c => { c with name } } : Problem).unnamed =
      p.unnamed := by
  have hcols : (p.cols.modify j fun c => { c with name }).map (·.unnamed) =
      p.cols.map (·.unnamed) := map_modify_of_eq (by intro; rfl) _ _
  exact congrArg (fun cols => { p.unnamed with cols }) hcols

/-- Naming a row. -/
theorem unnamed_nameRow (p : Problem) (i : ℕ) (name : Option String) :
    ({ p with rows := p.rows.modify i fun r => { r with name } } : Problem).unnamed =
      p.unnamed := by
  have hrows : (p.rows.modify i fun r => { r with name }).map (·.unnamed) =
      p.rows.map (·.unnamed) := map_modify_of_eq (by intro; rfl) _ _
  exact congrArg (fun rows => { p.unnamed with rows }) hrows

/-- Writing a text attribute changes names and parameters. -/
theorem retains_setStrAttr {name v : String} {index : Option ℕ}
    (h : s.setStrAttr name index v = .ok s') : Retains f s s' := by
  unfold setStrAttr at h
  split at h
  · cases h
    exact .of_eq rfl rfl rfl
  · cases h
    exact .of_eq rfl rfl rfl
  · split at h <;> cases h
    exact .of_eq rfl rfl (unnamed_nameCol ..)
  · split at h <;> cases h
    exact .of_eq rfl rfl (unnamed_nameRow ..)
  · cases h

/-- Setting a parameter. -/
theorem retains_setParam {name : String} {v : ParamValue} (h : s.setParam name v = .ok s') :
    Retains f s s' := by
  unfold setParam at h
  cases hset : s.params.set name v with
  | error e => rw [hset] at h; cases h
  | ok t =>
    rw [hset] at h
    cases h
    exact .of_eq rfl rfl rfl

end Store

/-! ## Task files -/

namespace TaskFile

open Store (Retains blank_withProblem)

variable {f : Finding} {s s' : Store} {bytes : List UInt8} {parts : Sections}

/-- A file holds a solution, in a section that is chosen. -/
def Gives (bytes : List UInt8) (parts : Sections) (sol : Solution) : Prop :=
  ∃ doc d, Json.read bytes = .ok doc ∧ parse doc parts = .ok d ∧ d.solution = some sol

/-- A file gives a solution only if its section is chosen. -/
theorem Gives.soln {sol : Solution} (h : Gives bytes parts sol) : parts.soln = true := by
  obtain ⟨doc, d, -, hd, hsol⟩ := h
  obtain ⟨_, -, hd⟩ := bind_eq_ok.1 hd
  obtain ⟨_, -, hd⟩ := bind_eq_ok.1 hd
  obtain ⟨_, -, hd⟩ := bind_eq_ok.1 hd
  obtain ⟨solution, hsolution, hd⟩ := bind_eq_ok.1 hd
  cases hd
  cases hchosen : parts.soln with
  | true => rfl
  | false =>
    rw [hchosen] at hsolution
    cases hsolution
    cases hsol

/-- The problem of a file is put in place before its sense and its constant are set. -/
theorem retains_applyModel {m : ModelData} (h : applyModel m s = .ok s') : Retains f s s' := by
  obtain ⟨s₁, hs₁, h⟩ := bind_eq_ok.1 h
  obtain ⟨p, -, rfl⟩ := Store.edit_eq_ok hs₁
  cases h
  exact .of_blank ((blank_withProblem s p).congr rfl rfl)

/-- Loading a file leaves what was found before, or a solution that the file gives; that is then
put in place last. -/
theorem loadBytes_cases (bytes : List UInt8) (parts : Sections) (s : Store) :
    (∀ f, Retains f s (loadBytes bytes parts s).2) ∨ ∃ sol s₁, Gives bytes parts sol ∧
      loadBytes bytes parts s = (.ok (), s₁.setSolution sol) ∧ ∀ f, Retains f s s₁ := by
  unfold loadBytes
  cases hdoc : Json.read bytes with
  | error e => exact .inl fun f => .refl f s
  | ok doc =>
    dsimp only [load]
    cases hd : parse doc parts with
    | error e => exact .inl fun f => .refl f s
    | ok d =>
      dsimp only
      rw [run_apply]
      cases hm : placeModel d.model s with
      | error e => exact .inl fun f => .refl f s
      | ok s₁ =>
        have hs₁ (f : Finding) : Retains f s s₁ :=
          placeModel_invariant (.refl f s) (fun _ _ _ h hs => h.trans (retains_applyModel hs)) hm
        have hs₂ (f : Finding) : Retains f s (placeParams d.params s₁).2 := by
          cases d.params with
          | none => exact hs₁ f
          | some ps =>
            exact applyParams_invariant ps (hs₁ f) fun _ _ _ _ h hs =>
              h.trans (Store.retains_setParam hs)
        dsimp only [placeRest]
        rcases hr : placeParams d.params s₁ with ⟨_ | _, s₂⟩ <;> rw [hr] at hs₂
        · exact .inl hs₂
        · -- The parameters are set, and the solution comes last.
          dsimp only
          cases hsol : d.solution with
          | none => exact .inl hs₂
          | some sol =>
            dsimp only [placeSolution, attempt]
            cases hs₃ : applySolution sol s₂ with
            | error e => exact .inl hs₂
            | ok s₃ =>
              obtain rfl := applySolution_eq_ok hs₃
              exact .inr ⟨sol, s₂, ⟨doc, d, hdoc, hd, hsol⟩, rfl, hs₂⟩

end TaskFile

end MathProgram
