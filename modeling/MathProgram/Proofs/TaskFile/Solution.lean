import MathProgram.Proofs.Solution
import MathProgram.Proofs.TaskFile.Failure
import MathProgram.Proofs.TaskFile.RoundTrip

/-!
# Solutions that files give

When a file is loaded, two of the six lists of its solution are compared with the problem that the
store then has, the values of the columns and the dual values (`Solution.Fits`). The other four are
put in place as they are, with whatever numbers of basis statuses they hold. So a loaded solution is
the one of the file, and it agrees with the problem just if the file has the rest right
(`Solution.RestFits`, `loaded_solution`).
-/

namespace MathProgram

/-- What is not looked at when a solution is loaded agrees with a problem of the given size. -/
structure Solution.RestFits (sol : Solution) (numCols numRows : ℕ) : Prop where
  reducedCost : sol.reducedCost = [] ∨ sol.reducedCost.length = numCols
  activity : sol.activity = [] ∨ sol.activity.length = numRows
  colBasis : IsBasis sol.colBasis numCols
  rowBasis : IsBasis sol.rowBasis numRows

/-- A solution agrees with a problem if what is looked at does and the rest does. -/
theorem Solution.consistent_iff {sol : Solution} {n m : ℕ} :
    sol.Consistent n m ↔ sol.Fits n m ∧ sol.RestFits n m :=
  ⟨fun h => ⟨⟨h.primal, h.dual⟩, h.reducedCost, h.activity, h.colBasis, h.rowBasis⟩,
    fun ⟨hfits, hrest⟩ => ⟨hfits.primal, hrest.reducedCost, hrest.activity, hfits.dual,
      hrest.colBasis, hrest.rowBasis⟩⟩

namespace TaskFile

/-- What a document leaves of a store if nothing of it is refused: its problem, then its parameters,
and then its solution, which fits the problem the store has by then. -/
def Places (doc : Json) (parts : Sections) (sol : Solution) (s s' : Store) : Prop :=
  ∃ d s₁, parse doc parts = .ok d ∧ d.solution = some sol ∧ placeModel d.model s = .ok s₁ ∧
    Readable (d.params.getD []) ∧ sol.Fits s₁.numCols s₁.numRows ∧
    s' = (setParams (paramValues (d.params.getD [])) s₁).setSolution sol

variable {bytes : List UInt8} {doc v : Json} {parts : Sections} {d : Parsed} {sol : Solution}
  {s s' : Store}

/-- Setting parameters does not change the size of the problem. -/
theorem size_setParams (ps : List (String × ParamValue)) (s : Store) :
    (setParams ps s).numCols = s.numCols ∧ (setParams ps s).numRows = s.numRows := by
  obtain ⟨params, h⟩ := setParams_eq ps s
  rw [h]
  exact ⟨rfl, rfl⟩

/-- The solution of a document is the one of its section, if that is chosen and there. -/
theorem parse_solution (hchosen : parts.soln = true) (hv : doc.member? "soln" = some v)
    (hd : parse doc parts = .ok d) : ∃ sol, parseSolution v = .ok sol ∧ d.solution = some sol := by
  obtain ⟨_, -, hd⟩ := bind_eq_ok.1 hd
  obtain ⟨_, -, hd⟩ := bind_eq_ok.1 hd
  obtain ⟨_, -, hd⟩ := bind_eq_ok.1 hd
  obtain ⟨solution, hsolution, hd⟩ := bind_eq_ok.1 hd
  cases hd
  have hsection : parseSection parts.soln doc "soln" parseSolution = some <$> parseSolution v := by
    unfold parseSection
    rw [hchosen, hv]
  rw [hsection] at hsolution
  cases hsol : parseSolution v with
  | error e => rw [hsol] at hsolution; cases hsolution
  | ok sol =>
    rw [hsol] at hsolution
    cases hsolution
    exact ⟨sol, rfl, rfl⟩

/-- A solution is put in place after the parameters just if all of them have values and the solution
fits. -/
theorem placeRest_eq_ok_iff (hsol : d.solution = some sol) :
    placeRest d.params d.solution s = (.ok (), s') ↔
      Readable (d.params.getD []) ∧ sol.Fits s.numCols s.numRows ∧
        s' = (setParams (paramValues (d.params.getD [])) s).setSolution sol := by
  obtain hps | ⟨pre, name, v, post, hps, hpre, hv⟩ := readable_or_fault (d.params.getD [])
  · obtain ⟨hcols, hrows⟩ := size_setParams (paramValues (d.params.getD [])) s
    rw [placeRest, placeParams_of_readable hps, hsol]
    dsimp only [placeSolution, attempt]
    by_cases hfits : sol.Fits s.numCols s.numRows
    · rw [applySolution_of_fits (by rwa [hcols, hrows])]
      exact ⟨fun h => ⟨hps, hfits, (Prod.mk.inj h).2.symm⟩, fun h => by rw [h.2.2]⟩
    · rw [applySolution_of_not_fits (by rwa [hcols, hrows])]
      refine ⟨fun h => ?_, fun h => absurd h.2.1 hfits⟩
      cases h
  · -- A parameter without a value ends the loading before the solution.
    have hfault : ¬Readable (d.params.getD []) := by
      intro h
      refine h (name, v) ?_ hv
      rw [hps]
      exact List.mem_append_right _ (List.mem_cons_self ..)
    have hplace := placeParams_eq d.params s
    rw [hps, applyParams_append hpre, applyParams, hv] at hplace
    rw [placeRest, hplace]
    refine ⟨fun h => ?_, fun h => absurd h.1 hfault⟩
    cases h

/-- A file with a solution is loaded just if it puts the solution in place. -/
theorem loadBytes_eq_ok_iff (hdoc : Json.read bytes = .ok doc) (hchosen : parts.soln = true)
    (hv : doc.member? "soln" = some v) : loadBytes bytes parts s = (.ok (), s') ↔
      ∃ sol, parseSolution v = .ok sol ∧ Places doc parts sol s s' := by
  rw [loadBytes, hdoc]
  dsimp only [load]
  cases hd : parse doc parts with
  | error e =>
    constructor
    · intro h
      cases h
    · rintro ⟨_, -, _, _, hd', -⟩
      rw [hd] at hd'
      cases hd'
  | ok d =>
    obtain ⟨sol, hparse, hsol⟩ := parse_solution hchosen hv hd
    dsimp only
    rw [run_apply]
    constructor
    · intro h
      cases hm : placeModel d.model s with
      | error e => rw [hm] at h; cases h
      | ok s₁ =>
        rw [hm] at h
        exact ⟨sol, hparse, d, s₁, hd, hsol, hm, (placeRest_eq_ok_iff hsol).1 h⟩
    · rintro ⟨sol', -, d', s₁, hd', hsol', hm, hrest⟩
      obtain rfl : d = d' := Except.ok.inj (hd.symm.trans hd')
      rw [hm]
      exact (placeRest_eq_ok_iff hsol').2 hrest

/-- A solution that is put in place fits the problem that the store then has. -/
theorem Places.fits (h : Places doc parts sol s s') :
    s'.solution = sol ∧ sol.Fits s'.numCols s'.numRows := by
  obtain ⟨d, s₁, -, -, -, -, hfits, rfl⟩ := h
  obtain ⟨hcols, hrows⟩ := size_setParams (paramValues (d.params.getD [])) s₁
  refine ⟨rfl, ?_⟩
  change sol.Fits (setParams _ s₁).numCols (setParams _ s₁).numRows
  rwa [hcols, hrows]

/-- A file with a solution is loaded just if its sections have the right shape, its problem and its
parameters can be put in place, and the solution fits. The store then has the solution of the file
as it is, with the right numbers of values and of dual values; it agrees with the problem just if
the reduced costs, the activities and both bases of the file do, which nothing asks for. -/
theorem loaded_solution (hdoc : Json.read bytes = .ok doc) (hchosen : parts.soln = true)
    (hv : doc.member? "soln" = some v) (s s' : Store) :
    (loadBytes bytes parts s = (.ok (), s') ↔
      ∃ sol, parseSolution v = .ok sol ∧ Places doc parts sol s s') ∧
    ∀ sol, Places doc parts sol s s' →
      s'.solution = sol ∧ sol.Fits s'.numCols s'.numRows ∧
        (s'.solution.Consistent s'.numCols s'.numRows ↔
          sol.RestFits s'.numCols s'.numRows) := by
  refine ⟨loadBytes_eq_ok_iff hdoc hchosen hv, fun sol hplaces => ?_⟩
  obtain ⟨hsol, hfits⟩ := hplaces.fits
  refine ⟨hsol, hfits, ?_⟩
  rw [hsol, Solution.consistent_iff]
  exact and_iff_right hfits

/-! ## A problem with one column -/

/-- A store with one column and no row, and a solution. -/
def oneColumnWith (sol : Solution) : Store :=
  (Store.afterOps none [.addCol ⟨0, 1, 1, false, none⟩ [] []]).setSolution sol

/-- A document with this solution alone. -/
def solutionDocument (sol : Solution) : Json := document (oneColumnWith sol) ⟨false, false, true⟩

/-- The store holds no NaN if the solution does not. -/
theorem nanFree_oneColumnWith {sol : Solution}
    (h : ∀ x ∈ sol.primalObjective :: sol.dualObjective ::
      (sol.primal ++ sol.reducedCost ++ sol.activity ++ sol.dual), x.isNaN = false) :
    (oneColumnWith sol).NaNFree := by
  have hempty : (oneColumnWith {}).NaNFree := {
    cols := by decide
    rows := by decide
    objConst := by decide
    matrix := by decide
    quad := by decide
    params := by decide
    primal := nofun
    reducedCost := nofun
    activity := nofun
    dual := nofun
    primalObjective := by decide
    dualObjective := by decide }
  simp only [List.forall_mem_cons, List.forall_mem_append] at h
  obtain ⟨hprimalObjective, hdualObjective, ⟨⟨hprimal, hreducedCost⟩, hactivity⟩, hdual⟩ := h
  exact { hempty with
    primal := hprimal
    reducedCost := hreducedCost
    activity := hactivity
    dual := hdual
    primalObjective := hprimalObjective
    dualObjective := hdualObjective }

/-- A solution that fits the column is loaded from its file. -/
theorem loadBytes_solutionDocument {sol : Solution} (hnan : (oneColumnWith sol).NaNFree)
    (hfits : sol.Fits 1 0) :
    loadBytes (Utf8.bytes (solutionDocument sol).render) ⟨false, false, true⟩ (oneColumnWith {}) =
      (.ok (), oneColumnWith sol.recorded) := by
  have hsound := Store.sound_afterOps none [.addCol ⟨0, 1, 1, false, none⟩ [] []]
  have hsolution (sol : Solution) : (oneColumnWith sol).Sound := hsound.congr rfl rfl rfl rfl rfl
  have hrows : (oneColumnWith sol).problem.numRows = 0 := rfl
  have hcols : (oneColumnWith sol).problem.numCols = 1 := rfl
  have haddress := addressable (hsolution sol).problem (by omega) (by omega)
  exact loadBytes_document (hsolution sol) (hsolution {}) hnan haddress ⟨false, false, true⟩
    ⟨false, false, true⟩ (fun _ => hfits) fun _ _ => ⟨rfl, rfl⟩

/-- A solution with the values that a column needs, and a basis. -/
def fitting : Solution where
  status := .optimal
  hasSolution := true
  primal := [1]
  reducedCost := [0]
  colBasis := [BasisStatus.atUpper.code]

/-- The solution is loaded, and it agrees with the problem because the rest of it does. -/
theorem loaded_solution_fitting :
    ∃ s', loadBytes (Utf8.bytes (solutionDocument fitting).render) ⟨false, false, true⟩
        (oneColumnWith {}) = (.ok (), s') ∧
      s'.solution = fitting ∧ s'.solution.Consistent s'.numCols s'.numRows := by
  have hnan : (oneColumnWith fitting).NaNFree := nanFree_oneColumnWith (by decide)
  have hfits : fitting.Fits 1 0 := ⟨fun _ => rfl, .inl rfl⟩
  have hrest : fitting.RestFits 1 0 :=
    ⟨.inr rfl, .inl rfl, ⟨.inr rfl, List.forall_mem_singleton.2 rfl⟩, isBasis_nil _⟩
  have hread : Json.read (Utf8.bytes (solutionDocument fitting).render) =
      .ok (solutionDocument fitting) := read_document hnan ⟨false, false, true⟩
  have hsection : (solutionDocument fitting).member? "soln" = some (solutionNode fitting) :=
    (member?_document (oneColumnWith fitting) ⟨false, false, true⟩).2.2
  have hchosen : (⟨false, false, true⟩ : Sections).soln = true := rfl
  obtain ⟨hiff, hloaded⟩ :=
    loaded_solution hread hchosen hsection (oneColumnWith {}) (oneColumnWith fitting)
  have hload := loadBytes_solutionDocument hnan hfits
  have hrecorded : fitting.recorded = fitting := rfl
  rw [hrecorded] at hload
  obtain ⟨sol, hsol, hplaces⟩ := hiff.1 hload
  obtain ⟨hsolution, -, hconsistent⟩ := hloaded sol hplaces
  have hsame : sol = fitting := hsolution.symm
  rw [hsame] at hconsistent
  exact ⟨_, hload, rfl, hconsistent.2 hrest⟩

/-- A solution whose reduced costs, activities and basis are not about one column and no row; the
basis holds a number that stands for no status. -/
def unfitting : Solution where
  status := .subOptimal
  hasSolution := true
  primal := [2]
  reducedCost := [1, 2]
  activity := [7]
  colBasis := [99, 0]
  primalObjective := 2
  dualObjective := 2

/-- The solution is loaded all the same, and the store tells the number as the status of the column,
though it does not let the same number be written there. -/
theorem unfitting_solution_loaded :
    ∃ s', loadBytes (Utf8.bytes (solutionDocument unfitting).render) ⟨false, false, true⟩
        (oneColumnWith {}) = (.ok (), s') ∧
      s'.numCols = 1 ∧ s'.numRows = 0 ∧ s'.solution.reducedCost.length = 2 ∧
      s'.solution.activity.length = 1 ∧ s'.solution.colBasis.length = 2 ∧
      s'.intAttr "ColBasis" (some 0) = .ok 99 ∧ BasisStatus.ofCode? 99 = none ∧
      (∃ e, s'.setIntAttr "ColBasis" (some 0) 99 = .error e) ∧
      ¬s'.solution.Consistent s'.numCols s'.numRows := by
  have hnan : (oneColumnWith unfitting).NaNFree := nanFree_oneColumnWith (by decide)
  have hload := loadBytes_solutionDocument hnan ⟨fun _ => rfl, .inl rfl⟩
  refine ⟨_, hload, rfl, rfl, rfl, rfl, rfl, rfl, rfl, ⟨_, rfl⟩, fun h => ?_⟩
  have hvalid := h.colBasis.valid 99 (List.mem_cons_self ..)
  exact absurd hvalid (by decide)

end TaskFile

end MathProgram
