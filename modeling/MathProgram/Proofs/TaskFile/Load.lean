import Mathlib.Logic.Basic
import MathProgram.TaskFile.Load

/-!
# How a document is loaded

`run_apply` unfolds the loading into its three steps: the problem is put in place, then the
parameters, then the solution, each if there is one. What the steps keep, the loading keeps,
whatever the file holds (`loadBytes_invariant`).
-/

namespace MathProgram

/-- A solution has as many values as there are columns, and a dual value for every row or none. -/
structure Solution.Fits (sol : Solution) (numCols numRows : Nat) : Prop where
  primal : sol.hasSolution = true → sol.primal.length = numCols
  dual : sol.dual = [] ∨ sol.dual.length = numRows

namespace TaskFile

/-- Puts a problem in place, if there is one. -/
def placeModel (m : Option ModelData) (s : Store) : Except ResultCode Store :=
  match m with
  | some m => applyModel m s
  | none => .ok s

/-- Sets the parameters, if there are some. -/
def placeParams (ps : Option (List (String × Json))) (s : Store) :
    Except ResultCode Unit × Store :=
  match ps with
  | some ps => applyParams ps s
  | none => (.ok (), s)

/-- Puts a solution in place, if there is one. -/
def placeSolution (sol : Option Solution) (s : Store) : Except ResultCode Store :=
  match sol with
  | some sol => applySolution sol s
  | none => .ok s

/-- Sets the parameters and puts a solution in place, unless a parameter is in the way. -/
def placeRest (ps : Option (List (String × Json))) (sol : Option Solution) (s : Store) :
    Except ResultCode Unit × Store :=
  match placeParams ps s with
  | (.ok (), s) => attempt (placeSolution sol) s
  | (.error e, s) => (.error e, s)

/-! ## The three steps -/

/-- A step and what follows it; that is left out if the step fails. -/
theorem run_step_bind (step : StateM Store (Except ResultCode Unit))
    (next : Unit → ExceptT ResultCode (StateM Store) Unit) (s : Store) :
    (ExceptT.mk step >>= next).run s = match step s with
      | (.ok (), s') => (next ()).run s'
      | (.error e, s') => (.error e, s') := by
  -- The bind runs the step and then continues by its result.
  have hrun : (ExceptT.mk step >>= next).run s =
      (ExceptT.bindCont next (step s).1).run (step s).2 := rfl
  rw [hrun]
  rcases step s with ⟨_ | _, s'⟩ <;> rfl

/-- The last step. -/
theorem run_apply_solution (sol : Option Solution) (s : Store) :
    (apply ⟨none, none, sol⟩).run s = attempt (placeSolution sol) s := by
  cases sol <;> rfl

/-- The last two steps. -/
theorem run_apply_rest (ps : Option (List (String × Json))) (sol : Option Solution) (s : Store) :
    (apply ⟨none, ps, sol⟩).run s = placeRest ps sol s := by
  unfold placeRest
  cases ps with
  | none => exact run_apply_solution sol s
  | some ps =>
    refine (run_step_bind _ _ s).trans ?_
    dsimp only [placeParams]
    rcases applyParams ps s with ⟨_ | _, s₁⟩
    · rfl
    · exact run_apply_solution sol s₁

/-- The three steps of putting sections in place, up to the first that fails. -/
theorem run_apply (d : Parsed) (s : Store) : (apply d).run s =
    match placeModel d.model s with
    | .ok s₁ => placeRest d.params d.solution s₁
    | .error e => (.error e, s) := by
  obtain ⟨m, ps, sol⟩ := d
  cases m with
  | none => exact run_apply_rest ps sol s
  | some m =>
    refine (run_step_bind _ _ s).trans ?_
    dsimp only [placeModel, attempt]
    cases applyModel m s with
    | error e => rfl
    | ok s₁ => exact run_apply_rest ps sol s₁

/-- Once the problem is in place, the last two steps remain. -/
theorem run_apply_of_placeModel {d : Parsed} {s s₁ : Store} (h : placeModel d.model s = .ok s₁) :
    (apply d).run s = placeRest d.params d.solution s₁ := by
  rw [run_apply, h]

/-- What is checked of a solution. -/
theorem fits_iff {sol : Solution} {n m : Nat} : sol.Fits n m ↔
    ¬((sol.hasSolution && sol.primal.length != n)
      || (!sol.dual.isEmpty && sol.dual.length != m)) = true := by
  simp only [Bool.or_eq_true, Bool.and_eq_true, bne_iff_ne, ne_eq, Bool.not_eq_true',
    List.isEmpty_eq_false_iff, not_or, not_and, Decidable.not_not]
  refine ⟨fun h => ⟨h.primal, fun hdual => h.dual.resolve_left hdual⟩, fun ⟨hprimal, hdual⟩ => ?_⟩
  exact ⟨hprimal, Decidable.or_iff_not_imp_left.2 hdual⟩

/-- A solution that fits is put in place. -/
theorem applySolution_of_fits {sol : Solution} {s : Store} (h : sol.Fits s.numCols s.numRows) :
    applySolution sol s = .ok (s.setSolution sol) :=
  if_neg (fits_iff.1 h)

/-- A solution that does not fit is refused. -/
theorem applySolution_of_not_fits {sol : Solution} {s : Store}
    (h : ¬sol.Fits s.numCols s.numRows) : applySolution sol s = .error .modelInputError :=
  if_pos (Decidable.not_not.1 fun hnot => h (fits_iff.2 hnot))

/-! ## What loading keeps -/

section Invariants

variable {P : Store → Prop} {s : Store}

/-- What a step keeps where it succeeds, it keeps. -/
theorem attempt_invariant {f : Store → Except ResultCode Store} (hs : P s)
    (h : ∀ s', f s = .ok s' → P s') : P (attempt f s).2 := by
  unfold attempt
  cases hf : f s with
  | error e => exact hs
  | ok s' => exact h s' hf

/-- What each parameter keeps, the list of them keeps. -/
theorem applyParams_invariant (ps : List (String × Json)) (hs : P s)
    (hparam : ∀ s s' name v, P s → s.setParam name v = .ok s' → P s') :
    P (applyParams ps s).2 := by
  induction ps generalizing s with
  | nil => exact hs
  | cons p ps ih =>
    obtain ⟨name, v⟩ := p
    unfold applyParams
    cases paramValue? v with
    | none => exact hs
    | some v =>
      cases hset : s.setParam name v with
      | error e => simpa [hset] using ih hs
      | ok s' => simpa [hset] using ih (hparam s s' name v hs hset)

/-- What putting a problem in place keeps, the first step keeps. -/
theorem placeModel_invariant {m : Option ModelData} {s' : Store} (hs : P s)
    (hmodel : ∀ s s' m, P s → applyModel m s = .ok s' → P s') (h : placeModel m s = .ok s') :
    P s' := by
  cases m with
  | none => cases h; exact hs
  | some m => exact hmodel s s' m hs h

/-- A solution that is put in place fits, and nothing else changes. -/
theorem applySolution_eq_ok {sol : Solution} {s s' : Store} (h : applySolution sol s = .ok s') :
    s' = s.setSolution sol := by
  unfold applySolution at h
  split at h
  · cases h
  · cases h; rfl

/-- What putting a solution in place keeps, the last step keeps. -/
theorem placeSolution_invariant {sol : Option Solution} {s' : Store} (hs : P s)
    (hsolution : ∀ s sol, P s → P (s.setSolution sol)) (h : placeSolution sol s = .ok s') :
    P s' := by
  cases sol with
  | none => cases h; exact hs
  | some sol => rw [applySolution_eq_ok h]; exact hsolution s sol hs

/-- What the three steps keep, loading a file of any bytes keeps. -/
theorem loadBytes_invariant (bytes : List UInt8) (parts : Sections) (hs : P s)
    (hmodel : ∀ s s' m, P s → applyModel m s = .ok s' → P s')
    (hparam : ∀ s s' name v, P s → s.setParam name v = .ok s' → P s')
    (hsolution : ∀ s sol, P s → P (s.setSolution sol)) :
    P (loadBytes bytes parts s).2 := by
  unfold loadBytes
  cases Json.read bytes with
  | error e => exact hs
  | ok doc =>
    dsimp only
    unfold load
    cases parse doc parts with
    | error e => exact hs
    | ok d =>
      dsimp only
      rw [run_apply]
      cases hm : placeModel d.model s with
      | error e => exact hs
      | ok s₁ =>
        have hs₁ := placeModel_invariant hs hmodel hm
        -- Parameters may stop half way, so what they keep is wanted of the store, not of a success.
        have hs₂ : P (placeParams d.params s₁).2 := by
          cases d.params with
          | none => exact hs₁
          | some ps => exact applyParams_invariant ps hs₁ hparam
        dsimp only [placeRest]
        rcases hr : placeParams d.params s₁ with ⟨_ | _, s₂⟩ <;> rw [hr] at hs₂
        · exact hs₂
        · exact attempt_invariant hs₂ fun _ h => placeSolution_invariant hs₂ hsolution h

end Invariants

end TaskFile

end MathProgram
