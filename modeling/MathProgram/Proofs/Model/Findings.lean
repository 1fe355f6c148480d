import MathProgram.Proofs.Model.Identity
import MathProgram.Proofs.Model.Moves
import MathProgram.Proofs.Model.Solved

/-!
# Findings are current

A run goes on with a model by calls of the model, by calls of its engine, and by copies. What the
model then reports of a solve or a conflict search was found for the problem it then has: some step
of the run stored it, and ever since the model has held it for that very problem
(`findings_current`). A call of a model finds something only through one call of its engine
(`Call.finder?`); whatever else it does, the engine `Retains` what it has found.
-/

namespace MathProgram

variable {σ : Type}

/-- What an engine retains, it retains after calls that find nothing. -/
instance Engine.stable_retains [Solver σ] : Engine.Stable σ Engine.Retains where
  refl := .refl
  trans := .trans
  method _ := Method.retaining

/-! ## Runs of calls and copies -/

/-- A step with a model on a host. -/
inductive Step (σ : Type) where
  /-- A call of the model. -/
  | call (c : Call) (host : Host σ)
  /-- A call of its engine. -/
  | method (c : Engine.Method) (host : Host σ)
  /-- Going on with a copy of the model. -/
  | copy (host : Host σ)
  /-- Going on with a copy of its engine. -/
  | engineCopy

namespace Step

variable [Solver σ]

/-- The model that a step leaves. -/
def after : Step σ → Model → Model
  | call c h, m => (c.run.run m h).1.2
  | method c h, m => { m with engine := (c.run.run m.engine h).1.2 }
  | copy h, m =>
    match (Model.duplicate.run m h).1.1 with
    | .ok m' => m'
    | .error _ => m
  | engineCopy, m => { m with engine := m.engine.duplicate }

/-- A step stores a finding, by a call of the engine. A model may write to its journal before it
calls its engine. -/
def Stores : Step σ → Model → (f : Finding) → f.Value → Prop
  | call c h, m, f, v => m.state ≠ .freed ∧ ∃ c' journal, c.finder? = some c' ∧
    c'.Stores m.engine { h with journal } f v
  | method c h, m, f, v => c.Stores m.engine h f v
  | copy _, _, _, _ | engineCopy, _, _, _ => False

/-- A copy has what the engine has found, and no instance. -/
theorem retains_duplicate (e : Engine) : e.Retains e.duplicate :=
  ⟨rfl, rfl, .inr rfl, fun f => .refl f e.store⟩

/-- Going on with a copy is going on with a copy of the engine, unless the model has been freed. -/
theorem engine_copy (h : Host σ) (m : Model) : ((copy h).after m).engine =
    if m.state = .freed then m.engine else m.engine.duplicate := by
  rw [after, World.run_duplicate]
  by_cases hfreed : m.state = .freed
  · rw [if_pos hfreed, if_pos hfreed]
  · rw [if_neg hfreed, if_neg hfreed]
    obtain ⟨state, journal, -, hrun⟩ := Model.run_ofEngine m.engine.duplicate h
    dsimp only
    rw [hrun]
    rfl

/-- Going on with a copy. -/
theorem retains_copy (h : Host σ) (m : Model) : m.engine.Retains ((copy h).after m).engine := by
  rw [engine_copy]
  split_ifs
  · exact .refl m.engine
  · exact retains_duplicate m.engine

/-- After any step a finding is an old one for the same problem, or the step has stored it. -/
theorem gains (t : Step σ) (m : Model) :
    m.engine.store.Gains (t.Stores m) (t.after m).engine.store := by
  cases t with
  | method c h => exact c.gains m.engine h
  | copy h => exact .of_retains (retains_copy h m).store
  | engineCopy => exact .of_retains (retains_duplicate m.engine).store
  | call c h =>
    obtain ⟨-, hretains⟩ | ⟨c', hc, hlive, hretains⟩ := c.moves (R := Engine.Retains) m h
    · exact .of_retains hretains.store
    · obtain ⟨journal, hannounced⟩ := c.exists_announced m h
      rw [hannounced] at hretains
      refine .trans (fun f v hv => ?_) hretains.store
      exact (c'.gains m.engine { h with journal } f v hv).imp_right fun hstores =>
        ⟨hlive, c', journal, hc, hstores⟩

end Step

namespace Model

variable [Solver σ] {m : Model} {steps : List (Step σ)}

/-- The model that steps leave, one after another. -/
def afterSteps (m : Model) (steps : List (Step σ)) : Model := steps.foldl (fun m t => t.after m) m

@[simp] theorem afterSteps_concat (m : Model) (steps : List (Step σ)) (t : Step σ) :
    m.afterSteps (steps ++ [t]) = t.after (m.afterSteps steps) := List.foldl_concat ..

/-- What a model has found. -/
def found (m : Model) (f : Finding) : Option f.Value := m.engine.store.found f

/-- No finding outlives its problem. Whatever a model reports of a solve or a conflict search, after
any steps on any hosts, some step of the run has stored it, or it was there at the start; and at
every moment since then the model has held it, and its problem was what it is now, but for names. -/
theorem findings_current (m : Model) (steps : List (Step σ)) (f : Finding) (v : f.Value)
    (hv : (m.afterSteps steps).found f = some v) : ∃ done since, steps = done ++ since ∧
      (done = [] ∨ ∃ before t, done = before ++ [t] ∧ t.Stores (m.afterSteps before) f v) ∧
      ∀ mid rest, since = mid ++ rest → (m.afterSteps (done ++ mid)).found f = some v ∧
        (m.afterSteps (done ++ mid)).problem.unnamed = (m.afterSteps steps).problem.unnamed := by
  -- The last step keeps a finding or stores it, so the induction is from the end of the run.
  induction steps using List.reverseRecOn with
  | nil =>
    refine ⟨[], [], rfl, .inl rfl, fun mid rest hsplit => ?_⟩
    obtain ⟨rfl, -⟩ := List.append_eq_nil_iff.1 hsplit.symm
    exact ⟨hv, rfl⟩
  | append_singleton steps t ih =>
    rw [afterSteps_concat] at hv
    obtain ⟨hold, hproblem⟩ | hstores := t.gains (m.afterSteps steps) f v hv
    · obtain ⟨done, since, rfl, hstart, hsince⟩ := ih hold
      refine ⟨done, since ++ [t], List.append_assoc .., hstart, fun mid rest hsplit => ?_⟩
      rw [afterSteps_concat]
      obtain rfl | ⟨rest, t', rfl⟩ := List.eq_nil_or_concat rest
      · -- The end of the run itself.
        obtain rfl : mid = since ++ [t] := (List.append_nil mid).symm.trans hsplit.symm
        rw [← List.append_assoc, afterSteps_concat]
        exact ⟨hv, rfl⟩
      · rw [List.concat_eq_append, ← List.append_assoc] at hsplit
        obtain ⟨rfl, -⟩ := List.append_inj' hsplit rfl
        obtain ⟨hfound, hsame⟩ := hsince mid rest rfl
        exact ⟨hfound, hsame.trans hproblem.symm⟩
    · refine ⟨steps ++ [t], [], (List.append_nil _).symm, .inr ⟨steps, t, rfl, hstores⟩,
        fun mid rest hsplit => ?_⟩
      obtain ⟨rfl, -⟩ := List.append_eq_nil_iff.1 hsplit.symm
      rw [List.append_nil, afterSteps_concat]
      exact ⟨hv, rfl⟩

/-- A variable is added, a solve ends with a solution, and then the variable is named and its basis
status set. -/
def namedAfterSolve : List (Step ScriptedSolver) := [
  .call (.addVar ⟨0, 1, 1, false, none⟩) (hostOf {}),
  .call .solveProb (hostOf
    { solves := [⟨0, some { status := .optimal, hasSolution := true, primal := [1] }⟩] }),
  .call (.setAttr .str "ColName" (some 0) "x") (hostOf {}),
  .method (.setAttr .int "ColBasis" (some 0) (0 : Int32)) (hostOf {})]

/-- The solution is still held in the end, and was stored for the problem of the end. -/
theorem findings_current_after_naming :
    let m := newModel.afterSteps namedAfterSolve
    m.engine.store.solution.Held ∧ ∃ done since, namedAfterSolve = done ++ since ∧ done ≠ [] ∧
      (newModel.afterSteps done).found .solution = some m.engine.store.solution.unbased ∧
      (newModel.afterSteps done).problem.unnamed = m.problem.unnamed := by
  intro m
  have hheld : m.engine.store.solution.Held := by decide
  obtain ⟨done, since, hsplit, -, hsince⟩ := findings_current newModel namedAfterSolve .solution _
    (Store.found_solution_eq_some_iff.2 ⟨hheld, rfl⟩)
  obtain ⟨hfound, hproblem⟩ := hsince [] since rfl
  rw [List.append_nil] at hfound hproblem
  refine ⟨hheld, done, since, hsplit, ?_, hfound, hproblem⟩
  rintro rfl
  -- At the start nothing is held.
  have hstart : ¬newModel.engine.store.solution.Held := by decide
  exact hstart (Store.found_solution_eq_some_iff.1 hfound).1

end Model

end MathProgram
