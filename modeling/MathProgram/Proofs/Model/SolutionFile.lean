import MathProgram.Proofs.Model.Findings
import MathProgram.Proofs.Solver.Run

/-!
# Whose solution is written

An engine that keeps the instance of its last solve has the solver library write the solution file,
and otherwise writes its own. So the instance should be the one that the solution in the store comes
from. It is, unless a task file with a solution was read since its run: that puts another solution
in the store and leaves the instance (`written_solution`, `loaded_but_not_written`). The names and
the basis can also have been edited since the run, of which the instance does not know.

The library writes only while there is a solution in the store, so what a solve has left of the
instance and the store is followed from the end of a run back to the solve (`keptSince`).
-/

namespace MathProgram

variable {σ : Type}

namespace Engine

open EngineM (host)

/-! ## Writing a solution file -/

/-- Saving the solution changes the disk only. -/
theorem run_saveSolution (file : String) (e : Engine) (h : Host σ) :
    (saveSolution file).run e h = match e.store.solutionText with
      | .error err => ((err.code, e), h)
      | .ok text =>
        let written := h.disk.write file (Utf8.bytes text)
        ((if written.1 then ResultCode.okay.code else ResultCode.fileWriteError.code, e),
          { h with disk := written.2 }) := by
  have hget (next : Engine → EngineM σ Int32) : (get >>= next).run e h = (next e).run e h := rfl
  rw [saveSolution, hget]
  cases e.store.solutionText with
  | error err => rfl
  | ok text =>
    have hwrite : (host (Host.writeFile file (Utf8.bytes text)) : EngineM σ Bool).run e h =
        (((h.disk.write file (Utf8.bytes text)).1, e),
          { h with disk := (h.disk.write file (Utf8.bytes text)).2 }) := rfl
    dsimp only
    rw [EngineM.run_bind, hwrite]
    cases (h.disk.write file (Utf8.bytes text)).1 <;> rfl

variable [Solver σ]

/-- Where there are a solution and an instance, the library writes the solution file. -/
theorem run_writeSoln_of_keeper {e : Engine} (hplain : e.scripted = false) {k : InstanceId}
    (hk : e.keeper = some k) (hsol : e.store.solution.hasSolution = true) (file : String)
    (h : Host σ) :
    (writeSoln file).run e h =
      ((codeOf ((k.writeSolution file).run h).1, e), ((k.writeSolution file).run h).2) := by
  have hget (next : Engine → EngineM σ Int32) : (get >>= next).run e h = (next e).run e h := rfl
  rw [writeSoln, run_guardedCode_of_plain _ _ hplain, hget, hk, hsol]
  rfl

/-- Without one or the other, the engine writes it. -/
theorem run_writeSoln_of_none {e : Engine} (hplain : e.scripted = false)
    (hown : e.keeper = none ∨ e.store.solution.hasSolution = false) (file : String) (h : Host σ) :
    (writeSoln file).run e h = (saveSolution file).run e h := by
  have hget (next : Engine → EngineM σ Int32) : (get >>= next).run e h = (next e).run e h := rfl
  rw [writeSoln, run_guardedCode_of_plain _ _ hplain, hget]
  obtain hown | hown := hown
  · cases e.store.solution.hasSolution <;> rw [hown]
  · cases e.keeper <;> rw [hown]

/-! ## Where the instance and the solution come from -/

/-- How an engine came to the instance and the solution it has: it had them before, and the problem
is the same; or they are from a run of the library, or a solution was put in place by other means
and the instance was there before. -/
inductive Carries (runs : Solver.Solved → Prop) (loads : Solution → Prop) (e e' : Engine) : Prop
  | keeps (hkeeper : ∀ k, e'.keeper = some k → e.keeper = some k)
    (hsolution : e.store.Retains .solution e'.store)
  | runs {solved : Solver.Solved} (hruns : runs solved)
    (hkeeper : ∀ k, e'.keeper = some k → solved.keeper = k)
    (hsolution : ∀ sol, e'.store.found .solution = some sol → solved.solution.unbased = sol ∧
      e'.store.problem.unnamed = e.store.problem.unnamed)
  | loads (hkeeper : ∀ k, e'.keeper = some k → e.keeper = some k)
    (hsolution : ∀ sol, e'.store.found .solution = some sol → loads sol)

namespace Carries

variable {runs runs' : Solver.Solved → Prop} {loads loads' : Solution → Prop} {e e' e'' : Engine}

/-- An instance that is there later was there before, where it is not replaced. -/
theorem keeper_of_retains (h : e.Retains e') (k : InstanceId) (hk : e'.keeper = some k) :
    e.keeper = some k :=
  h.keeper.elim (fun hsame => hsame ▸ hk) fun hnone => nomatch hnone.symm.trans hk

/-- What is retained was there before. -/
theorem of_retains (h : e.Retains e') : Carries runs loads e e' :=
  .keeps (keeper_of_retains h) (h.store .solution)

/-- What happens after that leaves the instance and the solution, or takes them away. -/
theorem trans (h₁ : Carries runs loads e e') (h₂ : e'.Retains e'') : Carries runs loads e e'' := by
  cases h₁ with
  | keeps hkeeper hsolution =>
    exact .keeps (fun k hk => hkeeper k (keeper_of_retains h₂ k hk))
      (hsolution.trans (h₂.store .solution))
  | runs hruns hkeeper hsolution =>
    refine .runs hruns (fun k hk => hkeeper k (keeper_of_retains h₂ k hk)) fun sol hsol => ?_
    obtain ⟨hsol', hproblem'⟩ := h₂.store .solution sol hsol
    obtain ⟨hsame, hproblem⟩ := hsolution sol hsol'
    exact ⟨hsame, hproblem'.trans hproblem⟩
  | loads hkeeper hsolution =>
    exact .loads (fun k hk => hkeeper k (keeper_of_retains h₂ k hk)) fun sol hsol =>
      hsolution sol (h₂.store .solution sol hsol).1

/-- The same by weaker descriptions. -/
theorem imp (h : Carries runs loads e e') (hruns : ∀ solved, runs solved → runs' solved)
    (hloads : ∀ sol, loads sol → loads' sol) : Carries runs' loads' e e' := by
  cases h with
  | keeps hkeeper hsolution => exact .keeps hkeeper hsolution
  | runs h hkeeper hsolution => exact .runs (hruns _ h) hkeeper hsolution
  | loads hkeeper hsolution => exact .loads hkeeper fun sol hsol => hloads sol (hsolution sol hsol)

end Carries

namespace Method

/-- A call runs the library on the problem of an engine, and the run has an outcome. -/
def Runs (c : Method) (e : Engine) (h : Host σ) (solved : Solver.Solved) : Prop :=
  match c with
  | solveProb | submitTask =>
    e.backend = .solver ∧ Solver.Assembles e.store.invalidate (e.released h) solved
  | _ => False

/-- A call reads a task file. -/
def ReadsTask : Method → Prop
  | readTask .. => True
  | _ => False

/-- What a solve of an engine without a script does to its instance and its solution. -/
theorem carries_solves {e e' : Engine} {h : Host σ} (hplain : e.scripted = false)
    {sol : Option Solution} (hsolves : e.Solves h sol e') {loads : Solution → Prop} :
    Carries (solveProb.Runs e h) loads e e' := by
  cases hsolves with
  | idle => exact .of_retains (.refl e)
  | prescribed ho =>
    rw [prescribedSolve?, if_neg (by simp [hplain])] at ho
    cases ho
  | failed => exact .keeps nofun (.of_blank (Store.blank_invalidate e.store))
  | run hown hbackend hlinear hsolve =>
    refine .runs ⟨hbackend, Solver.assembles_of_solve hsolve⟩ (fun k hk => Option.some.inj hk)
      fun sol hsol => ?_
    exact ⟨(Store.found_solution_eq_some_iff.1 hsol).2, rfl⟩

/-- A conflict search leaves the instance and the solution. -/
theorem carries_searches {e e' : Engine} {h : Host σ} {flags : Option IisFlags}
    (hsearches : e.Searches h flags e') {runs : Solver.Solved → Prop} {loads : Solution → Prop} :
    Carries runs loads e e' := by
  cases hsearches <;> exact .keeps (fun _ hk => hk) (.refl .solution e.store)

/-- A task file that is read leaves the instance, whatever it puts in the store. -/
theorem carries_reads {e e' : Engine} {h : Host σ} {file : String} {parts : Sections}
    {sol : Option Solution} (hreads : Reads file parts e h sol e') {runs : Solver.Solved → Prop} :
    Carries runs (fun sol => (readTask file parts).ReadsTask ∧
      (readTask file parts).Stores e h .solution sol) e e' := by
  cases hreads with
  | plain hretains => exact .of_retains hretains
  | solution hfault hfind hgives hload hs =>
    exact .loads (fun _ hk => hk) fun v hv => ⟨trivial, _, _,
      (Store.found_solution_eq_some_iff.1 hv).2, .solution hfault hfind hgives hload hs⟩

/-- What a call of an engine without a script does to its instance and its solution. -/
theorem carries {e : Engine} (hplain : e.scripted = false) (c : Method) (h : Host σ) :
    Carries (c.Runs e h) (fun sol => c.ReadsTask ∧ c.Stores e h .solution sol) e
      (c.run.run e h).1.2 := by
  by_cases hc : c.Finds
  · cases c with
    | solveProb =>
      obtain ⟨sol, hsolves⟩ := solves_solveProb e h
      exact carries_solves hplain hsolves
    | submitTask =>
      obtain ⟨sol, hsolves⟩ := solves_solveProb e h
      exact (carries_solves hplain hsolves).trans (retains_recordJob _ (solveProb.run e h).1.1)
    | computeIis =>
      obtain ⟨flags, hsearches⟩ := searches_computeIis e h
      exact carries_searches hsearches
    | readTask file parts =>
      obtain ⟨sol, hreads⟩ := reads_readTask file parts e h
      exact carries_reads hreads
    | _ => cases hc
  · exact .of_retains (retaining hc e h)

/-- A solve leaves an engine its script, or without one. -/
theorem scripted_solves {e e' : Engine} {h : Host σ} {sol : Option Solution}
    (hsolves : e.Solves h sol e') : e'.scripted = e.scripted := by
  cases hsolves <;> rfl

/-- A conflict search leaves an engine its script, or without one. -/
theorem scripted_searches {e e' : Engine} {h : Host σ} {flags : Option IisFlags}
    (hsearches : e.Searches h flags e') : e'.scripted = e.scripted := by
  cases hsearches <;> rfl

omit [Solver σ] in
/-- A task file leaves an engine its script, or without one. -/
theorem scripted_reads {e e' : Engine} {h : Host σ} {file : String} {parts : Sections}
    {sol : Option Solution} (hreads : Reads file parts e h sol e') : e'.scripted = e.scripted := by
  cases hreads with
  | plain hretains => exact hretains.scripted
  | solution => rfl

/-- No call makes an engine scripted or takes its script away. -/
theorem scripted_run (c : Method) (e : Engine) (h : Host σ) :
    (c.run.run e h).1.2.scripted = e.scripted := by
  by_cases hc : c.Finds
  · cases c with
    | solveProb =>
      obtain ⟨sol, hsolves⟩ := solves_solveProb e h
      exact scripted_solves hsolves
    | submitTask =>
      obtain ⟨sol, hsolves⟩ := solves_solveProb e h
      exact (retains_recordJob _ (solveProb.run e h).1.1).scripted.trans (scripted_solves hsolves)
    | computeIis =>
      obtain ⟨flags, hsearches⟩ := searches_computeIis e h
      exact scripted_searches hsearches
    | readTask file parts =>
      obtain ⟨sol, hreads⟩ := reads_readTask file parts e h
      exact scripted_reads hreads
    | _ => cases hc
  · exact (retaining hc e h).scripted

end Method

end Engine

namespace Step

open Engine (Carries)

variable [Solver σ]

/-- A step runs the library on the problem of a model, and the run has an outcome. -/
def Runs : Step σ → Model → Solver.Solved → Prop
  | call c h, m, solved => m.state ≠ .freed ∧ ∃ c' journal, c.finder? = some c' ∧
    c'.Runs m.engine { h with journal } solved
  | method c h, m, solved => c.Runs m.engine h solved
  | copy _, _, _ | engineCopy, _, _ => False

/-- A step reads a task file. -/
def ReadsTask : Step σ → Prop
  | call c _ => ∃ c', c.finder? = some c' ∧ c'.ReadsTask
  | method c _ => c.ReadsTask
  | copy _ | engineCopy => False

/-- What a step does to the instance and the solution of a model without a script. -/
theorem carries {m : Model} (hplain : m.engine.scripted = false) (t : Step σ) :
    Carries (t.Runs m) (fun sol => t.ReadsTask ∧ t.Stores m .solution sol) m.engine
      (t.after m).engine := by
  cases t with
  | method c h => exact c.carries hplain h
  | copy h => exact .of_retains (retains_copy h m)
  | engineCopy => exact .of_retains (retains_duplicate m.engine)
  | call c h =>
    obtain ⟨-, hretains⟩ | ⟨c', hc, hlive, hretains⟩ := c.moves (R := Engine.Retains) m h
    · exact .of_retains hretains
    · obtain ⟨journal, hannounced⟩ := c.exists_announced m h
      rw [hannounced] at hretains
      refine ((c'.carries hplain { h with journal }).trans hretains).imp ?_ ?_
      · exact fun solved hruns => ⟨hlive, c', journal, hc, hruns⟩
      · exact fun sol hloads => ⟨⟨c', hc, hloads.1⟩, hlive, c', journal, hc, hloads.2⟩

/-- No step gives a model a script or takes it away. -/
theorem scripted_after (t : Step σ) (m : Model) :
    (t.after m).engine.scripted = m.engine.scripted := by
  cases t with
  | method c h => exact c.scripted_run m.engine h
  | copy h => exact (retains_copy h m).scripted
  | engineCopy => rfl
  | call c h =>
    obtain ⟨-, hretains⟩ | ⟨c', -, -, hretains⟩ := c.moves (R := Engine.Retains) m h
    · exact hretains.scripted
    · exact hretains.scripted.trans (c'.scripted_run m.engine _)

end Step

namespace Model

variable [Solver σ] {m : Model} {steps : List (Step σ)}

/-- No run gives a model a script or takes it away. -/
theorem scripted_afterSteps (m : Model) (steps : List (Step σ)) :
    (m.afterSteps steps).engine.scripted = m.engine.scripted := by
  induction steps using List.reverseRecOn with
  | nil => rfl
  | append_singleton steps t ih =>
    rw [afterSteps_concat, t.scripted_after, ih]

/-- An instance is from a run of the library in some steps, and the engine has kept it since. What
the store has of a solution after these steps is from the same run, for the problem that it then
has; or a task file was read later on that has put it there. -/
def KeptSince (m : Model) (steps : List (Step σ)) (k : InstanceId) : Prop :=
  ∃ before t since solved, steps = before ++ t :: since ∧ t.Runs (m.afterSteps before) solved ∧
    solved.keeper = k ∧
    (∀ mid rest, since = mid ++ rest →
      (m.afterSteps (before ++ t :: mid)).engine.keeper = some k) ∧
    ∀ sol, (m.afterSteps steps).found .solution = some sol →
      (solved.solution.unbased = sol ∧
        (m.afterSteps steps).problem.unnamed = (m.afterSteps before).problem.unnamed) ∨
      ∃ mid t' rest, since = mid ++ t' :: rest ∧ t'.ReadsTask ∧
        t'.Stores (m.afterSteps (before ++ t :: mid)) .solution sol

/-- A further step that leaves the instance: it keeps the solution, or reads another one. -/
theorem KeptSince.concat {k : InstanceId} {t' : Step σ} (hkept : m.KeptSince steps k)
    (hk : (m.afterSteps (steps ++ [t'])).engine.keeper = some k)
    (hfound : ∀ sol, (m.afterSteps (steps ++ [t'])).found .solution = some sol →
      ((m.afterSteps steps).found .solution = some sol ∧
        (m.afterSteps (steps ++ [t'])).problem.unnamed = (m.afterSteps steps).problem.unnamed) ∨
      (t'.ReadsTask ∧ t'.Stores (m.afterSteps steps) .solution sol)) :
    m.KeptSince (steps ++ [t']) k := by
  obtain ⟨before, t, since, solved, rfl, hruns, hsolved, hsince, hsolution⟩ := hkept
  refine ⟨before, t, since ++ [t'], solved, by simp, hruns, hsolved, fun mid rest hsplit => ?_,
    fun sol hsol => ?_⟩
  · obtain rfl | ⟨rest, t'', rfl⟩ := List.eq_nil_or_concat rest
    · obtain rfl : mid = since ++ [t'] := (List.append_nil mid).symm.trans hsplit.symm
      rwa [List.append_assoc] at hk
    · rw [List.concat_eq_append, ← List.append_assoc] at hsplit
      obtain ⟨rfl, -⟩ := List.append_inj' hsplit rfl
      exact hsince mid rest rfl
  · obtain ⟨hold, hproblem⟩ | hread := hfound sol hsol
    · obtain ⟨hsame, hproblem'⟩ | ⟨mid, t'', rest, rfl, hread⟩ := hsolution sol hold
      · exact .inl ⟨hsame, hproblem.trans hproblem'⟩
      · exact .inr ⟨mid, t'', rest ++ [t'], by simp, hread⟩
    · exact .inr ⟨since, t', [], rfl, hread⟩

/-- A model without a script that starts without an instance has, after any steps, none but that of
a run in these steps. -/
theorem keptSince (hplain : m.engine.scripted = false) (hstart : m.engine.keeper = none)
    {k : InstanceId} (hk : (m.afterSteps steps).engine.keeper = some k) : m.KeptSince steps k := by
  -- A step leaves the instance or is the run itself, so the induction is from the end of the run.
  induction steps using List.reverseRecOn with
  | nil => exact nomatch hstart.symm.trans hk
  | append_singleton steps t ih =>
    have hcarries := t.carries ((scripted_afterSteps m steps).trans hplain)
    rw [← afterSteps_concat] at hcarries
    cases hcarries with
    | keeps hkeeper hsolution =>
      exact (ih (hkeeper k hk)).concat hk fun sol hsol => .inl (hsolution sol hsol)
    | runs hruns hkeeper hsolution =>
      refine ⟨steps, t, [], _, rfl, hruns, hkeeper k hk, fun mid rest hsplit => ?_,
        fun sol hsol => .inl (hsolution sol hsol)⟩
      obtain ⟨rfl, -⟩ := List.append_eq_nil_iff.1 hsplit.symm
      exact hk
    | loads hkeeper hsolution =>
      exact (ih (hkeeper k hk)).concat hk fun sol hsol => .inr (hsolution sol hsol)

/-- Whose solution is written, after any steps with a model that has no script and starts without an
instance. If there are a solution and an instance, the file is left to the library: the instance is
that of a run in these steps, kept ever since, and the solution is from this run, for the problem
the model has, unless a task file with a solution was read after it. In all other cases the file has
the text of the solution in the store. -/
theorem written_solution (m : Model) (hplain : m.engine.scripted = false)
    (hstart : m.engine.keeper = none) (steps : List (Step σ)) (file : String) (h : Host σ) :
    let e := (m.afterSteps steps).engine
    (∀ k, e.keeper = some k → e.store.solution.hasSolution = true →
      (Engine.writeSoln file).run e h =
          ((codeOf ((k.writeSolution file).run h).1, e), ((k.writeSolution file).run h).2) ∧
        m.KeptSince steps k ∧
        (m.afterSteps steps).found .solution = some e.store.solution.unbased) ∧
    (e.keeper = none ∨ e.store.solution.hasSolution = false →
      (Engine.writeSoln file).run e h = match e.store.solutionText with
        | .error err => ((err.code, e), h)
        | .ok text =>
          let written := h.disk.write file (Utf8.bytes text)
          ((if written.1 then ResultCode.okay.code else ResultCode.fileWriteError.code, e),
            { h with disk := written.2 })) := by
  intro e
  have hplain' : e.scripted = false := (scripted_afterSteps m steps).trans hplain
  refine ⟨fun k hk hsol => ⟨?_, keptSince hplain hstart hk, ?_⟩, fun hown => ?_⟩
  · exact Engine.run_writeSoln_of_keeper hplain' hk hsol file h
  · exact Store.found_solution_eq_some_iff.2 ⟨.inl hsol, rfl⟩
  · rw [Engine.run_writeSoln_of_none hplain' hown, Engine.run_saveSolution]

/-- A model whose engine has a solver library and no script. -/
def solverModel : Model := ((create false .solver none).run (hostOf {})).1

/-- A host whose library finds an optimum with the value 1. -/
def optimalHost : Host ScriptedSolver :=
  { solver := { runs := [
      { modelStatus := 7
        ints := [("primal_solution_status", 2)]
        values := ⟨[1], [], [], []⟩ }] } }

/-- A variable is added, and the library finds its value. -/
def solvedByLibrary : List (Step ScriptedSolver) := [
  .call (.addVar ⟨0, 2, 1, false, none⟩) (hostOf {}),
  .call .solveProb optimalHost]

/-- After the solve the variable has the value 1, and the instance that found it is kept. -/
theorem engine_solvedByLibrary :
    let e := (solverModel.afterSteps solvedByLibrary).engine
    e.keeper = some 0 ∧ e.store.numCols = 1 ∧ e.store.solution.hasSolution = true ∧
      e.store.solution.primal = [1] := by
  decide +kernel

/-- After the solve there are a solution and its instance, which a run in these steps has left. -/
theorem written_solution_of_library :
    let m := solverModel.afterSteps solvedByLibrary
    solverModel.engine.scripted = false ∧ solverModel.engine.keeper = none ∧
      m.engine.keeper = some 0 ∧ m.engine.store.solution.hasSolution = true ∧
      m.engine.store.solution.primal = [1] ∧ solverModel.KeptSince solvedByLibrary 0 ∧
      ((Engine.writeSoln "s").run m.engine optimalHost).2.requests = #[.writeSolution 0 "s"] := by
  obtain ⟨hk, -, hsol, hprimal⟩ := engine_solvedByLibrary
  obtain ⟨hwrite, hkept, -⟩ :=
    (written_solution solverModel rfl rfl solvedByLibrary "s" optimalHost).1 0 hk hsol
  refine ⟨rfl, rfl, hk, hsol, hprimal, hkept, ?_⟩
  rw [hwrite]
  exact InstanceId.requests_writeSolution 0 (by cbv) optimalHost

/-- Another solution of a problem with one column. -/
def otherSolution : Solution where
  status := .subOptimal
  hasSolution := true
  primal := [2]
  primalObjective := 2
  dualObjective := 2

/-- The document with this solution alone. -/
def otherDocument : Json := .obj [
  ("format", .text "mdotask"), ("version", .int 1), ("soln", TaskFile.solutionNode otherSolution)]

/-- Its solution is read from its text, and put in the store of a problem with one column. -/
theorem loadBytes_otherDocument {s : Store} (hcols : s.numCols = 1) :
    TaskFile.loadBytes (Utf8.bytes otherDocument.render) ⟨false, false, true⟩ s =
      (.ok (), s.setSolution otherSolution) := by
  have hnan : otherDocument.NaNFree := by
    have hnum : (2 : Float).isNaN = false := by decide
    exact ⟨trivial, trivial, ⟨trivial, ⟨hnum, trivial⟩, trivial, trivial, trivial, trivial, trivial,
      hnum, hnum, trivial⟩, trivial⟩
  have hread : Json.read (Utf8.bytes otherDocument.render) = .ok otherDocument := by
    have hback := (Json.read_render otherDocument).1 (by decide)
    rwa [Json.withoutNaN_of_nanFree hnan] at hback
  have hparse : TaskFile.parse otherDocument ⟨false, false, true⟩ =
      .ok ⟨none, none, some otherSolution⟩ := rfl
  have hfits : otherSolution.Fits s.numCols s.numRows := ⟨fun _ => hcols.symm, .inl rfl⟩
  rw [TaskFile.loadBytes, hread]
  dsimp only
  rw [TaskFile.load, hparse]
  dsimp only
  rw [TaskFile.run_apply_solution, TaskFile.attempt, TaskFile.placeSolution,
    TaskFile.applySolution_of_fits hfits]

/-- The library finds the value 1, and then the document is read from a file. -/
def loadedAfterSolve : List (Step ScriptedSolver) := solvedByLibrary ++ [
  .method (.readTask "t" ⟨false, false, true⟩)
    { solver := {}, disk := ⟨[(["t"], .file (Utf8.bytes otherDocument.render))]⟩ }]

/-- The document's solution has taken the place of the library's. -/
theorem engine_loadedAfterSolve :
    (solverModel.afterSteps loadedAfterSolve).engine =
      { (solverModel.afterSteps solvedByLibrary).engine with
        store :=
          (solverModel.afterSteps solvedByLibrary).engine.store.setSolution otherSolution } := by
  have hplain : (solverModel.afterSteps solvedByLibrary).engine.scripted = false :=
    scripted_afterSteps _ _
  have hcols := engine_solvedByLibrary.2.1
  have hfind (content : List UInt8) :
      (Disk.mk [(["t"], .file content)]).find "t" = .file content := Disk.find_single (by cbv)
  rw [loadedAfterSolve, afterSteps_concat]
  generalize solverModel.afterSteps solvedByLibrary = m at hplain hcols
  have hread (h : Host ScriptedSolver) (hdisk : h.disk.find "t" =
      .file (Utf8.bytes otherDocument.render)) :
      ((Engine.readTask "t" ⟨false, false, true⟩).run m.engine h).1.2 =
        { m.engine with store := m.engine.store.setSolution otherSolution } := by
    rw [Engine.readTask, Engine.run_guardedCode_of_plain _ _ hplain, Engine.run_loadTask, hdisk]
    dsimp only
    rw [loadBytes_otherDocument hcols]
  exact hread _ (hfind _)

/-- The library has found the value 1, and then the value 2 is read: that is the value that the
store has, and the library is to write its own. -/
theorem loaded_but_not_written :
    let e := (solverModel.afterSteps solvedByLibrary).engine
    let e' := (solverModel.afterSteps loadedAfterSolve).engine
    e.keeper = some 0 ∧ e.store.solution.primal = [1] ∧
      e'.keeper = some 0 ∧ e'.store.solution.hasSolution = true ∧
      e'.store.solution.primal = [2] ∧ e'.store.solution.primal ≠ e.store.solution.primal ∧
      ((Engine.writeSoln "s").run e' optimalHost).2.requests = #[.writeSolution 0 "s"] := by
  obtain ⟨hk, -, -, hprimal⟩ := engine_solvedByLibrary
  have hplain : (solverModel.afterSteps solvedByLibrary).engine.scripted = false :=
    scripted_afterSteps _ _
  rw [engine_loadedAfterSolve]
  generalize solverModel.afterSteps solvedByLibrary = m at hk hprimal hplain
  intro e e'
  have hother : e'.store.solution.primal = [2] := rfl
  refine ⟨hk, hprimal, hk, rfl, hother, ?_, ?_⟩
  · rw [hother, hprimal]
    decide
  · have hplain' : e'.scripted = false := hplain
    rw [Engine.run_writeSoln_of_keeper hplain' hk rfl]
    exact InstanceId.requests_writeSolution 0 (by cbv) optimalHost

end Model

end MathProgram
