import MathProgram.Proofs.Model.Calls
import MathProgram.Solver.Scripted

/-!
# When a model is solved

A model is marked as solved by a solve that ends well, and by the lookup of a job that is finished
(`Call.Marks`). The calls that change the problem take the mark away when they succeed. So the state
of a model tells of the last call that marked it, and that the problem was not changed through the
model since by a call that succeeded (`Model.solved_state`). It tells no more. A solve that fails
leaves the state as it is, so it need not have been the last solve that ended well; a job that is
looked up may be of any age; and two calls can fail after they changed the problem, replacing the
objective and reading a task file (`Call.Breaks`): the mark stays then (`Model.solved_regardless`).
-/

namespace MathProgram

variable {σ : Type}

namespace Call

/-- A call marks the model as solved: a solve that ends well, or the lookup of a job that is
finished. -/
def Marks (c : Call) (r : Except Error c.Result) : Prop :=
  match c, r with
  | solveProb, .ok _ => True
  | retrieveTask _, .ok job => job.state = .finished
  | _, _ => False

/-- A call fails that may have changed the problem before: replacing the objective, or reading a
task file whose problem is chosen. -/
def Breaks (c : Call) (r : Except Error c.Result) : Prop :=
  match c, r with
  | setQuadraticObjective _, .error _ => True
  | readTask _ parts, .error _ => parts.model = true
  | _, _ => False

/-- The calls that have the effect of a mark. -/
theorem effect_eq_marks_iff {c : Call} {r : Except Error c.Result} :
    c.effect r = .marks ↔ c.Marks r := by
  unfold effect Marks
  cases c with
  | solveProb => cases r <;> simp
  | retrieveTask id => cases r <;> simp
  | readTask file parts => cases r <;> simp <;> split <;> simp
  | deleteVars xs => cases xs <;> cases r <;> simp
  | deleteConss cs => cases cs <;> cases r <;> simp
  | _ => cases r <;> simp

/-- The calls that have the effect of a failure half way. -/
theorem effect_eq_drafts_or_spoils_iff {c : Call} {r : Except Error c.Result} :
    c.effect r = .drafts ∨ c.effect r = .spoils ↔ c.Breaks r := by
  unfold effect Breaks
  cases c with
  | setQuadraticObjective obj => cases r <;> simp
  | readTask file parts => cases hparts : parts.model <;> cases r <;> simp [hparts]
  | retrieveTask id =>
    cases r with
    | error err => simp
    | ok job =>
      dsimp only
      split <;> simp
  | deleteVars xs => cases xs <;> cases r <;> simp
  | deleteConss cs => cases cs <;> cases r <;> simp
  | _ => cases r <;> simp

/-- What happened to a model that is solved now: it was marked, without a change of its problem; or
it was not and was solved as it is, and its problem is the same or the call failed half way. -/
theorem Happens.solved {W : Scope} {effect : Effect} {m m' : Model} (h : Happens W effect m m')
    (hsolved : m'.state = .solved) : effect = .marks ∧ m'.problem = m.problem ∨
      effect ≠ .marks ∧ m.state = .solved ∧
        (m'.problem = m.problem ∨ effect = .drafts ∨ effect = .spoils) := by
  cases effect with
  | grows =>
    obtain ⟨hstate, hproblem⟩ | hstate := Model.Grows.state h
    · exact .inr ⟨by simp, hstate ▸ hsolved, .inl hproblem⟩
    · cases hstate.symm.trans hsolved
  | deletes =>
    obtain ⟨-, s, -, rfl⟩ := h
    cases hsolved
  | loads =>
    obtain ⟨-, e, ops, -, -, rfl⟩ := h
    cases hsolved
  | syncs =>
    obtain ⟨-, rfl⟩ := h
    exact .inr ⟨by simp, hsolved, .inl rfl⟩
  | marks =>
    obtain ⟨-, e, ops, hops, hstore, rfl⟩ := h
    refine .inl ⟨rfl, ?_⟩
    rw [Model.problem, hstore, Store.problem_after hops]
    rfl
  | frees =>
    obtain ⟨-, rfl⟩ | ⟨-, e, -, rfl⟩ := h
    · exact .inr ⟨by simp, hsolved, .inl rfl⟩
    · cases hsolved
  | spoils =>
    obtain ⟨e, ops, -, -, rfl, -⟩ := h
    exact .inr ⟨by simp, hsolved, .inr (.inr rfl)⟩
  | drafts =>
    obtain ⟨e, ops, -, -, rfl, -⟩ := h
    exact .inr ⟨by simp, hsolved, .inr (.inl rfl)⟩

end Call

/-! ## One call -/

namespace Turn

variable [Solver σ] {t : Turn σ} {m : Model}

/-- A turn marks the model as solved. -/
def Marks (t : Turn σ) (m : Model) : Prop := t.call.Marks (t.call.run.run m t.host).1.1

/-- The call of a turn fails that may have changed the problem before. -/
def Breaks (t : Turn σ) (m : Model) : Prop := t.call.Breaks (t.call.run.run m t.host).1.1

/-- A turn leaves a mark where it is: the model is solved and is not marked again, and the problem
is the same, or the call fails that may have changed it before. -/
def Keeps (t : Turn σ) (m : Model) : Prop :=
  (t.after m).state = .solved ∧ ¬t.Marks m ∧ ((t.after m).problem = m.problem ∨ t.Breaks m)

/-- A model is marked by the turn, without a change of its problem; or it is solved as it was
before, and the turn leaves the mark where it is. -/
theorem marks_or_keeps (ht : t.host.Honest) (hsolved : (t.after m).state = .solved) :
    t.Marks m ∧ (t.after m).problem = m.problem ∨ m.state = .solved ∧ t.Keeps m := by
  have hmarks : t.effect m = .marks ↔ t.Marks m := Call.effect_eq_marks_iff
  obtain ⟨heffect, hproblem⟩ | ⟨heffect, hstate, hproblem⟩ := (t.happens ht m).solved hsolved
  · exact .inl ⟨hmarks.1 heffect, hproblem⟩
  · exact .inr ⟨hstate, hsolved, mt hmarks.2 heffect, hproblem.imp_right fun h =>
      Call.effect_eq_drafts_or_spoils_iff.1 h⟩

/-- A call that fails half way leaves the state as it is. -/
theorem state_of_breaks (ht : t.host.Honest) (hbreaks : t.Breaks m) :
    (t.after m).state = m.state := by
  have hhappens := t.happens ht m
  have heffect : t.effect m = .drafts ∨ t.effect m = .spoils :=
    Call.effect_eq_drafts_or_spoils_iff.2 hbreaks
  rcases heffect with heffect | heffect <;> rw [heffect] at hhappens
  · obtain ⟨e, ops, -, -, hm, -⟩ := hhappens
    rw [hm]
  · obtain ⟨e, ops, -, -, hm, -⟩ := hhappens
    rw [hm]

end Turn

/-! ## Runs of calls -/

namespace Model

open ModelM

variable [Solver σ] {m : Model} {turns : List (Turn σ)}

/-- Turns leave a mark where it is, one after another. -/
def Kept (m : Model) (turns : List (Turn σ)) : Prop :=
  ∀ done t rest, turns = done ++ t :: rest → t.Keeps (m.afterTurns done)

namespace Kept

/-- Before any turn. -/
theorem nil (m : Model) : m.Kept ([] : List (Turn σ)) := fun done t rest h => by
  cases done <;> cases h

/-- One turn, and those after it. -/
theorem cons {t : Turn σ} (ht : t.Keeps m) (hturns : (t.after m).Kept turns) :
    m.Kept (t :: turns) := fun done t' rest h => by
  cases done with
  | nil =>
    obtain ⟨rfl, -⟩ := List.cons.inj h
    exact ht
  | cons t'' done =>
    obtain ⟨rfl, hrest⟩ := List.cons.inj h
    exact hturns done t' rest hrest

/-- If no call fails that may have changed the problem before, the problem stays the same. -/
theorem problem (h : m.Kept turns) (hbreaks : ∀ done t rest, turns = done ++ t :: rest →
    ¬t.Breaks (m.afterTurns done)) : (m.afterTurns turns).problem = m.problem := by
  induction turns generalizing m with
  | nil => rfl
  | cons t turns ih =>
    have hsame : (t.after m).problem = m.problem :=
      (h [] t turns rfl).2.2.resolve_right (hbreaks [] t turns rfl)
    refine (ih ?_ ?_).trans hsame
    · exact fun done t' rest hrest => h (t :: done) t' rest (congrArg (t :: ·) hrest)
    · exact fun done t' rest hrest => hbreaks (t :: done) t' rest (congrArg (t :: ·) hrest)

end Kept

/-- After turns a model is solved as it was before, or there is a last turn that marked it. -/
theorem kept_or_marked (hhonest : ∀ t ∈ turns, t.host.Honest)
    (hsolved : (m.afterTurns turns).state = .solved) : m.state = .solved ∧ m.Kept turns ∨
      ∃ done t since, turns = done ++ t :: since ∧ t.Marks (m.afterTurns done) ∧
        (t.after (m.afterTurns done)).problem = (m.afterTurns done).problem ∧
        (t.after (m.afterTurns done)).Kept since := by
  induction turns generalizing m with
  | nil => exact .inl ⟨hsolved, .nil m⟩
  | cons t turns ih =>
    obtain ⟨ht, hturns⟩ := List.forall_mem_cons.1 hhonest
    obtain ⟨hstate, hkept⟩ | ⟨done, t', since, hsplit, hlast⟩ := ih hturns hsolved
    · obtain ⟨hmarks, hproblem⟩ | ⟨hstate', hkeeps⟩ := t.marks_or_keeps ht hstate
      · exact .inr ⟨[], t, turns, rfl, hmarks, hproblem, hkept⟩
      · exact .inl ⟨hstate', .cons hkeeps hkept⟩
    · exact .inr ⟨t :: done, t', since, congrArg (t :: ·) hsplit, hlast⟩

/-- A solve does not change the problem, and its code decides on the state: zero marks the model,
and any other code leaves the state as it is. -/
theorem state_solveProb (m : Model) (h : Host σ) (hfreed : m.state ≠ .freed) : ∃ journal,
    let code := (Engine.solveProb.run m.engine { h with journal }).1.1
    let m' := (solveProb.run m h).1.2
    m'.problem = m.problem ∧ (code = ResultCode.okay.code → m'.state = .solved) ∧
      (code ≠ ResultCode.okay.code → m'.state = m.state) := by
  obtain ⟨journal, h', -, hrun⟩ := run_solveProb m h
  obtain ⟨-, ops, hops, hstore⟩ := Engine.drives_solveProb (P := Store.Op.Quiet) trivial
    (fun _ => trivial) m.engine { h with journal }
  refine ⟨journal, ?_⟩
  have hproblem := (congrArg Store.problem hstore).trans (Store.problem_after hops _)
  dsimp only
  rw [hrun, if_neg hfreed]
  split_ifs with hcode
  · exact ⟨hproblem, fun _ => rfl, fun h => absurd hcode h⟩
  · exact ⟨hproblem, fun h => absurd h hcode, fun _ => rfl⟩

/-- Submitting a job runs a solve and leaves the state and the problem as they are, whatever the
solve's code. -/
theorem state_submitTask (m : Model) (h : Host σ) :
    (submitTask.run m h).1.2.state = m.state ∧ (submitTask.run m h).1.2.problem = m.problem := by
  obtain ⟨-, e, ops, hops, hstore, hrun, -⟩ := drives_submitTask m h
  rw [hrun]
  exact ⟨rfl, (congrArg Store.problem hstore).trans (Store.problem_after hops _)⟩

/-- What it says that a model is solved, after any calls on any hosts. There is a last call that
marked it, a solve that ended well or the lookup of a finished job. Since then every call left the
mark where it is: none marked the model, so every solve failed, and none changed the problem but
such as failed half way. If there was none of those the problem is that of the last mark. A solve
marks the model exactly if the engine's code is zero; a solve that fails, a job that is submitted
and a call that fails half way leave the state as it is. -/
theorem solved_state :
    (∀ (engine : Engine) (env : Option ℕ) (start : Host σ) (turns : List (Turn σ)),
      let m : Model := { ((ofEngine engine).run start).1 with env }
      (∀ t ∈ turns, t.host.Honest) → (m.afterTurns turns).state = .solved →
      ∃ done t since, turns = done ++ t :: since ∧
        let before := m.afterTurns done
        let marked := t.after before
        t.Marks before ∧ marked.problem = before.problem ∧ marked.Kept since ∧
          ((∀ done' t' rest, since = done' ++ t' :: rest → ¬t'.Breaks (marked.afterTurns done')) →
            (m.afterTurns turns).problem = before.problem)) ∧
    (∀ (m : Model) (h : Host σ), m.state ≠ .freed → ∃ journal,
      let code := (Engine.solveProb.run m.engine { h with journal }).1.1
      let m' := (solveProb.run m h).1.2
      m'.problem = m.problem ∧ (code = ResultCode.okay.code → m'.state = .solved) ∧
        (code ≠ ResultCode.okay.code → m'.state = m.state)) ∧
    (∀ (m : Model) (h : Host σ),
      (submitTask.run m h).1.2.state = m.state ∧ (submitTask.run m h).1.2.problem = m.problem) ∧
    ∀ (t : Turn σ) (m : Model), t.host.Honest → t.Breaks m → (t.after m).state = m.state := by
  refine ⟨fun engine env start turns => ?_, state_solveProb, state_submitTask,
    fun t m ht hbreaks => t.state_of_breaks ht hbreaks⟩
  intro m hhonest hsolved
  have hnew : m.state ≠ .solved := by
    obtain ⟨state, journal, hstate, hrun⟩ := run_ofEngine engine start
    have hm : m.state = state := congrArg (·.1.state) hrun
    rw [hm]
    obtain rfl | rfl := hstate <;> nofun
  obtain ⟨hstate, -⟩ | ⟨done, t, since, rfl, hmarks, hproblem, hkept⟩ :=
    kept_or_marked hhonest hsolved
  · exact absurd hstate hnew
  · refine ⟨done, t, since, rfl, hmarks, hproblem, hkept, fun hbreaks => ?_⟩
    rw [afterTurns_append, afterTurns_cons]
    exact (hkept.problem hbreaks).trans hproblem

/-- A host with a script. -/
def hostOf (script : Script) : Host ScriptedSolver := { solver := {}, script }

/-- A host on which the next solve ends with a code. -/
def solveHost (code : Int32) : Host ScriptedSolver := hostOf { solves := [⟨code, none⟩] }

/-- The objective is replaced, and that fails after the coefficients were set. -/
def draftingTurn : Turn ScriptedSolver :=
  ⟨.setQuadraticObjective .empty, hostOf { faults := .ofTable [(.setRealAttr, 0, 1)] }⟩

/-- A variable is added with coefficient one in the objective. -/
def addingTurn : Turn ScriptedSolver := ⟨.addVar ⟨0, 1, 1, false, none⟩, hostOf {}⟩

/-- A new model around a store without columns. -/
def newModel : Model := ((create true .plain none).run (hostOf {})).1

/-- A model with a variable after a solve that ended well. -/
def solvedModel : Model := newModel.afterTurns [addingTurn, ⟨.solveProb, solveHost 0⟩]

/-- A solve that ends well and one that fails, after which the model is solved with the problem of
the first; and the state that a failing replacement of the objective leaves. -/
theorem solved_state_after_two_solves :
    let turns : List (Turn ScriptedSolver) :=
      [addingTurn, ⟨.solveProb, solveHost 0⟩, ⟨.solveProb, solveHost 1⟩]
    (∃ done t since, turns = done ++ t :: since ∧ t.Marks (newModel.afterTurns done) ∧
        (newModel.afterTurns turns).problem = (newModel.afterTurns done).problem) ∧
      (solveProb.run solvedModel (solveHost 1)).1.2.problem = solvedModel.problem ∧
      (draftingTurn.after solvedModel).state = solvedModel.state := by
  intro turns
  have hhonest : ∀ t ∈ turns, t.host.Honest := by
    simp only [turns, List.forall_mem_cons]
    exact ⟨fun _ _ => nofun, fun _ _ => nofun, fun _ _ => nofun, List.forall_mem_nil _⟩
  have hbreaks (t : Turn ScriptedSolver) (ht : t ∈ turns) (m : Model) : ¬t.Breaks m := by
    simp only [turns, List.mem_cons, List.not_mem_nil, or_false] at ht
    obtain rfl | rfl | rfl := ht <;> exact not_false
  obtain ⟨hturns, hsolve, -, hdraft⟩ := solved_state (σ := ScriptedSolver)
  refine ⟨?_, ?_, ?_⟩
  · obtain ⟨done, t, since, hsplit, hmarks, -, -, hproblem⟩ :=
      hturns (.empty .plain true none) none (hostOf {}) turns hhonest (by decide)
    refine ⟨done, t, since, hsplit, hmarks, hproblem fun done' t' rest hsince => hbreaks t' ?_ _⟩
    rw [hsplit, hsince]
    simp
  · obtain ⟨journal, hproblem, -⟩ := hsolve solvedModel (solveHost 1) (by decide)
    exact hproblem
  · have hfails (r : Except Error Unit) (hr : r.toBool = false) :
        (Call.setQuadraticObjective .empty).Breaks r := by
      cases r with
      | error err => trivial
      | ok a => cases hr
    exact hdraft draftingTurn solvedModel (Host.honest_ofTable rfl (by decide))
      (hfails _ (by decide +kernel))

/-- A model stays solved when a solve fails, and when replacing the objective fails after the
coefficient of the variable was set; and it is solved again when a finished job is looked up after
another variable was added. -/
theorem solved_regardless :
    let late : List (Turn ScriptedSolver) := [⟨.submitTask, solveHost 0⟩, addingTurn,
      ⟨.retrieveTask (Job.idOf 1), hostOf {}⟩]
    (solvedModel.state = .solved ∧ solvedModel.problem.cols.map (·.obj) = [1]) ∧
      ((solveProb.run solvedModel (solveHost 1)).1.1.toBool = false ∧
        (solveProb.run solvedModel (solveHost 1)).1.2.state = .solved) ∧
      ((draftingTurn.after solvedModel).state = .solved ∧
        (draftingTurn.after solvedModel).problem.cols.map (·.obj) = [0]) ∧
      ((solvedModel.afterTurns late).state = .solved ∧
        (solvedModel.afterTurns late).problem.cols.map (·.obj) = [1, 1]) := by
  decide +kernel

end Model

end MathProgram
