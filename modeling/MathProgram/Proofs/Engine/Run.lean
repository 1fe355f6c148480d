import MathProgram.Engine.Basic

/-!
# Runs of computations on engines

What the building blocks of an engine's calls do when they are run on an engine and a host. A fault
that the script prescribes changes nothing but the script, so a call either fails without an effect
on the engine or does its work (`run_guardedCode`).
-/

namespace MathProgram

variable {σ α β : Type}

/-- The run of one computation after another. -/
theorem EngineM.run_bind (act : EngineM σ α) (next : α → EngineM σ β) (e : Engine) (h : Host σ) :
    (act >>= next).run e h = (next (act.run e h).1.1).run (act.run e h).1.2 (act.run e h).2 := rfl

namespace Engine

/-- Asking for a fault changes nothing but the script. -/
theorem run_fault? (c : EngineCall) (e : Engine) (h : Host σ) :
    ∃ code script, (fault? c).run e h = ((code, e), { h with script }) := by
  have hrun : (fault? c).run e h = (if e.scripted then EngineM.host (Host.fault? c)
      else pure none : EngineM σ (Option Int32)).run e h := rfl
  rw [hrun]
  cases e.scripted <;> exact ⟨_, _, rfl⟩

/-- A call fails by the script and changes nothing else, or does its work. -/
theorem run_guardedCode (c : EngineCall) (act : EngineM σ Int32) (e : Engine) (h : Host σ) :
    ∃ script, (∃ code, (guardedCode c act).run e h = ((code, e), { h with script })) ∨
      (guardedCode c act).run e h = act.run e { h with script } := by
  obtain ⟨code, script, hfault⟩ := run_fault? c e h
  refine ⟨script, ?_⟩
  rw [guardedCode, EngineM.run_bind, hfault]
  -- A prescribed code is returned at once; without one the call goes on.
  cases code with
  | none => exact .inr rfl
  | some code => exact .inl ⟨code, rfl⟩

/-- Without a script a call does its work. -/
theorem run_guardedCode_of_plain (c : EngineCall) (act : EngineM σ Int32) {e : Engine}
    (he : e.scripted = false) (h : Host σ) : (guardedCode c act).run e h = act.run e h := by
  have hfault : (fault? c).run e h = (if e.scripted then EngineM.host (Host.fault? c)
      else pure none : EngineM σ (Option Int32)).run e h := rfl
  rw [guardedCode, EngineM.run_bind, hfault, he]
  rfl

end Engine

end MathProgram
