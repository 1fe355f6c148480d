import Mathlib.Logic.Basic
import MathProgram.Model.Basic
import MathProgram.Proofs.Basic

/-!
# Runs of computations on models

What the building blocks of a model's calls do when they are run on a model and a host. A result
code that is refused changes nothing but the journal, so what a call of the engine does to a model
is what it does to its engine (`run_call`, `call_error`).
-/

namespace MathProgram.ModelM

variable {σ α β : Type}

/-- The run of one computation after another: that is left out if the first fails. -/
theorem run_bind (act : ModelM σ α) (next : α → ModelM σ β) (m : Model) (h : Host σ) :
    (act >>= next).run m h = match act.run m h with
      | ((.ok a, m), h) => (next a).run m h
      | ((.error e, m), h) => ((.error e, m), h) := by
  have hrun : (act >>= next).run m h =
      (ExceptT.bindCont next (act.run m h).1.1).run (act.run m h).1.2 (act.run m h).2 := rfl
  rw [hrun]
  rcases act.run m h with ⟨⟨_ | _, _⟩, _⟩ <;> rfl

/-- A computation so many times has a property that composition preserves. -/
theorem of_times {P : {α : Type} → ModelM σ α → Prop} (hP : Compositional (m := ModelM σ) P) {n : ℕ}
    {act : ModelM σ α} (hact : P act) : P (times n act) := by
  induction n with
  | zero => exact hP.pure _
  | succ n ih => exact hP.bind hact fun _ => hP.bind ih fun _ => hP.pure _

/-- A check changes nothing else. -/
theorem run_check (r : Except Error α) (m : Model) (h : Host σ) :
    (check r).run m h = ((r, m), h) := rfl

/-- The run of the check that a model has not been freed. -/
theorem run_checkUsable (m : Model) (h : Host σ) : (checkUsable : ModelM σ Unit).run m h =
    ((if m.state = .freed then .error .freed else .ok (), m), h) := rfl

/-- A computation on the engine of a model. -/
theorem run_onEngine (act : EngineM σ α) (m : Model) (h : Host σ) : (onEngine act).run m h =
    ((.ok (act.run m.engine h).1.1, { m with engine := (act.run m.engine h).1.2 }),
      (act.run m.engine h).2) := rfl

/-- A computation on the engine of a model, which is left out if the model has been freed. -/
theorem run_withEngine (act : EngineM σ α) (m : Model) (h : Host σ) :
    (withEngine act).run m h = if m.state = .freed then ((.error .freed, m), h) else
      ((.ok (act.run m.engine h).1.1, { m with engine := (act.run m.engine h).1.2 }),
        (act.run m.engine h).2) := by
  rw [withEngine, run_bind, run_checkUsable]
  by_cases hfreed : m.state = .freed
  · rw [if_pos hfreed, if_pos hfreed]
  · rw [if_neg hfreed, if_neg hfreed]
    rfl

/-- A call of the engine: what it does to the engine stays, whatever becomes of its code. -/
theorem run_call (operation : String) (act : EngineM σ Int32) (m : Model) (h : Host σ) :
    (call operation act).run m h = if m.state = .freed then ((.error .freed, m), h) else
      (checkCode operation (act.run m.engine h).1.1).run
        { m with engine := (act.run m.engine h).1.2 } (act.run m.engine h).2 := by
  rw [call, run_bind, run_withEngine]
  by_cases hfreed : m.state = .freed
  · rw [if_pos hfreed, if_pos hfreed]
  · rw [if_neg hfreed, if_neg hfreed]

/-- A code of zero is passed over. -/
theorem run_checkCode_okay (operation : String) (m : Model) (h : Host σ) :
    (checkCode operation ResultCode.okay.code).run m h = ((.ok (), m), h) := rfl

/-- Any other code becomes an error, of which the journal tells. -/
theorem run_checkCode_of_ne (operation : String) {code : Int32}
    (hcode : code ≠ ResultCode.okay.code) (m : Model) (h : Host σ) :
    ∃ journal, (checkCode operation code).run m h =
      ((.error (.engine code (ResultCode.explain code)), m), { h with journal }) := by
  have hfail : (checkCode operation code : ModelM σ Unit) = fail operation code :=
    if_neg (mt beq_iff_eq.1 hcode)
  rw [hfail]
  exact ⟨_, rfl⟩

/-- A call fails because the model has been freed, or with the code of the engine, which stays. -/
theorem call_error {operation : String} {act : EngineM σ Int32} {m m' : Model} {h h' : Host σ}
    {err : Error} (hrun : (call operation act).run m h = ((.error err, m'), h')) :
    (err = .freed ∧ m' = m) ∨
      (act.run m.engine h).1.1 ≠ ResultCode.okay.code ∧
        err = .engine (act.run m.engine h).1.1 (ResultCode.explain (act.run m.engine h).1.1) ∧
        m' = { m with engine := (act.run m.engine h).1.2 } := by
  rw [run_call] at hrun
  by_cases hfreed : m.state = .freed
  · rw [if_pos hfreed] at hrun
    cases hrun
    exact .inl ⟨rfl, rfl⟩
  · rw [if_neg hfreed] at hrun
    by_cases hcode : (act.run m.engine h).1.1 = ResultCode.okay.code
    · rw [hcode, run_checkCode_okay] at hrun
      cases hrun
    · obtain ⟨journal, hcheck⟩ := run_checkCode_of_ne operation hcode
        { m with engine := (act.run m.engine h).1.2 } (act.run m.engine h).2
      rw [hcheck] at hrun
      cases hrun
      exact .inr ⟨hcode, rfl, rfl⟩

end MathProgram.ModelM
