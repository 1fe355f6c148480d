import MathProgram.Proofs.Model.Composition

/-!
# What the calls of a model do to its engine

A relation between engines that is reflexive and transitive, and that leads from an engine to what
it is after any call that finds nothing (`Engine.Stable`), also leads from the engine of a model to
what it is after a call of the model, or else to that from what the engine is after the call by
which something may be found (`Call.moves`).
-/

namespace MathProgram

variable {σ α β : Type}

namespace Engine

/-- A computation leads from one engine to another by a relation. -/
def Moves (R : Engine → Engine → Prop) (act : EngineM σ α) : Prop :=
  ∀ (e : Engine) (h : Host σ), R e (act.run e h).1.2

/-- A relation leads from an engine to itself and onwards, and to whatever a call leaves that finds
nothing. -/
class Stable (σ : Type) [Solver σ] (R : Engine → Engine → Prop) : Prop where
  refl : ∀ e, R e e
  trans : ∀ {e e' e''}, R e e' → R e' e'' → R e e''
  method : ∀ c : Method, ¬c.Finds → Moves R (c.run : EngineM σ c.Result)

end Engine

variable [Solver σ] {R : Engine → Engine → Prop} [Engine.Stable σ R]

open Engine (Stable)

namespace ModelM

/-- A computation leads from the engine of a model to another by a relation. -/
def Moves (R : Engine → Engine → Prop) (act : ModelM σ α) : Prop :=
  ∀ (m : Model) (h : Host σ), R m.engine (act.run m h).1.2.engine

/-- One computation after another, which is left out if the first fails. -/
theorem Moves.bind {act : ModelM σ α} {next : α → ModelM σ β} (hact : Moves R act)
    (hnext : ∀ a, Moves R (next a)) : Moves R (act >>= next) := fun m h => by
  have hfirst := hact m h
  rw [run_bind]
  rcases hrun : act.run m h with ⟨⟨err | a, m₁⟩, h₁⟩ <;> rw [hrun] at hfirst
  · exact hfirst
  · exact Stable.trans σ hfirst (hnext a m₁ h₁)

/-- What is composed of calls that find nothing. -/
theorem Composed.moves {act : ModelM σ α} (hact : Composed none act) : Moves R act := by
  induction hact with
  | aside hact => exact fun m h => (hact m h).1.symm ▸ Stable.refl σ m.engine
  | method c hc =>
    -- There is no call here that may find something.
    exact fun m h => Stable.method c (fun hfinds => nomatch hc hfinds) m.engine h
  | bind _ _ hact hnext => exact hact.bind hnext

/-- A computation on the engine, unless the model has been freed, and then what finds nothing. -/
theorem moves_withEngine {act : EngineM σ α} {next : α → ModelM σ β}
    (hnext : ∀ a, Composed none (next a)) (m : Model) (h : Host σ) :
    (m.state = .freed ∧ R m.engine ((withEngine act >>= next).run m h).1.2.engine) ∨
      (m.state ≠ .freed ∧
        R (act.run m.engine h).1.2 ((withEngine act >>= next).run m h).1.2.engine) := by
  rw [run_bind, run_withEngine]
  by_cases hfreed : m.state = .freed
  · rw [if_pos hfreed]
    exact .inl ⟨hfreed, Stable.refl σ m.engine⟩
  · rw [if_neg hfreed]
    exact .inr ⟨hfreed, (hnext _).moves { m with engine := (act.run m.engine h).1.2 } _⟩

/-- A call of the engine, unless the model has been freed, and then what finds nothing. -/
theorem moves_call {operation : String} {act : EngineM σ Int32} {next : Unit → ModelM σ α}
    (hnext : Composed none (next ())) (m : Model) (h : Host σ) :
    (m.state = .freed ∧ R m.engine ((call operation act >>= next).run m h).1.2.engine) ∨
      (m.state ≠ .freed ∧
        R (act.run m.engine h).1.2 ((call operation act >>= next).run m h).1.2.engine) := by
  rw [call, bind_assoc]
  exact moves_withEngine (fun _ => Composed.checkCode.bind fun _ => hnext) m h

end ModelM

namespace Model

open ModelM

/-- Freeing. -/
theorem moves_free (m : Model) (h : Host σ) : R m.engine (m.free.run h).1.engine := by
  rw [free]
  split
  · exact Stable.refl σ m.engine
  · have hrelease : Engine.Moves R (Engine.free : EngineM σ Unit) := Stable.method .free not_false
    cases m.env with
    | none => exact hrelease m.engine h
    | some env => exact hrelease m.engine h

/-- The host on which the engine of a model solves: it is recorded before that a solve begins. -/
def announced (m : Model) (h : Host σ) : Host σ :=
  ((Host.record .debug .model "model" "solve" "Solving"
    [("num_vars", .int m.vars.length), ("num_conss", .int m.conss.length)]).run h).2

end Model

namespace Call

open Model ModelM

/-- The host on which a call of a model makes the call of its engine by which it may find something:
only a solve is announced before. -/
def announced (c : Call) (m : Model) (h : Host σ) : Host σ :=
  match c with
  | solveProb => m.announced h
  | _ => h

omit [Solver σ] in
/-- What is announced is recorded in the journal. -/
theorem exists_announced (c : Call) (m : Model) (h : Host σ) :
    ∃ journal, c.announced m h = { h with journal } := by
  cases c <;> exact ⟨_, rfl⟩

/-- A call that may find something makes the call of the engine for it, unless the model has been
freed, and goes on from there. -/
theorem moves_finder {c : Call} {c' : Engine.Method} (hc : c.finder? = some c') (m : Model)
    (h : Host σ) :
    (m.state = .freed ∧ R m.engine (c.run.run m h).1.2.engine) ∨
      (m.state ≠ .freed ∧
        R (c'.run.run m.engine (c.announced m h)).1.2 (c.run.run m h).1.2.engine) := by
  cases c with
  | solveProb =>
    cases hc
    exact moves_call composed_solved m (m.announced h)
  | submitTask =>
    cases hc
    exact moves_withEngine (fun _ => (Composed.host .record).bind fun _ => .pure _) m h
  | computeIis =>
    cases hc
    exact moves_call composed_conflict m h
  | readTask file parts =>
    obtain ⟨name, hname, rfl⟩ := Option.map_eq_some_iff.1 hc
    -- There is a call of the engine only if the name of the file is accepted.
    have hfile : fileName file = .ok name := by
      cases hfile : fileName file with
      | error err => cases hfile ▸ hname
      | ok name' => cases hfile ▸ hname; rfl
    have hrun : (readTask file parts).run.run m h = (do
        call "read_task" (Engine.readTask name parts)
        if parts.model then modify reloaded
        recordFile "read_task" "Read task" name [("model", .bool parts.model),
          ("param", .bool parts.param), ("soln", .bool parts.soln)] : ModelM σ Unit).run m h := by
      show (Model.readTask file parts).run m h = _
      rw [Model.readTask, hfile]
      rfl
    rw [hrun]
    exact moves_call composed_recordTask m h
  | _ => cases hc

/-- A call leads from the engine of a model to what it is afterwards, or it makes a call of the
engine that may find something, and leads on from there. -/
theorem moves (c : Call) (m : Model) (h : Host σ) :
    ((∀ c', c.finder? = some c' → m.state = .freed) ∧ R m.engine (c.run.run m h).1.2.engine) ∨
      ∃ c', c.finder? = some c' ∧ m.state ≠ .freed ∧
        R (c'.run.run m.engine (c.announced m h)).1.2 (c.run.run m h).1.2.engine := by
  cases hc : c.finder? with
  | none =>
    refine .inl ⟨nofun, ?_⟩
    by_cases hfree : c = .free
    · subst hfree
      exact m.moves_free h
    · exact (hc ▸ c.composed hfree : Composed none c.run).moves m h
  | some c' =>
    obtain ⟨hfreed, hmoves⟩ | ⟨hfreed, hmoves⟩ := moves_finder (R := R) hc m h
    · exact .inl ⟨fun _ _ => hfreed, hmoves⟩
    · exact .inr ⟨c', rfl, hfreed, hmoves⟩

end Call

end MathProgram
