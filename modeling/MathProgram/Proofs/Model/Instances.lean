import MathProgram.Proofs.Engine.Instances
import MathProgram.Proofs.Model.Findings

/-!
# The instance of a model

Whatever a call of a model does to its engine, it does by calls of the engine, so it exchanges the
instance of the engine for the one that the engine keeps afterwards (`Call.exchanges`); and no call
but freeing frees the model. A call leaves a new instance only if it is a solve that runs to
completion (`Call.kept`), and freeing leaves none (`Model.free_gives_up`).
-/

namespace MathProgram

variable {σ α β : Type}

/-- On a host one model takes the place of another, with the instance of its engine. It is not freed
by that. -/
structure Model.Succeeds (m m' : Model) (h h' : Host σ) : Prop where
  exchange : Exchange m.engine.keeper m'.engine.keeper h h'
  freed : m'.state = .freed → m.state = .freed

namespace ModelM

/-- A computation exchanges the instance of the engine of a model for the one that the engine keeps
afterwards, and does not free the model. -/
def Exchanges (act : ModelM σ α) : Prop :=
  ∀ (m : Model) (h : Host σ), h.Orderly → (∀ k, m.engine.keeper = some k → h.Alive k) →
    m.Succeeds (act.run m h).1.2 h (act.run m h).2

/-- One computation after another, which is left out if the first fails. -/
theorem Exchanges.bind {act : ModelM σ α} {next : α → ModelM σ β} (hact : Exchanges act)
    (hnext : ∀ a, Exchanges (next a)) : Exchanges (act >>= next) := fun m h hh hold => by
  have hfirst := hact m h hh hold
  rw [run_bind]
  rcases hrun : act.run m h with ⟨⟨err | a, m₁⟩, h₁⟩ <;> rw [hrun] at hfirst
  · exact hfirst
  · obtain ⟨hx, hstate⟩ := hfirst
    have hrest := hnext a m₁ h₁ hx.orderly fun _ => hx.new_alive
    exact ⟨hx.trans hh hrest.exchange, hstate ∘ hrest.freed⟩

/-- Whatever is composed of calls of the engine and of what is done aside. -/
theorem Composed.exchanges [Solver σ] {f? : Option Engine.Method} {act : ModelM σ α}
    (hact : Composed f? act) : Exchanges act := by
  induction hact with
  | aside hact =>
    intro m h hh hold
    obtain ⟨hengine, hstate, hquiet⟩ := hact m h
    exact ⟨hengine.symm ▸ .of_quiet hh hold hquiet, hstate⟩
  | method c hc => exact fun m h hh hold => ⟨c.exchanges m.engine h hh hold, id⟩
  | bind _ _ hact hnext => exact hact.bind hnext

end ModelM

/-- Every call but freeing exchanges the instance of the engine of a model for the one that the
engine keeps afterwards, and does not free the model. -/
theorem Call.exchanges [Solver σ] {c : Call} (hc : c ≠ .free) :
    ModelM.Exchanges (c.run : ModelM σ c.Result) := (c.composed hc).exchanges

/-! ## The instance that is kept -/

/-- What is retained was there. -/
theorem Engine.Retains.kept {e e' : Engine} (h : e.Retains e') {k : InstanceId}
    (hk : e'.keeper = some k) : e.keeper = some k := by
  obtain hkeeper | hkeeper := h.keeper
  · exact hkeeper.symm.trans hk
  · cases hkeeper.symm.trans hk

section

variable [Solver σ] {k : InstanceId}

open Model ModelM

/-- Freeing a model that was not freed before: its engine gives up its instance. -/
theorem Model.free_gives_up {m : Model} (hm : m.state ≠ .freed) (h : Host σ) :
    (m.free.run h).1.engine = { m.engine with keeper := none } ∧
      (m.engine.released h).Quiet (m.free.run h).2 := by
  have hengine : (Engine.free.run m.engine : HostM σ (Unit × Engine)).run h =
      (((), { m.engine with keeper := none }), m.engine.released h) :=
    Engine.run_releaseKeeper m.engine h
  rw [free, if_neg hm, HostM.run_bind, hengine]
  cases m.env <;> exact ⟨rfl, ⟨rfl, rfl⟩⟩

/-- Freeing a model exchanges the instance of its engine for none, or for itself if the model was
freed before. -/
theorem Model.exchange_free (m : Model) {h : Host σ} (hh : h.Orderly)
    (hold : ∀ k, m.engine.keeper = some k → h.Alive k) :
    Exchange m.engine.keeper (m.free.run h).1.engine.keeper h (m.free.run h).2 := by
  by_cases hm : m.state = .freed
  · rw [free, if_pos hm]
    exact .of_quiet hh hold (.refl h)
  · obtain ⟨hengine, hquiet⟩ := free_gives_up hm h
    have hrelease := Engine.exchanges_releaseKeeper m.engine h hh hold
    rw [Engine.run_releaseKeeper] at hrelease
    rw [hengine]
    refine hrelease.trans hh (.of_quiet hrelease.orderly (fun k hk => ?_) hquiet)
    cases hk

namespace Call

/-- A call of a model is a solve that runs to completion, with an instance. -/
def Completes (c : Call) (m : Model) (h : Host σ) (k : InstanceId) : Prop :=
  match c with
  | solveProb => m.state ≠ .freed ∧ m.engine.Completes (m.announced h) k
  | submitTask => m.state ≠ .freed ∧ m.engine.Completes h k
  | _ => False

/-- The instance that the engine of a model keeps after a call is that of a solve that has run to
completion; or the call was no such solve, and the engine had the instance before. -/
theorem kept {c : Call} {m : Model} {h : Host σ}
    (hk : (c.run.run m h).1.2.engine.keeper = some k) :
    c.Completes m h k ∨ m.engine.keeper = some k ∧ ∀ j, ¬c.Completes m h j := by
  obtain ⟨hfreed, hretains⟩ | ⟨c', hc, hlive, hretains⟩ := c.moves (R := Engine.Retains) m h
  · -- The call is no solve, or the model had been freed before.
    refine .inr ⟨hretains.kept hk, fun j hj => ?_⟩
    cases c with
    | solveProb | submitTask => exact hj.1 (hfreed _ rfl)
    | _ => exact hj
  · obtain hnew | ⟨hsame, hnever⟩ := Engine.Method.kept (hretains.kept hk)
    · refine .inl ?_
      cases c with
      | solveProb | submitTask => cases hc; exact ⟨hlive, hnew⟩
      | computeIis => cases hc; exact hnew
      | readTask => obtain ⟨name, -, rfl⟩ := Option.map_eq_some_iff.1 hc; exact hnew
      | _ => cases hc
    · refine .inr ⟨hsame, fun j hj => ?_⟩
      cases c with
      | solveProb | submitTask => cases hc; exact hnever j hj.2
      | _ => exact hj

end Call

end

end MathProgram
