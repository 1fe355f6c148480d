import MathProgram.Model.Solving

/-!
# Beginning and end of a model

A model is built around an engine, with rosters of what the engine holds. Freeing gives up the
engine and takes the model off its environment's count; doing so again has no effect. A model that
goes out of use is freed first.
-/

namespace MathProgram.Model

variable {σ : Type}

/-- Builds a model around an engine. -/
def ofEngine (engine : Engine) : HostM σ Model := do
  let id ← Host.newModel
  let m := ({ id, engine : Model }).renewVars.renewConss
  let m := if m.vars.isEmpty && m.conss.isEmpty then m else { m with state := .populated }
  Host.record .debug .model "model" "create" "Created model"
    [("model", .text id.label),
     ("num_vars", .int m.vars.length), ("num_conss", .int m.conss.length)]
  return m

/-- Builds a model around a new engine with an empty problem. -/
def create (scripted : Bool) (backend : Backend) (name : Option String) : HostM σ Model :=
  ofEngine (.empty backend scripted name)

/-- Builds a model around a new engine with a copy of a store. -/
def ofStore (scripted : Bool) (backend : Backend) (store : Store) : HostM σ Model :=
  ofEngine { backend, store, scripted }

/-- Frees a model. -/
def free [Solver σ] (m : Model) : HostM σ Model := do
  if m.state = .freed then return m
  let ((), engine) ← Engine.free.run m.engine
  if let some env := m.env then Host.discountModel env
  Host.record .debug .model "model" "free" "Freed model" [("model", .text m.id.label)]
  return { m with engine, state := .freed, env := none }

/-- An independent model with the same problem, parameters and solution. -/
def duplicate : ModelM σ Model := do
  ModelM.checkUsable
  ModelM.host (ofEngine (← get).engine.duplicate)

end MathProgram.Model
