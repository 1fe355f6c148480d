import MathProgram.Model.Lifecycle

/-!
# Environments

An environment makes engines of one kind and counts the models that were created in it or copied
into it and have not been freed. It can be freed once there are none left.
-/

namespace MathProgram

/-- An environment. -/
structure Environment where
  /-- Its number, under which the host counts its models. -/
  id : Nat
  backend : Backend
  scripted : Bool
  /-- The number of threads that its engines are set to. -/
  threads : Option Int32 := none
  freed : Bool := false

namespace Environment

variable {σ : Type}

/-- Makes an environment. -/
def create (scripted : Bool) (backend : Backend) (threads : Option Int32) :
    HostM σ Environment := do
  Host.record .debug .environment "env" "create" "Created environment" []
  return { id := ← Host.newEnvironment, backend, scripted, threads }

/-- The number of models that have not been freed. -/
def live (e : Environment) : HostM σ Nat := Host.liveModels e.id

/-- A new engine. -/
def newEngine (e : Environment) (name : Option String) : HostM σ Engine := do
  let engine := Engine.empty e.backend e.scripted name
  match e.threads with
  | none => return engine
  | some n => return (← (Engine.setParam Param.numThreads (.int n)).run engine).2

/-- Counts a model as one of the environment. -/
def adopt (e : Environment) (m : Model) : HostM σ Model := do
  Host.countModel e.id
  return { m with env := some e.id }

/-- Creates an empty model. -/
def createModel (e : Environment) (name : Option String) : HostM σ (Except Error Model) := do
  if e.freed then return .error .freed
  let m ← Model.ofEngine (← e.newEngine name)
  return .ok (← e.adopt m)

/-- Copies a model. -/
def copyModel (e : Environment) (m : Model) : HostM σ (Except Error Model) := do
  if e.freed then return .error .freed
  match ← (Model.duplicate.run).run m with
  | (.ok copy, _) => return .ok (← e.adopt copy)
  | (.error err, _) => return .error err

/-- Frees the environment. -/
def free (e : Environment) : HostM σ (Except Error Environment) := do
  if e.freed then return .ok e
  let live ← e.live
  if 0 < live then return .error (.envInUse live)
  Host.record .debug .environment "env" "free" "Freed environment" []
  return .ok { e with freed := true }

end Environment

end MathProgram
