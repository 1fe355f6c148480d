/-!
# Handles

A handle names a variable or a constraint of a model by the model's number and the index of the
column or row in the engine's matrix; it carries no data. The generation tells the model whether
the handle was issued before its handles of that kind were last renewed, and is no part of what
the handle names: two handles are the same when model and index agree.
-/

namespace MathProgram

/-- The number of a model, in order of creation. -/
abbrev ModelId := Nat

/-- The name of a model in events and texts. -/
def ModelId.label (m : ModelId) : String := "M" ++ toString m

/-- What a handle names. -/
inductive Kind where
  | variable
  | constraint
  deriving DecidableEq, Repr

/-- The word for a kind in messages. -/
def Kind.word : Kind → String
  | .variable => "variable"
  | .constraint => "constraint"

/-- The word for a kind in the text of a handle. -/
def Kind.shortWord : Kind → String
  | .variable => "Var"
  | .constraint => "Cons"

/-- A handle of a variable or a constraint. -/
structure Handle (k : Kind) where
  model : ModelId
  index : Nat
  generation : UInt32
  deriving DecidableEq, Repr

/-- A handle of a variable, a column of the matrix. -/
abbrev Var := Handle .variable

/-- A handle of a constraint, a row of the matrix. -/
abbrev Cons := Handle .constraint

namespace Handle

variable {k : Kind}

/-- Two handles name the same thing. -/
def same (a b : Handle k) : Bool := a.model == b.model && a.index == b.index

/-- The text of a handle: its kind, its model and its index. -/
def shown (h : Handle k) : String :=
  k.shortWord ++ "(" ++ h.model.label ++ ":" ++ toString h.index ++ ")"

/-- The handles of the first `n` columns or rows of a model. -/
def allOf (model : ModelId) (generation : UInt32) (n : Nat) : List (Handle k) :=
  (List.range n).map fun i => ⟨model, i, generation⟩

/-- How many different things handles name. -/
def countDistinct (hs : List (Handle k)) : Nat :=
  (hs.foldl (fun seen h => if seen.any h.same then seen else h :: seen) []).length

end Handle

end MathProgram
