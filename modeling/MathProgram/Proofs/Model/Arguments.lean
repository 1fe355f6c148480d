import MathProgram.Model.Attributes
import MathProgram.Model.Files
import MathProgram.Proofs.Model.Batches

/-!
# Checks of arguments

What is checked before a call turns to the engine: handles, the lengths of lists, ranges of indexes
and file names. Such a check fails for an argument or not at all (`ByArgument`), so it neither tells
that the model has been freed nor abandons the call.
-/

namespace MathProgram

variable {α β : Type} {k : Kind}

/-- The error is that an argument is wrong. -/
def Error.OfArgument : Error → Prop
  | lengthMismatch .. | invalidArgument _ | foreignHandle .. | staleHandle .. | nul _ => True
  | engine .. | freed | envInUse _ | outOfRange => False

/-- A check gives something, or an error for an argument. -/
def ByArgument (r : Except Error α) : Prop := ∀ err, r = .error err → err.OfArgument

namespace ByArgument

/-- A check that is passed. -/
theorem ok (a : α) : ByArgument (.ok a) := nofun

/-- A check that fails for an argument. -/
theorem error {err : Error} (h : err.OfArgument) : ByArgument (.error err : Except Error α) := by
  rintro _ ⟨⟩
  exact h

/-- One check after another. -/
theorem bind {r : Except Error α} {f : α → Except Error β} (hr : ByArgument r)
    (hf : ∀ a, ByArgument (f a)) : ByArgument (r >>= f) := by
  cases r with
  | error err => exact error (hr err rfl)
  | ok a => exact hf a

/-- A check of which nothing is used further on. -/
theorem discard {r : Except Error α} (hr : ByArgument r) : ByArgument (Functor.discard r) := by
  cases r with
  | error err => exact error (hr err rfl)
  | ok a => exact ok ()

/-- A check of every item of a list. -/
theorem mapM {f : α → Except Error β} {xs : List α} (hf : ∀ x, ByArgument (f x)) :
    ByArgument (xs.mapM f) :=
  Compositional.mapM ⟨ok, bind⟩ fun x _ => hf x

end ByArgument

open ByArgument

/-! ## Lengths, ranges and names -/

theorem byArgument_checkLength {what : Counted} {expected got : ℕ} :
    ByArgument (checkLength what expected got) := by
  unfold checkLength
  split_ifs
  · exact ok ()
  · exact error trivial

namespace Model

theorem byArgument_checkOptional {what : Counted} {expected : ℕ} {xs : Option (List α)} :
    ByArgument (checkOptional what expected xs) := by
  cases xs with
  | none => exact ok ()
  | some xs => exact byArgument_checkLength

theorem byArgument_checkRange {start len : ℕ} : ByArgument (checkRange start len) := by
  unfold checkRange
  cases rangeEnd? start len with
  | none => exact error trivial
  | some stop => exact ok ()

theorem byArgument_fileName {file : List UInt8} : ByArgument (fileName file) := by
  unfold fileName
  cases Utf8.text? file with
  | none => exact error trivial
  | some name =>
    dsimp only
    split_ifs
    · exact error trivial
    · exact ok name

/-! ## Handles -/

variable {m : Model}

theorem byArgument_accept {x : Handle k} : ByArgument (m.accept x) := fun err h => by
  obtain ⟨-, rfl⟩ | ⟨-, -, rfl⟩ := accept_eq_error_iff.1 h <;> trivial

theorem byArgument_mapM_accept {xs : List (Handle k)} : ByArgument (xs.mapM m.accept) :=
  mapM fun _ => byArgument_accept

theorem byArgument_linearParts {e : LinearExpr Float} : ByArgument (m.linearParts e) :=
  (byArgument_mapM_accept (k := .variable)).bind fun _ => ok _

theorem byArgument_positions {cs : List Cons} {xs : List Var} :
    ByArgument (m.positions cs xs) :=
  byArgument_checkLength.bind fun _ => (byArgument_mapM_accept (k := .constraint)).bind fun _ =>
    (byArgument_mapM_accept (k := .variable)).bind fun _ => ok _

theorem byArgument_quadPositions {xs ys : List Var} : ByArgument (m.quadPositions xs ys) :=
  byArgument_checkLength.bind fun _ => (byArgument_mapM_accept (k := .variable)).bind fun _ =>
    (byArgument_mapM_accept (k := .variable)).bind fun _ => ok _

end Model

/-- The additions of a batch. -/
theorem Batch.byArgument_additions (b : Batch k) : ByArgument b.additions := by
  cases b with
  | vars | conss => exact ok _
  | varsWith =>
    exact byArgument_checkLength.bind fun _ => byArgument_checkLength.bind fun _ =>
      Model.byArgument_checkOptional.bind fun _ => Model.byArgument_checkOptional.bind fun _ => ok _
  | varsWithCols =>
    exact byArgument_checkLength.bind fun _ => byArgument_checkLength.bind fun _ =>
      byArgument_checkLength.bind fun _ => Model.byArgument_checkOptional.bind fun _ =>
        Model.byArgument_checkOptional.bind fun _ => ok _
  | conssWith | ranges =>
    exact byArgument_checkLength.bind fun _ => byArgument_checkLength.bind fun _ =>
      Model.byArgument_checkOptional.bind fun _ => ok _

end MathProgram
