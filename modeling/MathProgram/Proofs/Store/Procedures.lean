import MathProgram.Proofs.Store.Operations
import MathProgram.Store.Procedures

/-!
# Runs of operations in place

An operation in place comes to the same result and the same store as the operation
(`Op.exec_procedure`), so its checks come before its changes.

A step that cannot fail is `Straight`; so is a loop over such steps. `exec_check` and
`Straight.exec_bind` run a procedure step by step.
-/

namespace MathProgram

namespace Procedure

variable {σ α β : Type}

/-- The procedure runs to its end and changes the state by `f`. -/
def Straight (p : Procedure σ Unit) (f : σ → σ) : Prop := ∀ s, p.exec s = (.ok (), f s)

/-- A change. -/
theorem straight_change (f : σ → σ) : Straight (change f) f := fun _ => rfl

/-- Nothing. -/
theorem straight_pure : Straight (pure () : Procedure σ Unit) id := fun _ => rfl

/-- Running a sequence. -/
theorem exec_seq (p : Procedure σ α) (k : α → Procedure σ β) (s : σ) :
    (p >>= k).exec s = (ExceptT.bindCont k (p.exec s).1).run (p.exec s).2 := rfl

/-- Running a sequence whose first part runs to its end. -/
theorem exec_bind {p : Procedure σ α} {k : α → Procedure σ β} {s s' : σ} {a : α}
    (h : p.exec s = (.ok a, s')) : (p >>= k).exec s = (k a).exec s' := by
  rw [exec_seq, h]
  rfl

/-- Running a sequence that is left in its first part. -/
theorem exec_bind_error {p : Procedure σ α} {k : α → Procedure σ β} {s s' : σ} {e : ResultCode}
    (h : p.exec s = (.error e, s')) : (p >>= k).exec s = (.error e, s') := by
  rw [exec_seq, h]
  rfl

/-- Running a check and what follows it. -/
theorem exec_check (wrong : σ → Prop) [DecidablePred wrong] (e : ResultCode)
    (k : Unit → Procedure σ β) (s : σ) :
    (check wrong e >>= k).exec s = if wrong s then (.error e, s) else (k ()).exec s := by
  have hcheck : (check wrong e).exec s = if wrong s then (.error e, s) else (.ok (), s) := by
    show (if wrong s then throw e else pure () : Procedure σ Unit).exec s = _
    split_ifs <;> rfl
  split_ifs with hw
  · exact exec_bind_error (hcheck.trans (if_pos hw))
  · exact exec_bind (hcheck.trans (if_neg hw))

/-- Running what depends on the state. -/
theorem exec_get (k : σ → Procedure σ β) (s : σ) : (get >>= k).exec s = (k s).exec s := rfl

/-- Running what depends on a result. -/
theorem exec_orLeave (r : Except ResultCode α) (k : α → Procedure σ β) (s : σ) :
    (orLeave r >>= k).exec s = match r with
      | .ok a => (k a).exec s
      | .error e => (.error e, s) := by
  cases r <;> rfl

namespace Straight

variable {p q : Procedure σ Unit} {f g : σ → σ}

/-- Running what follows. -/
theorem exec_bind (h : Straight p f) (k : Unit → Procedure σ β) (s : σ) :
    (p >>= k).exec s = (k ()).exec (f s) := Procedure.exec_bind (h s)

/-- One after the other. -/
theorem seq (hp : Straight p f) (hq : Straight q g) :
    Straight (do p; q) fun s => g (f s) := fun s => (hp.exec_bind _ s).trans (hq (f s))

/-- What comes to the same change. -/
theorem congr (h : Straight p f) (hfg : ∀ s, f s = g s) : Straight p g := fun s =>
  (h s).trans (congrArg (Prod.mk _) (hfg s))

/-- A loop whose steps change a part of the state changes it as the steps together do. -/
theorem forM {part : (β → β) → σ → σ} (hid : ∀ s, part id s = s)
    (hcomp : ∀ f g s, part g (part f s) = part (g ∘ f) s) {step : α → Procedure σ Unit}
    {f : α → β → β} (h : ∀ a, Straight (step a) (part (f a))) (xs : List α) :
    Straight (xs.forM step) (part fun b => xs.foldl (fun b a => f a b) b) := by
  induction xs with
  | nil => exact straight_pure.congr fun s => (hid s).symm
  | cons a xs ih => exact ((h a).seq ih).congr fun s => hcomp _ _ s

end Straight

end Procedure

namespace Store

open Procedure

variable {s : Store}

/-! ## Runs -/

section Runs

/-- A loop that changes the matrix step by step. -/
theorem straight_forM_matrix {α : Type} {step : α → Procedure Store Unit} {f : α → Matrix → Matrix}
    (h : ∀ x, Straight (step x) (mapMatrix (f x))) (xs : List α) :
    Straight (xs.forM step) (mapMatrix fun a => xs.foldl (fun a x => f x a) a) :=
  Straight.forM (fun _ => rfl) (fun _ _ _ => rfl) h xs

/-- A loop that changes the quadratic form step by step. -/
theorem straight_forM_quad {α : Type} {step : α → Procedure Store Unit}
    {f : α → Sparse Float → Sparse Float} (h : ∀ x, Straight (step x) (mapQuad (f x)))
    (xs : List α) : Straight (xs.forM step) (mapQuad fun q => xs.foldl (fun q x => f x q) q) :=
  Straight.forM (fun _ => rfl) (fun _ _ _ => rfl) h xs

/-- A change of the copy by columns. -/
theorem straight_onCols (f : Sparse Float → Sparse Float) :
    Straight (onCols f) (mapMatrix fun a => { a with byCol := f a.byCol }) := straight_change _

/-- A change of the copy by rows. -/
theorem straight_onRows (f : Sparse Float → Sparse Float) :
    Straight (onRows f) (mapMatrix fun a => { a with byRow := f a.byRow }) := straight_change _

/-- Adding entries to one copy and to the other adds them to the matrix. -/
theorem straight_addEntries (entries : List (ℕ × ℕ × Float)) :
    Straight (addEntries entries) (mapMatrix (·.addAll entries)) := by
  have hstep (e : ℕ × ℕ × Float) : Straight
      (do
        onCols (·.addAt (e.2.1, e.1) e.2.2)
        onRows (·.addAt (e.1, e.2.1) e.2.2))
      (mapMatrix (·.add e.1 e.2.1 e.2.2)) := (straight_onCols _).seq (straight_onRows _)
  exact straight_forM_matrix hstep entries

/-- Removing an entry of one copy and of the other removes it from the matrix. -/
theorem straight_eraseEntry (i j : ℕ) : Straight (eraseEntry i j) (mapMatrix (·.erase i j)) :=
  (straight_onRows _).seq (straight_onCols _)

/-- Adding entries to the quadratic form. -/
theorem straight_addQuadEntries (entries : List (ℕ × ℕ × Float)) :
    Straight (addQuadEntries entries) (mapQuad fun q =>
      entries.foldl (fun q (i, j, v) => q.addAt (Problem.quadKey i j) v) q) := by
  have hstep (e : ℕ × ℕ × Float) : Straight
      (change (mapQuad (·.addAt (Problem.quadKey e.1 e.2.1) e.2.2)))
      (mapQuad (·.addAt (Problem.quadKey e.1 e.2.1) e.2.2)) := straight_change _
  exact straight_forM_quad hstep entries

/-- Setting entries one after the other in one copy and in the other. -/
theorem straight_setEntries (entries : List ((ℕ × ℕ) × Float)) :
    Straight (entries.forM fun ((i, j), v) =>
      if v == 0 then eraseEntry i j
      else do
        onRows (·.insert (i, j) v)
        onCols (·.insert (j, i) v))
      (mapMatrix fun a => entries.foldl (fun a ((i, j), v) => a.set i j v) a) := by
  have hstep (e : (ℕ × ℕ) × Float) : Straight
      (if e.2 == 0 then eraseEntry e.1.1 e.1.2
        else do
          onRows (·.insert (e.1.1, e.1.2) e.2)
          onCols (·.insert (e.1.2, e.1.1) e.2))
      (mapMatrix (·.set e.1.1 e.1.2 e.2)) := by
    unfold Matrix.set
    split_ifs
    · exact straight_eraseEntry _ _
    · exact (straight_onRows _).seq (straight_onCols _)
  exact straight_forM_matrix hstep entries

/-- Setting entries of the quadratic form one after the other. -/
theorem straight_setQuadEntries (entries : List ((ℕ × ℕ) × Float)) :
    Straight (entries.forM fun ((i, j), v) =>
      if v == 0 then change (mapQuad (·.erase (Problem.quadKey i j)))
      else change (mapQuad (·.insert (Problem.quadKey i j) v)))
      (mapQuad fun q => entries.foldl (fun q ((i, j), v) => Problem.setQuad q i j v) q) := by
  have hstep (e : (ℕ × ℕ) × Float) : Straight
      (if e.2 == 0 then change (mapQuad (·.erase (Problem.quadKey e.1.1 e.1.2)))
        else change (mapQuad (·.insert (Problem.quadKey e.1.1 e.1.2) e.2)))
      (mapQuad (Problem.setQuad · e.1.1 e.1.2 e.2)) := by
    unfold Problem.setQuad
    split_ifs
    · exact straight_change _
    · exact straight_change _
  exact straight_forM_quad hstep entries

/-- An operation on the problem runs by its result. -/
theorem attempt_edit (f : Problem → Except ResultCode Problem) (s : Store) :
    TaskFile.attempt (·.edit f) s = match f s.problem with
      | .ok p => (.ok (), s.withProblem p)
      | .error e => (.error e, s) := by
  rw [TaskFile.attempt, edit]
  cases f s.problem <;> rfl

/-- Checking positions of the matrix in place. -/
theorem exec_checkPairs (rows cols : List ℕ) (k : Unit → Procedure Store Unit) (s : Store) :
    (checkPairs rows cols >>= k).exec s = match s.problem.checkPositions rows cols with
      | .ok a => (k a).exec s
      | .error e => (.error e, s) := by
  rw [checkPairs, bind_assoc, exec_check, bind_assoc, exec_check, exec_check,
    Problem.checkPositions]
  split_ifs <;> rfl

/-- Checking positions of the quadratic form in place. -/
theorem exec_checkQuadPairs (cols₁ cols₂ : List ℕ) (k : Unit → Procedure Store Unit) (s : Store) :
    (checkQuadPairs cols₁ cols₂ >>= k).exec s = match s.problem.checkQuadPositions cols₁ cols₂ with
      | .ok a => (k a).exec s
      | .error e => (.error e, s) := by
  rw [checkQuadPairs, bind_assoc, exec_check, exec_check, Problem.checkQuadPositions]
  split_ifs <;> rfl

/-- Appending a column in place. -/
theorem exec_appendCol (c : ColData) (rows : List ℕ) (vals : List Float) (s : Store) :
    (appendCol c rows vals).exec s = (Op.addCol c rows vals).run s := by
  rw [appendCol, exec_check, exec_check, exec_get, (straight_change _).exec_bind,
    (straight_addEntries _).exec_bind, straight_change, Op.run, attempt_edit, Problem.addCol]
  split_ifs <;> rfl

/-- Appending a row in place. -/
theorem exec_appendRow (r : RowData) (cols : List ℕ) (vals : List Float) (s : Store) :
    (appendRow r cols vals).exec s = (Op.addRow r cols vals).run s := by
  rw [appendRow, exec_check, exec_check, exec_get, (straight_change _).exec_bind,
    (straight_addEntries _).exec_bind, straight_change, Op.run, attempt_edit, Problem.addRow]
  split_ifs <;> rfl

/-- Deleting columns in place. -/
theorem exec_dropCols (removed : List ℕ) (s : Store) :
    (dropCols removed).exec s = (Op.deleteCols removed).run s := by
  rw [dropCols, exec_check, (straight_change _).exec_bind, (straight_onCols _).exec_bind,
    (straight_change _).exec_bind, (straight_change _).exec_bind, straight_change, Op.run,
    attempt_edit, Problem.deleteCols]
  split_ifs <;> rfl

/-- Deleting rows in place. -/
theorem exec_dropRows (removed : List ℕ) (s : Store) :
    (dropRows removed).exec s = (Op.deleteRows removed).run s := by
  rw [dropRows, exec_check, (straight_change _).exec_bind, (straight_onRows _).exec_bind,
    (straight_change _).exec_bind, straight_change, Op.run, attempt_edit, Problem.deleteRows]
  split_ifs <;> rfl

/-- Setting entries in place. -/
theorem exec_writeElements (rows cols : List ℕ) (vals : List Float) (s : Store) :
    (writeElements rows cols vals).exec s = (Op.setElements rows cols vals).run s := by
  rw [writeElements, exec_checkPairs, Op.run, attempt_edit, Problem.setElements]
  cases s.problem.checkPositions rows cols with
  | error e => rfl
  | ok u =>
    dsimp only
    rw [exec_check, (straight_setEntries _).exec_bind, straight_change]
    unfold Problem.checkValues
    split_ifs <;> rfl

/-- Removing entries in place. -/
theorem exec_eraseElements (rows cols : List ℕ) (s : Store) :
    (eraseElements rows cols).exec s = (Op.deleteElements rows cols).run s := by
  rw [eraseElements, exec_checkPairs, Op.run, attempt_edit, Problem.deleteElements]
  cases s.problem.checkPositions rows cols with
  | error e => rfl
  | ok u =>
    have hloop := straight_forM_matrix (fun e : ℕ × ℕ => straight_eraseEntry e.1 e.2)
      (rows.zip cols)
    dsimp only
    rw [hloop.exec_bind, straight_change]
    rfl

/-- Setting entries of the quadratic form in place. -/
theorem exec_writeQuadElements (cols₁ cols₂ : List ℕ) (vals : List Float) (s : Store) :
    (writeQuadElements cols₁ cols₂ vals).exec s = (Op.setQuadElements cols₁ cols₂ vals).run s := by
  rw [writeQuadElements, exec_checkQuadPairs, Op.run, attempt_edit, Problem.setQuadElements]
  cases s.problem.checkQuadPositions cols₁ cols₂ with
  | error e => rfl
  | ok u =>
    dsimp only
    rw [exec_check, (straight_setQuadEntries _).exec_bind, straight_change]
    unfold Problem.checkValues
    split_ifs <;> rfl

/-- Removing entries of the quadratic form in place. -/
theorem exec_eraseQuadElements (cols₁ cols₂ : List ℕ) (s : Store) :
    (eraseQuadElements cols₁ cols₂).exec s = (Op.deleteQuadElements cols₁ cols₂).run s := by
  rw [eraseQuadElements, exec_checkQuadPairs, Op.run, attempt_edit, Problem.deleteQuadElements]
  cases s.problem.checkQuadPositions cols₁ cols₂ with
  | error e => rfl
  | ok u =>
    have hloop := straight_forM_quad (f := fun e q => q.erase (Problem.quadKey e.1 e.2))
      (fun e : ℕ × ℕ => straight_change _) (cols₁.zip cols₂)
    dsimp only
    rw [hloop.exec_bind, straight_change]
    rfl

/-- Putting a whole problem in place. -/
theorem exec_writeProblem (cols : List ColData) (rows : List RowData)
    (entries quad : List (ℕ × ℕ × Float)) (s : Store) :
    (writeProblem cols rows entries quad).exec s =
      (Op.replaceProblem cols rows entries quad).run s := by
  rw [writeProblem, exec_check, (straight_change _).exec_bind, (straight_change _).exec_bind,
    (straight_onCols _).exec_bind, (straight_onRows _).exec_bind, (straight_change _).exec_bind,
    (straight_addEntries _).exec_bind, (straight_addQuadEntries _).exec_bind, straight_change,
    Op.run, attempt_edit, Problem.replaceData]
  dsimp only
  split_ifs <;> rfl

/-! ## Attributes and parameters -/

/-- An attribute of a column takes the index of one. -/
theorem exec_checkTarget_col (j : ℕ) (invalid : ResultCode) (k : Unit → Procedure Store Unit)
    (s : Store) : (checkTarget .col (some j) invalid >>= k).exec s =
      if s.numCols ≤ j then (.error .modelInvalidColIdx, s) else (k ()).exec s :=
  exec_check _ _ k s

/-- An attribute of a row takes the index of one. -/
theorem exec_checkTarget_row (i : ℕ) (invalid : ResultCode) (k : Unit → Procedure Store Unit)
    (s : Store) : (checkTarget .row (some i) invalid >>= k).exec s =
      if s.numRows ≤ i then (.error .modelInvalidRowIdx, s) else (k ()).exec s :=
  exec_check _ _ k s

/-- Writing a whole-number attribute in place. -/
theorem exec_writeInt (name : String) (index : Option ℕ) (v : Int32) (s : Store) :
    (writeInt name index v).exec s = TaskFile.attempt (·.setIntAttr name index v) s := by
  unfold writeInt TaskFile.attempt setIntAttr
  rcases IntAttr.ofName? name with _ | (a | a | a) <;> rcases index with _ | k
  -- A missing or superfluous index is found at once; one that is there is checked first.
  any_goals rfl
  · cases a <;> rfl
  · dsimp only [targetOfInt]
    rw [exec_checkTarget_col]
    split_ifs
    · rfl
    · cases a with
      | isInteger => rfl
      | iis => rfl
      | basis =>
        dsimp only [withBasis]
        rw [exec_check]
        cases BasisStatus.ofCode? v <;> rfl
  · dsimp only [targetOfInt]
    rw [exec_checkTarget_row]
    split_ifs
    · rfl
    · cases a with
      | iis => rfl
      | basis =>
        dsimp only [withBasis]
        rw [exec_check]
        cases BasisStatus.ofCode? v <;> rfl

/-- Writing a real attribute in place. -/
theorem exec_writeReal (name : String) (index : Option ℕ) (v : Float) (s : Store) :
    (writeReal name index v).exec s = TaskFile.attempt (·.setRealAttr name index v) s := by
  unfold writeReal TaskFile.attempt setRealAttr
  rcases RealAttr.ofName? name with _ | (a | a | a) <;> rcases index with _ | k
  any_goals rfl
  · cases a <;> rfl
  · dsimp only [targetOfReal]
    rw [exec_checkTarget_col]
    split_ifs
    · rfl
    · cases a <;> rfl
  · dsimp only [targetOfReal]
    rw [exec_checkTarget_row]
    split_ifs
    · rfl
    · cases a <;> rfl

/-- Writing a text attribute in place. -/
theorem exec_writeStr (name : String) (index : Option ℕ) (v : String) (s : Store) :
    (writeStr name index v).exec s = TaskFile.attempt (·.setStrAttr name index v) s := by
  unfold writeStr TaskFile.attempt setStrAttr
  rcases StrAttr.ofName? name with _ | (_ | p | _ | _) <;> rcases index with _ | k
  any_goals rfl
  · dsimp only [targetOfStr]
    rw [exec_checkTarget_col]
    split_ifs <;> rfl
  · dsimp only [targetOfStr]
    rw [exec_checkTarget_row]
    split_ifs <;> rfl

/-- Setting a parameter in place. -/
theorem exec_writeParam (name : String) (v : ParamValue) (s : Store) :
    (writeParam name v).exec s = TaskFile.attempt (·.setParam name v) s := by
  rw [writeParam, exec_get, TaskFile.attempt, setParam, ParamTable.set]
  cases hold : s.params.get? name with
  | none => rfl
  | some old =>
    dsimp only
    rw [exec_check, straight_change]
    by_cases htype : (ParamTable.coerced old.type v).type = old.type
    · simp [htype, Except.map]
    · simp [htype, Except.map]

/-- An operation in place comes to the result and the store of the operation. -/
theorem Op.exec_procedure (op : Op) (s : Store) : op.procedure.exec s = op.run s := by
  cases op with
  | addCol c rows vals => exact exec_appendCol c rows vals s
  | addRow r cols vals => exact exec_appendRow r cols vals s
  | deleteCols removed => exact exec_dropCols removed s
  | deleteRows removed => exact exec_dropRows removed s
  | setElements rows cols vals => exact exec_writeElements rows cols vals s
  | deleteElements rows cols => exact exec_eraseElements rows cols s
  | setQuadElements cols₁ cols₂ vals => exact exec_writeQuadElements cols₁ cols₂ vals s
  | deleteQuadElements cols₁ cols₂ => exact exec_eraseQuadElements cols₁ cols₂ s
  | replaceProblem cols rows entries quad => exact exec_writeProblem cols rows entries quad s
  | setIntAttr name index v => exact exec_writeInt name index v s
  | setRealAttr name index v => exact exec_writeReal name index v s
  | setStrAttr name index v => exact exec_writeStr name index v s
  | setParam name v => exact exec_writeParam name v s
  | deleteAllElements | deleteAllQuadElements | setName | setMinSense | setObjConst
  | setSolution | setIis | invalidate | recordJob | setLog | readTask => rfl

end Runs

end Store

end MathProgram
