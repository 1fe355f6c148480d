import MathProgram.Proofs.Model.Growth

/-!
# Batches of additions

A batch adds several variables, or several constraints, one after the other. When one of them fails
those before it stay: the engine's problem and the roster have then gained exactly what was added
before the failing one (`Batch.ends`).
-/

namespace MathProgram

open ModelM Model

variable {σ α : Type} {k : Kind}

/-- An addition to a model: of a variable, of a variable with its column, or of a constraint. -/
inductive Addition : Kind → Type where
  | var (c : ColData) : Addition .variable
  | varWithCol (c : ColData) (a : Column Float) : Addition .variable
  | cons (row : StatedRow Float) (name : Option String) : Addition .constraint

namespace Addition

/-- The column that is added. -/
def col? : {k : Kind} → Addition k → Option ColData
  | _, var c | _, varWithCol c _ => some c
  | _, cons .. => none

/-- The row that is added. -/
def row? : {k : Kind} → Addition k → Option RowData
  | _, var _ | _, varWithCol .. => none
  | _, cons row name => some ⟨row.lower, row.upper, name⟩

/-- Makes an addition; gives the handle that is issued for it. -/
def run : {k : Kind} → Addition k → ModelM σ (Handle k)
  | _, var c => addVar c
  | _, varWithCol c a => addVarWithCol c a
  | _, cons row name => pushRow row name

end Addition

/-- A model has gained what was added, and nothing else: its engine has the columns and rows, and
its rosters have a handle for each. -/
structure Model.Gained (added : List (Addition k)) (m m' : Model) : Prop where
  id : m'.id = m.id
  varGen : m'.varGen = m.varGen
  consGen : m'.consGen = m.consGen
  cols : m'.problem.cols = m.problem.cols ++ added.filterMap Addition.col?
  rows : m'.problem.rows = m.problem.rows ++ added.filterMap Addition.row?
  vars : m'.vars = m.vars ++
    Handle.issued m.id m.varGen m.vars.length (added.filterMap Addition.col?).length
  conss : m'.conss = m.conss ++
    Handle.issued m.id m.consGen m.conss.length (added.filterMap Addition.row?).length

namespace Model.Gained

variable {added added' : List (Addition k)} {m m' m'' : Model}

/-- Nothing was added. -/
theorem nil (m : Model) : Gained ([] : List (Addition k)) m m where
  id := rfl
  varGen := rfl
  consGen := rfl
  cols := (List.append_nil _).symm
  rows := (List.append_nil _).symm
  vars := (List.append_nil _).symm
  conss := (List.append_nil _).symm

/-- What was added first, and then. -/
theorem append (h : Gained added m m') (h' : Gained added' m' m'') :
    Gained (added ++ added') m m'' where
  id := h'.id.trans h.id
  varGen := h'.varGen.trans h.varGen
  consGen := h'.consGen.trans h.consGen
  cols := by rw [h'.cols, h.cols, List.filterMap_append, List.append_assoc]
  rows := by rw [h'.rows, h.rows, List.filterMap_append, List.append_assoc]
  vars := by
    rw [h'.vars, h.vars, h.id, h.varGen, List.filterMap_append, List.length_append,
      List.length_append, Handle.length_issued, List.append_assoc, Handle.issued_append]
  conss := by
    rw [h'.conss, h.conss, h.id, h.consGen, List.filterMap_append, List.length_append,
      List.length_append, Handle.length_issued, List.append_assoc, Handle.issued_append]

/-- A column was added. -/
theorem col {a : Addition .variable} {c : ColData} (ha : a.col? = some c) {rows : List ℕ}
    {vals : List Float} {s : Store}
    (hs : (Store.Op.addCol c rows vals).run m.engine.store = (.ok (), s)) :
    Gained [a] m (m.gainedCol s) := by
  obtain ⟨hcols, hrows⟩ := Store.run_addCol hs
  have hcol : [a].filterMap Addition.col? = [c] := List.filterMap_cons_some ha
  have hrow : [a].filterMap Addition.row? = [] := by cases a <;> rfl
  refine ⟨rfl, rfl, rfl, ?_, ?_, ?_, ?_⟩ <;> first | rw [hcol] | rw [hrow]
  · exact hcols
  · exact hrows.trans (List.append_nil _).symm
  · rfl
  · exact (List.append_nil _).symm

/-- A row was added. -/
theorem row {row : StatedRow Float} {name : Option String} {cols : List ℕ} {vals : List Float}
    {s : Store} (hs : (Store.Op.addRow ⟨row.lower, row.upper, name⟩ cols vals).run
      m.engine.store = (.ok (), s)) : Gained [.cons row name] m (m.gainedRow s) := by
  obtain ⟨hcols, hrows⟩ := Store.run_addRow hs
  exact ⟨rfl, rfl, rfl, hcols.trans (List.append_nil _).symm, hrows,
    (List.append_nil _).symm, rfl⟩

end Model.Gained

/-! ## One addition after another -/

/-- An addition fails and the model stays as it is, or the model gains what is added and its handle
is given out. -/
theorem Addition.ends (a : Addition k) (m : Model) {h : Host σ} (hh : h.Honest) :
    ∃ h', h.Frame h' ∧ ((∃ err, a.run.run m h = ((.error err, m), h')) ∨
      ∃ x m', a.run.run m h = ((.ok x, m'), h') ∧ m.Gained [a] m' ∧
        m'.roster k = m.roster k ++ [x]) := by
  cases a with
  | var c =>
    obtain ⟨h', hframe, ⟨err, hrun⟩ | ⟨-, s, hs, hrun⟩⟩ := run_pushCol c [] [] m hh
    · exact ⟨h', hframe, .inl ⟨err, hrun⟩⟩
    · exact ⟨h', hframe, .inr ⟨_, _, hrun, .col rfl hs, rfl⟩⟩
  | varWithCol c a =>
    have hchecked : (checked fun m => m.consIndexes (a.terms.map (·.1)) : ModelM σ _).run m h =
        ((m.consIndexes (a.terms.map (·.1)), m), h) := rfl
    rw [Addition.run, addVarWithCol, run_bind, hchecked]
    cases m.consIndexes (a.terms.map (·.1)) with
    | error err => exact ⟨h, .refl h, .inl ⟨err, rfl⟩⟩
    | ok rows =>
      obtain ⟨h', hframe, ⟨err, hrun⟩ | ⟨-, s, hs, hrun⟩⟩ :=
        run_pushCol c rows (a.terms.map (·.2)) m hh
      · exact ⟨h', hframe, .inl ⟨err, hrun⟩⟩
      · exact ⟨h', hframe, .inr ⟨_, _, hrun, .col rfl hs, rfl⟩⟩
  | cons row name =>
    cases hparts : m.linearParts row.expr.purge with
    | error err => exact ⟨h, .refl h, .inl ⟨err, run_pushRow_of_error row name hparts h⟩⟩
    | ok parts =>
      obtain ⟨h', hframe, ⟨err, hrun⟩ | ⟨-, s, hs, hrun⟩⟩ := run_pushRow row name hh hparts
      · exact ⟨h', hframe, .inl ⟨err, hrun⟩⟩
      · exact ⟨h', hframe, .inr ⟨_, _, hrun, .row hs, rfl⟩⟩

/-- How a batch ends: its arguments are refused, or all additions were made and their handles are
given out, or one addition failed after those before it were made. -/
inductive Model.Ends (σ : Type) (m : Model) :
    Except Error (List (Addition k)) → Except Error (List (Handle k)) → Model → Prop
  | refused (err : Error) : m.Ends σ (.error err) (.error err) m
  | made {added : List (Addition k)} {xs : List (Handle k)} {m' : Model}
    (hgained : m.Gained added m') (hroster : m'.roster k = m.roster k ++ xs) :
    m.Ends σ (.ok added) (.ok xs) m'
  | failed {added done rest : List (Addition k)} {a : Addition k} {err : Error} {m' : Model}
    {h h' : Host σ} (hadded : added = done ++ a :: rest) (hgained : m.Gained done m')
    (hhonest : h.Honest) (hrun : a.run.run m' h = ((.error err, m'), h')) :
    m.Ends σ (.ok added) (.error err) m'

/-- How additions end that are made one after the other. -/
theorem ends_mapM (added : List (Addition k)) (m : Model) {h : Host σ} (hh : h.Honest) :
    h.Frame ((added.mapM Addition.run).run m h).2 ∧
      m.Ends σ (.ok added) ((added.mapM Addition.run).run m h).1.1
        ((added.mapM Addition.run).run m h).1.2 := by
  induction added generalizing m h with
  | nil => exact ⟨.refl h, .made (.nil m) (List.append_nil _).symm⟩
  | cons a added ih =>
    obtain ⟨h', hframe, ⟨err, hrun⟩ | ⟨x, m', hrun, hgained, hroster⟩⟩ := a.ends m hh
    · rw [List.mapM_cons, run_bind, hrun]
      have hfirst : a :: added = [] ++ a :: added := rfl
      exact ⟨hframe, .failed hfirst (.nil m) hh hrun⟩
    · obtain ⟨hframe', hends⟩ := ih m' (hh.frame hframe)
      rw [List.mapM_cons, run_bind, hrun]
      dsimp only
      rw [run_bind]
      rcases hrest : (added.mapM Addition.run).run m' h' with ⟨⟨err | xs, m''⟩, h''⟩ <;>
        rw [hrest] at hframe' hends
      · cases hends with
        | failed hadded hgained' hhonest hrun' =>
          have hlater := congrArg (a :: ·) hadded
          exact ⟨hframe.trans hframe', .failed hlater (hgained.append hgained') hhonest hrun'⟩
      · cases hends with
        | made hgained' hroster' =>
          have hroster'' : m''.roster k = m.roster k ++ x :: xs :=
            hroster'.trans (by rw [hroster, List.append_assoc, List.singleton_append])
          exact ⟨hframe.trans hframe', .made (hgained.append hgained') hroster''⟩

/-! ## Batches -/

/-- A batch of additions, with its arguments. -/
inductive Batch : Kind → Type where
  | vars (count : ℕ) (isInteger : Bool) : Batch .variable
  | varsWith (d : ColLists) : Batch .variable
  | varsWithCols (d : ColLists) (columns : List (Column Float)) : Batch .variable
  | conss (count : ℕ) : Batch .constraint
  | conssWith (es : List (LinearExpr Float)) (senses : List Sense) (bs : List Float)
    (names : Option (List String)) : Batch .constraint
  | ranges (es : List (LinearExpr Float)) (lowers uppers : List Float)
    (names : Option (List String)) : Batch .constraint

namespace Batch

/-- Makes the additions of a batch. -/
def run : {k : Kind} → Batch k → ModelM σ (List (Handle k))
  | _, vars count isInteger => addVars count isInteger
  | _, varsWith d => addVarsWith d
  | _, varsWithCols d columns => addVarsWithCols d columns
  | _, conss count => addConss count
  | _, conssWith es senses bs names => addConssWith es senses bs names
  | _, ranges es lowers uppers names => addRanges es lowers uppers names

/-- The additions that a batch consists of, unless its arguments are refused for their lengths. -/
def additions : {k : Kind} → Batch k → Except Error (List (Addition k))
  | _, vars count isInteger => .ok (List.replicate count (.var (defaultCol isInteger)))
  | _, varsWith d => do
    let n := d.lower.length
    checkLength .upperBounds n d.upper.length
    checkLength .objectiveCoefficients n d.obj.length
    checkOptional .integralityFlags n d.integers
    checkOptional .names n d.names
    return d.cols.map .var
  | _, varsWithCols d columns => do
    let n := d.lower.length
    checkLength .upperBounds n d.upper.length
    checkLength .objectiveCoefficients n d.obj.length
    checkLength .columns n columns.length
    checkOptional .integralityFlags n d.integers
    checkOptional .names n d.names
    return (d.cols.zip columns).map fun (c, a) => .varWithCol c a
  | _, conss count => .ok (List.replicate count (.cons defaultRow none))
  | _, conssWith es senses bs names => do
    let n := es.length
    checkLength .senses n senses.length
    checkLength .rightHandSides n bs.length
    checkOptional .names n names
    return (es.zip (senses.zip (bs.zip (namesOf n names)))).map fun (e, sense, b, name) =>
      .cons (rowAgainst e sense b) name
  | _, ranges es lowers uppers names => do
    let n := es.length
    checkLength .lowerBounds n lowers.length
    checkLength .upperBounds n uppers.length
    checkOptional .names n names
    return (es.zip (lowers.zip (uppers.zip (namesOf n names)))).map fun (e, lower, upper, name) =>
      .cons (rowBetween e lower upper) name

/-- Additions so many times are those of a list. -/
theorem times_eq_mapM (n : ℕ) (a : Addition k) :
    (times n a.run : ModelM σ (List (Handle k))) = (List.replicate n a).mapM Addition.run := by
  induction n with
  | zero => rfl
  | succ n ih => rw [times, ih, List.replicate_succ, List.mapM_cons]

/-- Checks one after the other are one check. -/
theorem check_bind {β γ : Type} (r : Except Error α) (f : α → Except Error β)
    (next : β → ModelM σ γ) :
    check (r >>= f) >>= next = check r >>= fun a => check (f a) >>= next := by
  cases r <;> rfl

/-- A check that cannot fail. -/
theorem check_pure {β : Type} (a : α) (next : α → ModelM σ β) :
    check (pure a) >>= next = next a := rfl

/-- A batch checks its arguments and makes its additions one after the other. -/
theorem run_eq (b : Batch k) :
    (b.run : ModelM σ (List (Handle k))) =
      check b.additions >>= fun added => added.mapM Addition.run := by
  cases b with
  | vars count isInteger => exact times_eq_mapM count (.var (defaultCol isInteger))
  | conss count => exact times_eq_mapM count (.cons defaultRow none)
  | varsWith | varsWithCols | conssWith | ranges =>
    simp only [additions, check_bind, check_pure, List.mapM_map]
    rfl

/-- How a batch ends. -/
theorem ends (b : Batch k) (m : Model) {h : Host σ} (hh : h.Honest) :
    m.Ends σ b.additions (b.run.run m h).1.1 (b.run.run m h).1.2 := by
  rw [run_eq, run_bind, run_check]
  cases b.additions with
  | error err => exact .refused err
  | ok added => exact (ends_mapM added m hh).2

end Batch

end MathProgram
