import Mathlib.Data.Sym.Sym2
import MathProgram.Proofs.Problem.Fetching
import MathProgram.Proofs.Store.Operations

/-!
# Stores as dense matrices

A problem stands for a matrix with a value at every pair of a row and a column, and for a quadratic
form with a value at every unordered pair of columns: what is stored there (`coef?`, `quadCoef?`),
and zero where nothing is (`dense`). Writing entries assigns values to such a function, one after
the other (`assign`), and a zero leaves nothing stored. The step is the same for the matrix and for
the quadratic form (`assign_foldl`); all they need is what one write does to the function.

The matrix is kept twice and can be read in four ways, by positions, columns, rows or as a whole.
That these agree is a `Consistent` pair of copies, so it holds of every reachable store
(`Store.Sound.reads`). `entry_access_is_dense` says so of all operations on entries.
-/

namespace MathProgram

/-! ## Assigning values -/

section Assignment

variable {ι β σ : Type} [DecidableEq ι]

/-- The values of entries, zero where none is stored. -/
def dense (f : ι → Option Float) (i : ι) : Float := (f i).getD 0

/-- What is stored for a value: nothing for a zero. -/
def stored? (v : Float) : Option Float := if v == 0 then none else some v

/-- Assigns values to entries, from left to right. -/
def assign (f : ι → Option Float) (ps : List (ι × Float)) : ι → Option Float :=
  ps.foldl (fun f p => Function.update f p.1 (stored? p.2)) f

/-- Entries have been assigned values, from left to right. A zero of either sign has left nothing
stored, so it is the positive one that is found. -/
structure Assigned (ps : List (ι × Float)) (f f' : ι → Option Float) : Prop where
  entries : f' = assign f ps
  values : dense f' =
    ps.foldl (fun g p => Function.update g p.1 (if p.2 == 0 then 0 else p.2)) (dense f)

/-- What is found for a stored value is the value, but for the sign of a zero. -/
theorem getD_stored? (v : Float) : (stored? v).getD 0 = if v == 0 then 0 else v := by
  unfold stored?
  split_ifs <;> rfl

/-- A zero is not stored. -/
theorem stored?_zero : stored? 0 = none := rfl

/-- Assigning one value changes it at one place. -/
theorem dense_update (f : ι → Option Float) (i : ι) (v : Float) :
    dense (Function.update f i (stored? v)) =
      Function.update (dense f) i (if v == 0 then 0 else v) := by
  funext j
  unfold dense
  rw [Function.update_apply, Function.update_apply]
  by_cases hj : j = i
  · rw [if_pos hj, if_pos hj, getD_stored?]
  · rw [if_neg hj, if_neg hj]

/-- Assigning to entries assigns to their values. -/
theorem assigned_assign (ps : List (ι × Float)) (f : ι → Option Float) :
    Assigned ps f (assign f ps) where
  entries := rfl
  values := by
    unfold assign
    induction ps generalizing f with
    | nil => rfl
    | cons p ps ih => rw [List.foldl_cons, List.foldl_cons, ih, dense_update]

/-- A run whose steps each assign one value assigns them all. -/
theorem assign_foldl (view : σ → ι → Option Float) (step : σ → β → σ) (pair : β → ι × Float)
    (hstep : ∀ a e, view (step a e) = Function.update (view a) (pair e).1 (stored? (pair e).2))
    (es : List β) (a : σ) : view (es.foldl step a) = assign (view a) (es.map pair) := by
  induction es generalizing a with
  | nil => rfl
  | cons e es ih =>
    rw [List.foldl_cons, ih, hstep]
    rfl

end Assignment

namespace Problem

variable {p : Problem} {rows cols cols₁ cols₂ : List ℕ} {vals : List Float}

/-! ## The matrix and the quadratic form as functions -/

/-- The entry that is stored for a row and a column. -/
def coef? (p : Problem) (e : IndexPair) : Option Float := p.matrix.byRow.get? e

/-- A pair of columns addresses the same position in either order. -/
theorem quadKey_comm (i j : ℕ) : quadKey i j = quadKey j i := by
  unfold quadKey
  split_ifs with hij hji
  · rw [le_antisymm hij hji]
  · rfl
  · rfl
  · omega

/-- Only the pair itself, in either order, addresses its position. -/
theorem quadKey_eq_iff {i j k l : ℕ} : quadKey i j = quadKey k l ↔ s(i, j) = s(k, l) := by
  rw [Sym2.eq_iff]
  constructor
  · intro h
    unfold quadKey at h
    split_ifs at h <;> obtain ⟨h₁, h₂⟩ := Prod.mk.inj h <;> omega
  · rintro (⟨rfl, rfl⟩ | ⟨rfl, rfl⟩)
    · rfl
    · exact quadKey_comm _ _

/-- The entry of a quadratic form that is stored for two columns. -/
def quadView (q : Sparse Float) : Sym2 ℕ → Option Float :=
  Sym2.lift ⟨fun i j => q.get? (quadKey i j), fun i j => congrArg q.get? (quadKey_comm i j)⟩

/-- The entry of the quadratic form that is stored for two columns. -/
def quadCoef? (p : Problem) : Sym2 ℕ → Option Float := quadView p.quad

/-- Setting an entry of the matrix assigns to it. -/
theorem byRow_set (a : Matrix) (i j : ℕ) (v : Float) :
    (a.set i j v).byRow.get? = Function.update a.byRow.get? (i, j) (stored? v) := by
  funext e
  unfold Matrix.set stored?
  rw [Function.update_apply]
  split_ifs with hv he he
  · exact (Sparse.get?_erase _ _ _).trans (if_pos he)
  · exact (Sparse.get?_erase _ _ _).trans (if_neg he)
  · exact (Sparse.get?_insert _ _ _ _).trans (if_pos he)
  · exact (Sparse.get?_insert _ _ _ _).trans (if_neg he)

/-- Removing an entry of the matrix assigns zero to it. -/
theorem byRow_erase (a : Matrix) (i j : ℕ) :
    (a.erase i j).byRow.get? = Function.update a.byRow.get? (i, j) (stored? 0) := by
  funext e
  rw [Function.update_apply, stored?_zero]
  exact Sparse.get?_erase _ _ _

/-- A change at the position of two columns is one at their unordered pair. -/
theorem quadView_alter (q : Sparse Float) (i j : ℕ) (v : Option Float) :
    quadView (q.alter (quadKey i j) fun _ => v) =
      Function.update (quadView q) s(i, j) v := by
  funext e
  induction e using Sym2.inductionOn with
  | hf k l =>
    have hget : (q.alter (quadKey i j) fun _ => v).get? (quadKey k l) =
        if quadKey k l = quadKey i j then v else q.get? (quadKey k l) :=
      Sparse.get?_alter q _ _ _
    rw [Function.update_apply]
    show (q.alter (quadKey i j) fun _ => v).get? (quadKey k l) = _
    rw [hget]
    exact if_congr quadKey_eq_iff rfl rfl

/-- Setting an entry of the quadratic form assigns to it. -/
theorem quadView_set (q : Sparse Float) (i j : ℕ) (v : Float) :
    quadView (setQuad q i j v) = Function.update (quadView q) s(i, j) (stored? v) := by
  unfold setQuad stored?
  split_ifs
  · exact quadView_alter q i j none
  · exact quadView_alter q i j (some v)

/-- Setting entries of the quadratic form, one after the other, assigns to them. -/
theorem quadView_foldl (entries : List (IndexPair × Float)) (q : Sparse Float) :
    quadView (entries.foldl (fun q e => setQuad q e.1.1 e.1.2 e.2) q) =
      assign (quadView q) (entries.map fun e => (s(e.1.1, e.1.2), e.2)) := by
  have hstep (q : Sparse Float) (e : IndexPair × Float) := quadView_set q e.1.1 e.1.2 e.2
  exact assign_foldl quadView _ (fun e => (s(e.1.1, e.1.2), e.2)) hstep entries q

/-- Removing an entry of the quadratic form assigns zero to it. -/
theorem quadView_erase (q : Sparse Float) (i j : ℕ) : quadView (q.erase (quadKey i j)) =
    Function.update (quadView q) s(i, j) (stored? 0) := by
  rw [stored?_zero]
  exact quadView_alter q i j none

/-! ## Positions -/

/-- Rows and columns stand for positions of the matrix. -/
structure Positions (p : Problem) (rows cols : List ℕ) : Prop where
  length : rows.length = cols.length
  rows_lt : ∀ i ∈ rows, i < p.numRows
  cols_lt : ∀ j ∈ cols, j < p.numCols

/-- Columns stand for positions of the quadratic form. -/
structure QuadPositions (p : Problem) (cols₁ cols₂ : List ℕ) : Prop where
  length : cols₁.length = cols₂.length
  cols₁_lt : ∀ j ∈ cols₁, j < p.numCols
  cols₂_lt : ∀ j ∈ cols₂, j < p.numCols

/-- Positions pass their check. -/
theorem Positions.check (h : p.Positions rows cols) : p.checkPositions rows cols = .ok () := by
  have hrows : ¬rows.any (p.numRows ≤ ·) = true := not_any_of_lt h.rows_lt
  have hcols : ¬cols.any (p.numCols ≤ ·) = true := not_any_of_lt h.cols_lt
  unfold checkPositions
  rw [if_neg (not_not.2 h.length), if_neg hrows, if_neg hcols]

/-- Positions of the quadratic form pass their check. -/
theorem QuadPositions.check (h : p.QuadPositions cols₁ cols₂) :
    p.checkQuadPositions cols₁ cols₂ = .ok () := by
  have hcols : ¬(cols₁ ++ cols₂).any (p.numCols ≤ ·) = true := by
    simpa [or_imp, forall_and] using ⟨h.cols₁_lt, h.cols₂_lt⟩
  unfold checkQuadPositions
  rw [if_neg (not_not.2 h.length), if_neg hcols]

/-- As many values as positions pass the check. -/
theorem checkValues_of_length {positions : List ℕ} (h : vals.length = positions.length) :
    checkValues positions vals = .ok () := if_neg (not_not.2 h)

/-! ## Reading -/

/-- What is read of a problem is what is stored: by positions, by columns, by rows and as a whole.
-/
structure Reads (p : Problem) : Prop where
  elements : ∀ rows cols buffer, p.Positions rows cols → buffer.length = rows.length →
    p.elements rows cols buffer = .ok ((rows.zip cols).map (dense p.coef?))
  quadElements : ∀ cols₁ cols₂ buffer, p.QuadPositions cols₁ cols₂ →
    buffer.length = cols₁.length → p.quadElements cols₁ cols₂ buffer =
      .ok ((cols₁.zip cols₂).map fun e => dense p.quadCoef? s(e.1, e.2))
  cols : ∀ wanted b, (∀ j ∈ wanted, j < p.numCols) →
    b.Fits wanted.length (p.numStored .variable wanted) →
    ∃ b', p.fetchCols wanted b = (.okay, b') ∧ ∀ n j, wanted[n]? = some j → ∀ i v,
      (i, v) ∈ b'.line n ↔ p.coef? (i, j) = some v
  rows : ∀ wanted b, (∀ i ∈ wanted, i < p.numRows) →
    b.Fits wanted.length (p.numStored .constraint wanted) →
    ∃ b', p.fetchRows wanted b = (.okay, b') ∧ ∀ n i, wanted[n]? = some i → ∀ j v,
      (j, v) ∈ b'.line n ↔ p.coef? (i, j) = some v
  entries : ∀ i j v, (i, j, v) ∈ p.matrix.entries ↔ p.coef? (i, j) = some v

/-- A well-formed problem is read in the same way from either copy of its matrix. -/
theorem WellFormed.reads (h : p.WellFormed) : p.Reads where
  elements rows cols buffer hpos hbuffer := by
    unfold Problem.elements
    rw [hpos.check, checkValues_of_length hbuffer]
    rfl
  quadElements cols₁ cols₂ buffer hpos hbuffer := by
    unfold Problem.quadElements
    rw [hpos.check, checkValues_of_length hbuffer]
    rfl
  cols wanted b hwanted hfits := by
    obtain ⟨b', hfetch, hb'⟩ := fetch_of_fits (k := .variable) hwanted hfits
    refine ⟨b', hfetch, fun n j hj i v => ?_⟩
    rw [hb'.entries n j hj i v, coef?, ← h.matrix.transposed]
    rfl
  rows wanted b hwanted hfits := by
    obtain ⟨b', hfetch, hb'⟩ := fetch_of_fits (k := .constraint) hwanted hfits
    exact ⟨b', hfetch, fun n i hi j v => hb'.entries n i hi j v⟩
  entries i j v := by
    rw [coef?, Matrix.entries, Sparse.mem_triples]

end Problem

namespace Store

variable {s s' : Store} {op : Op} {rows cols cols₁ cols₂ : List ℕ} {vals : List Float}

/-! ## Writing -/

/-- An operation succeeds, assigns values to entries of the matrix and changes nothing else of the
problem; the problem can be read as before. -/
def AssignsEntries (s : Store) (op : Op) (ps : List (IndexPair × Float)) : Prop :=
  ∃ s', op.run s = (.ok (), s') ∧ s'.problem.Reads ∧
    s'.problem = { s.problem with matrix := s'.problem.matrix } ∧
    Assigned ps s.problem.coef? s'.problem.coef?

/-- An operation succeeds, assigns values to entries of the quadratic form and changes nothing else
of the problem; the problem can be read as before. -/
def AssignsQuadEntries (s : Store) (op : Op) (ps : List (Sym2 ℕ × Float)) : Prop :=
  ∃ s', op.run s = (.ok (), s') ∧ s'.problem.Reads ∧
    s'.problem = { s.problem with quad := s'.problem.quad } ∧
    Assigned ps s.problem.quadCoef? s'.problem.quadCoef?

/-- What is done to a problem is done to the store. -/
theorem run_of_edit {f : Problem → Except ResultCode Problem} {p : Problem}
    (hop : op.run = TaskFile.attempt (·.edit f)) (hf : f s.problem = .ok p) :
    op.run s = (.ok (), s.withProblem p) := by
  rw [hop, TaskFile.attempt, edit, hf]
  rfl

/-- An operation of a sound store that changes the matrix only. -/
theorem Sound.assignsEntries {f : Problem → Except ResultCode Problem} {a : Matrix}
    {ps : List (IndexPair × Float)} (h : s.Sound) (hop : op.run = TaskFile.attempt (·.edit f))
    (hf : f s.problem = .ok { s.problem with matrix := a })
    (ha : a.byRow.get? = assign s.problem.coef? ps) : s.AssignsEntries op ps := by
  have hrun := run_of_edit hop hf
  have hsound := h.run op
  rw [hrun] at hsound
  refine ⟨_, hrun, hsound.problem.reads, rfl, ?_⟩
  have hassigned := assigned_assign ps s.problem.coef?
  rwa [← ha] at hassigned

/-- An operation of a sound store that changes the quadratic form only. -/
theorem Sound.assignsQuadEntries {f : Problem → Except ResultCode Problem} {q : Sparse Float}
    {ps : List (Sym2 ℕ × Float)} (h : s.Sound) (hop : op.run = TaskFile.attempt (·.edit f))
    (hf : f s.problem = .ok { s.problem with quad := q })
    (hq : Problem.quadView q = assign s.problem.quadCoef? ps) : s.AssignsQuadEntries op ps := by
  have hrun := run_of_edit hop hf
  have hsound := h.run op
  rw [hrun] at hsound
  refine ⟨_, hrun, hsound.problem.reads, rfl, ?_⟩
  have hassigned := assigned_assign ps s.problem.quadCoef?
  rwa [← hq] at hassigned

namespace Sound

/-- Setting entries assigns the values to their positions. -/
theorem setElements (h : s.Sound) (hpos : s.problem.Positions rows cols)
    (hvals : vals.length = rows.length) :
    s.AssignsEntries (.setElements rows cols vals) ((rows.zip cols).zip vals) := by
  refine h.assignsEntries rfl (a := ((rows.zip cols).zip vals).foldl
    (fun a e => a.set e.1.1 e.1.2 e.2) s.problem.matrix) ?_ ?_
  · unfold Problem.setElements
    rw [hpos.check, Problem.checkValues_of_length hvals]
    rfl
  · have hassign := assign_foldl (fun a : Matrix => a.byRow.get?)
      (fun a e => a.set e.1.1 e.1.2 e.2) id (fun a e => Problem.byRow_set a _ _ _)
      ((rows.zip cols).zip vals) s.problem.matrix
    rwa [List.map_id] at hassign

/-- Removing entries assigns zero to their positions. -/
theorem deleteElements (h : s.Sound) (hpos : s.problem.Positions rows cols) :
    s.AssignsEntries (.deleteElements rows cols) ((rows.zip cols).map fun e => (e, 0)) := by
  refine h.assignsEntries rfl (a := (rows.zip cols).foldl
    (fun a e => a.erase e.1 e.2) s.problem.matrix) ?_ ?_
  · unfold Problem.deleteElements
    rw [hpos.check]
    rfl
  · exact assign_foldl (fun a : Matrix => a.byRow.get?) (fun a e => a.erase e.1 e.2)
      (fun e => (e, 0)) (fun a e => Problem.byRow_erase a _ _)
      (rows.zip cols) s.problem.matrix

/-- Setting entries of the quadratic form assigns the values to their pairs of columns. -/
theorem setQuadElements (h : s.Sound) (hpos : s.problem.QuadPositions cols₁ cols₂)
    (hvals : vals.length = cols₁.length) :
    s.AssignsQuadEntries (.setQuadElements cols₁ cols₂ vals)
      (((cols₁.zip cols₂).zip vals).map fun e => (s(e.1.1, e.1.2), e.2)) := by
  refine h.assignsQuadEntries rfl (q := ((cols₁.zip cols₂).zip vals).foldl
    (fun q e => Problem.setQuad q e.1.1 e.1.2 e.2) s.problem.quad) ?_ ?_
  · unfold Problem.setQuadElements
    rw [hpos.check, Problem.checkValues_of_length hvals]
    rfl
  · exact Problem.quadView_foldl ((cols₁.zip cols₂).zip vals) s.problem.quad

/-- Removing entries of the quadratic form assigns zero to their pairs of columns. -/
theorem deleteQuadElements (h : s.Sound) (hpos : s.problem.QuadPositions cols₁ cols₂) :
    s.AssignsQuadEntries (.deleteQuadElements cols₁ cols₂)
      ((cols₁.zip cols₂).map fun e => (s(e.1, e.2), 0)) := by
  refine h.assignsQuadEntries rfl (q := (cols₁.zip cols₂).foldl
    (fun q e => q.erase (Problem.quadKey e.1 e.2)) s.problem.quad) ?_ ?_
  · unfold Problem.deleteQuadElements
    rw [hpos.check]
    rfl
  · have hstep (q : Sparse Float) (e : IndexPair) := Problem.quadView_erase q e.1 e.2
    exact assign_foldl Problem.quadView _ (fun e => (s(e.1, e.2), 0)) hstep
      (cols₁.zip cols₂) s.problem.quad

end Sound

/-- Reading and writing the entries of a reachable store is reading and writing a dense matrix and a
dense symmetric one. All ways of reading find what is stored. Setting entries assigns the values
from left to right, removing them assigns zero, and removing all leaves none; the other entries
stay, and afterwards all ways of reading find what is stored then. -/
theorem entry_access_is_dense (h : s.Reachable) :
    s.problem.Reads ∧
    (∀ rows cols, s.problem.Positions rows cols →
      (∀ vals, vals.length = rows.length →
        s.AssignsEntries (.setElements rows cols vals) ((rows.zip cols).zip vals)) ∧
      s.AssignsEntries (.deleteElements rows cols) ((rows.zip cols).map fun e => (e, 0))) ∧
    (∀ cols₁ cols₂, s.problem.QuadPositions cols₁ cols₂ →
      (∀ vals, vals.length = cols₁.length → s.AssignsQuadEntries (.setQuadElements cols₁ cols₂ vals)
        (((cols₁.zip cols₂).zip vals).map fun e => (s(e.1.1, e.1.2), e.2))) ∧
      s.AssignsQuadEntries (.deleteQuadElements cols₁ cols₂)
        ((cols₁.zip cols₂).map fun e => (s(e.1, e.2), 0))) ∧
    (∃ s', Op.deleteAllElements.run s = (.ok (), s') ∧ s'.problem.Reads ∧
      s'.problem = { s.problem with matrix := s'.problem.matrix } ∧
      ∀ e, s'.problem.coef? e = none) ∧
    ∃ s', Op.deleteAllQuadElements.run s = (.ok (), s') ∧ s'.problem.Reads ∧
      s'.problem = { s.problem with quad := s'.problem.quad } ∧
      ∀ e, s'.problem.quadCoef? e = none := by
  have hs : s.Sound := h.sound
  refine ⟨hs.problem.reads, fun rows cols hpos => ⟨fun vals => hs.setElements hpos, ?_⟩,
    fun cols₁ cols₂ hpos => ⟨fun vals => hs.setQuadElements hpos, ?_⟩, ?_, ?_⟩
  · exact hs.deleteElements hpos
  · exact hs.deleteQuadElements hpos
  · exact ⟨_, rfl, hs.problem.deleteAllElements.reads, rfl, fun _ => rfl⟩
  · refine ⟨_, rfl, hs.problem.deleteAllQuadElements.reads, rfl, fun e => ?_⟩
    induction e using Sym2.inductionOn with
    | hf i j => rfl

/-- A store of two rows and two columns, in which a zero is stored. -/
def twoByTwo : Store :=
  afterOps none [.addRow ⟨0, 1, none⟩ [] [], .addRow ⟨0, 1, none⟩ [] [],
    .addCol ⟨0, 1, 1, false, none⟩ [0, 1] [0, 3], .addCol ⟨0, 1, 1, false, none⟩ [1] [2]]

/-- One entry is set three times, the last time to zero, and one of the quadratic form in both
orders of its columns. -/
theorem entry_access_is_dense_repeated :
    twoByTwo.Reachable ∧ twoByTwo.problem.Positions [1, 1, 1, 0] [0, 0, 0, 1] ∧
      twoByTwo.problem.QuadPositions [0, 1] [1, 0] ∧
      (∃ s', (Op.setElements [1, 1, 1, 0] [0, 0, 0, 1] [5, 6, 0, 7]).run twoByTwo = (.ok (), s') ∧
        s'.problem.coef? (1, 0) = none ∧ s'.problem.coef? (0, 1) = some 7 ∧
        s'.problem.coef? (0, 0) = twoByTwo.problem.coef? (0, 0)) ∧
      ∃ s', (Op.setQuadElements [0, 1] [1, 0] [2, 4]).run twoByTwo = (.ok (), s') ∧
        s'.problem.quadCoef? s(0, 1) = some 4 := by
  have hreachable : twoByTwo.Reachable := ⟨_, _, rfl⟩
  have hpos : twoByTwo.problem.Positions [1, 1, 1, 0] [0, 0, 0, 1] :=
    ⟨rfl, by decide, by decide⟩
  have hquad : twoByTwo.problem.QuadPositions [0, 1] [1, 0] := ⟨rfl, by decide, by decide⟩
  obtain ⟨-, hentries, hquadEntries, -⟩ := entry_access_is_dense hreachable
  obtain ⟨s₁, hrun₁, -, -, hassigned₁⟩ := (hentries _ _ hpos).1 [5, 6, 0, 7] rfl
  obtain ⟨s₂, hrun₂, -, -, hassigned₂⟩ := (hquadEntries _ _ hquad).1 [2, 4] rfl
  refine ⟨hreachable, hpos, hquad, ⟨s₁, hrun₁, ?_, ?_, ?_⟩, s₂, hrun₂, ?_⟩
  · rw [hassigned₁.entries]
    rfl
  · rw [hassigned₁.entries]
    rfl
  · rw [hassigned₁.entries]
    rfl
  · -- The second value is for the same pair in the other order.
    have hlast (f : Sym2 ℕ → Option Float) :
        assign f [(s(0, 1), 2), (s(1, 0), 4)] s(0, 1) = stored? 4 := by
      unfold assign
      rw [List.foldl_cons, List.foldl_cons, List.foldl_nil, Sym2.eq_swap, Function.update_self]
    rw [hassigned₂.entries]
    exact hlast _

end Store

end MathProgram
