import MathProgram.Proofs.Expr.Sums
import MathProgram.Proofs.Problem

/-!
# The lines of a problem

The columns and the rows of a matrix are its lines, each the list of its entries in order. A line is
given by the lookups of its entries (`Sparse.line_eq`). Adding a column or a row adds entries to one
new line, those for one position on top of each other (`LineAdded`). So the new line holds the
merged terms, whether they were merged before or not (`LineAdded.line_new`). The other lines of the
kind stay (`LineAdded.line_kept`), and a line that the new one crosses has its entry there as its
last (`LineAdded.line_crossed`). `fetchLines_line` is about fetching a line in two calls.
-/

namespace MathProgram

/-- The kind of the lines that cross those of a kind. -/
def Kind.other : Kind → Kind
  | .variable => .constraint
  | .constraint => .variable

namespace Sparse

variable {α : Type} {m : Sparse α} {i j : ℕ} {v : α}

/-! ## Lines of a map -/

/-- A line holds the entries of its index. -/
theorem mem_line : (j, v) ∈ m.line i ↔ m.get? (i, j) = some v := by
  rw [get?_eq_some_iff, line, List.mem_filterMap]
  constructor
  · rintro ⟨⟨⟨i', j'⟩, w⟩, hmem, hentry⟩
    dsimp only at hentry
    split_ifs at hentry with hi
    obtain ⟨rfl, rfl⟩ := Prod.mk.inj (Option.some.inj hentry)
    rwa [← hi]
  · intro hmem
    exact ⟨_, hmem, if_pos rfl⟩

/-- The entries of a line are in strict order. -/
theorem pairwise_line (m : Sparse α) (i : ℕ) : (m.line i).Pairwise fun e f => e.1 < f.1 := by
  refine List.pairwise_filterMap.2 (m.sorted.imp fun {a b} hab e he f hf => ?_)
  split_ifs at he hf with ha hb
  obtain rfl := Option.some.inj he
  obtain rfl := Option.some.inj hf
  obtain hlt | ⟨-, hlt⟩ := hab
  · omega
  · exact hlt

/-- A list in strict order is a line if it holds its entries. -/
theorem line_eq {l : List (ℕ × α)} (hl : l.Pairwise fun e f => e.1 < f.1)
    (hmem : ∀ j v, (j, v) ∈ l ↔ m.get? (i, j) = some v) : m.line i = l := by
  refine eq_of_pairwise_of_mem_iff (fun e f hef hfe => ?_) (pairwise_line m i) hl fun e => ?_
  · exact lt_irrefl _ (hef.trans hfe)
  · exact mem_line.trans (hmem e.1 e.2).symm

/-! ## Adding a line -/

/-- Values added at keys of a map are found there on top of each other. -/
theorem get?_addAll [Add α] [OfNat α 0] (es : List (IndexPair × α)) (m : Sparse α)
    (k : IndexPair) : (es.foldl (fun m e => m.addAt e.1 e.2) m).get? k =
      ((es.filter (·.1 = k)).map (·.2)).foldl (fun o v => some (o.getD 0 + v)) (m.get? k) := by
  induction es generalizing m with
  | nil => rfl
  | cons e es ih =>
    rw [List.foldl_cons, ih, get?_addAt, List.filter_cons]
    by_cases hk : e.1 = k
    · rw [if_pos hk.symm, if_pos (decide_eq_true hk), List.map_cons, List.foldl_cons, hk]
    · rw [if_neg (Ne.symm hk), if_neg (by rwa [decide_eq_true_iff])]

/-- Values on top of each other are their sum with a zero in front. -/
theorem foldl_accumulate (vs : List Float) :
    vs.foldl (fun o v => some (o.getD 0 + v)) none = (sum? vs).map (0 + ·) := by
  have hsome (w : Float) (vs : List Float) :
      vs.foldl (fun o v => some (o.getD 0 + v)) (some w) = some (vs.foldl (· + ·) w) := by
    induction vs generalizing w with
    | nil => rfl
    | cons v vs ih => exact ih (w + v)
  cases vs with
  | nil => rfl
  | cons v vs =>
    rw [List.foldl_cons, hsome, Option.getD_none, foldl_add_zero]
    rfl

/-- Entries added to a line without any are its entries, and the other lines stay. -/
theorem get?_addLine (m : Sparse Float) {n : ℕ} (hnew : ∀ j, m.get? (n, j) = none)
    (es : List (ℕ × Float)) (i j : ℕ) :
    ((es.map fun e => ((n, e.1), e.2)).foldl (fun m e => m.addAt e.1 e.2) m).get? (i, j) =
      if i = n then (sum? ((es.filter (·.1 = j)).map (·.2))).map (0 + ·) else m.get? (i, j) := by
  rw [get?_addAll, List.filter_map, List.map_map]
  split_ifs with hi
  · subst hi
    have hfilter : es.filter ((fun e => decide (e.1 = (i, j))) ∘
        fun e : ℕ × Float => ((i, e.1), e.2)) = es.filter (·.1 = j) := by
      refine List.filter_congr fun e _ => ?_
      simp
    rw [hnew, hfilter, foldl_accumulate]
    rfl
  · have hfilter : es.filter ((fun e => decide (e.1 = (i, j))) ∘
        fun e : ℕ × Float => ((n, e.1), e.2)) = [] := by
      refine List.filter_eq_nil_iff.2 fun e _ => ?_
      simp [Ne.symm hi]
    rw [hfilter]
    rfl

end Sparse

namespace Terms

variable {k : Kind}

/-- The indexes of the handles with the coefficients. -/
def indexed (ts : Terms k Float) : List (ℕ × Float) := ts.map fun t => (t.1.index, t.2)

end Terms

namespace Problem

variable {k l : Kind} {p p' : Problem} {i j : ℕ} {v : Float}

/-! ## Lines of a problem -/

/-- The number of columns or of rows. -/
def count (p : Problem) : Kind → ℕ
  | .variable => p.numCols
  | .constraint => p.numRows

/-- The matrix by columns or by rows. -/
def lines (p : Problem) : Kind → Sparse Float
  | .variable => p.matrix.byCol
  | .constraint => p.matrix.byRow

namespace WellFormed

/-- The lines that cross hold the same entries. -/
theorem get?_other (h : p.WellFormed) (k : Kind) (i j : ℕ) :
    (p.lines k.other).get? (j, i) = (p.lines k).get? (i, j) := by
  cases k
  · exact (h.matrix.transposed j i).symm
  · exact h.matrix.transposed i j

/-- The entries of lines are inside. -/
theorem lines_lt (h : p.WellFormed) (hv : (p.lines k).get? (i, j) = some v) :
    i < p.count k ∧ j < p.count k.other := by
  have hmem := Sparse.get?_eq_some_iff.1 hv
  cases k
  · exact h.byCol_lt hmem
  · exact h.byRow_lt hmem

/-- Nothing is found beyond the lines. -/
theorem get?_count (h : p.WellFormed) (k : Kind) (j : ℕ) :
    (p.lines k).get? (p.count k, j) = none := by
  cases hv : (p.lines k).get? (p.count k, j) with
  | none => rfl
  | some v => exact absurd (h.lines_lt hv).1 (lt_irrefl _)

end WellFormed

/-! ## Problems with one more line -/

/-- A problem has gained a line of a kind, and in it the sums of entries. -/
structure LineAdded (k : Kind) (p p' : Problem) (es : List (ℕ × Float)) : Prop where
  wellFormed : p'.WellFormed
  get? : ∀ i j, (p'.lines k).get? (i, j) =
    if i = p.count k then (sum? ((es.filter (·.1 = j)).map (·.2))).map (0 + ·)
    else (p.lines k).get? (i, j)

/-- Adding a column adds its entries to a line. -/
theorem lineAdded_addCol {c : ColData} {rows : List ℕ} {vals : List Float} (h : p.WellFormed)
    (hp : p.addCol c rows vals = .ok p') : LineAdded .variable p p' (rows.zip vals) := by
  refine ⟨h.addCol hp, fun j i => ?_⟩
  unfold addCol at hp
  split_ifs at hp
  obtain rfl := Except.ok.inj hp
  rw [lines, Matrix.byCol_addAll, List.map_map]
  exact Sparse.get?_addLine p.matrix.byCol (h.get?_count .variable) (rows.zip vals) j i

/-- Adding a row adds its entries to a line. -/
theorem lineAdded_addRow {r : RowData} {cols : List ℕ} {vals : List Float} (h : p.WellFormed)
    (hp : p.addRow r cols vals = .ok p') : LineAdded .constraint p p' (cols.zip vals) := by
  refine ⟨h.addRow hp, fun i j => ?_⟩
  unfold addRow at hp
  split_ifs at hp
  obtain rfl := Except.ok.inj hp
  rw [lines, Matrix.byRow_addAll, List.map_map]
  exact Sparse.get?_addLine p.matrix.byRow (h.get?_count .constraint) (cols.zip vals) i j

namespace LineAdded

variable {ts : Terms l Float} {model : ModelId} {generation : UInt32}

/-- The other lines of the kind stay. -/
theorem line_kept {es : List (ℕ × Float)} (h : LineAdded k p p' es) (hi : i < p.count k) :
    (p'.lines k).line i = (p.lines k).line i := by
  refine Sparse.line_eq (Sparse.pairwise_line _ _) fun j v => ?_
  rw [Sparse.mem_line, h.get?, if_neg hi.ne]

/-- What is found in the new line are the merged terms. -/
theorem get?_eq_some_iff (h : LineAdded k p p' ts.indexed) (hts : ts.Over model generation)
    {w : Float} : (p'.lines k).get? (p.count k, j) = some w ↔
      (⟨model, j, generation⟩, w) ∈ ts.purge.stored := by
  have hcoefs : (ts.indexed.filter (·.1 = j)).map (·.2) =
      (ts.filter (·.1.index = j)).map (·.2) := by
    rw [Terms.indexed, List.filter_map, List.map_map]
    rfl
  rw [h.get?, if_pos rfl, hcoefs, Option.map_eq_some_iff, Terms.stored, List.mem_map]
  constructor
  · rintro ⟨v, hv, rfl⟩
    exact ⟨_, hts.mem_purge_iff.2 hv, rfl⟩
  · rintro ⟨⟨x, v⟩, hmem, heq⟩
    obtain ⟨rfl, rfl⟩ := Prod.mk.inj heq
    exact ⟨v, hts.mem_purge_iff.1 hmem, rfl⟩

/-- The new line holds the merged terms. -/
theorem line_new (h : LineAdded k p p' ts.indexed) (hts : ts.Over model generation) :
    (p'.lines k).line (p.count k) = ts.purge.stored.indexed := by
  refine Sparse.line_eq ?_ fun j w => ?_
  · rw [Terms.indexed]
    exact List.pairwise_map.2 hts.pairwise_stored
  · rw [h.get?_eq_some_iff hts, Terms.indexed, List.mem_map]
    constructor
    · rintro ⟨⟨x, v⟩, hmem, heq⟩
      obtain ⟨rfl, rfl⟩ := Prod.mk.inj heq
      obtain ⟨⟨y, u⟩, hu, heq⟩ := List.mem_map.1 hmem
      obtain ⟨rfl, rfl⟩ := Prod.mk.inj heq
      rwa [← hts.purge.handle_eq hu]
    · intro hmem
      exact ⟨_, hmem, rfl⟩

/-- A line that the new one crosses has gained the entry there. -/
theorem line_crossed (h : LineAdded k p p' ts.indexed) (hp : p.WellFormed)
    (hts : ts.Over model generation) (j : ℕ) :
    (p'.lines k.other).line j = (p.lines k.other).line j ++
      (ts.purge.stored.filter (·.1 = ⟨model, j, generation⟩)).map fun t => (p.count k, t.2) := by
  have hnew {e : ℕ × Float} : e ∈ (ts.purge.stored.filter
      (·.1 = ⟨model, j, generation⟩)).map (fun t => (p.count k, t.2)) ↔
        e.1 = p.count k ∧ (⟨model, j, generation⟩, e.2) ∈ ts.purge.stored := by
    simp only [List.mem_map, List.mem_filter, decide_eq_true_iff]
    constructor
    · rintro ⟨t, ⟨hmem, ht⟩, rfl⟩
      exact ⟨rfl, ht ▸ hmem⟩
    · rintro ⟨he, hmem⟩
      exact ⟨_, ⟨hmem, rfl⟩, Prod.ext he.symm rfl⟩
  refine Sparse.line_eq (List.pairwise_append.2 ⟨Sparse.pairwise_line _ _, ?_, ?_⟩) fun i w => ?_
  · -- Merged terms have different indexes, so just one of them can be for the line.
    refine List.pairwise_map.2 ((hts.pairwise_stored.filter _).imp_of_mem fun {s t} hs ht hlt => ?_)
    have hs' := of_decide_eq_true (List.mem_filter.1 hs).2
    have ht' := of_decide_eq_true (List.mem_filter.1 ht).2
    rw [hs', ht'] at hlt
    exact absurd hlt (lt_irrefl _)
  · intro e he f hf
    have hold : (p.lines k).get? (e.1, j) = some e.2 :=
      (hp.get?_other k e.1 j).symm.trans (Sparse.mem_line.1 he)
    rw [(hnew.1 hf).1]
    exact (hp.lines_lt hold).1
  · rw [List.mem_append, Sparse.mem_line, hp.get?_other, h.wellFormed.get?_other, hnew]
    by_cases hi : i = p.count k
    · rw [hi, h.get?_eq_some_iff hts, hp.get?_count]
      simp
    · rw [h.get?, if_neg hi]
      simp [hi]

end LineAdded

/-! ## Fetching a line -/

/-- A line is fetched in two calls: the first tells how many entries it has, and the second, with
buffers for so many, gives them. -/
theorem fetchLines_line (lines : Sparse Float) {n i : ℕ} (hi : i < n) (code : ResultCode) :
    fetchLines lines n code [i] ⟨0, [], [], []⟩ =
        (.okay, ⟨(lines.line i).length, [], [], []⟩) ∧
      fetchLines lines n code [i] ⟨(lines.line i).length, [0, 0],
          List.replicate (lines.line i).length 0, List.replicate (lines.line i).length 0⟩ =
        (.okay, ⟨(lines.line i).length, [0, (lines.line i).length], (lines.line i).map (·.1),
          (lines.line i).map (·.2)⟩) := by
  have hinside : ¬[i].any (n ≤ ·) = true := by simpa using hi
  constructor
  · rw [fetchLines, if_neg hinside]
    simp
  · rw [fetchLines, if_neg hinside]
    -- The buffers are as long as the line, so nothing of them is left.
    simp [overwrite, List.range_succ]

end Problem

end MathProgram
