import MathProgram.Problem
import MathProgram.Proofs.Basic
import MathProgram.Proofs.Matrix

/-!
# Well-formed problems

A problem is `WellFormed` if the two copies of its matrix agree inside its rows and columns, and its
quadratic form is kept by the upper triangle. Every operation that succeeds keeps it so.

Deleting renumbers by `rank`. The indexes that stay get different numbers (`rank_injective`), and
the numbers run up to the number of items that stay (`rank_lt_length_survivors`).
-/

namespace MathProgram

/-! ## Ranks -/

section Ranks

variable {α : Type} {removed : List ℕ} {j k r s : ℕ}

/-- An index has a rank if it stays, the number of those below it that stay. -/
theorem rank_eq_some_iff : Problem.rank removed k = some r ↔
    k ∉ removed ∧ (List.range k).countP (fun i => !removed.contains i) = r := by
  unfold Problem.rank
  simp

/-- More indexes stay below a larger bound, if the smaller bound stays itself. -/
theorem countP_range_lt (hj : j ∉ removed) (hjk : j < k) :
    (List.range j).countP (fun i => !removed.contains i) <
      (List.range k).countP fun i => !removed.contains i := by
  -- The larger range goes on with `j` itself, which is counted.
  have hsub : (List.range (j + 1)).Sublist (List.range k) := List.range_sublist.2 hjk
  have hle := hsub.countP_le (p := fun i => !removed.contains i)
  rw [List.range_succ, List.countP_append, List.countP_singleton] at hle
  have hkeep : (!removed.contains j) = true := by simpa using hj
  rw [hkeep, if_pos rfl] at hle
  omega

/-- Ranks keep the order. -/
theorem rank_lt_rank (hj : Problem.rank removed j = some r) (hk : Problem.rank removed k = some s)
    (hjk : j < k) : r < s := by
  obtain ⟨hstay, rfl⟩ := rank_eq_some_iff.1 hj
  obtain ⟨-, rfl⟩ := rank_eq_some_iff.1 hk
  exact countP_range_lt hstay hjk

/-- Different indexes have different ranks. -/
theorem rank_injective (hj : Problem.rank removed j = some r)
    (hk : Problem.rank removed k = some r) : j = k := by
  by_contra hne
  -- Of two different indexes one is below the other, and then so is its rank.
  obtain hlt | hlt := Nat.lt_or_gt_of_ne hne
  · exact lt_irrefl _ (rank_lt_rank hj hk hlt)
  · exact lt_irrefl _ (rank_lt_rank hk hj hlt)

/-- As many items stay as indexes. -/
theorem length_survivors (removed : List ℕ) (xs : List α) :
    (Problem.survivors removed xs).length =
      (List.range xs.length).countP fun i => !removed.contains i := by
  rw [Problem.survivors, List.length_filterMap_eq_countP, List.range_eq_range',
    ← List.zipIdx_map_snd 0 xs, List.countP_map]
  -- An item stays exactly if its position is counted.
  refine List.countP_congr fun e _ => ?_
  simp only [Function.comp_apply]
  split_ifs with h <;> simp_all

/-- The rank of an index that stays is below the number of items that stay. -/
theorem rank_lt_length_survivors {xs : List α} (hk : Problem.rank removed k = some r)
    (hlt : k < xs.length) : r < (Problem.survivors removed xs).length := by
  obtain ⟨hstay, rfl⟩ := rank_eq_some_iff.1 hk
  rw [length_survivors]
  exact countP_range_lt hstay hlt

/-- The items that stay are those at the positions that stay. -/
theorem survivors_eq (removed : List ℕ) (xs : List α) : Problem.survivors removed xs =
    (xs.zipIdx.filter fun e => !removed.contains e.2).map (·.1) := by
  rw [Problem.survivors, ← List.filterMap_eq_map, List.filterMap_filter]
  refine List.filterMap_congr fun e _ => ?_
  dsimp only [Function.comp_apply]
  split_ifs <;> simp_all

/-- The items that stay are in their order. -/
theorem survivors_sublist (removed : List ℕ) (xs : List α) :
    (Problem.survivors removed xs).Sublist xs := by
  have hsub : (xs.zipIdx.filter fun e => !removed.contains e.2).Sublist xs.zipIdx :=
    List.filter_sublist
  have hmap := hsub.map (·.1)
  rwa [← survivors_eq, List.zipIdx_map_fst] at hmap

/-- Which items stay does not depend on what they are. -/
theorem survivors_map {β : Type} (removed : List ℕ) (f : α → β) (xs : List α) :
    Problem.survivors removed (xs.map f) = (Problem.survivors removed xs).map f := by
  rw [survivors_eq, survivors_eq, List.zipIdx_map, List.filter_map, List.map_map, List.map_map]
  rfl

/-- If items are deleted at the same positions of two lists, of which one has no item twice, then
the items of the other move along with its items. -/
theorem getElem?_survivors {β : Type} {xs : List α} {ids : List β} {a : β} {j' : ℕ}
    (hlength : ids.length = xs.length) (hnodup : ids.Nodup) (hj : ids[j]? = some a)
    (hj' : (Problem.survivors removed ids)[j']? = some a) :
    (Problem.survivors removed xs)[j']? = xs[j]? := by
  -- Both lists are parts of the list of pairs, and so are those of what stays.
  have hids : (ids.zip xs).map (·.1) = ids := List.map_fst_zip hlength.le
  have hxs : (ids.zip xs).map (·.2) = xs := List.map_snd_zip hlength.ge
  rw [← hids, survivors_map, List.getElem?_map, Option.map_eq_some_iff] at hj'
  obtain ⟨p, hp, rfl⟩ := hj'
  obtain ⟨i, hi⟩ := List.getElem?_of_mem
    ((survivors_sublist removed _).subset (List.mem_of_getElem? hp))
  have hi₁ : ids[i]? = some p.1 := by rw [← hids, List.getElem?_map, hi]; rfl
  have hi₂ : xs[i]? = some p.2 := by rw [← hxs, List.getElem?_map, hi]; rfl
  obtain rfl : i = j :=
    (List.getElem?_inj (List.getElem?_eq_some_iff.1 hi₁).1 hnodup).1 (hi₁.trans hj.symm)
  rw [hi₂, ← hxs, survivors_map, List.getElem?_map, hp]
  rfl

end Ranks

/-! ## The quadratic form -/

/-- A quadratic form on `n` columns is kept by its upper triangle, without negative zeros. -/
def UpperTriangle (q : Sparse Float) (n : ℕ) : Prop :=
  ∀ i j v, q.get? (i, j) = some v → i ≤ j ∧ j < n ∧ Settled v

namespace UpperTriangle

variable {q : Sparse Float} {n n' i j : ℕ}

/-- There may be more columns. -/
theorem mono (h : UpperTriangle q n) (hn : n ≤ n') : UpperTriangle q n' := fun i j v hv =>
  ⟨(h i j v hv).1, (h i j v hv).2.1.trans_le hn, (h i j v hv).2.2⟩

/-- A change at the position that a pair of columns addresses. -/
theorem alter (h : UpperTriangle q n) {f : Option Float → Option Float} (hi : i < n) (hj : j < n)
    (hf : ∀ w, f (q.get? (Problem.quadKey i j)) = some w → Settled w) :
    UpperTriangle (q.alter (Problem.quadKey i j) f) n := by
  intro k l w hw
  rw [Sparse.get?_alter] at hw
  split_ifs at hw with hkl
  · have hs := hf w hw
    -- The key of a pair has the smaller index first.
    unfold Problem.quadKey at hkl
    split_ifs at hkl with hij <;> obtain ⟨rfl, rfl⟩ := Prod.mk.inj hkl
    · exact ⟨hij, hj, hs⟩
    · exact ⟨by omega, hi, hs⟩
  · exact h k l w hw

/-- Removing an entry leaves an upper triangle. -/
theorem erase (h : UpperTriangle q n) (hi : i < n) (hj : j < n) :
    UpperTriangle (q.erase (Problem.quadKey i j)) n :=
  h.alter hi hj fun _ hw => nomatch hw

/-- Setting an entry leaves an upper triangle. -/
theorem set (h : UpperTriangle q n) (hi : i < n) (hj : j < n) (v : Float) :
    UpperTriangle (Problem.setQuad q i j v) n := by
  unfold Problem.setQuad
  split_ifs with hv
  · exact h.erase hi hj
  · refine h.alter hi hj fun w hw => ?_
    obtain rfl := Option.some.inj hw
    exact settled_of_ne_zero (by simpa using hv)

/-- Adding to an entry leaves an upper triangle. -/
theorem addAt (h : UpperTriangle q n) (hi : i < n) (hj : j < n) (v : Float) :
    UpperTriangle (q.addAt (Problem.quadKey i j) v) n := by
  refine h.alter hi hj fun w hw => ?_
  obtain rfl := Option.some.inj hw
  refine Settled.add ?_ v
  cases hold : q.get? (Problem.quadKey i j) with
  | none => rfl
  | some old => exact (h _ _ old hold).2.2

/-- A quadratic form is the sum of its entries. -/
theorem sum_triples (h : UpperTriangle q n) :
    q.triples.foldl (fun q (i, j, v) => q.addAt (Problem.quadKey i j) v) .empty = q := by
  -- The entries are in the upper triangle, so `quadKey` leaves their keys as they are.
  have hentries : (q.triples.map fun e => (Problem.quadKey e.1 e.2.1, e.2.2)) = q.entries := by
    rw [Sparse.triples, List.map_map]
    refine (List.map_congr_left fun e he => ?_).trans (List.map_id _)
    have hle := (h e.1.1 e.1.2 e.2 (Sparse.get?_eq_some_iff.2 he)).1
    simp [Problem.quadKey, hle]
  have hsum := Sparse.sum_eq q.sorted.nodup_keys
    (fun e he => (h e.1.1 e.1.2 e.2 (Sparse.get?_eq_some_iff.2 he)).2.2)
    fun k v => Sparse.get?_eq_some_iff.symm
  rw [← hentries, List.foldl_map] at hsum
  exact hsum

/-- An entry keeps its value under the ranks of its columns, if both of them stay. -/
theorem get?_renumbered {removed : List ℕ} {v : Float} :
    (q.mapKeys? fun (i, j) => do
      return (← Problem.rank removed i, ← Problem.rank removed j)).get? (i, j) = some v ↔
        ∃ k l, Problem.rank removed k = some i ∧ Problem.rank removed l = some j ∧
          q.get? (k, l) = some v := by
  have hf (p : IndexPair) (k l : ℕ) : (do
      return (← Problem.rank removed p.1, ← Problem.rank removed p.2) : Option IndexPair) =
        some (k, l) ↔ Problem.rank removed p.1 = some k ∧ Problem.rank removed p.2 = some l := by
    cases Problem.rank removed p.1 <;> cases Problem.rank removed p.2 <;> simp
  rw [Sparse.get?_mapKeys?]
  · constructor
    · rintro ⟨⟨k, l⟩, hkl, hv⟩
      obtain ⟨hk, hl⟩ := (hf (k, l) i j).1 hkl
      exact ⟨k, l, hk, hl, hv⟩
    · rintro ⟨k, l, hk, hl, hv⟩
      exact ⟨(k, l), (hf (k, l) i j).2 ⟨hk, hl⟩, hv⟩
  · rintro p p' ⟨k, l⟩ hp hp'
    obtain ⟨h1, h2⟩ := (hf p k l).1 hp
    obtain ⟨h1', h2'⟩ := (hf p' k l).1 hp'
    exact Prod.ext (rank_injective h1 h1') (rank_injective h2 h2')

/-- Renumbering the columns by rank leaves an upper triangle. -/
theorem renumbered {α : Type} {removed : List ℕ} {xs : List α} (h : UpperTriangle q xs.length) :
    UpperTriangle (q.mapKeys? fun (i, j) => do
      return (← Problem.rank removed i, ← Problem.rank removed j))
      (Problem.survivors removed xs).length := by
  intro i j v hv
  obtain ⟨k, l, hk, hl, hv⟩ := get?_renumbered.1 hv
  obtain ⟨hle, hlt, hs⟩ := h k l v hv
  refine ⟨?_, rank_lt_length_survivors hl hlt, hs⟩
  -- Ranks keep the order, so the new pair is in the upper triangle as well.
  obtain rfl | hlt := Nat.eq_or_lt_of_le hle
  · exact (Option.some.inj (hk.symm.trans hl)).le
  · exact (rank_lt_rank hk hl hlt).le

end UpperTriangle

namespace Problem

/-- The copies of the matrix agree inside the rows and columns, and the quadratic form is kept by
its upper triangle. -/
structure WellFormed (p : Problem) : Prop where
  matrix : p.matrix.Consistent p.numRows p.numCols
  quad : UpperTriangle p.quad p.numCols

variable {p p' : Problem}

/-- The empty problem is well-formed. -/
theorem wellFormed_empty (name : String) : (empty name).WellFormed where
  matrix := Matrix.consistent_empty 0 0
  quad _ _ _ h := nomatch h

/-- A problem with as many rows and columns and the same entries is well-formed as well. -/
theorem WellFormed.congr (h : p.WellFormed) (hcols : p'.numCols = p.numCols)
    (hrows : p'.numRows = p.numRows) (hmatrix : p'.matrix = p.matrix) (hquad : p'.quad = p.quad) :
    p'.WellFormed where
  matrix := by rw [hmatrix, hcols, hrows]; exact h.matrix
  quad := by rw [hquad, hcols]; exact h.quad

/-- The entries by columns are inside. -/
theorem WellFormed.byCol_lt (h : p.WellFormed) {e : IndexPair × Float}
    (he : e ∈ p.matrix.byCol.entries) : e.1.1 < p.numCols ∧ e.1.2 < p.numRows := by
  have hget : p.matrix.byCol.get? e.1 = some e.2 := Sparse.get?_eq_some_iff.2 he
  rw [← Prod.mk.eta (p := e.1), h.matrix.transposed] at hget
  obtain ⟨hi, hj, -⟩ := h.matrix.entry _ _ _ hget
  exact ⟨hj, hi⟩

/-- The entries by rows are inside. -/
theorem WellFormed.byRow_lt (h : p.WellFormed) {e : IndexPair × Float}
    (he : e ∈ p.matrix.byRow.entries) : e.1.1 < p.numRows ∧ e.1.2 < p.numCols := by
  obtain ⟨hi, hj, -⟩ := h.matrix.entry _ _ _ (Sparse.get?_eq_some_iff.2 he)
  exact ⟨hi, hj⟩

/-- The entries of the quadratic form are inside. -/
theorem WellFormed.quad_lt (h : p.WellFormed) {e : IndexPair × Float}
    (he : e ∈ p.quad.entries) : e.1.1 < p.numCols ∧ e.1.2 < p.numCols := by
  obtain ⟨hle, hj, -⟩ := h.quad _ _ _ (Sparse.get?_eq_some_iff.2 he)
  exact ⟨hle.trans_lt hj, hj⟩

/-- Positions that no check rejects are inside. -/
theorem lt_of_any_eq_false {n : ℕ} {ks : List ℕ} (h : ¬ ks.any (n ≤ ·) = true) {k : ℕ}
    (hk : k ∈ ks) : k < n := by
  simp only [List.any_eq_true, decide_eq_true_eq, not_exists, not_and, Nat.not_le] at h
  exact h k hk

/-- No check rejects positions that are inside. -/
theorem not_any_of_lt {n : ℕ} {ks : List ℕ} (h : ∀ k ∈ ks, k < n) : ¬ks.any (n ≤ ·) = true := by
  simpa using h

/-- Checked positions of the matrix are inside. -/
theorem checkPositions_eq_ok {rows cols : List ℕ} (h : p.checkPositions rows cols = .ok ()) :
    (∀ i ∈ rows, i < p.numRows) ∧ ∀ j ∈ cols, j < p.numCols := by
  unfold checkPositions at h
  split_ifs at h with hlen hrows hcols
  exact ⟨fun i => lt_of_any_eq_false hrows, fun j => lt_of_any_eq_false hcols⟩

/-- Checked positions of the quadratic form are inside. -/
theorem checkQuadPositions_eq_ok {cols₁ cols₂ : List ℕ}
    (h : p.checkQuadPositions cols₁ cols₂ = .ok ()) :
    (∀ i ∈ cols₁, i < p.numCols) ∧ ∀ j ∈ cols₂, j < p.numCols := by
  unfold checkQuadPositions at h
  split_ifs at h with hlen hcols
  exact ⟨fun i hi => lt_of_any_eq_false hcols (List.mem_append_left _ hi),
    fun j hj => lt_of_any_eq_false hcols (List.mem_append_right _ hj)⟩

namespace WellFormed

/-! ## Columns and rows -/

/-- Adding a column keeps a problem well-formed. -/
theorem addCol {c : ColData} {rows : List ℕ} {vals : List Float} (h : p.WellFormed)
    (hp : p.addCol c rows vals = .ok p') : p'.WellFormed := by
  unfold Problem.addCol at hp
  split_ifs at hp with hlen hrange
  obtain rfl := Except.ok.inj hp
  have hcols : p.numCols < (p.cols ++ [c]).length := by
    rw [List.length_append]
    exact Nat.lt_succ_self _
  -- The new entries are in the new column and in rows that were checked.
  refine ⟨(h.matrix.mono le_rfl hcols.le).addAll fun e he => ?_, h.quad.mono hcols.le⟩
  obtain ⟨⟨i, v⟩, hi, rfl⟩ := List.mem_map.1 he
  exact ⟨lt_of_any_eq_false hrange (List.of_mem_zip hi).1, hcols⟩

/-- Adding a row keeps a problem well-formed. -/
theorem addRow {r : RowData} {cols : List ℕ} {vals : List Float} (h : p.WellFormed)
    (hp : p.addRow r cols vals = .ok p') : p'.WellFormed := by
  unfold Problem.addRow at hp
  split_ifs at hp with hlen hrange
  obtain rfl := Except.ok.inj hp
  have hrows : p.numRows < (p.rows ++ [r]).length := by
    rw [List.length_append]
    exact Nat.lt_succ_self _
  -- The new entries are in the new row and in columns that were checked.
  refine ⟨(h.matrix.mono hrows.le le_rfl).addAll fun e he => ?_, h.quad⟩
  obtain ⟨⟨j, v⟩, hj, rfl⟩ := List.mem_map.1 he
  exact ⟨hrows, lt_of_any_eq_false hrange (List.of_mem_zip hj).1⟩

/-- Deleting columns keeps a problem well-formed. -/
theorem deleteCols {removed : List ℕ} (h : p.WellFormed)
    (hp : p.deleteCols removed = .ok p') : p'.WellFormed := by
  unfold Problem.deleteCols at hp
  split_ifs at hp
  obtain rfl := Except.ok.inj hp
  exact ⟨h.matrix.renumberCols (fun _ _ _ => rank_injective)
    (fun _ _ hj hk => rank_lt_length_survivors hk hj), h.quad.renumbered⟩

/-- Deleting rows keeps a problem well-formed. -/
theorem deleteRows {removed : List ℕ} (h : p.WellFormed)
    (hp : p.deleteRows removed = .ok p') : p'.WellFormed := by
  unfold Problem.deleteRows at hp
  split_ifs at hp
  obtain rfl := Except.ok.inj hp
  exact ⟨h.matrix.renumberRows (fun _ _ _ => rank_injective)
    (fun _ _ hi hk => rank_lt_length_survivors hk hi), h.quad⟩

/-! ## Entries -/

/-- Setting entries keeps a problem well-formed. -/
theorem setElements {rows cols : List ℕ} {vals : List Float} (h : p.WellFormed)
    (hp : p.setElements rows cols vals = .ok p') : p'.WellFormed := by
  obtain ⟨_, hcheck, hp⟩ := bind_eq_ok.1 hp
  obtain ⟨-, -, hp⟩ := bind_eq_ok.1 hp
  obtain rfl := Except.ok.inj hp
  obtain ⟨hrows, hcols⟩ := checkPositions_eq_ok hcheck
  refine ⟨foldl_invariant (P := (Matrix.Consistent · p.numRows p.numCols)) h.matrix
    fun a ha e he => ?_, h.quad⟩
  have hpos := List.of_mem_zip (List.of_mem_zip he).1
  exact ha.set (hrows _ hpos.1) (hcols _ hpos.2) e.2

/-- Removing entries keeps a problem well-formed. -/
theorem deleteElements {rows cols : List ℕ} (h : p.WellFormed)
    (hp : p.deleteElements rows cols = .ok p') : p'.WellFormed := by
  obtain ⟨_, hcheck, hp⟩ := bind_eq_ok.1 hp
  obtain rfl := Except.ok.inj hp
  obtain ⟨hrows, hcols⟩ := checkPositions_eq_ok hcheck
  refine ⟨foldl_invariant (P := (Matrix.Consistent · p.numRows p.numCols)) h.matrix
    fun a ha e he => ?_, h.quad⟩
  have hpos := List.of_mem_zip he
  exact ha.erase (hrows _ hpos.1) (hcols _ hpos.2)

/-- Removing all entries keeps a problem well-formed. -/
theorem deleteAllElements (h : p.WellFormed) : p.deleteAllElements.WellFormed :=
  ⟨Matrix.consistent_empty _ _, h.quad⟩

/-- Setting quadratic entries keeps a problem well-formed. -/
theorem setQuadElements {cols₁ cols₂ : List ℕ} {vals : List Float} (h : p.WellFormed)
    (hp : p.setQuadElements cols₁ cols₂ vals = .ok p') : p'.WellFormed := by
  obtain ⟨_, hcheck, hp⟩ := bind_eq_ok.1 hp
  obtain ⟨-, -, hp⟩ := bind_eq_ok.1 hp
  obtain rfl := Except.ok.inj hp
  obtain ⟨hcols₁, hcols₂⟩ := checkQuadPositions_eq_ok hcheck
  refine ⟨h.matrix, foldl_invariant (P := (UpperTriangle · p.numCols)) h.quad
    fun q hq e he => ?_⟩
  have hpos := List.of_mem_zip (List.of_mem_zip he).1
  exact hq.set (hcols₁ _ hpos.1) (hcols₂ _ hpos.2) e.2

/-- Removing quadratic entries keeps a problem well-formed. -/
theorem deleteQuadElements {cols₁ cols₂ : List ℕ} (h : p.WellFormed)
    (hp : p.deleteQuadElements cols₁ cols₂ = .ok p') : p'.WellFormed := by
  obtain ⟨_, hcheck, hp⟩ := bind_eq_ok.1 hp
  obtain rfl := Except.ok.inj hp
  obtain ⟨hcols₁, hcols₂⟩ := checkQuadPositions_eq_ok hcheck
  refine ⟨h.matrix, foldl_invariant (P := (UpperTriangle · p.numCols)) h.quad
    fun q hq e he => ?_⟩
  have hpos := List.of_mem_zip he
  exact hq.erase (hcols₁ _ hpos.1) (hcols₂ _ hpos.2)

/-- Removing all quadratic entries keeps a problem well-formed. -/
theorem deleteAllQuadElements (h : p.WellFormed) : p.deleteAllQuadElements.WellFormed :=
  ⟨h.matrix, fun _ _ _ h => nomatch h⟩

end WellFormed

/-! ## The whole problem -/

/-- Data that is put in place makes any problem well-formed. -/
theorem wellFormed_of_replaceData {cols : List ColData} {rows : List RowData}
    {entries quad : List (ℕ × ℕ × Float)} (hp : p.replaceData cols rows entries quad = .ok p') :
    p'.WellFormed := by
  unfold replaceData at hp
  dsimp only at hp
  split_ifs at hp with hrange
  obtain rfl := Except.ok.inj hp
  simp only [Bool.or_eq_true, List.any_eq_true, decide_eq_true_eq, not_or, not_exists, not_and,
    Nat.not_le] at hrange
  obtain ⟨hentries, hquad⟩ := hrange
  refine ⟨(Matrix.consistent_empty _ _).addAll fun e he => hentries e he, ?_⟩
  refine foldl_invariant (P := (UpperTriangle · cols.length)) (fun _ _ _ h => nomatch h)
    fun q hq e he => ?_
  exact hq.addAt (hquad e he).1 (hquad e he).2 e.2.2

/-- Data that is put in place comes with its columns and rows; the name, the sense and the constant
stay. -/
theorem replaceData_eq_ok {cols : List ColData} {rows : List RowData}
    {entries quad : List (ℕ × ℕ × Float)} (hp : p.replaceData cols rows entries quad = .ok p') :
    p' = { p with cols, rows, matrix := p'.matrix, quad := p'.quad } := by
  unfold replaceData at hp
  dsimp only at hp
  split_ifs at hp
  obtain rfl := Except.ok.inj hp
  rfl

/-- The entries of a well-formed problem, put in place with columns and rows for them, are the
entries again. -/
theorem WellFormed.replaceData_entries (h : p.WellFormed) (q : Problem) (cols : List ColData)
    (rows : List RowData) (hcols : cols.length = p.numCols) (hrows : rows.length = p.numRows) :
    q.replaceData cols rows p.matrix.entries p.quad.triples =
      .ok { q with cols, rows, matrix := p.matrix, quad := p.quad } := by
  unfold replaceData
  dsimp only
  rw [if_neg, h.matrix.addAll_entries, h.quad.sum_triples]
  simp only [Bool.or_eq_true, List.any_eq_true, decide_eq_true_eq, not_or, not_exists, not_and,
    Nat.not_le, hcols, hrows]
  -- The positions are inside, so the check of the ranges passes.
  refine ⟨fun e he => ?_, fun e he => ?_⟩
  · obtain ⟨e', he', rfl⟩ := List.mem_map.1 he
    exact h.byRow_lt he'
  · obtain ⟨e', he', rfl⟩ := List.mem_map.1 he
    exact h.quad_lt he'

end Problem

end MathProgram
