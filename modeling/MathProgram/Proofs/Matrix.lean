import MathProgram.Matrix
import MathProgram.Proofs.Decimal.NegativeZero
import MathProgram.Proofs.Sparse

/-!
# The two copies of the matrix

A matrix is `Consistent` with numbers of rows and columns if the copy by columns is the transpose of
the copy by rows and every entry is inside the matrix. Each operation keeps it so, given positions
inside. `renumberCols` and `renumberRows` build one copy out of the other, so there the new numbers
have to be different and within the new range.

No operation stores a negative zero: values are put in place unless they are zeros, and summed
values start from zero.
-/

namespace MathProgram.Matrix

/-- The two copies of a matrix of `m` rows and `n` columns agree. -/
structure Consistent (a : Matrix) (m n : ℕ) : Prop where
  /-- The copy by columns holds what the copy by rows holds. -/
  transposed : ∀ i j, a.byCol.get? (j, i) = a.byRow.get? (i, j)
  /-- Every entry is inside the matrix, and none is a negative zero. -/
  entry : ∀ i j v, a.byRow.get? (i, j) = some v → i < m ∧ j < n ∧ Settled v

variable {a : Matrix} {m n m' n' i j : ℕ} {v : Float}

/-- The copies of the empty matrix agree. -/
theorem consistent_empty (m n : ℕ) : empty.Consistent m n where
  transposed _ _ := rfl
  entry _ _ _ h := nomatch h

/-- Adding entries adds to the copy by columns. -/
theorem byCol_addAll (es : List (ℕ × ℕ × Float)) (a : Matrix) : (a.addAll es).byCol =
    (es.map fun e => ((e.2.1, e.1), e.2.2)).foldl (fun m e => m.addAt e.1 e.2) a.byCol := by
  induction es generalizing a with
  | nil => rfl
  | cons e es ih => exact ih _

/-- Adding entries adds to the copy by rows. -/
theorem byRow_addAll (es : List (ℕ × ℕ × Float)) (a : Matrix) : (a.addAll es).byRow =
    (es.map fun e => ((e.1, e.2.1), e.2.2)).foldl (fun m e => m.addAt e.1 e.2) a.byRow := by
  induction es generalizing a with
  | nil => rfl
  | cons e es ih => exact ih _

namespace Consistent

/-- There may be more rows and columns. -/
theorem mono (h : a.Consistent m n) (hm : m ≤ m') (hn : n ≤ n') : a.Consistent m' n' where
  transposed := h.transposed
  entry i j v hv := by
    obtain ⟨hi, hj, hs⟩ := h.entry i j v hv
    exact ⟨hi.trans_le hm, hj.trans_le hn, hs⟩

/-- One change of both copies at one position. -/
theorem alter (h : a.Consistent m n) {f : Option Float → Option Float} (hi : i < m) (hj : j < n)
    (hf : ∀ w, f (a.byRow.get? (i, j)) = some w → Settled w) :
    (Matrix.mk (a.byCol.alter (j, i) f) (a.byRow.alter (i, j) f)).Consistent m n where
  transposed k l := by
    -- Both copies change at the same position, read in the two orders.
    rw [Sparse.get?_alter, Sparse.get?_alter, h.transposed, h.transposed]
    simp only [Prod.mk.injEq, and_comm]
  entry k l w hw := by
    rw [Sparse.get?_alter] at hw
    split_ifs at hw with hkl
    · obtain ⟨rfl, rfl⟩ := Prod.mk.inj hkl
      exact ⟨hi, hj, hf w hw⟩
    · exact h.entry k l w hw

/-- Adding to an entry keeps the copies together. -/
theorem add (h : a.Consistent m n) (hi : i < m) (hj : j < n) (v : Float) :
    (a.add i j v).Consistent m n := by
  refine h.alter hi hj fun w hw => ?_
  obtain rfl := Option.some.inj hw
  refine Settled.add ?_ v
  cases hold : a.byRow.get? (i, j) with
  | none => rfl
  | some old => exact (h.entry i j old hold).2.2

/-- Removing an entry keeps the copies together. -/
theorem erase (h : a.Consistent m n) (hi : i < m) (hj : j < n) : (a.erase i j).Consistent m n :=
  h.alter hi hj fun _ hw => nomatch hw

/-- Setting an entry keeps the copies together. -/
theorem set (h : a.Consistent m n) (hi : i < m) (hj : j < n) (v : Float) :
    (a.set i j v).Consistent m n := by
  unfold Matrix.set
  split_ifs with hv
  · exact h.erase hi hj
  · refine h.alter hi hj fun w hw => ?_
    obtain rfl := Option.some.inj hw
    exact settled_of_ne_zero (by simpa using hv)

/-- Adding entries keeps the copies together. -/
theorem addAll {es : List (ℕ × ℕ × Float)} (h : a.Consistent m n)
    (hes : ∀ e ∈ es, e.1 < m ∧ e.2.1 < n) : (a.addAll es).Consistent m n := by
  induction es generalizing a with
  | nil => exact h
  | cons e es ih =>
    obtain ⟨hi, hj⟩ := hes e (List.mem_cons_self ..)
    exact ih (h.add hi hj e.2.2) fun e' he' => hes e' (List.mem_cons_of_mem _ he')

/-- Renumbering the columns keeps the copies together. -/
theorem renumberCols {f : ℕ → Option ℕ} (h : a.Consistent m n)
    (hinj : ∀ j j' k, f j = some k → f j' = some k → j = j')
    (hbound : ∀ j k, j < n → f j = some k → k < n') : (a.renumberCols f).Consistent m n' where
  transposed i j := by
    rw [Matrix.renumberCols, Sparse.get?_transpose]
    rfl
  entry i j v hv := by
    rw [Matrix.renumberCols, Sparse.get?_transpose] at hv
    -- An entry comes from one column, which has a new number in range.
    obtain ⟨j', hj', hv'⟩ := (Sparse.get?_renumbered a.byCol hinj).1 hv
    rw [h.transposed] at hv'
    obtain ⟨hi, hj, hs⟩ := h.entry i j' v hv'
    exact ⟨hi, hbound j' j hj hj', hs⟩

/-- Renumbering the rows keeps the copies together. -/
theorem renumberRows {f : ℕ → Option ℕ} (h : a.Consistent m n)
    (hinj : ∀ i i' k, f i = some k → f i' = some k → i = i')
    (hbound : ∀ i k, i < m → f i = some k → k < m') : (a.renumberRows f).Consistent m' n where
  transposed i j := by
    rw [Matrix.renumberRows, Sparse.get?_transpose]
    rfl
  entry i j v hv := by
    -- An entry comes from one row, which has a new number in range.
    obtain ⟨i', hi', hv'⟩ := (Sparse.get?_renumbered a.byRow hinj).1 hv
    obtain ⟨hi, hj, hs⟩ := h.entry i' j v hv'
    exact ⟨hbound i' i hi hi', hj, hs⟩

/-- A matrix is the sum of its entries in any order. -/
theorem addAll_perm (h : a.Consistent m n) {es : List (ℕ × ℕ × Float)} (hes : es.Perm a.entries) :
    empty.addAll es = a := by
  -- Sums start from zero, which would turn a negative zero into a positive one.
  have hsettled : ∀ e ∈ a.byRow.entries, Settled e.2 := fun e he =>
    (h.entry e.1.1 e.1.2 e.2 (Sparse.get?_eq_some_iff.2 he)).2.2
  have hcols : (empty.addAll es).byCol = a.byCol := by
    have hperm : (es.map fun e => ((e.2.1, e.1), e.2.2)).Perm
        (a.byRow.entries.map fun e => (e.1.swap, e.2)) := by
      refine (hes.map _).trans (.of_eq ?_)
      rw [entries, Sparse.triples, List.map_map]
      rfl
    rw [byCol_addAll]
    refine Sparse.sum_eq ((hperm.map _).nodup_iff.2 a.byRow.nodup_swapped) (fun e he => ?_)
      fun k v => ?_
    · obtain ⟨e', he', rfl⟩ := List.mem_map.1 (hperm.mem_iff.1 he)
      exact hsettled e' he'
    · rw [hperm.mem_iff, Sparse.mem_swapped, ← Prod.mk.eta (p := k), h.transposed]
      rfl
  have hrows : (empty.addAll es).byRow = a.byRow := by
    have hperm : (es.map fun e => ((e.1, e.2.1), e.2.2)).Perm a.byRow.entries := by
      refine (hes.map _).trans (.of_eq ?_)
      rw [entries, Sparse.triples, List.map_map]
      exact List.map_id _
    rw [byRow_addAll]
    exact Sparse.sum_eq ((hperm.map _).nodup_iff.2 a.byRow.sorted.nodup_keys)
      (fun e he => hsettled e (hperm.mem_iff.1 he))
      fun k v => hperm.mem_iff.trans Sparse.get?_eq_some_iff.symm
  calc empty.addAll es
      = ⟨(empty.addAll es).byCol, (empty.addAll es).byRow⟩ := rfl
    _ = a := by rw [hcols, hrows]

/-- A matrix is the sum of its entries. -/
theorem addAll_entries (h : a.Consistent m n) : empty.addAll a.entries = a :=
  h.addAll_perm (.refl _)

end Consistent

end MathProgram.Matrix
