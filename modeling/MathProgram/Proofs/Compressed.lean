import MathProgram.Proofs.Problem.Lines

/-!
# Lines in compressed form

Lines in compressed form are read back by their starts: line `k` lies between the start of `k` and
the next one. In the compressed form of a sparse map the starts cut the entries, which are in order,
into the lines of the map (`Sparse.line_compressed`), so the lines one after another are the entries
again (`Sparse.triples_compressed`).

The numbers of a compressed form may be passed on in 32 bits. `Compressed.ofInt32?` reads them, and
fails on a negative one; numbers below `2 ^ 31` are read as they were.
-/

namespace MathProgram

variable {α : Type}

/-! ## Entries below a line -/

/-- A list in which items of a kind come before all others is divided by filtering. -/
theorem filter_append_filter_not {p : α → Bool} {xs : List α}
    (h : xs.Pairwise fun a b => p b = true → p a = true) :
    xs.filter p ++ xs.filter (fun a => !p a) = xs := by
  induction xs with
  | nil => rfl
  | cons x xs ih =>
    obtain ⟨hx, hxs⟩ := List.pairwise_cons.1 h
    cases hp : p x with
    | true => rw [List.filter_cons, List.filter_cons, hp]; exact congrArg (x :: ·) (ih hxs)
    | false =>
      -- Behind an item of the other kind there is none of the first.
      have hnone : xs.filter p = [] := by
        refine List.filter_eq_nil_iff.2 fun a ha hpa => ?_
        exact absurd (hx a ha hpa) (by simp [hp])
      have hrest := ih hxs
      rw [hnone, List.nil_append] at hrest
      rw [List.filter_cons, List.filter_cons, hp, hnone]
      exact congrArg (x :: ·) hrest

namespace Sparse

variable {m : Sparse α} {n k : ℕ}

/-- The entries below line `k`. -/
def below (m : Sparse α) (k : ℕ) : List (IndexPair × α) := m.entries.filter fun e => e.1.1 < k

/-- The entries of line `k`, with their keys. -/
def on (m : Sparse α) (k : ℕ) : List (IndexPair × α) := m.entries.filter fun e => e.1.1 = k

/-- No entry is below the first line. -/
theorem below_zero (m : Sparse α) : m.below 0 = [] := List.filter_eq_nil_iff.2 (by simp)

/-- All entries are below a line that none of them reaches. -/
theorem below_eq (h : ∀ e ∈ m.entries, e.1.1 < k) : m.below k = m.entries :=
  List.filter_eq_self.2 fun e he => decide_eq_true (h e he)

/-- The entries below a line come first. -/
theorem below_append_not (m : Sparse α) (k : ℕ) :
    m.below k ++ m.entries.filter (fun e => !decide (e.1.1 < k)) = m.entries := by
  refine filter_append_filter_not (m.sorted.imp fun {a b} hab hb => ?_)
  have hb := of_decide_eq_true hb
  refine decide_eq_true ?_
  obtain hlt | ⟨heq, -⟩ := hab
  · exact hlt.trans hb
  · exact heq ▸ hb

/-- Below the next line are the entries below a line, and then those on it. -/
theorem below_succ (m : Sparse α) (k : ℕ) : m.below (k + 1) = m.below k ++ m.on k := by
  have hsplit := congrArg (List.filter fun e => e.1.1 < k + 1) (m.below_append_not k)
  rw [List.filter_append, below, List.filter_filter, List.filter_filter] at hsplit
  rw [below, ← hsplit, below, on]
  congr 1
  · refine List.filter_congr fun e _ => ?_
    rw [Bool.eq_iff_iff]
    simp only [Bool.and_eq_true, decide_eq_true_eq]
    omega
  · refine List.filter_congr fun e _ => ?_
    rw [Bool.eq_iff_iff]
    simp only [Bool.and_eq_true, Bool.not_eq_true', decide_eq_true_eq, decide_eq_false_iff_not]
    omega

/-- There are no fewer entries below a later line. -/
theorem length_below_le (m : Sparse α) {k l : ℕ} (h : k ≤ l) :
    (m.below k).length ≤ (m.below l).length := by
  induction l, h using Nat.le_induction with
  | base => exact le_rfl
  | succ l _ ih =>
    rw [below_succ, List.length_append]
    exact ih.trans (Nat.le_add_right _ _)

/-- As many entries as are below a line are these. -/
theorem take_length_below (m : Sparse α) (k : ℕ) :
    m.entries.take (m.below k).length = m.below k := by
  conv_lhs => rw [← m.below_append_not k]
  exact List.take_left

/-- A line holds the entries on it, without the number of the line. -/
theorem line_eq_map_on (m : Sparse α) (k : ℕ) :
    m.line k = (m.on k).map fun e => (e.1.2, e.2) := by
  rw [line, on, ← List.filterMap_eq_map, List.filterMap_filter]
  refine List.filterMap_congr fun e _ => ?_
  dsimp only [Function.comp_apply]
  split_ifs <;> simp_all

/-- The entries below a line are those of the lines before, one line after another. -/
theorem below_eq_flatMap (m : Sparse α) (n : ℕ) :
    (m.below n).map (fun e => (e.1.1, e.1.2, e.2)) =
      (List.range n).flatMap fun k => (m.line k).map fun e => (k, e) := by
  induction n with
  | zero => rw [below_zero]; rfl
  | succ n ih =>
    rw [below_succ, List.map_append, ih, List.range_succ, List.flatMap_append,
      List.flatMap_singleton, line_eq_map_on, List.map_map]
    refine congrArg (_ ++ ·) (List.map_congr_left fun e he => ?_)
    rw [← of_decide_eq_true (List.mem_filter.1 he).2]
    rfl

/-- Looking an index up in a line is looking the pair up in the map. -/
theorem lookup_line (m : Sparse α) (i j : ℕ) : (m.line i).lookup j = m.get? (i, j) := by
  rw [line, get?]
  induction m.entries with
  | nil => rfl
  | cons e es ih =>
    obtain ⟨⟨i', j'⟩, v⟩ := e
    rw [lookup_cons, List.filterMap_cons]
    by_cases hi : i' = i
    · by_cases hj : j = j'
      · simp [hi, hj]
      · simp [hi, hj, ih, List.lookup_cons, beq_eq_false_iff_ne.2 hj]
    · simp [hi, ih, Ne.symm hi]

end Sparse

/-! ## Reading by starts -/

/-- Starts of `n` lines over a number of entries: one more than there are lines, from zero to the
number of entries, and none less than the one before. -/
structure Tiles (starts : List ℕ) (n size : ℕ) : Prop where
  length : starts.length = n + 1
  first : starts.head? = some 0
  mono : starts.Pairwise (· ≤ ·)
  last : starts.getLast? = some size

/-- The first start is zero. -/
theorem Tiles.getD_zero {starts : List ℕ} {n size : ℕ} (h : Tiles starts n size) :
    starts.getD 0 0 = 0 := by
  rw [List.getD_eq_getElem?_getD, ← List.head?_eq_getElem?, h.first]
  rfl

/-- The last start is the number of entries. -/
theorem Tiles.getD_last {starts : List ℕ} {n size : ℕ} (h : Tiles starts n size) :
    starts.getD n 0 = size := by
  have hlast : starts.length - 1 = n := by rw [h.length, Nat.add_sub_cancel]
  rw [List.getD_eq_getElem?_getD, ← hlast, ← List.getLast?_eq_getElem?, h.last]
  rfl

/-- No start is less than one before. -/
theorem Tiles.getD_mono {starts : List ℕ} {n size k l : ℕ} (h : Tiles starts n size) (hkl : k ≤ l)
    (hl : l ≤ n) : starts.getD k 0 ≤ starts.getD l 0 := by
  have hin {k : ℕ} (hk : k ≤ n) : k < starts.length := h.length ▸ Nat.lt_succ_of_le hk
  obtain rfl | hlt := hkl.eq_or_lt
  · exact le_rfl
  · rw [List.getD_eq_getElem _ _ (hin (hkl.trans hl)), List.getD_eq_getElem _ _ (hin hl)]
    exact List.pairwise_iff_getElem.1 h.mono k l _ _ hlt

/-- No start is beyond the end. -/
theorem Tiles.getD_le {starts : List ℕ} {n size k : ℕ} (h : Tiles starts n size) (hk : k ≤ n) :
    starts.getD k 0 ≤ size := h.getD_last ▸ h.getD_mono hk le_rfl

namespace Compressed

/-- The indexes and values of a line: those from its start to the next one. -/
def line (c : Compressed α) (k : ℕ) : List (ℕ × α) :=
  (c.indexes.zip c.values).extract (c.starts.getD k 0) (c.starts.getD (k + 1) 0)

/-- The lines one after another, each entry with the number of its line. -/
def triples (c : Compressed α) : List (ℕ × ℕ × α) :=
  (List.range (c.starts.length - 1)).flatMap fun k => (c.line k).map fun e => (k, e)

end Compressed

namespace Sparse

variable {m : Sparse α} {n k : ℕ}

/-- The start of a line is the number of entries below it. -/
theorem starts_compressed (m : Sparse α) (n : ℕ) :
    (m.compressed n).starts = (List.range (n + 1)).map fun k => (m.below k).length := rfl

/-- The start of a line, by its number. -/
theorem getD_starts_compressed (h : k ≤ n) :
    (m.compressed n).starts.getD k 0 = (m.below k).length := by
  rw [starts_compressed, List.getD_eq_getElem?_getD, List.getElem?_map,
    List.getElem?_range (Nat.lt_succ_of_le h)]
  rfl

/-- The starts of a compressed map tile its entries. -/
theorem tiles_compressed (h : ∀ e ∈ m.entries, e.1.1 < n) :
    Tiles (m.compressed n).starts n m.size where
  length := by rw [starts_compressed, List.length_map, List.length_range]
  first := by
    rw [starts_compressed, List.range_succ_eq_map, List.map_cons, List.head?_cons, below_zero]
    rfl
  mono := by
    rw [starts_compressed, List.pairwise_map]
    exact List.pairwise_lt_range.imp fun hlt => m.length_below_le hlt.le
  last := by
    rw [starts_compressed, List.range_succ, List.map_append, List.map_singleton,
      List.getLast?_concat, below_eq h]
    rfl

/-- The lines of a compressed map are those of the map. -/
theorem line_compressed (h : k < n) : (m.compressed n).line k = m.line k := by
  have hzip : (m.compressed n).indexes.zip (m.compressed n).values =
      m.entries.map fun e => (e.1.2, e.2) := List.zip_map' ..
  rw [Compressed.line, hzip, getD_starts_compressed h.le, getD_starts_compressed h,
    List.extract_eq_take_drop, ← List.map_drop, ← List.map_take, line_eq_map_on]
  refine congrArg (List.map _) ?_
  -- Up to the next start there are the entries below the line and those on it.
  calc (m.entries.drop (m.below k).length).take ((m.below (k + 1)).length - (m.below k).length)
      = (m.entries.take (m.below (k + 1)).length).drop (m.below k).length := by
        rw [List.drop_take]
    _ = (m.below k ++ m.on k).drop (m.below k).length := by
        rw [take_length_below, below_succ]
    _ = m.on k := List.drop_left

/-- The lines of a compressed map one after another are its entries. -/
theorem triples_compressed (h : ∀ e ∈ m.entries, e.1.1 < n) :
    (m.compressed n).triples = m.triples := by
  rw [Compressed.triples, (tiles_compressed h).length, Nat.add_sub_cancel, triples,
    ← below_eq h, below_eq_flatMap]
  refine List.flatMap_congr fun k hk => ?_
  rw [line_compressed (List.mem_range.1 hk)]

end Sparse

/-! ## Numbers of 32 bits -/

/-- A number of 32 bits, if it is not negative. -/
def natOfInt32? (x : Int32) : Option ℕ := x.toInt.toNat?

/-- Lines in compressed form with the starts and the indexes in 32 bits, if none is negative. -/
def Compressed.ofInt32? (starts indexes : List Int32) (values : List α) :
    Option (Compressed α) := do
  return ⟨← starts.mapM natOfInt32?, ← indexes.mapM natOfInt32?, values⟩

/-- A number below `2 ^ 31` fits into 32 bits. -/
theorem toInt_ofNat {k : ℕ} (h : k < 2 ^ 31) : (Int32.ofNat k).toInt = k :=
  Int32.toInt_ofNat_of_lt h

/-- Numbers below `2 ^ 31` are read as they were. -/
theorem mapM_natOfInt32? {ks : List ℕ} (h : ∀ k ∈ ks, k < 2 ^ 31) :
    (ks.map Int32.ofNat).mapM natOfInt32? = some ks := by
  rw [List.mapM_map, mapM_eq_pure (g := id), List.map_id]
  · rfl
  · intro k hk
    rw [Function.comp_apply, natOfInt32?, toInt_ofNat (h k hk)]
    rfl

/-- A compressed form passed on in 32 bits is read as it was. -/
theorem Compressed.ofInt32?_map {c : Compressed α} (hstarts : ∀ k ∈ c.starts, k < 2 ^ 31)
    (hindexes : ∀ i ∈ c.indexes, i < 2 ^ 31) :
    ofInt32? (c.starts.map Int32.ofNat) (c.indexes.map Int32.ofNat) c.values = some c := by
  rw [ofInt32?, mapM_natOfInt32? hstarts, mapM_natOfInt32? hindexes]
  rfl

end MathProgram
