import MathProgram.Indexing
import MathProgram.Proofs.Problem

/-!
# Indexes in range

The operations that work on lists by index, run as sequences of accesses (`MathProgram.Indexing`):
on a well-formed problem no access fails, and what the accesses lead to is the result of the
operation.

A loop is described by its state after the items it has been through: `foldlM_eq_some` leaves one
step to be checked.
-/

namespace MathProgram

section Loops

variable {α : Type}

/-- A change in range. -/
theorem update?_of_lt {xs : List α} {k : ℕ} (h : k < xs.length) (f : α → α) :
    update? xs k f = some (xs.modify k f) := if_pos h

/-- A list given by its items, changed at an index. -/
theorem update?_map_range {n k : ℕ} (h : k < n) (g : ℕ → α) (f : α → α) :
    update? ((List.range n).map g) k f =
      some ((List.range n).map fun i => if i = k then f (g i) else g i) := by
  rw [update?_of_lt (by simpa using h)]
  refine congrArg some (List.ext_getElem (by simp) fun i h₁ h₂ => ?_)
  simp only [List.getElem_modify, List.getElem_map, List.getElem_range]
  exact ite_congr (propext eq_comm) (fun _ => rfl) fun _ => rfl

/-- The next item written to the front of a buffer. -/
theorem update?_overwrite (xs : List α) {buffer : List α} (h : xs.length < buffer.length) (x : α) :
    update? (overwrite xs buffer) xs.length (fun _ => x) =
      some (overwrite (xs ++ [x]) buffer) := by
  -- The place written is the first that the items before do not reach.
  have hdrop : buffer.drop xs.length = buffer[xs.length] :: buffer.drop (xs.length + 1) :=
    List.drop_eq_getElem_cons h
  rw [overwrite, overwrite, hdrop, update?_of_lt (by simpa using h)]
  have hmodify := List.modifyTailIdx_add (List.modifyHead fun _ => x) 0 xs
    (buffer[xs.length] :: buffer.drop (xs.length + 1))
  refine congrArg some (hmodify.trans ?_)
  rw [List.append_assoc, List.length_append]
  rfl

end Loops

/-! ## Compressed form -/

namespace Sparse

variable {α : Type} {m : Sparse α} {n : ℕ}

/-- The entries counted by their lines, each one place further on. -/
theorem counts_eq (es : List (IndexPair × α)) (h : ∀ e ∈ es, e.1.1 < n) :
    es.foldlM (fun starts e => update? starts (e.1.1 + 1) (· + 1)) (List.replicate (n + 1) 0) =
      some ((List.range (n + 1)).map fun k => es.countP (·.1.1 + 1 = k)) := by
  let state (done : List (IndexPair × α)) : List ℕ :=
    (List.range (n + 1)).map fun k => done.countP (·.1.1 + 1 = k)
  have hfirst : List.replicate (n + 1) 0 = state [] := by simp [state, List.map_const']
  rw [hfirst]
  refine foldlM_eq_some state fun done e rest hes => ?_
  have he : e.1.1 < n := h e (by rw [hes]; exact List.mem_append_right _ (List.mem_cons_self ..))
  rw [update?_map_range (Nat.succ_lt_succ he)]
  refine congrArg some (List.map_congr_left fun k _ => ?_)
  -- One more entry is counted at the place after its line.
  rw [List.countP_append, List.countP_singleton]
  simp only [decide_eq_true_eq]
  split_ifs <;> omega

/-- Of the entries below the line after `j`, some are on line `j` and the others below. -/
theorem countP_lt_succ (es : List (IndexPair × α)) (j : ℕ) :
    es.countP (·.1.1 < j + 1) = es.countP (·.1.1 + 1 = j + 1) + es.countP (·.1.1 < j) := by
  induction es with
  | nil => rfl
  | cons e es ih =>
    simp only [List.countP_cons, decide_eq_true_eq, ih]
    split_ifs <;> omega

/-- The counts added up in place, up to line `j`: there the starts are done, further on there are
still counts. -/
theorem starts_upto (es : List (IndexPair × α)) {j : ℕ} (hj : j ≤ n) :
    (List.range j).foldlM (fun starts j => do
      let before ← starts[j]?
      update? starts (j + 1) (· + before))
      ((List.range (n + 1)).map fun k => es.countP (·.1.1 + 1 = k)) =
    some ((List.range (n + 1)).map fun k =>
      if k ≤ j then es.countP (·.1.1 < k) else es.countP (·.1.1 + 1 = k)) := by
  induction j with
  | zero =>
    refine congrArg some (List.map_congr_left fun k _ => ?_)
    split_ifs with hk
    · obtain rfl := Nat.le_zero.1 hk
      simp
    · rfl
  | succ j ih =>
    rw [List.range_succ (n := j), List.foldlM_append, ih (Nat.le_of_succ_le hj)]
    simp only [Option.bind_eq_bind, Option.bind_some, List.foldlM_cons, List.foldlM_nil]
    -- Place `j` is done, so what is read there is the start of line `j`.
    have hread : ((List.range (n + 1)).map fun k =>
        if k ≤ j then es.countP (·.1.1 < k) else es.countP (·.1.1 + 1 = k))[j]? =
          some (es.countP (·.1.1 < j)) := by
      simp [Nat.lt_succ_of_lt hj]
    rw [hread, Option.bind_some, update?_map_range (Nat.succ_lt_succ hj), Option.bind_some]
    refine congrArg some (List.map_congr_left fun k _ => ?_)
    -- Only the place after line `j` changes, from a count to a start.
    by_cases hk : k = j + 1
    · subst hk
      rw [if_pos rfl, if_neg (Nat.not_succ_le_self j), if_pos le_rfl]
      exact (countP_lt_succ es j).symm
    · simp only [hk, if_false]
      exact ite_congr (propext (by omega)) (fun _ => rfl) fun _ => rfl

/-- On entries whose lines are below `n`, counting gives the compressed form. -/
theorem compressed?_eq (h : ∀ e ∈ m.entries, e.1.1 < n) :
    m.compressed? n = some (m.compressed n) := by
  rw [compressed?, counts_eq m.entries h, Option.bind_eq_bind, Option.bind_some,
    starts_upto m.entries le_rfl, Option.bind_some]
  refine congrArg some (congrArg (Compressed.mk · _ _) (List.map_congr_left fun k hk => ?_))
  rw [if_pos (Nat.lt_succ_iff.1 (List.mem_range.1 hk)), List.countP_eq_length_filter]

/-- If every key can be looked up, the keys are changed as by the function looked up. -/
theorem renumber?_eq {f : IndexPair → Option (Option IndexPair)}
    {g : IndexPair → Option IndexPair} (h : ∀ e ∈ m.entries, f e.1 = some (g e.1)) :
    m.renumber? f = some (m.mapKeys? g) := by
  rw [renumber?, mapM_eq_pure (g := fun e => (g e.1).map fun k => (k, e.2)), Option.pure_def,
    Option.map_some, List.reduceOption, List.filterMap_map]
  · rfl
  · intro e he
    rw [h e he]
    rfl

end Sparse

namespace Problem

/-! ## Renumbering -/

/-- The number of one that stays counts those before it that stay. -/
theorem getElem?_numbered (next : ℕ) (keep : List Bool) (k : ℕ) :
    (numbered next keep)[k]? = keep[k]?.map fun stays =>
      if stays then some (next + (keep.take k).countP id) else none := by
  induction keep generalizing next k with
  | nil => rfl
  | cons stays keep ih =>
    cases k with
    | zero => cases stays <;> rfl
    | succ k =>
      cases stays
      · simpa [numbered] using ih next k
      · -- One that stays takes a number, so the count for those behind it starts one later.
        have hnext (c : ℕ) : next + 1 + c = next + (c + 1) := by omega
        simpa [numbered, hnext] using ih (next + 1) k

/-- The flags of the items that stay. -/
theorem keep_eq {n : ℕ} {removed : List ℕ} (h : ∀ k ∈ removed, k < n) :
    removed.foldlM (fun keep k => update? keep k fun _ => false) (List.replicate n true) =
      some ((List.range n).map fun k => !removed.contains k) := by
  let state (done : List ℕ) : List Bool := (List.range n).map fun k => !done.contains k
  have hfirst : List.replicate n true = state [] := by simp [state, List.map_const']
  rw [hfirst]
  refine foldlM_eq_some state fun done k rest hremoved => ?_
  have hk : k < n := h k (by rw [hremoved]; simp)
  rw [update?_map_range hk]
  refine congrArg some (List.map_congr_left fun i _ => ?_)
  split_ifs with hi <;> simp [hi]

/-- The table lists the rank of each item. -/
theorem renumbering?_eq {n : ℕ} {removed : List ℕ} (h : ∀ k ∈ removed, k < n) :
    renumbering? n removed = some ((List.range n).map (rank removed)) := by
  rw [renumbering?, keep_eq h, Option.bind_eq_bind, Option.bind_some]
  refine congrArg some (List.ext_getElem? fun k => ?_)
  rw [getElem?_numbered, List.getElem?_map, List.getElem?_map, Option.map_map]
  cases hk : (List.range n)[k]? with
  | none => rfl
  | some i =>
    obtain ⟨hlt, rfl⟩ := List.getElem?_eq_some_iff.1 hk
    -- What is counted before place `k` are the flags of the indexes below `k`.
    have htake : (List.range n).take k = List.range k := by
      rw [List.take_range, Nat.min_eq_left (by simpa using hlt.le)]
    rw [List.getElem_range, Option.map_some, Option.map_some, Function.comp_apply,
      ← List.map_take, htake, List.countP_map, rank, Nat.zero_add]
    cases removed.contains k <;> rfl

section Deletion

variable {p : Problem} {removed : List ℕ}

/-- Looking an item up in the table of the ranks. -/
theorem getElem?_ranks {n k : ℕ} (h : k < n) :
    ((List.range n).map (rank removed))[k]? = some (rank removed k) := by
  rw [List.getElem?_map, List.getElem?_range h, Option.map_some]

/-- The table of the ranks retains the items that stay. -/
theorem retain?_eq {α : Type} (removed : List ℕ) (xs : List α) :
    retain? ((List.range xs.length).map (rank removed)) xs = some (survivors removed xs) := by
  rw [retain?, mapM_eq_pure (g := fun e => if removed.contains e.2 then none else some e.1),
    Option.pure_def, Option.map_some, List.reduceOption, List.filterMap_map]
  · rfl
  · intro e he
    have hlt : e.2 < xs.length := (List.mem_zipIdx' he).1
    rw [getElem?_ranks hlt, rank]
    cases removed.contains e.2 <;> rfl

/-- Looking up the first index of a pair. -/
theorem lookUpFirst?_ranks {n : ℕ} {k : IndexPair} (h : k.1 < n) :
    lookUpFirst? ((List.range n).map (rank removed)) k =
      some ((rank removed k.1).map fun i => (i, k.2)) := by
  rw [lookUpFirst?, getElem?_ranks h]
  rfl

/-- Looking up both indexes of a pair. -/
theorem lookUpBoth?_ranks {n : ℕ} {k : IndexPair} (h₁ : k.1 < n) (h₂ : k.2 < n) :
    lookUpBoth? ((List.range n).map (rank removed)) k =
      some (do return (← rank removed k.1, ← rank removed k.2)) := by
  rw [lookUpBoth?, getElem?_ranks h₁, getElem?_ranks h₂]
  rfl

/-- Deleting columns of a well-formed problem looks up no index out of range. -/
theorem deleteCols?_eq (h : p.WellFormed) (removed : List ℕ) :
    p.deleteCols? removed = some (p.deleteCols removed) := by
  unfold deleteCols? deleteCols
  split_ifs with hany
  · rfl
  · -- The check that was passed bounds the indexes removed, so the table has all of them.
    have htable := renumbering?_eq fun k hk => lt_of_any_eq_false hany hk
    have hcols := retain?_eq removed p.cols
    have hbyCol := Sparse.renumber?_eq (f := lookUpFirst? _)
      (g := fun k => (rank removed k.1).map fun i => (i, k.2)) fun e he =>
        lookUpFirst?_ranks (h.byCol_lt he).1
    have hquad := Sparse.renumber?_eq (f := lookUpBoth? _)
      (g := fun k => do return (← rank removed k.1, ← rank removed k.2)) fun e he =>
        lookUpBoth?_ranks (h.quad_lt he).1 (h.quad_lt he).2
    rw [numCols] at htable hbyCol hquad
    simp only [numCols, htable, hcols, hbyCol, hquad, Option.bind_eq_bind, Option.bind_some]
    rfl

/-- Deleting rows of a well-formed problem looks up no index out of range. -/
theorem deleteRows?_eq (h : p.WellFormed) (removed : List ℕ) :
    p.deleteRows? removed = some (p.deleteRows removed) := by
  unfold deleteRows? deleteRows
  split_ifs with hany
  · rfl
  · have htable := renumbering?_eq fun k hk => lt_of_any_eq_false hany hk
    have hrows := retain?_eq removed p.rows
    have hbyRow := Sparse.renumber?_eq (f := lookUpFirst? _)
      (g := fun k => (rank removed k.1).map fun i => (i, k.2)) fun e he =>
        lookUpFirst?_ranks (h.byRow_lt he).1
    rw [numRows] at htable hbyRow
    simp only [numRows, htable, hrows, hbyRow, Option.bind_eq_bind, Option.bind_some]
    rfl

end Deletion

/-! ## Fetching lines -/

section Fetching

variable {lines : Sparse Float} {b : LineBuffers} {starts : List ℕ} {slot : ℕ}

/-- The buffers with entries written into them. -/
def written (b : LineBuffers) (starts : List ℕ) (slot : ℕ) (es : List (ℕ × Float)) : Writer where
  buffers := { b with
    starts
    indexes := overwrite (es.map Prod.fst) b.indexes
    values := overwrite (es.map Prod.snd) b.values }
  slot
  pos := es.length

/-- Writing a line adds its entries to those written, if there is room for them. -/
theorem writeEntries?_eq (es line : List (ℕ × Float))
    (hindexes : (es ++ line).length ≤ b.indexes.length)
    (hvalues : (es ++ line).length ≤ b.values.length) :
    line.foldlM writeCell? (written b starts slot es) =
      some (written b starts slot (es ++ line)) := by
  have hfirst : written b starts slot es = written b starts slot (es ++ []) := by
    rw [List.append_nil]
  rw [hfirst]
  refine foldlM_eq_some (fun done => written b starts slot (es ++ done)) fun done e rest hline => ?_
  -- The entry is not the last of the line yet, so there is room for it.
  have hlt : (es ++ done).length < (es ++ line).length := by
    rw [hline]
    simp
  have hindex := update?_overwrite ((es ++ done).map Prod.fst)
    (by simpa using hlt.trans_le hindexes) e.1
  have hvalue := update?_overwrite ((es ++ done).map Prod.snd)
    (by simpa using hlt.trans_le hvalues) e.2
  have hfst : (es ++ done).map Prod.fst ++ [e.1] = (es ++ (done ++ [e])).map Prod.fst := by simp
  have hsnd : (es ++ done).map Prod.snd ++ [e.2] = (es ++ (done ++ [e])).map Prod.snd := by simp
  have hlen : (es ++ done ++ [e]).length = (es ++ done).length + 1 := List.length_append
  rw [List.length_map, hfst] at hindex
  rw [List.length_map, hsnd] at hvalue
  dsimp only [writeCell?, written]
  rw [hindex, hvalue, ← List.append_assoc es done, hlen]
  rfl

/-- Where each of some lines ends, after the start of the first. -/
def lineEnds (fs : List (List (ℕ × Float))) : List ℕ :=
  (List.range (fs.length + 1)).map fun k => (fs.take k).flatten.length

/-- A further line ends where all entries end. -/
theorem lineEnds_append (fs : List (List (ℕ × Float))) (f : List (ℕ × Float)) :
    lineEnds (fs ++ [f]) = lineEnds fs ++ [(fs ++ [f]).flatten.length] := by
  rw [lineEnds, lineEnds, List.length_append, List.length_singleton, List.range_succ,
    List.map_append, List.map_singleton, List.take_of_length_le (by simp)]
  refine congrArg (· ++ _) (List.map_congr_left fun k hk => ?_)
  rw [List.take_append_of_le_length (Nat.lt_succ_iff.1 (List.mem_range.1 hk))]

/-- Writing one line after the other, if there is room for all of them. -/
theorem writeLines?_eq (wanted : List ℕ)
    (hindexes : (wanted.map lines.line).flatten.length ≤ b.indexes.length)
    (hvalues : (wanted.map lines.line).flatten.length ≤ b.values.length)
    (hstarts : wanted.length + 1 ≤ b.starts.length) :
    wanted.foldlM (writeLine? lines) (written b (overwrite [0] b.starts) 1 []) =
      some (written b (overwrite (lineEnds (wanted.map lines.line)) b.starts) (wanted.length + 1)
        (wanted.map lines.line).flatten) := by
  refine foldlM_eq_some (fun done => written b (overwrite (lineEnds (done.map lines.line)) b.starts)
    (done.length + 1) (done.map lines.line).flatten) fun done k rest hwanted => ?_
  -- All lines together have room, and so do those up to this one.
  have hroom : ((done.map lines.line).flatten ++ lines.line k).length ≤
      (wanted.map lines.line).flatten.length := by
    rw [hwanted]
    simp
  have hslot : (lineEnds (done.map lines.line)).length = done.length + 1 := by
    simp [lineEnds]
  have hfree : (lineEnds (done.map lines.line)).length < b.starts.length := by
    have hlt : done.length < wanted.length := by
      rw [hwanted]
      simp
    omega
  have hstart := update?_overwrite _ hfree
    ((done.map lines.line).flatten ++ lines.line k).length
  have hflatten : ((done ++ [k]).map lines.line).flatten =
      (done.map lines.line).flatten ++ lines.line k := by simp
  rw [hslot] at hstart
  dsimp only [writeLine?]
  rw [writeEntries?_eq _ _ (hroom.trans hindexes) (hroom.trans hvalues), Option.bind_eq_bind,
    Option.bind_some]
  dsimp only [written]
  -- The line ends where all entries written so far end.
  have hends : lineEnds ((done ++ [k]).map lines.line) = lineEnds (done.map lines.line) ++
      [((done.map lines.line).flatten ++ lines.line k).length] := by
    rw [List.map_append, List.map_singleton, lineEnds_append, List.flatten_append,
      List.flatten_singleton]
  have hlen : (done ++ [k]).length = done.length + 1 := List.length_append
  rw [hstart, hflatten, hends, hlen]
  rfl

/-- Fetching lines writes nothing out of range. -/
theorem fetchLines?_eq (lines : Sparse Float) (n : ℕ) (invalidIndex : ResultCode)
    (wanted : List ℕ) (b : LineBuffers) :
    fetchLines? lines n invalidIndex wanted b =
      some (fetchLines lines n invalidIndex wanted b) := by
  unfold fetchLines? fetchLines
  dsimp only
  split_ifs with hany hempty hroom
  · rfl
  · rfl
  · rfl
  · simp only [Bool.or_eq_true, decide_eq_true_eq, not_or, Nat.not_lt] at hroom
    obtain ⟨⟨hindexes, hvalues⟩, hstarts⟩ := hroom
    have hfirst : update? b.starts 0 (fun _ => 0) = some (overwrite [0] b.starts) := by
      exact update?_overwrite [] (Nat.lt_of_lt_of_le (Nat.succ_pos _) hstarts) 0
    have hlines := writeLines?_eq
      (b := { b with size := (wanted.map lines.line).flatten.length }) wanted
      hindexes hvalues hstarts
    rw [lineEnds, List.length_map] at hlines
    rw [hfirst, Option.bind_eq_bind, Option.bind_some]
    exact congrArg (Option.bind · fun w => some (ResultCode.okay, w.buffers)) hlines

end Fetching

end Problem

end MathProgram
