import MathProgram.Proofs.Compressed
import MathProgram.Proofs.Indexing

/-!
# Fetching lines in two calls

Columns or rows are fetched by their numbers, in any order and any of them repeatedly. A call
without places for the starts tells how many entries they have (`fetch_of_no_starts`). A call with
buffers that are long enough writes the lines one after another, and the buffers beyond them stay
(`Fetched`, `fetch_of_fits`). Where a buffer is too short, or a number is out of range, no buffer
changes (`fetch_of_short`, `fetch_of_out_of_range`).

All lines are written as one list, and the starts are the lengths of its parts. So what lies between
two starts is one line again, because it is cut out of the list where it was put in
(`extract_flatten_append`). `two_phase_fetch` puts the four cases together.
-/

namespace MathProgram

/-! ## Lists one after another -/

section Lists

variable {α : Type} {buffer xs : List α}

/-- One list is cut out of a concatenation by the lengths of those before it and up to it. -/
theorem extract_flatten_append (xss : List (List α)) (rest : List α) {i : ℕ} (hi : i < xss.length) :
    (xss.flatten ++ rest).extract (xss.take i).flatten.length (xss.take (i + 1)).flatten.length =
      xss[i] := by
  have htake : (xss.take (i + 1)).flatten = (xss.take i).flatten ++ xss[i] := by
    rw [List.take_succ_eq_append_getElem hi, List.flatten_append, List.flatten_singleton]
  have hsplit : xss.flatten ++ rest =
      (xss.take (i + 1)).flatten ++ ((xss.drop (i + 1)).flatten ++ rest) := by
    rw [← List.append_assoc, ← List.flatten_append, List.take_append_drop]
  have hlength : (xss.take (i + 1)).flatten.length - (xss.take i).flatten.length =
      xss[i].length := by
    rw [htake, List.length_append]
    omega
  calc (xss.flatten ++ rest).extract (xss.take i).flatten.length (xss.take (i + 1)).flatten.length
      = ((xss.flatten ++ rest).drop (xss.take i).flatten.length).take xss[i].length := by
        rw [List.extract_eq_take_drop, hlength]
    _ = (xss[i] ++ ((xss.drop (i + 1)).flatten ++ rest)).take xss[i].length := by
        rw [hsplit, htake, List.append_assoc, List.drop_left]
    _ = xss[i] := List.take_left

/-- A buffer keeps its length when its front is replaced. -/
theorem length_overwrite (h : xs.length ≤ buffer.length) :
    (overwrite xs buffer).length = buffer.length := by
  unfold overwrite
  rw [List.length_append, List.length_drop]
  omega

/-- A buffer keeps what lies beyond the front that is replaced. -/
theorem drop_overwrite (xs buffer : List α) :
    (overwrite xs buffer).drop xs.length = buffer.drop xs.length := List.drop_left

/-- The front of a buffer is what it was replaced by. -/
theorem getElem?_overwrite {i : ℕ} (h : i < xs.length) : (overwrite xs buffer)[i]? = xs[i]? :=
  List.getElem?_append_left h

end Lists

/-- A line has as many entries as the map has in it. -/
theorem Sparse.length_line {α : Type} (m : Sparse α) (i : ℕ) :
    (m.line i).length = m.entries.countP (·.1.1 = i) := by
  rw [line_eq_map_on, List.length_map, on, List.countP_eq_length_filter]

/-- The code for the number of a column or a row that is out of range. -/
def Kind.invalidIndex : Kind → ResultCode
  | .variable => .modelInvalidColIdx
  | .constraint => .modelInvalidRowIdx

/-! ## Lines in buffers -/

namespace LineBuffers

/-- The indexes and values that lie between two starts. -/
def line (b : LineBuffers) (i : ℕ) : List (ℕ × Float) :=
  Compressed.line ⟨b.starts, b.indexes, b.values⟩ i

/-- The buffers have places for the starts of some lines and for some entries. -/
def Fits (b : LineBuffers) (lines entries : ℕ) : Prop :=
  lines + 1 ≤ b.starts.length ∧ entries ≤ b.indexes.length ∧ entries ≤ b.values.length

/-- The buffers with lines written into them. -/
def filled (b : LineBuffers) (fs : List (List (ℕ × Float))) : LineBuffers where
  size := fs.flatten.length
  starts := overwrite (Problem.lineEnds fs) b.starts
  indexes := overwrite (fs.flatten.map (·.1)) b.indexes
  values := overwrite (fs.flatten.map (·.2)) b.values

variable {b : LineBuffers} {fs : List (List (ℕ × Float))} {i : ℕ}

/-- A line starts behind the entries of those before it. -/
theorem getElem?_starts_filled (hi : i ≤ fs.length) :
    (b.filled fs).starts[i]? = some (fs.take i).flatten.length := by
  have hlt : i < fs.length + 1 := by omega
  have hin : i < (Problem.lineEnds fs).length := by simpa [Problem.lineEnds] using hlt
  unfold filled
  dsimp only
  rw [getElem?_overwrite hin, Problem.lineEnds, List.getElem?_map, List.getElem?_range hlt,
    Option.map_some]

/-- Each line lies between its start and the next one. -/
theorem line_filled (hi : i < fs.length) : (b.filled fs).line i = fs[i] := by
  have hzip : (fs.flatten.map (·.1)).zip (fs.flatten.map (·.2)) = fs.flatten := by
    rw [List.zip_map', List.map_id']
  have hlength : (fs.flatten.map (·.1)).length = (fs.flatten.map (·.2)).length := by
    rw [List.length_map, List.length_map]
  unfold line Compressed.line
  dsimp only
  rw [List.getD_eq_getElem?_getD, List.getD_eq_getElem?_getD, getElem?_starts_filled hi.le,
    getElem?_starts_filled hi, Option.getD_some, Option.getD_some]
  unfold filled overwrite
  dsimp only
  rw [List.zip_append hlength, hzip, extract_flatten_append fs _ hi]

end LineBuffers

namespace Problem

variable {p : Problem} {k : Kind} {wanted : List ℕ} {b b' : LineBuffers}

/-- Fetches columns or rows. -/
def fetch (p : Problem) : Kind → List ℕ → LineBuffers → ResultCode × LineBuffers
  | .variable => p.fetchCols
  | .constraint => p.fetchRows

/-- How many entries columns or rows have together, each as often as it is named. -/
def numStored (p : Problem) (k : Kind) (wanted : List ℕ) : ℕ :=
  (wanted.map fun l => (p.lines k).entries.countP (·.1.1 = l)).sum

/-! ## The lines in the buffers -/

/-- Buffers hold columns or rows, and beyond them what they held before. -/
structure Fetched (p : Problem) (k : Kind) (wanted : List ℕ) (b b' : LineBuffers) : Prop where
  size : b'.size = p.numStored k wanted
  first : b'.starts[0]? = some 0
  last : b'.starts[wanted.length]? = some b'.size
  /-- A line starts behind the entries of those before it. -/
  starts : ∀ i ≤ wanted.length, b'.starts[i]? = some (p.numStored k (wanted.take i))
  increasing : ∀ i < wanted.length, (b'.line i).Pairwise fun e f => e.1 < f.1
  entries : ∀ i l, wanted[i]? = some l → ∀ j v,
    (j, v) ∈ b'.line i ↔ (p.lines k).get? (l, j) = some v
  /-- The buffers are as long as before. -/
  lengths : b'.starts.length = b.starts.length ∧ b'.indexes.length = b.indexes.length ∧
    b'.values.length = b.values.length
  startsBeyond : b'.starts.drop (wanted.length + 1) = b.starts.drop (wanted.length + 1)
  indexesBeyond : b'.indexes.drop b'.size = b.indexes.drop b'.size
  valuesBeyond : b'.values.drop b'.size = b.values.drop b'.size

/-- The lines one after another have the entries of all. -/
theorem length_flatten_lines (p : Problem) (k : Kind) (wanted : List ℕ) :
    (wanted.map (p.lines k).line).flatten.length = p.numStored k wanted := by
  rw [List.length_flatten, List.map_map, numStored]
  refine congrArg List.sum (List.map_congr_left fun l _ => ?_)
  exact Sparse.length_line _ l

/-- Fetching columns or rows is fetching lines of the copy that lists them. -/
theorem fetch_eq (p : Problem) (k : Kind) (wanted : List ℕ) (b : LineBuffers) :
    p.fetch k wanted b = fetchLines (p.lines k) (p.count k) k.invalidIndex wanted b := by
  cases k <;> rfl

/-- Buffers that are long enough hold the lines written into them. -/
theorem fetched_filled (h : b.Fits wanted.length (p.numStored k wanted)) :
    Fetched p k wanted b (b.filled (wanted.map (p.lines k).line)) := by
  obtain ⟨hstarts, hindexes, hvalues⟩ := h
  have hsize : (wanted.map (p.lines k).line).flatten.length = p.numStored k wanted :=
    length_flatten_lines p k wanted
  have hends : (lineEnds (wanted.map (p.lines k).line)).length = wanted.length + 1 := by
    simp [lineEnds]
  have hstored (i : ℕ) (hi : i ≤ wanted.length) :
      (b.filled (wanted.map (p.lines k).line)).starts[i]? =
        some (p.numStored k (wanted.take i)) := by
    rw [LineBuffers.getElem?_starts_filled (by rwa [List.length_map]), ← List.map_take,
      length_flatten_lines]
  have hline (i : ℕ) (hi : i < wanted.length) :
      (b.filled (wanted.map (p.lines k).line)).line i = (p.lines k).line wanted[i] := by
    rw [LineBuffers.line_filled (by rwa [List.length_map]), List.getElem_map]
  have hindexesLength : ((wanted.map (p.lines k).line).flatten.map (·.1)).length ≤
      b.indexes.length := by rwa [List.length_map, hsize]
  have hvaluesLength : ((wanted.map (p.lines k).line).flatten.map (·.2)).length ≤
      b.values.length := by rwa [List.length_map, hsize]
  constructor
  case size => exact hsize
  case first => exact hstored 0 (Nat.zero_le _)
  case last =>
    have hall := hstored wanted.length le_rfl
    rwa [List.take_length, ← hsize] at hall
  case starts => exact hstored
  case increasing =>
    intro i hi
    rw [hline i hi]
    exact Sparse.pairwise_line _ _
  case entries =>
    intro i l hl j v
    obtain ⟨hi, rfl⟩ := List.getElem?_eq_some_iff.1 hl
    rw [hline i hi, Sparse.mem_line]
  case lengths =>
    refine ⟨length_overwrite ?_, length_overwrite hindexesLength, length_overwrite hvaluesLength⟩
    omega
  case startsBeyond =>
    rw [← hends]
    exact drop_overwrite _ _
  case indexesBeyond =>
    have hdrop := drop_overwrite ((wanted.map (p.lines k).line).flatten.map (·.1)) b.indexes
    rwa [List.length_map] at hdrop
  case valuesBeyond =>
    have hdrop := drop_overwrite ((wanted.map (p.lines k).line).flatten.map (·.2)) b.values
    rwa [List.length_map] at hdrop

/-! ## The calls -/

/-- Without places for starts only the size is told. -/
theorem fetch_of_no_starts (hwanted : ∀ l ∈ wanted, l < p.count k) (hb : b.starts = []) :
    p.fetch k wanted b = (.okay, { b with size := p.numStored k wanted }) := by
  have hany : ¬wanted.any (p.count k ≤ ·) = true := not_any_of_lt hwanted
  rw [fetch_eq, fetchLines, if_neg hany]
  dsimp only
  rw [hb, length_flatten_lines]
  rfl

/-- With buffers that are long enough the lines are written. -/
theorem fetch_of_fits (hwanted : ∀ l ∈ wanted, l < p.count k)
    (hfits : b.Fits wanted.length (p.numStored k wanted)) :
    ∃ b', p.fetch k wanted b = (.okay, b') ∧ Fetched p k wanted b b' := by
  have hany : ¬wanted.any (p.count k ≤ ·) = true := not_any_of_lt hwanted
  refine ⟨_, ?_, fetched_filled hfits⟩
  obtain ⟨hstarts, hindexes, hvalues⟩ := hfits
  have hempty : ¬b.starts.isEmpty = true := by
    intro hnil
    rw [List.isEmpty_iff.1 hnil] at hstarts
    exact absurd hstarts (by simp)
  have hlength := length_flatten_lines p k wanted
  rw [fetch_eq, fetchLines, if_neg hany]
  dsimp only
  rw [if_neg hempty, if_neg]
  · rw [LineBuffers.filled, lineEnds, List.length_map]
  · simp only [Bool.or_eq_true, decide_eq_true_eq, hlength]
    omega

/-- Where there are places for starts but a buffer is too short, only the size is told. -/
theorem fetch_of_short (hwanted : ∀ l ∈ wanted, l < p.count k) (hb : b.starts ≠ [])
    (hshort : ¬b.Fits wanted.length (p.numStored k wanted)) :
    p.fetch k wanted b = (.modelInputError, { b with size := p.numStored k wanted }) := by
  have hany : ¬wanted.any (p.count k ≤ ·) = true := not_any_of_lt hwanted
  have hempty : ¬b.starts.isEmpty = true := by simpa using hb
  have hlength := length_flatten_lines p k wanted
  unfold LineBuffers.Fits at hshort
  rw [fetch_eq, fetchLines, if_neg hany]
  dsimp only
  rw [if_neg hempty, if_pos, hlength]
  simp only [Bool.or_eq_true, decide_eq_true_eq, hlength]
  omega

/-- A number out of range is an error, and nothing changes. -/
theorem fetch_of_out_of_range (h : ∃ l ∈ wanted, p.count k ≤ l) :
    p.fetch k wanted b = (k.invalidIndex, b) := by
  have hany : wanted.any (p.count k ≤ ·) = true := by simpa using h
  rw [fetch_eq, fetchLines, if_pos hany]

/-- Columns or rows are fetched in two calls. Without places for starts a call tells the number of
entries. With buffers that are long enough it writes the lines and where they start, and leaves what
lies beyond them. With a buffer that is too short it is an error and no buffer changes, and with a
number out of range the size is not even told. Written entry by entry, with one place counted up
over all lines, it comes to the same. -/
theorem two_phase_fetch (p : Problem) (k : Kind) (wanted : List ℕ) (b : LineBuffers) :
    ((∀ l ∈ wanted, l < p.count k) →
      (b.starts = [] → p.fetch k wanted b = (.okay, { b with size := p.numStored k wanted })) ∧
      (b.Fits wanted.length (p.numStored k wanted) →
        ∃ b', p.fetch k wanted b = (.okay, b') ∧ Fetched p k wanted b b') ∧
      (b.starts ≠ [] → ¬b.Fits wanted.length (p.numStored k wanted) →
        p.fetch k wanted b = (.modelInputError, { b with size := p.numStored k wanted }))) ∧
    ((∃ l ∈ wanted, p.count k ≤ l) → p.fetch k wanted b = (k.invalidIndex, b)) ∧
    fetchLines? (p.lines k) (p.count k) k.invalidIndex wanted b = some (p.fetch k wanted b) := by
  refine ⟨fun hwanted => ⟨?_, ?_, ?_⟩, fetch_of_out_of_range, ?_⟩
  · exact fetch_of_no_starts hwanted
  · exact fetch_of_fits hwanted
  · exact fetch_of_short hwanted
  · rw [fetch_eq, fetchLines?_eq]

/-- Three columns over two rows, of which the last one has two entries. -/
def threeColumns : Problem :=
  { empty "three" with
    cols := [⟨0, 1, 1, false, none⟩, ⟨0, 1, 1, false, none⟩, ⟨0, 1, 1, true, none⟩]
    rows := [⟨0, 1, none⟩, ⟨0, 1, none⟩]
    matrix :=
      { byCol := ⟨[((0, 0), 1), ((1, 1), 3), ((2, 0), 2), ((2, 1), 4)],
          by simp [Sparse.Sorted, IndexPair.Before]⟩
        byRow := ⟨[((0, 0), 1), ((0, 2), 2), ((1, 1), 3), ((1, 2), 4)],
          by simp [Sparse.Sorted, IndexPair.Before]⟩ } }

/-- The last column is fetched twice, with the first one between. -/
theorem two_phase_fetch_repeated :
    let wanted := [2, 0, 2]
    let b : LineBuffers := ⟨5, [9, 9, 9, 9, 9], [9, 9, 9, 9, 9, 9], [9, 9, 9, 9, 9, 9]⟩
    (∀ l ∈ wanted, l < threeColumns.count .variable) ∧
      threeColumns.fetch .variable wanted ⟨0, [], [], []⟩ = (.okay, ⟨5, [], [], []⟩) ∧
      b.Fits wanted.length (threeColumns.numStored .variable wanted) ∧
      (∃ b', threeColumns.fetch .variable wanted b = (.okay, b') ∧
        Fetched threeColumns .variable wanted b b') ∧
      threeColumns.fetch .variable wanted ⟨0, [9], [], []⟩ =
        (.modelInputError, ⟨5, [9], [], []⟩) ∧
      3 ∈ [0, 3] ∧ threeColumns.fetch .variable [0, 3] b = (.modelInvalidColIdx, b) := by
  intro wanted b
  have hwanted : ∀ l ∈ wanted, l < threeColumns.count .variable := by decide
  have hfits : b.Fits wanted.length (threeColumns.numStored .variable wanted) := by
    unfold LineBuffers.Fits
    decide
  obtain ⟨hsize, -, -⟩ := (two_phase_fetch threeColumns .variable wanted ⟨0, [], [], []⟩).1 hwanted
  obtain ⟨-, hfetch, -⟩ := (two_phase_fetch threeColumns .variable wanted b).1 hwanted
  obtain ⟨-, -, hshort⟩ :=
    (two_phase_fetch threeColumns .variable wanted ⟨0, [9], [], []⟩).1 hwanted
  refine ⟨hwanted, hsize rfl, hfits, hfetch hfits, hshort ?_ ?_, ?_, ?_⟩
  · decide
  · unfold LineBuffers.Fits
    decide
  · decide
  · exact (two_phase_fetch threeColumns .variable [0, 3] b).2.1 ⟨3, by decide, by decide⟩

end Problem

end MathProgram
