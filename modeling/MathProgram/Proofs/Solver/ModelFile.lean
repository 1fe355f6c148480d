import MathProgram.Proofs.Bound
import MathProgram.Proofs.Solver.Marshalling
import MathProgram.Proofs.Solver.Run
import MathProgram.Proofs.TaskFile.Parse
import MathProgram.Proofs.Text.Lossy
import MathProgram.Solver.ModelFile

/-!
# What is made of a file that the solver library has read

The library gives out arrays and names, and `ModelFile` turns them into columns, rows and nonzeros.
The starts of the columns may be anything. Where they tile the nonzeros, every nonzero is read once
(`ModelFile.entries?_eq`, `Compressed.map_snd_triples`).

If what is given out is what is passed for a problem (`RawProgram.Carries`, `GivesName`), the
columns and rows are those of the problem with their bounds clamped, and the nonzeros are its
entries, in an order that does not matter when they are added up (`Matrix.Consistent.addAll_perm`).
-/

namespace MathProgram

/-! ## Names -/

/-- The bytes in an answer that stand for a text: those of the text, which may be followed by a NUL
and anything behind it. -/
def Spells (answer : List UInt8) (s : String) : Prop :=
  answer = Utf8.bytes s ∨ ∃ rest, answer = Utf8.bytes s ++ 0 :: rest

/-- An answer gives a name, or none by a failure or by the empty name. -/
def GivesName (answer : Int32 × List UInt8) : Option String → Prop
  | some name => answer.1 ≠ InstanceId.failure ∧ Spells answer.2 name
  | none => answer.1 = InstanceId.failure ∨ Spells answer.2 ""

/-- A name that can be passed and given out: it is not empty, has no NUL, and is not too long. -/
structure Transmissible (name : String) : Prop where
  nonempty : name ≠ ""
  passable : '\x00' ∉ name.toList
  short : (Utf8.bytes name).length ≤ InstanceId.maxNameLength

/-- A text without a NUL has no byte zero. -/
theorem ne_zero_of_mem_bytes {s : String} (h : '\x00' ∉ s.toList) {b : UInt8}
    (hb : b ∈ Utf8.bytes s) : b ≠ 0 := by
  rw [Utf8.bytes_eq_flatMap, List.mem_flatMap] at hb
  obtain ⟨c, hc, hb⟩ := hb
  rintro rfl
  by_cases hsmall : c.toNat < 128
  · -- A character that is its own byte would be the NUL.
    rw [Utf8.utf8EncodeChar_of_lt hsmall, List.mem_singleton] at hb
    have hzero : c.toNat = 0 := by
      have hnat := congrArg UInt8.toNat hb
      rw [show c.toNat.toUInt8.toNat = c.toNat from
        UInt8.toNat_ofNat_of_lt' (by show c.toNat < 256; omega)] at hnat
      exact hnat.symm
    rw [← Char.ofNat_toNat c, hzero] at hc
    exact h hc
  · exact absurd (Utf8.le_of_mem_utf8EncodeChar (Nat.le_of_not_lt hsmall) hb) (by decide)

/-- The bytes before the first zero. -/
theorem takeWhile_spelled {s : String} (hpassable : '\x00' ∉ s.toList) {answer : List UInt8}
    (h : Spells answer s) {n : ℕ} (hn : (Utf8.bytes s).length ≤ n) :
    (answer.take n).takeWhile (· != 0) = Utf8.bytes s := by
  have hall : ∀ b ∈ Utf8.bytes s, (b != 0) = true := fun b hb =>
    bne_iff_ne.2 (ne_zero_of_mem_bytes hpassable hb)
  obtain rfl | ⟨rest, rfl⟩ := h
  · rw [List.take_of_length_le hn, List.takeWhile_eq_self_iff]
    exact hall
  · rw [List.take_append, List.take_of_length_le hn, List.takeWhile_append_of_pos hall]
    -- What follows is nothing, or begins with the zero.
    cases n - (Utf8.bytes s).length with
    | zero => rw [List.take_zero, List.takeWhile_nil, List.append_nil]
    | succ k => rw [List.take_succ_cons, List.takeWhile_cons, if_neg (by decide), List.append_nil]

/-- The name in an answer is the one that it gives. -/
theorem nameOf_eq {answer : Int32 × List UInt8} {name : Option String}
    (h : GivesName answer name) (hname : ∀ s, name = some s → Transmissible s) :
    InstanceId.nameOf answer = name := by
  obtain ⟨code, answer⟩ := answer
  cases name with
  | none =>
    obtain rfl | hempty := h
    · rfl
    · have hnone : (answer.take (InstanceId.maxNameLength + 1)).takeWhile (· != 0) = [] :=
        takeWhile_spelled List.not_mem_nil hempty (Nat.zero_le _)
      rw [InstanceId.nameOf, hnone, List.isEmpty_nil, Bool.or_true]
      rfl
  | some s =>
    obtain ⟨hcode, hspells⟩ := h
    have hs := hname s rfl
    have hbytes := takeWhile_spelled hs.passable hspells (hs.short.trans (Nat.le_succ _))
    have hne : (Utf8.bytes s).isEmpty = false := by
      rw [List.isEmpty_eq_false_iff]
      intro hnil
      refine hs.nonempty ?_
      rw [← Utf8.lossy_bytes s, hnil]
      exact Utf8.lossy_bytes ""
    rw [InstanceId.nameOf, hbytes, hne, Bool.or_false, if_neg (by simpa using hcode),
      Utf8.lossy_bytes]

/-! ## Nonzeros -/

namespace Compressed

variable {α : Type} {c : Compressed α} {n size : ℕ}

/-- Starts that tile a list cut it into lines that make it up again. -/
theorem flatMap_extract {β : Type} {starts : List ℕ} {xs : List β}
    (h : Tiles starts n xs.length) :
    (List.range n).flatMap (fun k => xs.extract (starts.getD k 0) (starts.getD (k + 1) 0)) =
      xs := by
  have hupto : ∀ k ≤ n, (List.range k).flatMap (fun k =>
      xs.extract (starts.getD k 0) (starts.getD (k + 1) 0)) = xs.take (starts.getD k 0) := by
    intro k
    induction k with
    | zero =>
      intro _
      rw [h.getD_zero, List.take_zero]
      rfl
    | succ k ih =>
      intro hk
      -- The next line begins where those before it end.
      have hle : starts.getD k 0 ≤ starts.getD (k + 1) 0 := h.getD_mono (Nat.le_succ k) hk
      rw [List.range_succ, List.flatMap_append, List.flatMap_singleton,
        ih (Nat.le_of_succ_le hk), List.extract_eq_take_drop, ← List.take_add,
        Nat.add_sub_cancel' hle]
  rw [hupto n le_rfl, h.getD_last, List.take_length]

/-- The lines one after another hold every index and value once. -/
theorem map_snd_triples (h : Tiles c.starts n (c.indexes.zip c.values).length) :
    c.triples.map Prod.snd = c.indexes.zip c.values := by
  have hlines : c.triples.map Prod.snd = (List.range n).flatMap c.line := by
    rw [triples, h.length, Nat.add_sub_cancel, List.map_flatMap]
    refine List.flatMap_congr fun k _ => ?_
    rw [List.map_map]
    exact List.map_id _
  rw [hlines]
  exact flatMap_extract h

end Compressed

/-- A number below `2 ^ 31` is read as it was. -/
theorem indexOfInt32_ofNat {k : ℕ} (h : k < 2 ^ 31) : indexOfInt32 (Int32.ofNat k) = k := by
  have hlimit : indexLimit = 2 ^ 64 := rfl
  rw [indexOfInt32, toInt_ofNat h, hlimit]
  omega

/-- A negative number and one that is not below `m` are read as indexes that are not. -/
theorem le_indexOfInt32 {i : Int32} {m : ℕ} (hm : m < 2 ^ 31) (h : i < 0 ∨ (m : ℤ) ≤ i.toInt) :
    m ≤ indexOfInt32 i := by
  have hlimit : indexLimit = 2 ^ 64 := rfl
  have hlower := Int32.le_toInt i
  have hupper := Int32.toInt_lt i
  rw [indexOfInt32, hlimit]
  obtain hneg | hle := h
  · rw [Int32.lt_iff_toInt_lt, Int32.toInt_zero] at hneg
    omega
  · omega

/-- The arrays of a linear program that was read, with its numbers as indexes. -/
def LinearProgram.asRead (lp : LinearProgram) : Compressed Float :=
  ⟨lp.starts.map indexOfInt32, lp.indexes.map indexOfInt32, lp.values⟩

namespace ModelFile

variable {f : ModelFile} {lp : LinearProgram} {n : ℕ}

/-- A segment that ends inside the nonzeros. -/
theorem segment?_eq {j start stop : ℕ} (h : stop ≤ lp.numNonzeros) :
    segment? lp j start stop =
      some (((lp.asRead.indexes.zip lp.values).extract start stop).map fun (i, v) =>
        (i, j, v)) := by
  rw [segment?, if_neg (Nat.not_lt_of_le h)]
  have hzip : lp.asRead.indexes.zip lp.values =
      (lp.indexes.zip lp.values).map fun e => (indexOfInt32 e.1, e.2) := by
    rw [LinearProgram.asRead, List.zip_map_left]
    rfl
  rw [hzip, List.extract_eq_take_drop, ← List.map_drop, ← List.map_take, List.map_map]
  split_ifs with hle
  · rw [Nat.sub_eq_zero_of_le hle]
    rfl
  · rfl

/-- The starts of columns with those of the next ones. -/
theorem zip_tail_starts {starts : List ℕ} (h : starts.length = n + 1) :
    (starts.zip starts.tail).zipIdx =
      (List.range n).map fun k => ((starts.getD k 0, starts.getD (k + 1) 0), k) := by
  refine List.ext_getElem (by simp [h]) fun k hk hk' => ?_
  have hlt : k < n := by simpa using hk'
  have hfirst : k < starts.length := by omega
  have hsecond : k + 1 < starts.length := by omega
  simp [List.getD_eq_getElem?_getD, hfirst, hsecond]

/-- Where the starts tile the nonzeros, these are read line by line. -/
theorem entries?_eq (h : Tiles f.program.asRead.starts n f.program.numNonzeros) :
    f.entries? = some (f.program.asRead.triples.map fun e => (e.2.1, e.1, e.2.2)) := by
  let starts := f.program.asRead.starts
  have hread (k : ℕ) (hk : k ∈ List.range n) :
      segment? f.program k (starts.getD k 0) (starts.getD (k + 1) 0) =
        some ((f.program.asRead.line k).map fun e => (e.1, k, e.2)) :=
    segment?_eq (h.getD_le (List.mem_range.1 hk))
  have hsegments : (starts.zip starts.tail).zipIdx.mapM
      (fun e => segment? f.program e.2 e.1.1 e.1.2) =
        some ((List.range n).map fun k =>
          (f.program.asRead.line k).map fun e => (e.1, k, e.2)) := by
    rw [zip_tail_starts h.length, List.mapM_map]
    exact mapM_eq_pure hread
  have hlines : f.program.asRead.triples.map (fun e => (e.2.1, e.1, e.2.2)) =
      ((List.range n).map fun k =>
        (f.program.asRead.line k).map fun e => (e.1, k, e.2)).flatten := by
    rw [Compressed.triples, h.length, Nat.add_sub_cancel, List.map_flatMap, List.flatMap_def]
    refine congrArg List.flatten (List.map_congr_left fun k _ => ?_)
    rw [List.map_map]
    rfl
  have hentries : f.entries? = (starts.zip starts.tail).zipIdx.mapM
      (fun e => segment? f.program e.2 e.1.1 e.1.2) >>= fun segments => some segments.flatten := rfl
  rw [hentries, hsegments, hlines]
  rfl

end ModelFile

/-! ## What is received -/

/-- The program made of what the library gives out for `n` columns, `m` rows and `nz` nonzeros. -/
def LinearProgram.received (n m nz : ℕ) (raw : RawProgram) : LinearProgram :=
  let integrality := resized n 0 raw.integrality
  { minSense := raw.sense != -1
    offset := raw.offset
    cost := resized n 0 raw.cost
    lower := resized n 0 raw.lower
    upper := resized n 0 raw.upper
    rowLower := resized m 0 raw.rowLower
    rowUpper := resized m 0 raw.rowUpper
    starts := resized n 0 raw.starts ++ [Int32.ofNat nz]
    indexes := resized nz 0 raw.indexes
    values := resized nz 0 raw.values
    integrality := if integrality.contains integerMark then some integrality else none }

/-- What the library gives out carries the program that it was passed. -/
structure RawProgram.Carries (raw : RawProgram) (lp : LinearProgram) : Prop where
  sense : raw.sense = if lp.minSense then 1 else -1
  offset : raw.offset = lp.offset
  cost : raw.cost = lp.cost
  lower : raw.lower = lp.lower
  upper : raw.upper = lp.upper
  rowLower : raw.rowLower = lp.rowLower
  rowUpper : raw.rowUpper = lp.rowUpper
  /-- The number of nonzeros may be missing behind the starts. -/
  starts : raw.starts.take lp.numCols = lp.starts.take lp.numCols
  indexes : raw.indexes = lp.indexes
  values : raw.values = lp.values
  /-- Without marks the columns are marked as continuous, or not at all. -/
  integrality : resized lp.numCols 0 raw.integrality =
    lp.integrality.getD (List.replicate lp.numCols 0)

namespace Problem

variable {p : Problem} {raw : RawProgram}

/-- The starts of the columns are followed by the number of nonzeros. -/
theorem Represented.starts_eq (h : p.Represented) : (LinearProgram.ofProblem p).starts =
    (LinearProgram.ofProblem p).starts.take p.numCols ++ [Int32.ofNat p.matrix.size] := by
  have hall : p.matrix.byCol.below p.numCols = p.matrix.byCol.entries :=
    Sparse.below_eq fun e he => (h.byCol_lt he).1
  have hstarts : (LinearProgram.ofProblem p).starts =
      ((List.range p.numCols).map fun k => Int32.ofNat (p.matrix.byCol.below k).length) ++
        [Int32.ofNat p.matrix.size] := by
    rw [LinearProgram.ofProblem, colMajor, Sparse.starts_compressed, List.map_map,
      List.range_succ, List.map_append, List.map_singleton, Function.comp_apply, hall]
    rfl
  rw [hstarts, List.take_left' (by rw [List.length_map, List.length_range])]

/-- There is one start more than there are columns. -/
theorem length_starts (p : Problem) :
    (LinearProgram.ofProblem p).starts.length = p.numCols + 1 := by
  rw [LinearProgram.ofProblem, colMajor, Sparse.starts_compressed, List.length_map, List.length_map,
    List.length_range]

/-- The marks of integer columns show whether there are any. -/
theorem contains_integrality (p : Problem) :
    (let marks := (LinearProgram.ofProblem p).integrality.getD (List.replicate p.numCols 0)
    if marks.contains LinearProgram.integerMark then some marks else none) =
      (LinearProgram.ofProblem p).integrality := by
  unfold LinearProgram.ofProblem hasIntegers
  dsimp only
  cases hany : p.cols.any (·.isInteger) with
  | false =>
    rw [if_neg Bool.false_ne_true, Option.getD_none, if_neg]
    simp [List.mem_replicate, LinearProgram.integerMark]
  | true =>
    obtain ⟨c, hc, hinteger⟩ := List.any_eq_true.1 hany
    rw [if_pos rfl, Option.getD_some, if_pos]
    rw [List.contains_iff_mem, List.mem_map]
    exact ⟨c, hc, if_pos hinteger⟩

/-- What is received of a program that was passed is that program. -/
theorem Represented.received (h : p.Represented) (hraw : raw.Carries (.ofProblem p)) :
    LinearProgram.received p.numCols p.numRows p.matrix.size raw = .ofProblem p := by
  have hnumCols : (LinearProgram.ofProblem p).numCols = p.numCols := List.length_map ..
  have hstarts : resized p.numCols 0 raw.starts ++ [Int32.ofNat p.matrix.size] =
      (LinearProgram.ofProblem p).starts := by
    have htake := hraw.starts
    rw [hnumCols] at htake
    have hlength : p.numCols ≤ raw.starts.length := by
      have hlengths := congrArg List.length htake
      rw [List.length_take, List.length_take, length_starts] at hlengths
      omega
    rw [resized, htake, Nat.sub_eq_zero_of_le hlength, List.replicate_zero, List.append_nil,
      ← h.starts_eq]
  have hmarks := hraw.integrality
  rw [hnumCols] at hmarks
  have hsense : (raw.sense != -1) = p.minSense := by
    rw [hraw.sense]
    show ((if p.minSense then 1 else -1 : Int32) != -1) = p.minSense
    cases p.minSense <;> rfl
  -- The other lists have as many items as there are columns, rows or nonzeros.
  have hkeep {α β : Type} {fill : α} {xs : List α} {ys : List β} {f : β → α}
      (hxs : xs = ys.map f) : resized ys.length fill xs = ys.map f := by
    rw [hxs, resized_of_length (List.length_map ..)]
  have hcost : resized p.numCols 0 raw.cost = _ := hkeep hraw.cost
  have hlower : resized p.numCols 0 raw.lower = _ := hkeep hraw.lower
  have hupper : resized p.numCols 0 raw.upper = _ := hkeep hraw.upper
  have hrowLower : resized p.numRows 0 raw.rowLower = _ := hkeep hraw.rowLower
  have hrowUpper : resized p.numRows 0 raw.rowUpper = _ := hkeep hraw.rowUpper
  have hindexes : resized p.matrix.size 0 raw.indexes = (LinearProgram.ofProblem p).indexes := by
    rw [hraw.indexes, resized_of_length]
    rw [LinearProgram.ofProblem, List.length_map]
    exact List.length_map ..
  have hvalues : resized p.matrix.size 0 raw.values = _ := hkeep hraw.values
  rw [LinearProgram.received, hstarts, hmarks, contains_integrality, hsense, hraw.offset, hcost,
    hlower, hupper, hrowLower, hrowUpper, hindexes, hvalues]
  rfl

/-- Small numbers are read as they were. -/
theorem asRead_ofProblem (h : p.Represented) (hrows : p.numRows < 2 ^ 31)
    (hsize : p.matrix.size < 2 ^ 31) : (LinearProgram.ofProblem p).asRead = p.colMajor := by
  have hkeep {ks : List ℕ} (hks : ∀ k ∈ ks, k < 2 ^ 31) :
      (ks.map Int32.ofNat).map indexOfInt32 = ks := by
    rw [List.map_map]
    exact (List.map_congr_left fun k hk => indexOfInt32_ofNat (hks k hk)).trans (List.map_id ks)
  have hstarts : ∀ k ∈ p.colMajor.starts, k < 2 ^ 31 := by
    intro k hk
    rw [colMajor, Sparse.starts_compressed] at hk
    obtain ⟨l, -, rfl⟩ := List.mem_map.1 hk
    exact (List.length_filter_le ..).trans_lt hsize
  have hindexes : ∀ i ∈ p.colMajor.indexes, i < 2 ^ 31 := by
    intro i hi
    obtain ⟨e, he, rfl⟩ := List.mem_map.1 hi
    exact (h.byCol_lt he).2.trans hrows
  show Compressed.mk ((p.colMajor.starts.map Int32.ofNat).map indexOfInt32)
    ((p.colMajor.indexes.map Int32.ofNat).map indexOfInt32) p.colMajor.values = p.colMajor
  rw [hkeep hstarts, hkeep hindexes]

/-- The columns made of the program and the names of a problem. -/
theorem cols_received (p : Problem) :
    ModelFile.cols ⟨.ofProblem p, p.cols.map (·.name), p.rows.map (·.name)⟩ =
      p.cols.map ColData.clamped := by
  have hmarks : (LinearProgram.ofProblem p).integrality.getD
      (List.replicate (LinearProgram.ofProblem p).numCols 0) =
        p.cols.map fun c => if c.isInteger then LinearProgram.integerMark else 0 := by
    show (if p.hasIntegers then some _ else none : Option (List Int32)).getD
      (List.replicate (p.cols.map (·.obj)).length 0) = _
    cases hany : p.hasIntegers with
    | true => rfl
    | false =>
      have hnone : ∀ c ∈ p.cols, c.isInteger = false := by
        simpa [hasIntegers] using hany
      rw [if_neg Bool.false_ne_true, Option.getD_none, List.length_map, ← List.map_const']
      refine List.map_congr_left fun c hc => ?_
      rw [hnone c hc]
      rfl
  have hcols : ModelFile.cols ⟨.ofProblem p, p.cols.map (·.name), p.rows.map (·.name)⟩ =
      ((p.cols.map (·.obj)).zip ((p.cols.map fun c => toIeeeBound c.lb).zip
        ((p.cols.map fun c => toIeeeBound c.ub).zip
          (((LinearProgram.ofProblem p).integrality.getD
            (List.replicate (LinearProgram.ofProblem p).numCols 0)).zip
              (p.cols.map (·.name)))))).map fun e =>
        { lb := fromIeeeBound e.2.1
          ub := fromIeeeBound e.2.2.1
          obj := e.1
          isInteger := e.2.2.2.1 == LinearProgram.integerMark
          name := e.2.2.2.2 } := rfl
  rw [hcols, hmarks, List.zip_map', List.zip_map', List.zip_map', List.zip_map', List.map_map]
  refine List.map_congr_left fun c _ => ?_
  have hmark : ((if c.isInteger then LinearProgram.integerMark else 0) ==
      LinearProgram.integerMark) = c.isInteger := by
    cases c.isInteger <;> rfl
  simp only [Function.comp_apply, fromIeeeBound_toIeeeBound, hmark, ColData.clamped]

/-- The rows made of the program and the names of a problem. -/
theorem rows_received (p : Problem) :
    ModelFile.rows ⟨.ofProblem p, p.cols.map (·.name), p.rows.map (·.name)⟩ =
      p.rows.map RowData.clamped := by
  have hrows : ModelFile.rows ⟨.ofProblem p, p.cols.map (·.name), p.rows.map (·.name)⟩ =
      ((p.rows.map fun r => toIeeeBound r.lhs).zip ((p.rows.map fun r => toIeeeBound r.rhs).zip
        (p.rows.map (·.name)))).map fun e =>
          { lhs := fromIeeeBound e.1, rhs := fromIeeeBound e.2.1, name := e.2.2 } := rfl
  rw [hrows, List.zip_map', List.zip_map', List.map_map]
  refine List.map_congr_left fun r _ => ?_
  simp only [Function.comp_apply, fromIeeeBound_toIeeeBound, RowData.clamped]

/-- What is made of the program and the names of a problem, put in place, is that problem with its
bounds clamped and without its quadratic form. -/
theorem WellFormed.replaceData_received (h : p.WellFormed) (hrows : p.numRows < 2 ^ 31)
    (hsize : p.matrix.size < 2 ^ 31) (q : Problem) :
    let f : ModelFile := ⟨.ofProblem p, p.cols.map (·.name), p.rows.map (·.name)⟩
    ∃ entries, f.entries? = some entries ∧ q.replaceData f.cols f.rows entries [] = .ok
      { q with
        cols := p.cols.map ColData.clamped
        rows := p.rows.map RowData.clamped
        matrix := p.matrix
        quad := .empty } := by
  intro f
  have hread : f.program.asRead = p.colMajor := asRead_ofProblem h.represented hrows hsize
  have hinside : ∀ e ∈ p.matrix.byCol.entries, e.1.1 < p.numCols := fun e he =>
    (h.represented.byCol_lt he).1
  have htiles : Tiles f.program.asRead.starts p.numCols f.program.numNonzeros := by
    have hsize : f.program.numNonzeros = p.matrix.size := List.length_map ..
    rw [hread, hsize]
    exact Sparse.tiles_compressed hinside
  have hcols : f.cols = p.cols.map ColData.clamped := cols_received p
  have hrowsEq : f.rows = p.rows.map RowData.clamped := rows_received p
  refine ⟨_, ModelFile.entries?_eq htiles, ?_⟩
  have hperm := h.represented.byCol_perm_entries
  rw [hread, colMajor, Sparse.triples_compressed hinside, hcols, hrowsEq, replaceData, if_neg,
    h.matrix.addAll_perm hperm]
  · rfl
  · -- The positions are inside, so the check of the ranges passes.
    simp only [Bool.or_eq_true, List.any_eq_true, decide_eq_true_eq, not_or, not_exists, not_and,
      Nat.not_le, List.length_map]
    refine ⟨fun e he => ?_, fun e he => absurd he List.not_mem_nil⟩
    obtain ⟨e', he', rfl⟩ := List.mem_map.1 (hperm.mem_iff.1 he)
    exact h.byRow_lt he'

end Problem

/-- Where the starts tile the nonzeros, an index that is not below the number of rows is found, and
nothing is put in place. -/
theorem ModelFile.replaceData_misplaced {f : ModelFile} {n : ℕ} {i : Int32}
    (htiles : Tiles f.program.asRead.starts n f.program.numNonzeros)
    (hlength : f.program.indexes.length = f.program.numNonzeros) (hi : i ∈ f.program.indexes)
    (hmisplaced : f.rows.length ≤ indexOfInt32 i) (q : Problem) :
    ∃ entries, f.entries? = some entries ∧
      q.replaceData f.cols f.rows entries [] = .error .modelInputError := by
  refine ⟨_, entries?_eq htiles, ?_⟩
  have hzip : (f.program.asRead.indexes.zip f.program.asRead.values).length =
      f.program.numNonzeros := by
    rw [List.length_zip, LinearProgram.asRead, List.length_map, hlength]
    exact min_self _
  -- The index stands somewhere among the nonzeros that are read.
  have hmem : indexOfInt32 i ∈
      (f.program.asRead.indexes.zip f.program.asRead.values).map Prod.fst := by
    rw [List.map_fst_zip]
    · exact List.mem_map_of_mem hi
    · rw [LinearProgram.asRead, List.length_map, hlength]
      exact le_rfl
  rw [← Compressed.map_snd_triples (hzip ▸ htiles), List.map_map] at hmem
  obtain ⟨e, he, hindex⟩ := List.mem_map.1 hmem
  rw [Problem.replaceData, if_pos]
  rw [Bool.or_eq_true, List.any_eq_true]
  refine .inl ⟨_, List.mem_map_of_mem he, ?_⟩
  rw [← hindex] at hmisplaced
  exact Bool.or_eq_true_iff.2 (.inl (decide_eq_true hmisplaced))

end MathProgram
