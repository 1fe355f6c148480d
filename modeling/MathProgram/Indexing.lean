import MathProgram.Problem

/-!
# Operations by index

The operations of a problem give their results as a whole. Here those that work on lists by index
are spelled out as they run: `update?` and `xs[k]?` are an access that fails where the index is out
of range, and a function whose name ends in `?` is the operation as a sequence of such accesses.
-/

namespace MathProgram

/-- Changes the item at an index that has to be in range. -/
def update? {α : Type} (xs : List α) (k : Nat) (f : α → α) : Option (List α) :=
  if k < xs.length then some (xs.modify k f) else none

/-! ## Compressed form -/

/-- The first `n` lines of a map in compressed form, by counting: the entries of each line are
counted one place further on, and the counts are added up in place. -/
def Sparse.compressed? {α : Type} (m : Sparse α) (n : Nat) : Option (Compressed α) := do
  let counts ← m.entries.foldlM (fun starts e => update? starts (e.1.1 + 1) (· + 1))
    (List.replicate (n + 1) 0)
  let starts ← (List.range n).foldlM (fun starts j => do
    let before ← starts[j]?
    update? starts (j + 1) (· + before)) counts
  return ⟨starts, m.entries.map (·.1.2), m.entries.map (·.2)⟩

/-- The map with the keys changed by `f`, which fails where a key cannot be looked up. -/
def Sparse.renumber? {α : Type} (m : Sparse α) (f : IndexPair → Option (Option IndexPair)) :
    Option (Sparse α) :=
  (m.entries.mapM fun e => (f e.1).map fun k => k.map fun k => (k, e.2)).map fun es =>
    ofList es.reduceOption

namespace Problem

/-! ## Renumbering -/

/-- Numbers those that stay, from the number `next` on. -/
def numbered (next : Nat) : List Bool → List (Option Nat)
  | [] => []
  | true :: keep => some next :: numbered (next + 1) keep
  | false :: keep => none :: numbered next keep

/-- The table of the new numbers of `n` items once some are removed. -/
def renumbering? (n : Nat) (removed : List Nat) : Option (List (Option Nat)) := do
  let keep ← removed.foldlM (fun keep k => update? keep k fun _ => false) (List.replicate n true)
  return numbered 0 keep

/-- The items that a table of new numbers gives one. -/
def retain? {α : Type} (table : List (Option Nat)) (xs : List α) : Option (List α) :=
  (xs.zipIdx.mapM fun e => (table[e.2]?).map fun k => k.map fun _ => e.1).map
    List.reduceOption

/-- A pair with its first index looked up in a table of new numbers. -/
def lookUpFirst? (table : List (Option Nat)) (k : IndexPair) : Option (Option IndexPair) := do
  let first ← table[k.1]?
  return first.map fun i => (i, k.2)

/-- A pair with both indexes looked up in a table of new numbers. -/
def lookUpBoth? (table : List (Option Nat)) (k : IndexPair) : Option (Option IndexPair) := do
  let first ← table[k.1]?
  let second ← table[k.2]?
  return do return (← first, ← second)

/-- Deletes columns as `deleteCols` does, with the new numbers looked up in a table. -/
def deleteCols? (p : Problem) (removed : List Nat) : Option (Except ResultCode Problem) :=
  if removed.any (p.numCols ≤ ·) then some (.error .modelInvalidColIdx)
  else do
    let table ← renumbering? p.numCols removed
    let cols ← retain? table p.cols
    let byCol ← p.matrix.byCol.renumber? (lookUpFirst? table)
    let quad ← p.quad.renumber? (lookUpBoth? table)
    return .ok { p with cols, matrix := ⟨byCol, byCol.transpose⟩, quad }

/-- Deletes rows as `deleteRows` does, with the new numbers looked up in a table. -/
def deleteRows? (p : Problem) (removed : List Nat) : Option (Except ResultCode Problem) :=
  if removed.any (p.numRows ≤ ·) then some (.error .modelInvalidRowIdx)
  else do
    let table ← renumbering? p.numRows removed
    let rows ← retain? table p.rows
    let byRow ← p.matrix.byRow.renumber? (lookUpFirst? table)
    return .ok { p with rows, matrix := ⟨byRow.transpose, byRow⟩ }

/-! ## Fetching lines -/

/-- Buffers that lines are being written into. -/
structure Writer where
  buffers : LineBuffers
  /-- The place of the next start. -/
  slot : Nat
  /-- The place of the next entry. -/
  pos : Nat

/-- Writes an entry of a line. -/
def writeCell? (w : Writer) (e : Nat × Float) : Option Writer := do
  let indexes ← update? w.buffers.indexes w.pos fun _ => e.1
  let values ← update? w.buffers.values w.pos fun _ => e.2
  return { w with buffers := { w.buffers with indexes, values }, pos := w.pos + 1 }

/-- Writes a line, and where the next one starts. -/
def writeLine? (lines : Sparse Float) (w : Writer) (k : Nat) : Option Writer := do
  let w ← (lines.line k).foldlM writeCell? w
  let starts ← update? w.buffers.starts w.slot fun _ => w.pos
  return { w with buffers := { w.buffers with starts }, slot := w.slot + 1 }

/-- Fetches lines as `fetchLines` does, written into the buffers entry by entry. -/
def fetchLines? (lines : Sparse Float) (n : Nat) (invalidIndex : ResultCode) (wanted : List Nat)
    (b : LineBuffers) : Option (ResultCode × LineBuffers) :=
  if wanted.any (n ≤ ·) then some (invalidIndex, b)
  else
    let size := (wanted.map lines.line).flatten.length
    let b := { b with size }
    if b.starts.isEmpty then some (.okay, b)
    else if b.indexes.length < size || b.values.length < size
        || b.starts.length < wanted.length + 1 then some (.modelInputError, b)
    else do
      let starts ← update? b.starts 0 fun _ => 0
      let w ← wanted.foldlM (writeLine? lines) ⟨{ b with starts }, 1, 0⟩
      return (.okay, w.buffers)

end Problem

end MathProgram
