/-!
# Sparse maps

A finite map from pairs of indexes to values, as a list of entries in strictly increasing order of
their keys. Every change is an `alter` at one key; the lemmas say that it keeps the order. `line i`
is the list of the entries with first index `i`, in order of the second.
-/

namespace MathProgram

/-- A pair of indexes. -/
abbrev IndexPair := Nat × Nat

/-- The order of pairs: by the first index, then by the second. -/
def IndexPair.Before (k l : IndexPair) : Prop := k.1 < l.1 ∨ (k.1 = l.1 ∧ k.2 < l.2)

instance (k l : IndexPair) : Decidable (k.Before l) :=
  inferInstanceAs (Decidable (_ ∨ _))

namespace IndexPair

theorem Before.trans {k l m : IndexPair} (h : k.Before l) (h' : l.Before m) : k.Before m := by
  unfold Before at *
  omega

theorem Before.ne {k l : IndexPair} (h : k.Before l) : k ≠ l := by
  rintro rfl
  unfold Before at h
  omega

theorem before_of_not {k l : IndexPair} (h : ¬k.Before l) (hne : k ≠ l) : l.Before k := by
  unfold Before at *
  by_cases h1 : k.1 = l.1
  · by_cases h2 : k.2 = l.2
    · exact absurd (Prod.ext h1 h2) hne
    · omega
  · omega

end IndexPair

namespace Sparse

variable {α : Type}

/-- Entries stand in strictly increasing order of their keys. -/
def Sorted (es : List (IndexPair × α)) : Prop := es.Pairwise fun a b => a.1.Before b.1

/-- Changes the value at a key: `f` gets the present value, if any, and gives the new one, if any.
-/
def alterEntries (k : IndexPair) (f : Option α → Option α) :
    List (IndexPair × α) → List (IndexPair × α)
  | [] => (f none).toList.map fun v => (k, v)
  | (l, x) :: es =>
    if k.Before l then (f none).toList.map (fun v => (k, v)) ++ (l, x) :: es
    else if k = l then (f (some x)).toList.map (fun v => (k, v)) ++ es
    else (l, x) :: alterEntries k f es

/-- Altered entries have the key altered or a key there was before. -/
theorem key_mem_alterEntries {k : IndexPair} {f : Option α → Option α}
    {es : List (IndexPair × α)} {e : IndexPair × α} (h : e ∈ alterEntries k f es) :
    e.1 = k ∨ e ∈ es := by
  induction es with
  | nil =>
    cases hf : f none <;> simp_all [alterEntries]
  | cons a es ih =>
    obtain ⟨l, x⟩ := a
    unfold alterEntries at h
    split at h
    · cases hf : f none <;> grind
    · split at h
      · cases hf : f (some x) <;> grind
      · simp only [List.mem_cons] at h ⊢
        grind

/-- Altering keeps the order. -/
theorem sorted_alterEntries {k : IndexPair} {f : Option α → Option α}
    {es : List (IndexPair × α)} (h : Sorted es) : Sorted (alterEntries k f es) := by
  induction es with
  | nil =>
    cases hf : f none <;> simp [alterEntries, Sorted, hf]
  | cons a es ih =>
    obtain ⟨l, x⟩ := a
    have hes : Sorted es := (List.pairwise_cons.1 h).2
    have hl : ∀ e ∈ es, l.Before e.1 := fun e he => (List.pairwise_cons.1 h).1 e he
    unfold alterEntries
    split
    · rename_i hk
      cases hf : f none with
      | none => simpa using h
      | some v =>
        refine List.pairwise_cons.2 ⟨fun e he => ?_, h⟩
        rcases List.mem_cons.1 he with rfl | he
        · exact hk
        · exact hk.trans (hl e he)
    · rename_i hk
      split
      · rename_i hkl
        subst hkl
        cases hf : f (some x) with
        | none => simpa using hes
        | some v => exact List.pairwise_cons.2 ⟨hl, hes⟩
      · rename_i hkl
        refine List.pairwise_cons.2 ⟨fun e he => ?_, ih hes⟩
        rcases key_mem_alterEntries he with he | he
        · rw [he]
          exact IndexPair.before_of_not hk hkl
        · exact hl e he

end Sparse

/-- A finite map from pairs of indexes to values. -/
structure Sparse (α : Type) where
  /-- The entries, in order of their keys. -/
  entries : List (IndexPair × α)
  sorted : Sparse.Sorted entries

namespace Sparse

variable {α : Type}

/-- The empty map. -/
def empty : Sparse α := ⟨[], List.Pairwise.nil⟩

instance : Inhabited (Sparse α) := ⟨empty⟩

instance [Repr α] : Repr (Sparse α) := ⟨fun m n => reprPrec m.entries n⟩

/-- The number of entries. -/
def size (m : Sparse α) : Nat := m.entries.length

/-- The map has no entry. -/
def isEmpty (m : Sparse α) : Bool := m.entries.isEmpty

/-- The value at a key. -/
def get? (m : Sparse α) (k : IndexPair) : Option α := m.entries.lookup k

/-- Changes the value at a key. -/
def alter (m : Sparse α) (k : IndexPair) (f : Option α → Option α) : Sparse α :=
  ⟨alterEntries k f m.entries, sorted_alterEntries m.sorted⟩

/-- Puts a value at a key. -/
def insert (m : Sparse α) (k : IndexPair) (v : α) : Sparse α := m.alter k fun _ => some v

/-- Removes the entry at a key. -/
def erase (m : Sparse α) (k : IndexPair) : Sparse α := m.alter k fun _ => none

/-- Adds to the value at a key, which is zero where there is no entry. -/
def addAt [Add α] [OfNat α 0] (m : Sparse α) (k : IndexPair) (v : α) : Sparse α :=
  m.alter k fun old => some (old.getD 0 + v)

/-- The map of a list of entries; of several for one key the last counts. -/
def ofList (es : List (IndexPair × α)) : Sparse α :=
  es.foldl (fun m e => m.insert e.1 e.2) empty

/-- The map with the keys changed by `f`, without the entries whose key has no image. -/
def mapKeys? (m : Sparse α) (f : IndexPair → Option IndexPair) : Sparse α :=
  ofList (m.entries.filterMap fun e => (f e.1).map fun k => (k, e.2))

/-- The map with the two indexes exchanged. -/
def transpose (m : Sparse α) : Sparse α := ofList (m.entries.map fun e => (e.1.swap, e.2))

/-- The entries with a given first index: second indexes and values. -/
def line (m : Sparse α) (i : Nat) : List (Nat × α) :=
  m.entries.filterMap fun e => if e.1.1 = i then some (e.1.2, e.2) else none

/-- The entries as triples. -/
def triples (m : Sparse α) : List (Nat × Nat × α) := m.entries.map fun e => (e.1.1, e.1.2, e.2)

end Sparse

/-- Lines in compressed form: where each line starts in the list of indexes and values, with one
more start at the end. -/
structure Compressed (α : Type) where
  starts : List Nat
  indexes : List Nat
  values : List α
  deriving Repr

/-- The first `n` lines of a map in compressed form. The start of a line is the number of entries
with a smaller first index. -/
def Sparse.compressed {α : Type} (m : Sparse α) (n : Nat) : Compressed α where
  starts := (List.range (n + 1)).map fun k => (m.entries.filter fun e => e.1.1 < k).length
  indexes := m.entries.map (·.1.2)
  values := m.entries.map (·.2)

end MathProgram
