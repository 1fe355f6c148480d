import Mathlib.Data.List.Basic
import Mathlib.Data.List.Nodup
import MathProgram.Solver.Conflict

/-!
# Irreducible infeasible subsystems

The bounds of a linear program that a conflict search tries out are the finite ones, each of them
once (`mem_candidates_iff`, `nodup_candidates`). What the search gives out are flags, from which the
bounds that stay can be read (`flagged_flags_iff`); `restrict` is the program with these alone.
`Filtered` is what the search does when its tests are answered by a verdict on programs. If the
verdict is monotone, the bounds that stay are irreducible (`Filtered.irreducible`): they are
infeasible together, and without any one of them no longer.
-/

namespace MathProgram

/-- What takes the place of a bound that is relaxed. -/
def BoundRef.relaxed : BoundRef → Float
  | .colLower _ | .rowLower _ => -1.0 / 0.0
  | .colUpper _ | .rowUpper _ => 1.0 / 0.0

namespace LinearProgram

variable {lp lp' : LinearProgram} {b b' : BoundRef} {bs : List BoundRef} {stays : BoundRef → Bool}

/-! ## The bounds of a program -/

/-- A bound of the program, if there is a column or row for it. -/
def bound? (lp : LinearProgram) : BoundRef → Option Float
  | .colLower j => lp.lower[j]?
  | .colUpper j => lp.upper[j]?
  | .rowLower i => lp.rowLower[i]?
  | .rowUpper i => lp.rowUpper[i]?

/-- The program has two bounds for every column and every row. -/
structure Rectangular (lp : LinearProgram) : Prop where
  lower : lp.lower.length = lp.numCols
  upper : lp.upper.length = lp.numCols
  rowUpper : lp.rowUpper.length = lp.numRows

/-- Programs that differ at most in bounds, and in none of these, are equal. -/
theorem ext_bound? (hrest : lp' = { lp with
      lower := lp'.lower
      upper := lp'.upper
      rowLower := lp'.rowLower
      rowUpper := lp'.rowUpper })
    (hbound : ∀ b, lp'.bound? b = lp.bound? b) : lp' = lp := by
  rw [hrest]
  congr 1
  · exact List.ext_getElem? fun j => hbound (.colLower j)
  · exact List.ext_getElem? fun j => hbound (.colUpper j)
  · exact List.ext_getElem? fun i => hbound (.rowLower i)
  · exact List.ext_getElem? fun i => hbound (.rowUpper i)

/-- The linear part of a problem without its objective has all bounds. -/
theorem rectangular_ofProblem (p : Problem) : (ofProblem p).withoutObjective.Rectangular where
  lower := by simp [ofProblem, withoutObjective, numCols]
  upper := by simp [ofProblem, withoutObjective, numCols]
  rowUpper := by simp [ofProblem, withoutObjective, numRows]

/-! ## Relaxing -/

/-- The program without some bounds. -/
def relaxAll (lp : LinearProgram) (bs : List BoundRef) : LinearProgram := bs.foldl relax lp

/-- A further bound relaxed. -/
theorem relaxAll_concat (lp : LinearProgram) (bs : List BoundRef) (b : BoundRef) :
    lp.relaxAll (bs ++ [b]) = (lp.relaxAll bs).relax b := List.foldl_concat ..

/-- The bounds of a program with one of them relaxed. -/
theorem bound?_relax (lp : LinearProgram) (b b' : BoundRef) :
    (lp.relax b).bound? b' =
      (lp.bound? b').map fun x => if b = b' then b.relaxed else x := by
  have hset (xs : List Float) (x : Float) (j j' : ℕ) :
      (xs.set j x)[j']? = xs[j']?.map fun y => if j = j' then x else y := by
    rw [List.getElem?_set']
    split_ifs
    · rfl
    · simp
  cases b <;> cases b' <;> simp [relax, bound?, BoundRef.relaxed, hset]

/-- The bounds of a program with some of them relaxed. -/
theorem bound?_relaxAll (lp : LinearProgram) (bs : List BoundRef) (b : BoundRef) :
    (lp.relaxAll bs).bound? b = (lp.bound? b).map fun x => if b ∈ bs then b.relaxed else x := by
  induction bs generalizing lp with
  | nil => simp [relaxAll]
  | cons b' bs ih =>
    refine (ih (lp.relax b')).trans ?_
    rw [bound?_relax, Option.map_map]
    congr 1
    funext x
    by_cases hb : b ∈ bs
    · simp [hb]
    · by_cases hb' : b' = b
      · simp [hb, hb']
      · simp [hb, hb', Ne.symm hb']

/-- The lower bounds of columns with some bounds relaxed. -/
theorem lower_relaxAll (lp : LinearProgram) (bs : List BoundRef) : (lp.relaxAll bs).lower =
    lp.lower.mapIdx fun j x => if .colLower j ∈ bs then -1.0 / 0.0 else x :=
  List.ext_getElem? fun j => by
    rw [List.getElem?_mapIdx]
    exact bound?_relaxAll lp bs (.colLower j)

/-- The upper bounds of columns with some bounds relaxed. -/
theorem upper_relaxAll (lp : LinearProgram) (bs : List BoundRef) : (lp.relaxAll bs).upper =
    lp.upper.mapIdx fun j x => if .colUpper j ∈ bs then 1.0 / 0.0 else x :=
  List.ext_getElem? fun j => by
    rw [List.getElem?_mapIdx]
    exact bound?_relaxAll lp bs (.colUpper j)

/-- Relaxing changes nothing but bounds. -/
theorem relaxAll_rest (lp : LinearProgram) (bs : List BoundRef) : lp.relaxAll bs = { lp with
    lower := (lp.relaxAll bs).lower
    upper := (lp.relaxAll bs).upper
    rowLower := (lp.relaxAll bs).rowLower
    rowUpper := (lp.relaxAll bs).rowUpper } := by
  induction bs generalizing lp with
  | nil => rfl
  | cons b bs ih =>
    refine (ih (lp.relax b)).trans ?_
    cases b <;> rfl

/-- The order in which two bounds are relaxed does not matter. -/
theorem relax_comm (lp : LinearProgram) (b b' : BoundRef) :
    (lp.relax b).relax b' = (lp.relax b').relax b := by
  have hset (xs : List Float) (x : Float) (j j' : ℕ) :
      (xs.set j x).set j' x = (xs.set j' x).set j x := by
    by_cases hj : j = j'
    · rw [hj]
    · exact List.set_comm x x hj
  cases b <;> cases b' <;> simp only [relax, hset]

/-- A bound can be relaxed before or after others. -/
theorem relaxAll_relax (lp : LinearProgram) (bs : List BoundRef) (b : BoundRef) :
    (lp.relaxAll bs).relax b = (lp.relax b).relaxAll bs := by
  induction bs generalizing lp with
  | nil => rfl
  | cons b' bs ih =>
    refine (ih (lp.relax b')).trans ?_
    rw [relax_comm]
    rfl

/-- The program with those of its finite bounds alone that stay: the others are relaxed, and all
else is as it was. -/
def restrict (lp : LinearProgram) (stays : BoundRef → Bool) : LinearProgram :=
  let left (ref : ℕ → BoundRef) (j : ℕ) (x : Float) : Float :=
    if x.isFinite && !stays (ref j) then (ref j).relaxed else x
  { lp with
    lower := lp.lower.mapIdx (left .colLower)
    upper := lp.upper.mapIdx (left .colUpper)
    rowLower := lp.rowLower.mapIdx (left .rowLower)
    rowUpper := lp.rowUpper.mapIdx (left .rowUpper) }

/-- The bounds of a program with those alone that stay. -/
theorem bound?_restrict (lp : LinearProgram) (stays : BoundRef → Bool) (b : BoundRef) :
    (lp.restrict stays).bound? b =
      (lp.bound? b).map fun x => if x.isFinite && !stays b then b.relaxed else x := by
  cases b <;> exact List.getElem?_mapIdx

/-! ## The bounds that are tried out -/

section

variable {lowers uppers : List Float} {lower upper : ℕ → BoundRef}

/-- A bound of a pair of bounds is tried out if it is finite. -/
theorem mem_finiteBounds_iff : b ∈ finiteBounds lowers uppers lower upper ↔
    ∃ j l u, (lowers.zip uppers)[j]? = some (l, u) ∧
      (l.isFinite = true ∧ b = lower j ∨ u.isFinite = true ∧ b = upper j) := by
  simp only [finiteBounds, List.mem_flatMap, Prod.exists, List.mem_zipIdx_iff_getElem?,
    List.mem_append, List.mem_ite_nil_right, List.mem_singleton]
  exact ⟨fun ⟨l, u, j, h⟩ => ⟨j, l, u, h⟩, fun ⟨j, l, u, h⟩ => ⟨l, u, j, h⟩⟩

/-- The same for bounds of which there are as many on either side. -/
theorem mem_finiteBounds_iff_of_length (hlen : lowers.length = uppers.length) :
    b ∈ finiteBounds lowers uppers lower upper ↔
      (∃ j x, lowers[j]? = some x ∧ x.isFinite = true ∧ b = lower j) ∨
        ∃ j x, uppers[j]? = some x ∧ x.isFinite = true ∧ b = upper j := by
  rw [mem_finiteBounds_iff]
  simp only [List.getElem?_zip_eq_some]
  constructor
  · rintro ⟨j, l, u, ⟨hl, hu⟩, hb | hb⟩
    · exact .inl ⟨j, l, hl, hb⟩
    · exact .inr ⟨j, u, hu, hb⟩
  · rintro (⟨j, l, hl, hb⟩ | ⟨j, u, hu, hb⟩)
    · obtain ⟨hj, -⟩ := List.getElem?_eq_some_iff.1 hl
      exact ⟨j, l, uppers[j], ⟨hl, List.getElem?_eq_getElem _⟩, .inl hb⟩
    · obtain ⟨hj, -⟩ := List.getElem?_eq_some_iff.1 hu
      exact ⟨j, lowers[j], u, ⟨List.getElem?_eq_getElem _, hu⟩, .inr hb⟩

/-- No bound is tried out twice, where no two have one name. -/
theorem nodup_finiteBounds (lowers uppers : List Float) (hlower : lower.Injective)
    (hupper : upper.Injective) (hne : ∀ j j', lower j ≠ upper j') :
    (finiteBounds lowers uppers lower upper).Nodup := by
  have hindex : ((lowers.zip uppers).zipIdx.map Prod.snd).Nodup := by
    rw [List.zipIdx_map_snd]
    exact List.nodup_range'
  refine List.nodup_flatMap.2 ⟨fun ((l, u), j) _ => ?_, (List.pairwise_map.1 hindex).imp ?_⟩
  · dsimp only
    split_ifs <;> simp [hne]
  · rintro ⟨⟨l, u⟩, j⟩ ⟨⟨l', u'⟩, j'⟩ hj b hb hb'
    -- Bounds of two pairs have two indexes or two sides.
    simp only [List.mem_append, List.mem_ite_nil_right, List.mem_singleton] at hb hb'
    obtain ⟨-, rfl⟩ | ⟨-, rfl⟩ := hb <;> obtain ⟨-, hb'⟩ | ⟨-, hb'⟩ := hb'
    · exact hj (hlower hb')
    · exact hne _ _ hb'
    · exact hne _ _ hb'.symm
    · exact hj (hupper hb')

end

/-- The bounds that are tried out are those of the program that are finite. -/
theorem mem_candidates_iff (hlp : lp.Rectangular) :
    b ∈ lp.candidates ↔ ∃ x, lp.bound? b = some x ∧ x.isFinite = true := by
  rw [candidates, List.mem_append,
    mem_finiteBounds_iff_of_length (hlp.lower.trans hlp.upper.symm),
    mem_finiteBounds_iff_of_length hlp.rowUpper.symm]
  cases b <;> simp [bound?]

/-- No bound is tried out twice. -/
theorem nodup_candidates (lp : LinearProgram) : lp.candidates.Nodup := by
  have hcols := nodup_finiteBounds lp.lower lp.upper
    (fun _ _ h => BoundRef.colLower.inj h) (fun _ _ h => BoundRef.colUpper.inj h) nofun
  have hrows := nodup_finiteBounds lp.rowLower lp.rowUpper
    (fun _ _ h => BoundRef.rowLower.inj h) (fun _ _ h => BoundRef.rowUpper.inj h) nofun
  refine List.nodup_append.2 ⟨hcols, hrows, fun b hb b' hb' => ?_⟩
  obtain ⟨j, l, u, -, ⟨-, rfl⟩ | ⟨-, rfl⟩⟩ := mem_finiteBounds_iff.1 hb <;>
    obtain ⟨i, l', u', -, ⟨-, rfl⟩ | ⟨-, rfl⟩⟩ := mem_finiteBounds_iff.1 hb' <;> nofun

/-- Relaxing what is tried out and does not stay leaves the bounds that stay. -/
theorem relaxAll_candidates (hlp : lp.Rectangular) (stays : BoundRef → Bool) :
    lp.relaxAll (lp.candidates.filter fun b => !stays b) = lp.restrict stays := by
  refine ext_bound? ?_ fun b => ?_
  · rw [relaxAll_rest]
    rfl
  · rw [bound?_relaxAll, bound?_restrict]
    cases hb : lp.bound? b with
    | none => rfl
    | some x =>
      have hmem : b ∈ lp.candidates ↔ x.isFinite = true := by
        rw [mem_candidates_iff hlp, hb]
        simp
      simp [List.mem_filter, hmem]

end LinearProgram

/-! ## Flags -/

/-- A bound is flagged: by 3 for the lower bound, 2 for the upper one and 5 for both. -/
def IisFlags.flagged (f : IisFlags) : BoundRef → Bool
  | .colLower j => f.cols[j]? == some 3 || f.cols[j]? == some 5
  | .colUpper j => f.cols[j]? == some 2 || f.cols[j]? == some 5
  | .rowLower i => f.rows[i]? == some 3 || f.rows[i]? == some 5
  | .rowUpper i => f.rows[i]? == some 2 || f.rows[i]? == some 5

/-- Flags belong to a program: there is one for every row and one for every column, each of the four
numbers, and the bounds flagged are finite bounds of it. -/
structure IisFlags.BelongTo (f : IisFlags) (lp : LinearProgram) : Prop where
  rows : f.rows.length = lp.numRows
  cols : f.cols.length = lp.numCols
  numbers : ∀ c ∈ f.rows ++ f.cols, c = 0 ∨ c = 2 ∨ c = 3 ∨ c = 5
  finite : ∀ b, f.flagged b = true → ∃ x, lp.bound? b = some x ∧ x.isFinite = true

/-- The bounds flagged are irreducible by a verdict, which says of programs whether they are
infeasible: together they are infeasible, and without any one of them they are not. -/
structure IisFlags.Irreducible (f : IisFlags) (verdict : LinearProgram → Bool)
    (lp : LinearProgram) : Prop where
  infeasible : verdict (lp.restrict f.flagged) = true
  minimal : ∀ b, f.flagged b = true → verdict ((lp.restrict f.flagged).relax b) = false

namespace Conflict

open LinearProgram

variable {lp : LinearProgram} {b : BoundRef} {bs kept : List BoundRef}
  {verdict : LinearProgram → Bool}

/-- The number of a pair of bounds tells which of them stay. -/
theorem code_ofSides (lower upper : Bool) :
    let c := (IisBound.ofSides lower upper).code
    (some c == some 3 || some c == some 5) = lower ∧
      (some c == some 2 || some c == some 5) = upper ∧ (c = 0 ∨ c = 2 ∨ c = 3 ∨ c = 5) := by
  cases lower <;> cases upper <;> decide

/-- The numbers of some pairs of bounds tell which of these stay. -/
theorem read_codes (kept : List BoundRef) (n k : ℕ) (lower upper : ℕ → BoundRef) :
    let cs := (List.range n).map fun i =>
      (IisBound.ofSides (kept.contains (lower i)) (kept.contains (upper i))).code
    ((cs[k]? == some 3 || cs[k]? == some 5) = true ↔ k < n ∧ lower k ∈ kept) ∧
      ((cs[k]? == some 2 || cs[k]? == some 5) = true ↔ k < n ∧ upper k ∈ kept) := by
  dsimp only
  rw [List.getElem?_map]
  by_cases hk : k < n
  · obtain ⟨hlower, hupper, -⟩ := code_ofSides (kept.contains (lower k)) (kept.contains (upper k))
    rw [List.getElem?_range hk, Option.map_some, hlower, hupper]
    simp [hk]
  · rw [List.getElem?_eq_none (by simpa using hk)]
    simp [hk]

/-- From the flags for finite bounds that stay these can be read back. -/
theorem flagged_flags_iff (hlp : lp.Rectangular) (hkept : ∀ b ∈ kept, b ∈ lp.candidates) :
    (flags lp kept).flagged b = true ↔ b ∈ kept := by
  have hbound (hb : b ∈ kept) : ∃ x, lp.bound? b = some x := by
    obtain ⟨x, hx, -⟩ := (mem_candidates_iff hlp).1 (hkept b hb)
    exact ⟨x, hx⟩
  have hindex {xs : List Float} {j n : ℕ} (hlen : xs.length = n) (hj : ∃ x, xs[j]? = some x) :
      j < n := by
    obtain ⟨x, hx⟩ := hj
    exact hlen ▸ (List.getElem?_eq_some_iff.1 hx).1
  cases b with
  | colLower j =>
    exact (read_codes kept lp.numCols j .colLower .colUpper).1.trans
      (and_iff_right_of_imp fun hb => hindex hlp.lower (hbound hb))
  | colUpper j =>
    exact (read_codes kept lp.numCols j .colLower .colUpper).2.trans
      (and_iff_right_of_imp fun hb => hindex hlp.upper (hbound hb))
  | rowLower i =>
    exact (read_codes kept lp.numRows i .rowLower .rowUpper).1.trans
      (and_iff_right_of_imp fun hb => hindex rfl (hbound hb))
  | rowUpper i =>
    exact (read_codes kept lp.numRows i .rowLower .rowUpper).2.trans
      (and_iff_right_of_imp fun hb => hindex hlp.rowUpper (hbound hb))

/-- The flags for finite bounds that stay belong to the program. -/
theorem belongTo_flags (hlp : lp.Rectangular) (hkept : ∀ b ∈ kept, b ∈ lp.candidates) :
    (flags lp kept).BelongTo lp where
  rows := by simp [flags]
  cols := by simp [flags]
  numbers c hc := by
    simp only [flags, List.mem_append, List.mem_map] at hc
    obtain ⟨k, -, rfl⟩ | ⟨k, -, rfl⟩ := hc <;> exact (code_ofSides _ _).2.2
  finite b hb := (mem_candidates_iff hlp).1 (hkept b ((flagged_flags_iff hlp hkept).1 hb))

/-- Where no bound stays, all flags are zero. -/
theorem flags_nil (lp : LinearProgram) :
    flags lp [] = ⟨List.replicate lp.numRows 0, List.replicate lp.numCols 0⟩ := by
  simp [flags, IisBound.ofSides, IisBound.code, List.map_const']

/-! ## The search -/

/-- What trying out bounds in order gives if a verdict on programs decides about each: the bounds
that stay. -/
inductive Filtered (verdict : LinearProgram → Bool) :
    LinearProgram → List BoundRef → List BoundRef → Prop
  /-- There is no bound left. -/
  | done (lp : LinearProgram) : Filtered verdict lp [] []
  /-- A bound stays relaxed. -/
  | relaxed {lp : LinearProgram} {b : BoundRef} {bs kept : List BoundRef}
    (hverdict : verdict (lp.relax b) = true) (hrest : Filtered verdict (lp.relax b) bs kept) :
    Filtered verdict lp (b :: bs) kept
  /-- A bound has to stay. -/
  | stays {lp : LinearProgram} {b : BoundRef} {bs kept : List BoundRef}
    (hverdict : verdict (lp.relax b) = false) (hrest : Filtered verdict lp bs kept) :
    Filtered verdict lp (b :: bs) (b :: kept)

/-- A verdict is monotone on the relaxations of a program: where one is not infeasible, none is that
has a further bound relaxed. -/
def Monotone (verdict : LinearProgram → Bool) (lp : LinearProgram) : Prop :=
  ∀ bs b, verdict (lp.relaxAll bs) = false → verdict ((lp.relaxAll bs).relax b) = false

/-- On the relaxations of a relaxation as well. -/
theorem Monotone.relax (h : Monotone verdict lp) (b : BoundRef) : Monotone verdict (lp.relax b) :=
  fun bs => h (b :: bs)

/-- What is not infeasible remains so however many bounds are relaxed. -/
theorem Monotone.relaxAll (h : Monotone verdict lp) (hlp : verdict lp = false)
    (bs : List BoundRef) : verdict (lp.relaxAll bs) = false := by
  induction bs generalizing lp with
  | nil => exact hlp
  | cons b bs ih => exact ih (h.relax b) (h [] b hlp)

namespace Filtered

/-- What stays is among what is tried out. -/
theorem subset (h : Filtered verdict lp bs kept) : kept ⊆ bs := by
  induction h with
  | done => exact List.Subset.refl []
  | relaxed _ _ ih => exact fun b hb => List.mem_cons_of_mem _ (ih hb)
  | stays _ _ ih => exact List.cons_subset_cons _ ih

/-- The bounds that are relaxed in the end. -/
def dropped (bs kept : List BoundRef) : List BoundRef := bs.filter fun b => b ∉ kept

/-- A bound that stays relaxed comes first among them. -/
theorem dropped_relaxed (hb : b ∉ bs) (hkept : kept ⊆ bs) :
    dropped (b :: bs) kept = b :: dropped bs kept :=
  List.filter_cons_of_pos (by simpa using fun hk => hb (hkept hk))

/-- A bound that has to stay is not among them. -/
theorem dropped_stays (hb : b ∉ bs) : dropped (b :: bs) (b :: kept) = dropped bs kept := by
  rw [dropped, List.filter_cons_of_neg (by simp)]
  refine List.filter_congr fun b' hb' => ?_
  have hne : b' ≠ b := fun h => hb (h ▸ hb')
  simp [hne]

/-- The program stays infeasible. -/
theorem infeasible (h : Filtered verdict lp bs kept) (hbs : bs.Nodup) (hlp : verdict lp = true) :
    verdict (lp.relaxAll (dropped bs kept)) = true := by
  induction h with
  | done => exact hlp
  | relaxed hverdict hrest ih =>
    obtain ⟨hb, hbs⟩ := List.nodup_cons.1 hbs
    rw [dropped_relaxed hb hrest.subset]
    exact ih hbs hverdict
  | stays hverdict hrest ih =>
    obtain ⟨hb, hbs⟩ := List.nodup_cons.1 hbs
    rw [dropped_stays hb]
    exact ih hbs hlp

/-- Without any one of the bounds that stay it is infeasible no longer. -/
theorem minimal (h : Filtered verdict lp bs kept) (hbs : bs.Nodup) (hmono : Monotone verdict lp)
    (hb : b ∈ kept) : verdict ((lp.relaxAll (dropped bs kept)).relax b) = false := by
  induction h with
  | done => cases hb
  | relaxed hverdict hrest ih =>
    obtain ⟨hb', hbs⟩ := List.nodup_cons.1 hbs
    rw [dropped_relaxed hb' hrest.subset]
    exact ih hbs (hmono.relax _) hb
  | stays hverdict hrest ih =>
    obtain ⟨hb', hbs⟩ := List.nodup_cons.1 hbs
    rw [dropped_stays hb']
    cases hb with
    | head =>
      -- Its own test had fewer bounds relaxed, and what is feasible remains so.
      rw [relaxAll_relax]
      exact (hmono.relax b).relaxAll hverdict _
    | tail _ hb => exact ih hbs hmono hb

/-- The bounds that stay of an infeasible program are irreducible. -/
theorem irreducible (hlp : lp.Rectangular) (h : Filtered verdict lp lp.candidates kept)
    (hmono : Monotone verdict lp) (hinfeasible : verdict lp = true) :
    (flags lp kept).Irreducible verdict lp := by
  have hflagged (b : BoundRef) := flagged_flags_iff (b := b) hlp h.subset
  have hsame : dropped lp.candidates kept =
      lp.candidates.filter fun b => !(flags lp kept).flagged b := by
    refine List.filter_congr fun b _ => ?_
    rw [Bool.eq_iff_iff, Bool.not_eq_true', ← Bool.not_eq_true, hflagged b, decide_eq_true_eq]
  have hleft : lp.relaxAll (dropped lp.candidates kept) =
      lp.restrict (flags lp kept).flagged := by rw [hsame, relaxAll_candidates hlp]
  constructor
  · rw [← hleft]
    exact h.infeasible (nodup_candidates lp) hinfeasible
  · intro b hb
    rw [← hleft]
    exact h.minimal (nodup_candidates lp) hmono ((hflagged b).1 hb)

end Filtered

end Conflict

end MathProgram
