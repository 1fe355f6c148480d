import Mathlib.Data.Prod.Lex
import MathProgram.Expr.Terms
import MathProgram.Proofs.Expr.Merging

/-!
# The handles that merging keeps

Terms for handles that name the same thing are merged into one term, under the handle of the first
of them; the sort before it is stable, so that is the first in the order in which the terms were
written. Handles name the same thing when model and index agree, whatever their generations; so
merging is by the place of a handle, its index and its model (`purge_eq_collect`). A merged list
shows just the handles that lead in the list as it was written (`mem_handles_purge`), and a handle
of another generation behind one of them is gone.
-/

namespace MathProgram

variable {k : Kind} {α : Type}

namespace Handle

variable {x y z : Handle k} {xs : List (Handle k)}

theorem same_iff : x.same y = true ↔ x.model = y.model ∧ x.index = y.index := by
  rw [same, Bool.and_eq_true, beq_iff_eq, beq_iff_eq]

@[simp] theorem same_self (x : Handle k) : x.same x = true := same_iff.2 ⟨rfl, rfl⟩

/-- Handles of one generation that name the same thing are equal. -/
theorem eq_of_same (h : x.same y = true) (hgen : x.generation = y.generation) : x = y := by
  obtain ⟨hmodel, hindex⟩ := same_iff.1 h
  cases x
  cases y
  rw [mk.injEq]
  exact ⟨hmodel, hindex, hgen⟩

/-- Handles that name the same thing name the same things. -/
theorem same_congr (h : x.same y = true) : x.same = y.same := by
  obtain ⟨hmodel, hindex⟩ := same_iff.1 h
  funext z
  rw [same, same, hmodel, hindex]

/-- The handles of a list that lead: each is the first of those that name the same thing. -/
def leading : List (Handle k) → List (Handle k)
  | [] => []
  | x :: xs => x :: (leading xs).filter fun y => !x.same y

/-- A handle leads if it is the first that names what it names. -/
theorem mem_leading_iff : x ∈ leading xs ↔ xs.find? x.same = some x := by
  induction xs with
  | nil => simp [leading]
  | cons y xs ih =>
    rw [leading, List.mem_cons, List.mem_filter, List.find?_cons, ih]
    cases hsame : x.same y with
    | false =>
      have hne : x ≠ y := by
        rintro rfl
        rw [same_self] at hsame
        cases hsame
      have hsame' : y.same x = false := by
        rw [Bool.eq_false_iff, Ne, same_iff] at hsame ⊢
        exact fun h => hsame ⟨h.1.symm, h.2.symm⟩
      simp [hne, hsame']
    | true =>
      have hsame' : y.same x = true := by rw [← same_congr hsame, same_self]
      simp [hsame', eq_comm]

/-- Leading handles are among the handles. -/
theorem mem_of_mem_leading (h : x ∈ leading xs) : x ∈ xs :=
  List.mem_of_find?_eq_some (mem_leading_iff.1 h)

/-- Every handle has one that leads it. -/
theorem exists_leading (h : x ∈ xs) : ∃ y ∈ leading xs, x.same y = true := by
  cases hfirst : xs.find? x.same with
  | none => exact absurd (same_self x) (List.find?_eq_none.1 hfirst x h)
  | some y =>
    have hsame : x.same y = true := List.find?_some hfirst
    exact ⟨y, mem_leading_iff.2 (by rw [← same_congr hsame, hfirst]), hsame⟩

/-- Where a handle stands in the order of handles: by index, then by model. -/
def place (x : Handle k) : ℕ ×ₗ ModelId := toLex (x.index, x.model)

/-- Handles name the same thing if they stand at one place. -/
theorem same_iff_place : x.same y = true ↔ x.place = y.place := by
  rw [same_iff, place, place, toLex_inj, Prod.mk.injEq, and_comm]

theorem same_eq (x : Handle k) : x.same = fun y => decide (y.place = x.place) := by
  funext y
  rw [Bool.eq_iff_iff, same_iff_place, decide_eq_true_iff, eq_comm]

end Handle

namespace Terms

open Handle

variable {s t : Handle k × α} {ts : Terms k α} {x : Handle k}

theorem keyLe_iff : keyLe s t = true ↔
    s.1.index < t.1.index ∨ s.1.index = t.1.index ∧ s.1.model ≤ t.1.model := by
  simp [keyLe]

/-- Terms are in the order of the places of their handles. -/
theorem keyLe_eq : (keyLe : Handle k × α → Handle k × α → Bool) = Merging.keyLe place := by
  funext s t
  rw [Bool.eq_iff_iff, keyLe_iff, Merging.keyLe_iff, place, place, Prod.Lex.toLex_le_toLex]

variable [Add α]

/-- Neighbours are added up by the places of their handles. -/
theorem mergeRunsFrom_eq (t : Handle k × α) (ts : Terms k α) :
    mergeRunsFrom t ts = Merging.mergeFrom place t ts := by
  induction ts generalizing t with
  | nil => rfl
  | cons u ts ih => simp only [mergeRunsFrom, Merging.mergeFrom, same_iff_place, ih]

/-- Merging is by the places of the handles. -/
theorem purge_eq_collect (ts : Terms k α) : ts.purge = Merging.collect place ts := by
  rw [purge, Merging.collect, keyLe_eq]
  cases ts.mergeSort (Merging.keyLe place) with
  | nil => rfl
  | cons t ts => exact mergeRunsFrom_eq t ts

/-- Sorted terms are merged as they are. -/
theorem purge_of_sorted (h : ts.Pairwise (keyLe · · = true)) : ts.purge = mergeRuns ts := by
  rw [purge, List.mergeSort_of_pairwise h]

/-- A merged list shows the handles that lead in the list as it was written. -/
theorem mem_handles_purge : x ∈ ts.purge.map (·.1) ↔ x ∈ leading (ts.map (·.1)) := by
  rw [purge_eq_collect, Merging.mem_things_collect, Merging.head?_withKey, mem_leading_iff, same_eq]

end Terms

end MathProgram
