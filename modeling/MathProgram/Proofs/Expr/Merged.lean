import MathProgram.Expr.Column
import MathProgram.Expr.Linear
import MathProgram.Proofs.Expr.Sums

/-!
# What merging gives

Of all lists of terms just one `IsMerged` from a given list: its handles increase strictly by index
and model, each is that of the first term for what it names, its coefficient is the sum of theirs
from left to right, and everything that a term is for has a handle. Merging gives this list
(`isMerged_iff`). It looks at neither the order of the terms for different things nor the
generations. So where sums do not depend on the order either, a list in another order gives the same
things with the same coefficients (`named_purge_of_perm`), though maybe under handles of other
generations.

`purge_sums` says so of linear expressions and columns.
-/

namespace MathProgram

variable {k : Kind} {α : Type}

/-- The strict order in which merged terms stand: by index, then by model. -/
def Handle.Precedes (x y : Handle k) : Prop :=
  x.index < y.index ∨ x.index = y.index ∧ x.model < y.model

instance (x y : Handle k) : Decidable (x.Precedes y) := inferInstanceAs (Decidable (_ ∨ _))

theorem Handle.precedes_iff_place {x y : Handle k} : x.Precedes y ↔ x.place < y.place := by
  rw [Precedes, place, place, Prod.Lex.toLex_lt_toLex]

namespace Terms

open Handle

/-! ## The merged list -/

/-- A list of terms holds the sums of another, each under the first of the handles for its thing. -/
structure IsMerged [Add α] (ts us : Terms k α) : Prop where
  increasing : us.Pairwise fun s t => s.1.Precedes t.1
  /-- The handle is that of the first term for what it names. -/
  first : ∀ u ∈ us, (ts.map (·.1)).find? u.1.same = some u.1
  /-- The coefficient is the sum of those that the terms have for the handle, from left to right. -/
  sum : ∀ u ∈ us, sum? ((ts.filter (u.1.same ·.1)).map (·.2)) = some u.2
  covers : ∀ t ∈ ts, ∃ u ∈ us, u.1.same t.1 = true

section

variable [Add α] {ts us : Terms k α}

/-- Merging gives the only merged list. -/
theorem isMerged_iff : IsMerged ts us ↔ us = ts.purge := by
  have hgather (u : Handle k × α) : Merging.gather? (Merging.withKey place u.1.place ts) = some u ↔
      (ts.map (·.1)).find? u.1.same = some u.1 ∧
        sum? ((ts.filter (u.1.same ·.1)).map (·.2)) = some u.2 := by
    rw [Merging.gather?_eq_some_iff, Merging.head?_withKey, same_eq, Merging.withKey]
  rw [purge_eq_collect, Merging.eq_collect_iff]
  constructor
  · intro h
    refine ⟨h.increasing.imp precedes_iff_place.1,
      fun u hu => (hgather u).2 ⟨h.first u hu, h.sum u hu⟩, fun t ht => ?_⟩
    obtain ⟨u, hu, hsame⟩ := h.covers t ht
    exact ⟨u, hu, same_iff_place.1 hsame⟩
  · rintro ⟨hincreasing, hsums, hcovers⟩
    refine ⟨hincreasing.imp precedes_iff_place.2, fun u hu => ((hgather u).1 (hsums u hu)).1,
      fun u hu => ((hgather u).1 (hsums u hu)).2, fun t ht => ?_⟩
    obtain ⟨u, hu, hplace⟩ := hcovers t ht
    exact ⟨u, hu, same_iff_place.2 hplace⟩

/-- Merging gives no more terms than there were. -/
theorem length_purge_le (ts : Terms k α) : ts.purge.length ≤ ts.length := by
  rw [purge_eq_collect]
  exact Merging.length_collect_le ts

end

/-! ## Terms in another order -/

/-- The terms by model and index, without the generations of the handles. -/
def named (ts : Terms k α) : List (ModelId × ℕ × α) :=
  ts.map fun t => (t.1.model, t.1.index, t.2)

section

variable {ss ts : Terms k α}

/-- Terms are the same by model and index if they are so by the places of their handles. -/
theorem named_eq_iff_keyed :
    ss.named = ts.named ↔ Merging.keyed place ss = Merging.keyed place ts := by
  have hplace (s t : Handle k × α) : (s.1.model = t.1.model ∧ s.1.index = t.1.index ∧ s.2 = t.2) ↔
      s.1.place = t.1.place ∧ s.2 = t.2 := by
    rw [← same_iff_place, same_iff, and_assoc]
  simp only [named, Merging.keyed, ← List.forall₂_eq_eq_eq, List.forall₂_map_left_iff,
    List.forall₂_map_right_iff, Prod.mk.injEq, hplace]

/-- Merged lists have the same things with the same coefficients if and only if the sums for each
handle agree. -/
theorem named_purge_eq_iff [Add α] :
    ss.purge.named = ts.purge.named ↔ ∀ x : Handle k, ss.sumOf? x = ts.sumOf? x := by
  rw [named_eq_iff_keyed, purge_eq_collect, purge_eq_collect, Merging.keyed_collect_eq_iff]
  constructor
  · intro h x
    rw [sumOf?, coefsOf_eq_coefsAt, h, sumOf?, coefsOf_eq_coefsAt]
  · rintro h ⟨i, m⟩
    have hx := h ⟨m, i, 0⟩
    rwa [sumOf?, coefsOf_eq_coefsAt, sumOf?, coefsOf_eq_coefsAt] at hx

/-- Where addition commutes and associates, terms in another order have the same sums. -/
theorem sumOf?_of_perm [AddCommSemigroup α] (h : ss.Perm ts) (x : Handle k) :
    ss.sumOf? x = ts.sumOf? x := sum?_of_perm ((h.filter _).map _)

/-- So they give the same things with the same coefficients. -/
theorem named_purge_of_perm [AddCommSemigroup α] (h : ss.Perm ts) :
    ss.purge.named = ts.purge.named := named_purge_eq_iff.2 (sumOf?_of_perm h)

end

end Terms

/-! ## Linear expressions and columns -/

open Terms in
/-- Merging a linear expression or a column gives the one list of terms that is merged from its own,
and the constant stays. A second time it changes nothing, and it never adds terms. Where addition
commutes and associates, the terms in another order give the same variables or constraints with the
same coefficients. -/
theorem purge_sums :
    (∀ {α : Type} [Add α] (e : LinearExpr α) (c : Column α),
      (∀ us, e.purge = ⟨us, e.constant⟩ ↔ IsMerged e.terms us) ∧
      (∀ us, c.purge = ⟨us⟩ ↔ IsMerged c.terms us) ∧
      e.purge.purge = e.purge ∧ c.purge.purge = c.purge ∧
      e.purge.length ≤ e.length ∧ c.purge.length ≤ c.length) ∧
    ∀ {α : Type} [AddCommSemigroup α] (e e' : LinearExpr α) (c c' : Column α),
      (e.terms.Perm e'.terms → e.purge.terms.named = e'.purge.terms.named) ∧
      (c.terms.Perm c'.terms → c.purge.terms.named = c'.purge.terms.named) := by
  constructor
  · intro α _ e c
    refine ⟨fun us => ?_, fun us => ?_, ?_, ?_, length_purge_le e.terms, length_purge_le c.terms⟩
    · rw [isMerged_iff, LinearExpr.purge, LinearExpr.mk.injEq, eq_comm, and_iff_left rfl]
    · rw [isMerged_iff, Column.purge, Column.mk.injEq, eq_comm]
    · simp only [LinearExpr.purge, purge_purge]
    · simp only [Column.purge, purge_purge]
  · intro α _ e e' c c'
    exact ⟨named_purge_of_perm, named_purge_of_perm⟩

/-- Terms for one index of two models, in two orders and with handles of two generations. -/
theorem purge_sums_of_two_models :
    let ts : Terms .variable ℤ := [(⟨1, 0, 0⟩, 2), (⟨0, 0, 1⟩, 3), (⟨1, 0, 1⟩, -2), (⟨0, 0, 0⟩, 4)]
    let e : LinearExpr ℤ := ⟨ts, 5⟩
    let e' : LinearExpr ℤ := ⟨ts.reverse, 5⟩
    e.terms.Perm e'.terms ∧ e.purge = ⟨[(⟨0, 0, 1⟩, 7), (⟨1, 0, 0⟩, 0)], 5⟩ ∧
      e'.purge = ⟨[(⟨0, 0, 0⟩, 7), (⟨1, 0, 1⟩, 0)], 5⟩ ∧
      e.purge.terms.named = e'.purge.terms.named := by
  intro ts e e'
  have hperm : e.terms.Perm e'.terms := (List.reverse_perm ts).symm
  refine ⟨hperm, ?_, ?_, (purge_sums.2 e e' .empty .empty).1 hperm⟩
  · refine ((purge_sums.1 e .empty).1 _).2 ⟨?_, ?_, ?_, ?_⟩ <;> decide
  · refine ((purge_sums.1 e' .empty).1 _).2 ⟨?_, ?_, ?_, ?_⟩ <;> decide

end MathProgram
