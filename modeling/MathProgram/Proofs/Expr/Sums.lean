import MathProgram.Proofs.Decimal.NegativeZero
import MathProgram.Proofs.Expr.Purge

/-!
# The sums that merging forms

The coefficient under which a merged list shows a handle is the sum of the coefficients that the
list as it was written has for it, from left to right (`mem_purge_iff`): the sort is stable, so it
does not change the order in which they are summed up. The merged list itself is in strict order
(`pairwise_purge`), so merging it again does nothing (`purge_purge`).

Sums that are accumulated start from zero instead of from the first coefficient. The results are the
same but for a zero in front (`foldl_add_zero`), which is seen only in place of a negative zero;
`Terms.stored` puts it there. Over the handles of one model and generation, a merged list is given
by its sums at every index (`Over.mem_purge_iff`).
-/

namespace MathProgram

open Float.Model (UnpackedFloat)

variable {k : Kind} {α : Type}

namespace Terms

open Handle

variable {ts : Terms k α} {t : Handle k × α} {x : Handle k} {v : α}

/-- The coefficients of the terms for a handle. -/
def coefsOf (x : Handle k) (ts : Terms k α) : List α := (ts.filter (x.same ·.1)).map (·.2)

/-- They are those at the place of the handle. -/
theorem coefsOf_eq_coefsAt (x : Handle k) (ts : Terms k α) :
    coefsOf x ts = Merging.coefsAt place x.place ts := by
  rw [coefsOf, same_eq, Merging.coefsAt, Merging.withKey]

variable [Add α]

/-- The sum of the coefficients that terms have for a handle, if there are any. -/
def sumOf? (x : Handle k) (ts : Terms k α) : Option α := sum? (coefsOf x ts)

/-- A merged list shows the handles that lead in the list as it was written, each with the sum of
the coefficients that it was written with. -/
theorem mem_purge_iff :
    (x, v) ∈ ts.purge ↔ x ∈ leading (ts.map (·.1)) ∧ ts.sumOf? x = some v := by
  rw [← mem_handles_purge, purge_eq_collect, Merging.mem_things_collect, Merging.mem_collect_iff,
    Merging.gather?_eq_some_iff, sumOf?, coefsOf_eq_coefsAt, Merging.coefsAt]

/-- A merged list shows a sum under some handle for the thing. -/
theorem exists_mem_purge (h : ts.sumOf? x = some v) :
    ∃ y, x.same y = true ∧ (y, v) ∈ ts.purge := by
  rw [sumOf?, coefsOf_eq_coefsAt, ← Merging.mem_keyed_collect, ← purge_eq_collect] at h
  obtain ⟨⟨y, w⟩, hmem, heq⟩ := List.mem_map.1 h
  obtain ⟨hplace, rfl⟩ := Prod.mk.inj heq
  exact ⟨y, same_iff_place.2 hplace.symm, hmem⟩

/-- A merged list is in order and shows no handle for a thing that another one is for. -/
theorem pairwise_purge (ts : Terms k α) :
    ts.purge.Pairwise fun s t => keyLe s t = true ∧ s.1.same t.1 = false := by
  rw [purge_eq_collect]
  refine (Merging.pairwise_collect ts).imp fun hst => ⟨?_, ?_⟩
  · rw [keyLe_eq, Merging.keyLe_iff]
    exact hst.le
  · rw [Bool.eq_false_iff, Ne, same_iff_place]
    exact hst.ne

/-- Merging a merged list does nothing. -/
theorem purge_purge (ts : Terms k α) : ts.purge.purge = ts.purge := by
  rw [purge_eq_collect, purge_eq_collect, Merging.collect_collect]

/-! ## Handles of one model and generation -/

/-- The terms are over handles of a model and a generation. -/
def Over (model : ModelId) (generation : UInt32) (ts : Terms k α) : Prop :=
  ∀ t ∈ ts, t.1.model = model ∧ t.1.generation = generation

namespace Over

variable {model : ModelId} {generation : UInt32}

omit [Add α] in
/-- A handle of the terms is given by its index. -/
theorem handle_eq (h : ts.Over model generation) (ht : t ∈ ts) :
    t.1 = ⟨model, t.1.index, generation⟩ := by
  obtain ⟨hmodel, hgen⟩ := h t ht
  rw [← hmodel, ← hgen]

omit [Add α] in
/-- The coefficients for a handle are those of the terms with its index. -/
theorem coefsOf_eq (h : ts.Over model generation) (i : ℕ) :
    ts.coefsOf ⟨model, i, generation⟩ = (ts.filter (·.1.index = i)).map (·.2) := by
  have hfilter :
      ts.filter (Handle.same ⟨model, i, generation⟩ ·.1) = ts.filter (·.1.index = i) := by
    refine List.filter_congr fun t ht => ?_
    rw [Bool.eq_iff_iff, same_iff, decide_eq_true_iff]
    exact ⟨fun hsame => hsame.2.symm, fun hi => ⟨(h t ht).1.symm, hi.symm⟩⟩
  rw [coefsOf, hfilter]

/-- Merged terms are over the same handles. -/
theorem purge (h : ts.Over model generation) : ts.purge.Over model generation := by
  intro t ht
  obtain ⟨hlead, -⟩ := mem_purge_iff.1 ht
  obtain ⟨u, hu, hut⟩ := List.mem_map.1 (mem_of_mem_leading hlead)
  rw [← hut]
  exact h u hu

/-- The indexes of merged terms increase strictly. -/
theorem pairwise_index (h : ts.Over model generation) :
    (ts.purge.map (·.1.index)).Pairwise (· < ·) := by
  rw [List.pairwise_map]
  refine (pairwise_purge ts).imp_of_mem fun {s t} hs ht hst => ?_
  obtain hlt | ⟨heq, -⟩ := keyLe_iff.1 hst.1
  · exact hlt
  · have hsame : s.1.same t.1 = true :=
      same_iff.2 ⟨(h.purge s hs).1.trans (h.purge t ht).1.symm, heq⟩
    exact absurd (hst.2.symm.trans hsame) (by decide)

/-- Merged terms are given by the sums of the coefficients at each index. -/
theorem mem_purge_iff (h : ts.Over model generation) {i : ℕ} :
    (⟨model, i, generation⟩, v) ∈ ts.purge ↔
      sum? ((ts.filter (·.1.index = i)).map (·.2)) = some v := by
  rw [← h.coefsOf_eq, ← sumOf?]
  constructor
  · intro hmem
    exact (Terms.mem_purge_iff.1 hmem).2
  · intro hv
    -- Of the handles for the index just this one is over the model and the generation.
    obtain ⟨y, hsame, hmem⟩ := exists_mem_purge hv
    have hindex : i = y.index := (same_iff.1 hsame).2
    have hy : y = ⟨model, y.index, generation⟩ := h.purge.handle_eq hmem
    rwa [hindex, ← hy]

end Over

end Terms

/-! ## Sums that start from zero -/

/-- A double that is not settled is the negative zero. -/
theorem unpack_of_not_settled {x : Float} (hx : ¬Settled x) :
    x.toModel.unpack = .zero .negative := not_not.1 fun h => hx (settled_iff.2 h)

/-- Adding zero to a double that is not settled gives zero. -/
theorem zero_add_of_not_settled {x : Float} (hx : ¬Settled x) : 0 + x = 0 := by
  have hsum : (0 + x).toModel =
      Float.Model.pack (UnpackedFloat.add .binary64 (.zero .positive) x.toModel.unpack) := rfl
  rw [unpack_of_not_settled hx] at hsum
  exact congrArg Float.ofModel hsum

/-- Adding zero to a double gives the same double, or one that compares equal. -/
theorem zero_add_eq (x : Float) : 0 + x = x ∨ (0 + x == x) = true := by
  by_cases hx : Settled x
  · exact .inl hx
  · have hbeq : ((0 : Float) == x) = UnpackedFloat.beq (.zero .positive) x.toModel.unpack := rfl
    rw [zero_add_of_not_settled hx, hbeq, unpack_of_not_settled hx]
    exact .inr rfl

/-- A zero in front of a sum may be added before or after. -/
theorem zero_add_add (x y : Float) : 0 + x + y = 0 + (x + y) := by
  by_cases hx : Settled x
  · -- The sum is settled as well, so neither zero is seen.
    have hx' : 0 + x = x := hx
    have hxy : 0 + (x + y) = x + y := hx.add y
    rw [hx', hxy]
  · -- A negative zero plus `y` is `y`, and zero plus a negative zero is zero.
    have hy : x + y = y := by
      have hsum : (x + y).toModel = Float.Model.pack
          (UnpackedFloat.add .binary64 x.toModel.unpack y.toModel.unpack) := rfl
      have hadd : UnpackedFloat.add .binary64 (.zero .negative) y.toModel.unpack =
          y.toModel.unpack := by
        cases y.toModel.unpack with
        | zero sign => cases sign <;> rfl
        | _ => rfl
      rw [unpack_of_not_settled hx, hadd, pack_unpack_toModel] at hsum
      exact congrArg Float.ofModel hsum
    rw [zero_add_of_not_settled hx, hy]

/-- Summing up from zero puts a zero in front of the sum. -/
theorem foldl_add_zero (v : Float) (vs : List Float) :
    vs.foldl (· + ·) (0 + v) = 0 + vs.foldl (· + ·) v := by
  induction vs generalizing v with
  | nil => rfl
  | cons w vs ih => rw [List.foldl_cons, List.foldl_cons, zero_add_add, ih]

namespace Terms

variable {ts : Terms k Float}

/-- The terms with a zero in front of every coefficient. -/
def stored (ts : Terms k Float) : Terms k Float := ts.map fun t => (t.1, 0 + t.2)

/-- Two lists of terms have equal handles and coefficients: the same doubles, or doubles that
compare equal, as the two zeros do. -/
def Agrees (ss ts : Terms k Float) : Prop :=
  List.Forall₂ (fun s t => s.1 = t.1 ∧ (s.2 = t.2 ∨ (s.2 == t.2) = true)) ss ts

/-- A zero in front does not make coefficients unequal. -/
theorem stored_agrees (ts : Terms k Float) : ts.stored.Agrees ts :=
  List.forall₂_map_left_iff.2 (List.forall₂_same.2 fun t _ => ⟨rfl, zero_add_eq t.2⟩)

/-- A zero in front is not seen, unless a coefficient is a negative zero. -/
theorem stored_of_settled (h : ∀ t ∈ ts, 0 + t.2 = t.2) : ts.stored = ts := by
  have hterm (t : Handle k × Float) (ht : t ∈ ts) : (t.1, 0 + t.2) = id t := Prod.ext rfl (h t ht)
  exact (List.map_congr_left hterm).trans (List.map_id ts)

/-- A zero in front leaves the handles as they are. -/
theorem Over.stored {model : ModelId} {generation : UInt32} (h : ts.Over model generation) :
    ts.stored.Over model generation := by
  intro t ht
  obtain ⟨u, hu, rfl⟩ := List.mem_map.1 ht
  exact h u hu

/-- A zero in front leaves the order as it is. -/
theorem Over.pairwise_stored {model : ModelId} {generation : UInt32}
    (h : ts.Over model generation) :
    ts.purge.stored.Pairwise fun s t => s.1.index < t.1.index :=
  List.pairwise_map.2 (List.pairwise_map.1 h.pairwise_index)

end Terms

end MathProgram
