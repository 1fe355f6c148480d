import MathProgram.Proofs.Store.Dense
import MathProgram.Proofs.Store.Records

/-!
# What deleting leaves

Deleting columns or rows leaves those that are `kept`, in their order, and renumbers each to its
place among them. `Deleted` says what that means for the records of columns and rows, the entries of
the matrix and those of the quadratic form: what stands at a new number is what stood at the old
one. It determines the problem (`Deleted.problem_eq`), and deleting in two steps is deleting in one
(`Deleted.trans`), since the numbers that are kept of those that are kept are just the numbers kept
in the end (`survivors_kept`).
-/

namespace MathProgram

open Problem (rank survivors)

/-! ## The numbers that are kept -/

/-- The numbers below `n` that are not removed, in order. The place of a number in the list is its
new number. -/
def kept (removed : List ℕ) (n : ℕ) : List ℕ := (List.range n).filter fun i => !removed.contains i

section Kept

variable {α : Type} {removed A B R AB : List ℕ} {n i j r : ℕ}

/-- What is kept is in range and not removed. -/
theorem mem_kept : j ∈ kept removed n ↔ j < n ∧ j ∉ removed := by
  simp [kept]

/-- The numbers kept increase strictly. -/
theorem pairwise_kept (removed : List ℕ) (n : ℕ) : (kept removed n).Pairwise (· < ·) :=
  List.pairwise_lt_range.sublist List.filter_sublist

/-- Neither the order nor repetitions of what is removed matter. -/
theorem kept_congr (h : ∀ i, i ∈ A ↔ i ∈ B) (n : ℕ) : kept A n = kept B n := by
  unfold kept
  refine List.filter_congr fun i _ => ?_
  have hcontains : A.contains i = B.contains i := by
    rw [Bool.eq_iff_iff, List.contains_iff_mem, List.contains_iff_mem]
    exact h i
  rw [hcontains]

/-- A number that is kept comes right after those below it that are kept. -/
theorem getElem?_length_kept (hj : j < n) (hremoved : j ∉ removed) :
    (kept removed n)[(kept removed j).length]? = some j := by
  obtain ⟨m, rfl⟩ := Nat.exists_eq_add_of_le (show j + 1 ≤ n from hj)
  have hkept : (!removed.contains j) = true := by simpa using hremoved
  have hsplit : kept removed (j + 1 + m) = kept removed j ++
      j :: ((List.range m).map (j + 1 + ·)).filter fun i => !removed.contains i := by
    unfold kept
    rw [List.range_add, List.filter_append, List.range_succ, List.filter_append,
      List.filter_singleton, hkept, List.append_assoc]
    rfl
  rw [hsplit, List.getElem?_append_right le_rfl, Nat.sub_self]
  rfl

/-- The place of a number among those kept is its rank. -/
theorem getElem?_kept : (kept removed n)[r]? = some j ↔ j < n ∧ rank removed j = some r := by
  have hlength : (kept removed j).length =
      (List.range j).countP fun i => !removed.contains i := List.countP_eq_length_filter.symm
  rw [rank_eq_some_iff, ← hlength]
  constructor
  · intro hr
    obtain ⟨hlt, hremoved⟩ := mem_kept.1 (List.mem_of_getElem? hr)
    -- It has one place only, since no number is kept twice.
    have hnodup : (kept removed n).Nodup := List.nodup_range.filter _
    have hplace := getElem?_length_kept hlt hremoved
    have hsame : (kept removed j).length = r :=
      (List.getElem?_inj (List.getElem?_eq_some_iff.1 hplace).1 hnodup).1 (hplace.trans hr.symm)
    exact ⟨hlt, hremoved, hsame⟩
  · rintro ⟨hlt, hremoved, rfl⟩
    exact getElem?_length_kept hlt hremoved

/-- If nothing is removed every number keeps its place. -/
theorem getElem?_kept_nil : (kept [] n)[r]? = some j ↔ j < n ∧ r = j := by
  have hall : kept [] n = List.range n := List.filter_eq_self.2 (by simp)
  rw [hall, List.getElem?_eq_some_iff]
  simp only [List.length_range, List.getElem_range]
  constructor
  · rintro ⟨hlt, rfl⟩
    exact ⟨hlt, rfl⟩
  · rintro ⟨hlt, rfl⟩
    exact ⟨hlt, rfl⟩

/-- A number that is kept has a place. -/
theorem exists_getElem?_kept (hj : j < n) (hremoved : j ∉ removed) :
    ∃ r : ℕ, (kept removed n)[r]? = some j :=
  List.getElem?_of_mem (mem_kept.2 ⟨hj, hremoved⟩)

/-- The items that stay are those at the numbers kept. -/
theorem getElem?_survivors_eq (removed : List ℕ) (xs : List α) (r : ℕ) :
    (survivors removed xs)[r]? = (kept removed xs.length)[r]?.bind (xs[·]?) := by
  -- Both lists are parts of the items that stay with their numbers.
  have hkept : kept removed xs.length =
      (xs.zipIdx.filter fun e => !removed.contains e.2).map (·.2) := by
    rw [kept, List.range_eq_range', ← List.zipIdx_map_snd 0 xs, List.filter_map]
    rfl
  rw [survivors_eq, hkept, List.getElem?_map, List.getElem?_map]
  cases hr : (xs.zipIdx.filter fun e => !removed.contains e.2)[r]? with
  | none => rfl
  | some e =>
    have hmem : e ∈ xs.zipIdx := (List.mem_filter.1 (List.mem_of_getElem? hr)).1
    exact (List.mem_zipIdx_iff_getElem?.1 hmem).symm

/-- An item stays if its number is not removed. -/
theorem mem_survivors {xs : List α} {x : α} :
    x ∈ survivors removed xs ↔ ∃ i, i ∉ removed ∧ xs[i]? = some x := by
  rw [survivors_eq, List.mem_map]
  constructor
  · rintro ⟨e, he, rfl⟩
    obtain ⟨hmem, hstays⟩ := List.mem_filter.1 he
    exact ⟨e.2, by simpa using hstays, List.mem_zipIdx_iff_getElem?.1 hmem⟩
  · rintro ⟨i, hi, hx⟩
    refine ⟨(x, i), List.mem_filter.2 ⟨List.mem_zipIdx_iff_getElem?.2 hx, ?_⟩, rfl⟩
    simpa using hi

/-- Of the numbers kept by one deletion another one, of renumbered ones, keeps those that one
deletion of all of them keeps. -/
theorem survivors_kept (hR : ∀ r, r ∈ R ↔ ∃ b ∈ B, (kept A n)[r]? = some b)
    (hAB : ∀ i, i ∈ AB ↔ i ∈ A ∨ i ∈ B) : survivors R (kept A n) = kept AB n := by
  have hsorted : (survivors R (kept A n)).Pairwise (· < ·) :=
    (pairwise_kept A n).sublist (survivors_sublist R _)
  refine eq_of_pairwise_of_mem_iff (fun a b hab => by omega) hsorted (pairwise_kept AB n)
    fun j => ?_
  rw [mem_survivors, mem_kept, hAB]
  constructor
  · rintro ⟨r, hr, hj⟩
    obtain ⟨hlt, hA⟩ := mem_kept.1 (List.mem_of_getElem? hj)
    refine ⟨hlt, ?_⟩
    rintro (hA' | hB)
    · exact hA hA'
    · exact hr ((hR r).2 ⟨j, hB, hj⟩)
  · rintro ⟨hlt, hnot⟩
    obtain ⟨r, hj⟩ := exists_getElem?_kept hlt fun hA => hnot (.inl hA)
    refine ⟨r, fun hr => ?_, hj⟩
    obtain ⟨b, hb, hbr⟩ := (hR r).1 hr
    obtain rfl : j = b := Option.some.inj (hj.symm.trans hbr)
    exact hnot (.inr hb)

/-- The places of the numbers kept in two steps. -/
theorem getElem?_kept_kept (hR : ∀ r, r ∈ R ↔ ∃ b ∈ B, (kept A n)[r]? = some b)
    (hAB : ∀ i, i ∈ AB ↔ i ∈ A ∨ i ∈ B) (r : ℕ) :
    (kept AB n)[r]? = (kept R (kept A n).length)[r]?.bind ((kept A n)[·]?) := by
  rw [← survivors_kept hR hAB, getElem?_survivors_eq]

end Kept

/-! ## Problems by their entries -/

namespace Problem

variable {p p' : Problem} {k : Kind} {removed : List ℕ}

/-- The entry for two columns in order stands at their pair. -/
theorem WellFormed.quad_eq_quadCoef? (h : p.WellFormed) {i j : ℕ} {v : Float} :
    p.quad.get? (i, j) = some v ↔ i ≤ j ∧ p.quadCoef? s(i, j) = some v := by
  have hview : p.quadCoef? s(i, j) = p.quad.get? (quadKey i j) := rfl
  rw [hview]
  unfold quadKey
  constructor
  · intro hv
    obtain ⟨hle, -, -⟩ := h.quad i j v hv
    exact ⟨hle, by rwa [if_pos hle]⟩
  · rintro ⟨hle, hv⟩
    rwa [if_pos hle] at hv

/-- The quadratic form is given by its entries. -/
theorem WellFormed.quad_ext (h : p.WellFormed) (h' : p'.WellFormed)
    (hquad : ∀ e v, p.quadCoef? e = some v ↔ p'.quadCoef? e = some v) : p.quad = p'.quad := by
  refine Sparse.ext_get? fun e => Option.ext fun v => ?_
  obtain ⟨i, j⟩ := e
  exact h.quad_eq_quadCoef?.trans ((and_congr_right fun _ => hquad _ v).trans
    h'.quad_eq_quadCoef?.symm)

/-- The matrix is given by the entries of its lines of one kind. -/
theorem WellFormed.matrix_ext (h : p.WellFormed) (h' : p'.WellFormed)
    (hlines : ∀ i j v, (p.lines k).get? (i, j) = some v ↔ (p'.lines k).get? (i, j) = some v) :
    p.matrix = p'.matrix := by
  have hkind : p.lines k = p'.lines k :=
    Sparse.ext_get? fun e => Option.ext fun v => hlines e.1 e.2 v
  have hother : p.lines k.other = p'.lines k.other := by
    refine Sparse.ext_get? fun e => ?_
    obtain ⟨j, i⟩ := e
    rw [h.get?_other, h'.get?_other, hkind]
  cases k
  · exact congrArg₂ Matrix.mk hkind hother
  · exact congrArg₂ Matrix.mk hother hkind

/-- The entries of the quadratic form are for columns that there are. -/
theorem WellFormed.quadCoef?_lt (h : p.WellFormed) {i j : ℕ} {v : Float}
    (hv : p.quadCoef? s(i, j) = some v) : i < p.numCols ∧ j < p.numCols := by
  obtain hij | hji := le_total i j
  · obtain ⟨hle, hlt, -⟩ := h.quad i j v (h.quad_eq_quadCoef?.2 ⟨hij, hv⟩)
    exact ⟨hle.trans_lt hlt, hlt⟩
  · rw [Sym2.eq_swap] at hv
    obtain ⟨hle, hlt, -⟩ := h.quad j i v (h.quad_eq_quadCoef?.2 ⟨hji, hv⟩)
    exact ⟨hlt, hle.trans_lt hlt⟩

/-! ## Entries at the new numbers -/

/-- Deletes columns or rows. -/
def deletion (p : Problem) : Kind → List ℕ → Except ResultCode Problem
  | .variable => p.deleteCols
  | .constraint => p.deleteRows

/-- Deleting columns takes the entries of the quadratic form along; deleting rows leaves them. -/
def QuadKept (kept : List ℕ) (p p' : Problem) : Kind → Prop
  | .variable => ∀ (r t : ℕ) v, p'.quadCoef? s(r, t) = some v ↔
      ∃ i j, kept[r]? = some i ∧ kept[t]? = some j ∧ p.quadCoef? s(i, j) = some v
  | .constraint => p'.quad = p.quad

/-- An entry moves along with its line, and the name, the sense and the constant stay. -/
theorem deletion_eq_ok (hp : p.deletion k removed = .ok p') :
    (∀ r j v, (p'.lines k).get? (r, j) = some v ↔
      ∃ i, rank removed i = some r ∧ (p.lines k).get? (i, j) = some v) ∧
    p'.name = p.name ∧ p'.minSense = p.minSense ∧ p'.objConst = p.objConst := by
  cases k
  · change p.deleteCols removed = .ok p' at hp
    unfold deleteCols at hp
    split_ifs at hp
    obtain rfl := Except.ok.inj hp
    exact ⟨fun r j v => Sparse.get?_renumbered _ fun _ _ _ => rank_injective, rfl, rfl, rfl⟩
  · change p.deleteRows removed = .ok p' at hp
    unfold deleteRows at hp
    split_ifs at hp
    obtain rfl := Except.ok.inj hp
    exact ⟨fun r j v => Sparse.get?_renumbered _ fun _ _ _ => rank_injective, rfl, rfl, rfl⟩

/-- An entry of the quadratic form at new numbers, once columns are deleted. -/
theorem quadCoef?_deleteCols (h : p.WellFormed)
    (hp : p.deleteCols removed = .ok p') (r t : ℕ) (v : Float) :
    p'.quadCoef? s(r, t) = some v ↔ ∃ i j, (kept removed p.numCols)[r]? = some i ∧
      (kept removed p.numCols)[t]? = some j ∧ p.quadCoef? s(i, j) = some v := by
  have hp' : p'.WellFormed := h.deleteCols hp
  have hquad (r t : ℕ) : p'.quad.get? (r, t) = some v ↔
      ∃ i j, rank removed i = some r ∧ rank removed j = some t ∧ p.quad.get? (i, j) = some v := by
    unfold Problem.deleteCols at hp
    split_ifs at hp
    obtain rfl := Except.ok.inj hp
    exact UpperTriangle.get?_renumbered
  -- In order of the new numbers the old ones are in order, too.
  have hordered {r t : ℕ} (hrt : r ≤ t) : p'.quadCoef? s(r, t) = some v ↔
      ∃ i j, (kept removed p.numCols)[r]? = some i ∧ (kept removed p.numCols)[t]? = some j ∧
        p.quadCoef? s(i, j) = some v := by
    have hplace : p'.quadCoef? s(r, t) = some v ↔ p'.quad.get? (r, t) = some v := by
      rw [hp'.quad_eq_quadCoef?, and_iff_right hrt]
    rw [hplace, hquad]
    constructor
    · rintro ⟨i, j, hi, hj, hv⟩
      obtain ⟨hle, hlt, -⟩ := h.quad i j v hv
      exact ⟨i, j, getElem?_kept.2 ⟨hle.trans_lt hlt, hi⟩, getElem?_kept.2 ⟨hlt, hj⟩,
        (h.quad_eq_quadCoef?.1 hv).2⟩
    · rintro ⟨i, j, hi, hj, hv⟩
      obtain ⟨-, hi⟩ := getElem?_kept.1 hi
      obtain ⟨-, hj⟩ := getElem?_kept.1 hj
      have hle : i ≤ j := by
        by_contra hlt
        have hranks := rank_lt_rank hj hi (by omega)
        omega
      exact ⟨i, j, hi, hj, h.quad_eq_quadCoef?.2 ⟨hle, hv⟩⟩
  obtain hrt | htr := le_total r t
  · exact hordered hrt
  · rw [Sym2.eq_swap, hordered htr]
    constructor
    · rintro ⟨i, j, hi, hj, hv⟩
      exact ⟨j, i, hj, hi, by rwa [Sym2.eq_swap]⟩
    · rintro ⟨i, j, hi, hj, hv⟩
      exact ⟨j, i, hj, hi, by rwa [Sym2.eq_swap]⟩

/-- A deletion takes the quadratic form along or leaves it. -/
theorem quadKept_deletion (h : p.WellFormed) (hp : p.deletion k removed = .ok p') :
    QuadKept (kept removed (p.count k)) p p' k := by
  cases k
  · exact quadCoef?_deleteCols h hp
  · change p.deleteRows removed = .ok p' at hp
    unfold deleteRows at hp
    split_ifs at hp
    obtain rfl := Except.ok.inj hp
    rfl

/-- A quadratic form stays as it is if no number is removed. -/
theorem QuadKept.refl (h : p.WellFormed) (k : Kind) : QuadKept (kept [] (p.count k)) p p k := by
  cases k
  · intro r t v
    constructor
    · intro hv
      obtain ⟨hr, ht⟩ := h.quadCoef?_lt hv
      exact ⟨r, t, getElem?_kept_nil.2 ⟨hr, rfl⟩, getElem?_kept_nil.2 ⟨ht, rfl⟩, hv⟩
    · rintro ⟨i, j, hi, hj, hv⟩
      rwa [(getElem?_kept_nil.1 hi).2, (getElem?_kept_nil.1 hj).2]
  · rfl

/-- A quadratic form is taken along twice, and so in one step. -/
theorem QuadKept.trans {p₁ p₂ : Problem} {ks ls ns : List ℕ} (h₁ : QuadKept ks p p₁ k)
    (h₂ : QuadKept ls p₁ p₂ k)
    (hplace : ∀ r i : ℕ, ns[r]? = some i ↔ ∃ l, ls[r]? = some l ∧ ks[l]? = some i) :
    QuadKept ns p p₂ k := by
  cases k
  · intro r t v
    refine (h₂ r t v).trans ?_
    constructor
    · rintro ⟨l, m, hl, hm, hv⟩
      obtain ⟨i, j, hi, hj, hv⟩ := (h₁ l m v).1 hv
      exact ⟨i, j, (hplace r i).2 ⟨l, hl, hi⟩, (hplace t j).2 ⟨m, hm, hj⟩, hv⟩
    · rintro ⟨i, j, hi, hj, hv⟩
      obtain ⟨l, hl, hi⟩ := (hplace r i).1 hi
      obtain ⟨m, hm, hj⟩ := (hplace t j).1 hj
      exact ⟨l, m, hl, hm, (h₁ l m v).2 ⟨i, j, hi, hj, hv⟩⟩
  · exact Eq.trans h₂ h₁

end Problem

namespace Store

open Problem (QuadKept)

variable {s s' s₁ s₂ : Store} {k : Kind} {removed A B R AB : List ℕ}

/-! ## What stands at the new numbers -/

/-- Columns or rows have been deleted and nothing else has changed of the problem or the parameters:
what stands at a new number is what stood at the number kept. -/
structure Deleted (k : Kind) (removed : List ℕ) (s s' : Store) : Prop where
  records : ∀ r : ℕ, (s'.records k)[r]? =
    (kept removed (s.count k))[r]?.bind fun i => (s.records k)[i]?
  others : s'.records k.other = s.records k.other
  entries : ∀ (r j : ℕ) v, (s'.problem.lines k).get? (r, j) = some v ↔
    ∃ i, (kept removed (s.count k))[r]? = some i ∧ (s.problem.lines k).get? (i, j) = some v
  quad : QuadKept (kept removed (s.count k)) s.problem s'.problem k
  name : s'.problem.name = s.problem.name
  minSense : s'.problem.minSense = s.problem.minSense
  objConst : s'.problem.objConst = s.problem.objConst
  params : s'.params = s.params
  /-- The two copies of the matrix agree, and the quadratic form is in order. -/
  wellFormed : s'.problem.WellFormed

/-- Deleting from a store is deleting from its problem. -/
theorem run_deletion_eq (k : Kind) (removed : List ℕ) :
    (Op.deletion k removed).run = TaskFile.attempt (·.edit (·.deletion k removed)) := by
  cases k <;> rfl

/-- A deletion of a sound store that succeeds leaves the numbers that are kept. -/
theorem Sound.deleted (h : s.Sound) (hrun : (Op.deletion k removed).run s = (.ok (), s')) :
    Deleted k removed s s' := by
  have hsound : s'.Sound := by
    have hs := h.run (.deletion k removed)
    rwa [hrun] at hs
  obtain ⟨hrecords, hothers⟩ := run_deletion hrun
  obtain ⟨p, hp, rfl⟩ := edit_eq_ok (run_eq_ok (run_deletion_eq k removed) hrun)
  have hquad := Problem.quadKept_deletion h.problem hp
  obtain ⟨hentries, hname, hsense, hconst⟩ := Problem.deletion_eq_ok hp
  have hcount : s.count k = s.problem.count k := by cases k <;> rfl
  constructor
  case records =>
    intro r
    rw [hrecords, getElem?_survivors_eq, length_records]
  case others => exact hothers k.other (by cases k <;> decide)
  case entries =>
    intro r j v
    refine (hentries r j v).trans (exists_congr fun i => ?_)
    constructor
    · rintro ⟨hi, hv⟩
      exact ⟨getElem?_kept.2 ⟨hcount ▸ (h.problem.lines_lt hv).1, hi⟩, hv⟩
    · rintro ⟨hi, hv⟩
      exact ⟨(getElem?_kept.1 hi).2, hv⟩
  case quad => exact hcount ▸ hquad
  case name => exact hname
  case minSense => exact hsense
  case objConst => exact hconst
  case params => rfl
  case wellFormed => exact hsound.problem

/-- Numbers in range can be deleted. -/
theorem exists_deletion (s : Store) (hremoved : ∀ i ∈ removed, i < s.count k) :
    ∃ p, s.problem.deletion k removed = .ok p ∧
      (Op.deletion k removed).run s = (.ok (), s.withProblem p) := by
  have hinside : ¬removed.any (s.count k ≤ ·) = true := Problem.not_any_of_lt hremoved
  have hdeletion : ∃ p, s.problem.deletion k removed = .ok p := by
    cases k
    · exact ⟨_, if_neg hinside⟩
    · exact ⟨_, if_neg hinside⟩
  obtain ⟨p, hp⟩ := hdeletion
  exact ⟨p, hp, run_of_edit (run_deletion_eq k removed) hp⟩

namespace Deleted

/-- As many columns or rows are left as numbers are kept. -/
theorem count (h : Deleted k removed s s') :
    s'.count k = (kept removed (s.count k)).length := by
  refine eq_of_forall_ge_iff fun r => ?_
  rw [← length_records, ← List.getElem?_eq_none_iff, ← List.getElem?_eq_none_iff, h.records]
  cases hr : (kept removed (s.count k))[r]? with
  | none => simp
  | some i =>
    -- A number that is kept has a record.
    have hi : i < (s.records k).length := by
      rw [length_records]
      exact (getElem?_kept.1 hr).1
    simp [hi]

/-- What is left is a problem that is given by what was there. -/
theorem problem_eq (h₁ : Deleted k removed s s₁) (h₂ : Deleted k removed s s₂) :
    s₁.problem = s₂.problem := by
  have hrecords : s₁.records k = s₂.records k := by
    refine List.ext_getElem? fun r => ?_
    rw [h₁.records, h₂.records]
  have hothers : s₁.records k.other = s₂.records k.other := h₁.others.trans h₂.others.symm
  have hmatrix : s₁.problem.matrix = s₂.problem.matrix :=
    h₁.wellFormed.matrix_ext h₂.wellFormed fun r j v =>
      (h₁.entries r j v).trans (h₂.entries r j v).symm
  have hname : s₁.problem.name = s₂.problem.name := h₁.name.trans h₂.name.symm
  have hsense : s₁.problem.minSense = s₂.problem.minSense := h₁.minSense.trans h₂.minSense.symm
  have hconst : s₁.problem.objConst = s₂.problem.objConst := h₁.objConst.trans h₂.objConst.symm
  have hquad : s₁.problem.quad = s₂.problem.quad := by
    cases k
    · refine h₁.wellFormed.quad_ext h₂.wellFormed fun e v => ?_
      induction e using Sym2.inductionOn with
      | hf r t => exact (h₁.quad r t v).trans (h₂.quad r t v).symm
    · exact Eq.trans h₁.quad (Eq.symm h₂.quad)
  rcases s₁ with ⟨⟨_, _, _, _, _, _, _⟩, _, _, _, _, _⟩
  rcases s₂ with ⟨⟨_, _, _, _, _, _, _⟩, _, _, _, _, _⟩
  cases k <;> simp only [Store.records, Kind.other] at * <;> congr

/-- Neither the order of the numbers nor repetitions matter. -/
theorem congr (h : Deleted k A s s') (hAB : ∀ i, i ∈ A ↔ i ∈ B) : Deleted k B s s' := by
  have hkept : kept A (s.count k) = kept B (s.count k) := kept_congr hAB _
  constructor
  case records => exact hkept ▸ h.records
  case entries => exact hkept ▸ h.entries
  case quad => exact hkept ▸ h.quad
  case others => exact h.others
  case name => exact h.name
  case minSense => exact h.minSense
  case objConst => exact h.objConst
  case params => exact h.params
  case wellFormed => exact h.wellFormed

/-- Deleting nothing leaves everything. -/
theorem refl (h : s.problem.WellFormed) (k : Kind) : Deleted k [] s s := by
  have hcount : s.count k = s.problem.count k := by cases k <;> rfl
  constructor
  case records =>
    intro r
    obtain hlt | hge := Nat.lt_or_ge r (s.count k)
    · rw [getElem?_kept_nil.2 ⟨hlt, rfl⟩, Option.bind_some]
    · have hnone : (kept [] (s.count k))[r]? = none := by
        refine Option.eq_none_iff_forall_ne_some.2 fun i hi => ?_
        obtain ⟨hlt, rfl⟩ := getElem?_kept_nil.1 hi
        omega
      rw [hnone, List.getElem?_eq_none (by rwa [length_records])]
      rfl
  case entries =>
    intro r j v
    constructor
    · intro hv
      exact ⟨r, getElem?_kept_nil.2 ⟨hcount ▸ (h.lines_lt hv).1, rfl⟩, hv⟩
    · rintro ⟨i, hi, hv⟩
      rwa [(getElem?_kept_nil.1 hi).2]
  case quad => exact hcount ▸ QuadKept.refl h k
  case wellFormed => exact h
  all_goals rfl

/-- Deleting twice is deleting once what both remove. -/
theorem trans (h₁ : Deleted k A s s₁) (h₂ : Deleted k R s₁ s₂)
    (hR : ∀ r, r ∈ R ↔ ∃ b ∈ B, (kept A (s.count k))[r]? = some b)
    (hAB : ∀ i, i ∈ AB ↔ i ∈ A ∨ i ∈ B) : Deleted k AB s s₂ := by
  have hkept (r : ℕ) : (kept AB (s.count k))[r]? =
      (kept R (s₁.count k))[r]?.bind ((kept A (s.count k))[·]?) := by
    rw [h₁.count]
    exact getElem?_kept_kept hR hAB r
  have hplace (r i : ℕ) : (kept AB (s.count k))[r]? = some i ↔
      ∃ l, (kept R (s₁.count k))[r]? = some l ∧ (kept A (s.count k))[l]? = some i := by
    rw [hkept, Option.bind_eq_some_iff]
  constructor
  case records =>
    intro r
    rw [h₂.records, hkept, Option.bind_assoc]
    exact congrArg _ (funext h₁.records)
  case others => exact h₂.others.trans h₁.others
  case entries =>
    intro r j v
    rw [h₂.entries]
    constructor
    · rintro ⟨l, hl, hv⟩
      obtain ⟨i, hi, hv⟩ := (h₁.entries l j v).1 hv
      exact ⟨i, (hplace r i).2 ⟨l, hl, hi⟩, hv⟩
    · rintro ⟨i, hi, hv⟩
      obtain ⟨l, hl, hi⟩ := (hplace r i).1 hi
      exact ⟨l, hl, (h₁.entries l j v).2 ⟨i, hi, hv⟩⟩
  case quad => exact h₁.quad.trans h₂.quad hplace
  case name => exact h₂.name.trans h₁.name
  case minSense => exact h₂.minSense.trans h₁.minSense
  case objConst => exact h₂.objConst.trans h₁.objConst
  case params => exact h₂.params.trans h₁.params
  case wellFormed => exact h₂.wellFormed

end Deleted

/-- Deleting some numbers and then others, by their new numbers, gives the store that deleting all
of them at once gives. -/
theorem Sound.deletion_deletion (h : s.Sound) (hA : ∀ i ∈ A, i < s.count k)
    (hB : ∀ i ∈ B, i < s.count k) (hR : ∀ r, r ∈ R ↔ ∃ b ∈ B, (kept A (s.count k))[r]? = some b)
    (hAB : ∀ i, i ∈ AB ↔ i ∈ A ∨ i ∈ B) :
    (Op.deletion k R).run ((Op.deletion k A).run s).2 = (Op.deletion k AB).run s := by
  have hABlt : ∀ i ∈ AB, i < s.count k := fun i hi => ((hAB i).1 hi).elim (hA i) (hB i)
  obtain ⟨p₁, -, hrun₁⟩ := exists_deletion s hA
  obtain ⟨p, -, hrun⟩ := exists_deletion s hABlt
  have h₁ : Deleted k A s (s.withProblem p₁) := h.deleted hrun₁
  have hsound₁ : (s.withProblem p₁).Sound := by
    have hs := h.run (.deletion k A)
    rwa [hrun₁] at hs
  -- A new number is in range, since it is a place among the numbers kept.
  have hRlt : ∀ r ∈ R, r < (s.withProblem p₁).count k := by
    intro r hr
    obtain ⟨b, -, hb⟩ := (hR r).1 hr
    rw [h₁.count]
    exact (List.getElem?_eq_some_iff.1 hb).1
  obtain ⟨p₂, -, hrun₂⟩ := exists_deletion (s.withProblem p₁) hRlt
  have h₂ : Deleted k AB s (s.withProblem p₂) := h₁.trans (hsound₁.deleted hrun₂) hR hAB
  have hproblem : p₂ = p := h₂.problem_eq (h.deleted hrun)
  rw [hrun₁, hrun, hrun₂, hproblem]
  rfl

end Store

end MathProgram
