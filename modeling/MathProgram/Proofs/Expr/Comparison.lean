import MathProgram.Proofs.Expr.Canonical
import MathProgram.Proofs.Expr.Merged

/-!
# Comparing expressions

Comparing two linear expressions or two columns merges both, unless their sizes or constants tell
that they differ, and then asks whether the same things have the same coefficients. A comparison of
quadratic expressions asks this of the products as they stand and compares the linear parts. Either
way both operands may be left changed.

All the same a comparison is a `FaithfulComparison`: operands that are found equal have the same
value, the answer does not depend on which operand comes first, the operands that are left have the
values they had, and comparing them once more gives the same. For linear expressions and columns the
answer is one about sizes, constants and sums of coefficients (`LinearExpr.equals_iff`,
`Column.equals_iff`), so the order of the terms plays no part in it.
-/

namespace MathProgram

variable {k : Kind} {α : Type}

/-! ## Terms by names -/

namespace Terms

variable [DecidableEq α] {ss ts : Terms k α}

/-- Terms are equal one by one if the same things have the same coefficients. -/
theorem same_iff_named : ss.same ts = true ↔ ss.named = ts.named := by
  induction ss generalizing ts with
  | nil => cases ts <;> simp [same, named]
  | cons s ss ih =>
    cases ts with
    | nil => simp [same, named]
    | cons t ts =>
      rw [same, Bool.and_eq_true, Bool.and_eq_true, Handle.same_iff, beq_iff_eq, ih]
      simp only [named, List.map_cons, List.cons.injEq, Prod.mk.injEq, and_assoc]

omit [DecidableEq α] in
/-- Terms for the same things are equally many. -/
theorem length_eq_of_named (h : ss.named = ts.named) : ss.length = ts.length := by
  simpa only [named, List.length_map] using congrArg List.length h

omit [DecidableEq α] in
/-- The value of terms depends on what has which coefficient. -/
theorem eval_congr [CommRing α] {ρ : Assignment α} (h : ss.named = ts.named) :
    ss.eval ρ = ts.eval ρ := by
  have heval (ts : Terms k α) :
      ts.eval ρ = (ts.named.map fun t => t.2.2 * ρ k t.1 t.2.1).sum := by
    rw [named, List.map_map]
    rfl
  rw [heval, h, heval]

end Terms

namespace QuadTerm

variable {ss ts : List (QuadTerm α)}

/-- Products are equal one by one if the same pairs have the same coefficients. -/
theorem same_iff_named [DecidableEq α] : same ss ts = true ↔ named ss = named ts := by
  induction ss generalizing ts with
  | nil => cases ts <;> simp [same, named]
  | cons s ss ih =>
    cases ts with
    | nil => simp [same, named]
    | cons t ts =>
      rw [same, Bool.and_eq_true, Bool.and_eq_true, samePair_iff, place_eq_iff_names, beq_iff_eq,
        ih]
      simp only [named, List.map_cons, List.cons.injEq, Prod.mk.injEq]

/-- The value of products depends on which pair has which coefficient. -/
theorem eval_congr [CommRing α] {ρ : Assignment α} (h : named ss = named ts) :
    eval ρ ss = eval ρ ts := by
  have heval (ts : List (QuadTerm α)) : eval ρ ts = ((named ts).map fun t =>
      t.2 * (ρ .variable t.1.1.1 t.1.1.2 * ρ .variable t.1.2.1 t.1.2.2)).sum := by
    rw [named, List.map_map]
    rfl
  rw [heval, h, heval]

end QuadTerm

/-! ## Faithful comparisons -/

/-- A comparison, which answers and leaves both operands in some form, can be relied on. -/
structure FaithfulComparison (α : Type) {ε : Type} (value : Assignment α → ε → α)
    (equals : ε → ε → Bool × ε × ε) : Prop where
  /-- Operands that are found equal have the same value, whatever the entities have. -/
  sound : ∀ a b, (equals a b).1 = true → ∀ ρ, value ρ a = value ρ b
  /-- The operands may be exchanged. -/
  symm : ∀ a b, equals b a = ((equals a b).1, (equals a b).2.2, (equals a b).2.1)
  /-- A comparison of the operands that are left answers the same and leaves them. -/
  again : ∀ a b, equals (equals a b).2.1 (equals a b).2.2 = equals a b
  value_left : ∀ a b ρ, value ρ (equals a b).2.1 = value ρ a
  value_right : ∀ a b ρ, value ρ (equals a b).2.2 = value ρ b

/-- A comparison of what merging gives, behind one of a shape, is faithful. -/
theorem FaithfulComparison.of_purge {ε γ : Type} [DecidableEq γ] [DecidableEq α]
    {value : Assignment α → ε → α} {equals : ε → ε → Bool × ε × ε} {purge : ε → ε} (shape : ε → γ)
    (named : ε → List (ModelId × ℕ × α))
    (h : ∀ a b, equals a b = if shape a = shape b then
      (decide (named (purge a) = named (purge b)), purge a, purge b) else (false, a, b))
    (hpurge : ∀ a, purge (purge a) = purge a) (hvalue : ∀ a ρ, value ρ (purge a) = value ρ a)
    (hnamed : ∀ a b, shape a = shape b → named (purge a) = named (purge b) →
      shape (purge a) = shape (purge b) ∧ ∀ ρ, value ρ (purge a) = value ρ (purge b)) :
    FaithfulComparison α value equals where
  sound a b hequal ρ := by
    rw [h] at hequal
    split_ifs at hequal with hshape
    rw [← hvalue, (hnamed a b hshape (of_decide_eq_true hequal)).2, hvalue]
  symm a b := by
    simp only [h, eq_comm (a := shape b), eq_comm (a := named (purge b))]
    split_ifs <;> rfl
  again a b := by
    rw [h a b]
    split_ifs with hshape
    · rw [h, hpurge, hpurge]
      -- Merged lists that differ in their shapes differ.
      split_ifs with hpurged
      · rfl
      · rw [decide_eq_false fun hn => hpurged (hnamed a b hshape hn).1]
    · rw [h, if_neg hshape]
  value_left a b ρ := by
    rw [h]
    split_ifs
    · exact hvalue a ρ
    · rfl
  value_right a b ρ := by
    rw [h]
    split_ifs
    · exact hvalue b ρ
    · rfl

variable [DecidableEq α]

section

variable [Add α]

/-- Linear expressions are compared by what has which coefficient. -/
theorem LinearExpr.equals_eq (a b : LinearExpr α) : a.equals b =
    if (a.length, a.constant) = (b.length, b.constant) then
      (decide (a.purge.terms.named = b.purge.terms.named), a.purge, b.purge)
    else (false, a, b) := by
  simp only [equals, Prod.mk.injEq, Bool.or_eq_true, bne_iff_ne, ← Terms.same_iff_named,
    Bool.decide_eq_true, ← not_and_or, ite_not]

/-- Linear expressions are found equal if they are of one size, with one constant, and the sums of
the coefficients of every variable agree. -/
theorem LinearExpr.equals_iff {a b : LinearExpr α} : (a.equals b).1 = true ↔
    a.length = b.length ∧ a.constant = b.constant ∧ ∀ x, a.terms.sumOf? x = b.terms.sumOf? x := by
  rw [equals_eq, ← Terms.named_purge_eq_iff, ← and_assoc, ← Prod.mk.injEq]
  split_ifs with hshape
  · rw [decide_eq_true_iff, and_iff_right hshape, purge, purge]
  · exact iff_of_false not_false fun h => hshape h.1

/-- Columns are compared by what has which coefficient. -/
theorem Column.equals_eq (a b : Column α) : a.equals b =
    if a.length = b.length then
      (decide (a.purge.terms.named = b.purge.terms.named), a.purge, b.purge)
    else (false, a, b) := by
  simp only [equals, bne_iff_ne, ← Terms.same_iff_named, Bool.decide_eq_true, ite_not]

/-- Columns are found equal if they are of one size and the sums of the coefficients of every
constraint agree. -/
theorem Column.equals_iff {a b : Column α} : (a.equals b).1 = true ↔
    a.length = b.length ∧ ∀ r, a.terms.sumOf? r = b.terms.sumOf? r := by
  rw [equals_eq, ← Terms.named_purge_eq_iff]
  split_ifs with hlength
  · rw [decide_eq_true_iff, and_iff_right hlength, purge, purge]
  · exact iff_of_false not_false fun h => hlength h.1

/-- Quadratic expressions are compared by which pair has which coefficient, and by the linear
parts. -/
theorem QuadExpr.equals_eq (a b : QuadExpr α) : a.equals b =
    if QuadTerm.named a.quad = QuadTerm.named b.quad then
      ((a.linear.equals b.linear).1, ⟨(a.linear.equals b.linear).2.1, a.quad⟩,
        ⟨(a.linear.equals b.linear).2.2, b.quad⟩)
    else (false, a, b) := by
  simp only [equals, QuadTerm.same_iff_named]

/-- Quadratic expressions are found equal if their products agree one by one and their linear parts
are found equal. -/
theorem QuadExpr.equals_iff {a b : QuadExpr α} : (a.equals b).1 = true ↔
    QuadTerm.named a.quad = QuadTerm.named b.quad ∧ (a.linear.equals b.linear).1 = true := by
  rw [equals_eq]
  split_ifs with hnamed
  · rw [and_iff_right hnamed]
  · exact iff_of_false not_false fun h => hnamed h.1

end

variable [CommRing α]

/-- Comparing linear expressions is faithful. -/
theorem LinearExpr.faithful : FaithfulComparison α eval equals := by
  refine .of_purge (fun e => (e.length, e.constant)) (·.terms.named) equals_eq (fun a => ?_)
    (fun a ρ => a.eval_purge) fun a b hshape hnamed => ?_
  · rw [purge, purge, Terms.purge_purge]
  · obtain ⟨-, hconstant⟩ := Prod.mk.inj hshape
    refine ⟨Prod.ext (Terms.length_eq_of_named hnamed) hconstant, fun ρ => ?_⟩
    exact congrArg₂ (· + ·) (Terms.eval_congr hnamed) hconstant

/-- Comparing columns is faithful. -/
theorem Column.faithful : FaithfulComparison α eval equals := by
  refine .of_purge length (·.terms.named) equals_eq (fun a => ?_) (fun a ρ => a.eval_purge)
    fun a b _ hnamed => ?_
  · rw [purge, purge, Terms.purge_purge]
  · exact ⟨Terms.length_eq_of_named hnamed, fun ρ => Terms.eval_congr hnamed⟩

/-- Comparing quadratic expressions is faithful, as comparing their linear parts is. -/
theorem QuadExpr.faithful : FaithfulComparison α eval equals where
  sound a b hequal ρ := by
    rw [equals_eq] at hequal
    split_ifs at hequal with hnamed
    rw [eval, eval, QuadTerm.eval_congr hnamed, LinearExpr.faithful.sound _ _ hequal]
  symm a b := by
    rw [equals_eq, equals_eq, LinearExpr.faithful.symm a.linear]
    simp only [eq_comm (a := QuadTerm.named b.quad)]
    split_ifs <;> rfl
  again a b := by
    rw [equals_eq a b]
    split_ifs with hnamed
    · rw [equals_eq, if_pos hnamed, LinearExpr.faithful.again]
    · rw [equals_eq, if_neg hnamed]
  value_left a b ρ := by
    rw [equals_eq]
    split_ifs
    · exact congrArg (QuadTerm.eval ρ a.quad + ·) (LinearExpr.faithful.value_left ..)
    · rfl
  value_right a b ρ := by
    rw [equals_eq]
    split_ifs
    · exact congrArg (QuadTerm.eval ρ b.quad + ·) (LinearExpr.faithful.value_right ..)
    · rfl

/-- In exact arithmetic every comparison is faithful, though it leaves its operands changed. Linear
expressions and columns are found equal just if their sizes, their constants and all sums of their
coefficients agree, whatever the order of the terms, and quadratic expressions if their products
agree besides. -/
theorem equals_faithful (α : Type) [CommRing α] [DecidableEq α] :
    (FaithfulComparison α LinearExpr.eval LinearExpr.equals ∧
      FaithfulComparison α Column.eval Column.equals ∧
      FaithfulComparison α QuadExpr.eval QuadExpr.equals) ∧
    ((∀ a b : LinearExpr α, (a.equals b).1 = true ↔ a.length = b.length ∧
        a.constant = b.constant ∧ ∀ x, a.terms.sumOf? x = b.terms.sumOf? x) ∧
      (∀ a b : Column α, (a.equals b).1 = true ↔ a.length = b.length ∧
        ∀ r, a.terms.sumOf? r = b.terms.sumOf? r) ∧
      ∀ a b : QuadExpr α, (a.equals b).1 = true ↔
        QuadTerm.named a.quad = QuadTerm.named b.quad ∧ (a.linear.equals b.linear).1 = true) ∧
    (∀ (a b : LinearExpr α) (ss ts : Terms .variable α), ss.Perm a.terms → ts.Perm b.terms →
      (LinearExpr.equals { a with terms := ss } { b with terms := ts }).1 = (a.equals b).1) ∧
    ∀ (a b : Column α) (ss ts : Terms .constraint α), ss.Perm a.terms → ts.Perm b.terms →
      (Column.equals { a with terms := ss } { b with terms := ts }).1 = (a.equals b).1 := by
  refine ⟨⟨LinearExpr.faithful, Column.faithful, QuadExpr.faithful⟩,
    ⟨fun _ _ => LinearExpr.equals_iff, fun _ _ => Column.equals_iff,
      fun _ _ => QuadExpr.equals_iff⟩, fun a b ss ts hss hts => ?_, fun a b ss ts hss hts => ?_⟩
  · rw [Bool.eq_iff_iff, LinearExpr.equals_iff, LinearExpr.equals_iff]
    simp only [LinearExpr.length, hss.length_eq, hts.length_eq, Terms.sumOf?_of_perm hss,
      Terms.sumOf?_of_perm hts]
  · rw [Bool.eq_iff_iff, Column.equals_iff, Column.equals_iff]
    simp only [Column.length, hss.length_eq, hts.length_eq, Terms.sumOf?_of_perm hss,
      Terms.sumOf?_of_perm hts]

/-- Operands with the same sums, whose terms are put in another order. -/
theorem equals_faithful_reversed :
    let x : Var := ⟨0, 0, 0⟩
    let y : Var := ⟨0, 1, 0⟩
    let a : LinearExpr ℤ := ⟨[(y, 3), (x, 2), (x, 4)], 1⟩
    let b : LinearExpr ℤ := ⟨[(y, 1), (x, 6), (y, 2)], 1⟩
    let r : Cons := ⟨0, 0, 0⟩
    let c : Column ℤ := ⟨[(r, 2), (r, 4)]⟩
    let d : Column ℤ := ⟨[(r, 1), (r, 5)]⟩
    (a.terms.reverse.Perm a.terms ∧ b.terms.reverse.Perm b.terms ∧
      (LinearExpr.equals { a with terms := a.terms.reverse }
        { b with terms := b.terms.reverse }).1 = true) ∧
    c.terms.reverse.Perm c.terms ∧ d.terms.reverse.Perm d.terms ∧
      (Column.equals { c with terms := c.terms.reverse }
        { d with terms := d.terms.reverse }).1 = true := by
  intro x y a b r c d
  obtain ⟨-, -, hlinear, hcolumn⟩ := equals_faithful ℤ
  have ha : a.terms.purge = [(x, 6), (y, 3)] :=
    (Terms.isMerged_iff.1 ⟨by decide, by decide, by decide, by decide⟩).symm
  have hb : b.terms.purge = [(x, 6), (y, 3)] :=
    (Terms.isMerged_iff.1 ⟨by decide, by decide, by decide, by decide⟩).symm
  have hc : c.terms.purge = [(r, 6)] :=
    (Terms.isMerged_iff.1 ⟨by decide, by decide, by decide, by decide⟩).symm
  have hd : d.terms.purge = [(r, 6)] :=
    (Terms.isMerged_iff.1 ⟨by decide, by decide, by decide, by decide⟩).symm
  have hab : (a.equals b).1 = true := by
    rw [LinearExpr.equals_iff, ← Terms.named_purge_eq_iff, ha, hb]
    exact ⟨rfl, rfl, rfl⟩
  have hcd : (c.equals d).1 = true := by
    rw [Column.equals_iff, ← Terms.named_purge_eq_iff, hc, hd]
    exact ⟨rfl, rfl⟩
  exact ⟨⟨List.reverse_perm _, List.reverse_perm _,
    (hlinear a b _ _ (List.reverse_perm _) (List.reverse_perm _)).trans hab⟩,
    List.reverse_perm _, List.reverse_perm _,
    (hcolumn c d _ _ (List.reverse_perm _) (List.reverse_perm _)).trans hcd⟩

end MathProgram
