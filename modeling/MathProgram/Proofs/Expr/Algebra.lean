import MathProgram.Expr.Appending
import MathProgram.Proofs.Expr.Canonical

/-!
# The algebra of expressions

In exact arithmetic an operation on expressions does to values what its name says. Adding a multiple
of an expression adds the multiple of its value (`AddsMultiples`), an operator on variables,
constants and linear expressions is that operator on values (`Operators`), and merging keeps the
value.

Removing and appending change one part of an expression, its linear terms or its products, and leave
the rest. A `Part` is such a view of an expression, with what its terms count for. Out of it are
taken the terms for one variable or constraint, or for one product in either order (`Removes`), and
into it are put those that given lists select (`Appends`). In place terms are appended one by one;
as the lists are checked before the first of them, an expression on which a call fails is left as it
was.
-/

namespace MathProgram

variable {α : Type}

/-! ## Multiples -/

/-- Adding a multiple, adding and subtracting do so with the values. -/
structure AddsMultiples [CommRing α] {ε δ : Type} (value : ε → α) (other : δ → α)
    (multAdd : ε → α → δ → ε) (add subtract : ε → δ → ε) : Prop where
  value_multAdd : ∀ e c o, value (multAdd e c o) = value e + c * other o
  /-- Zero times an expression does not even append terms. -/
  multAdd_zero : ∀ e o, multAdd e 0 o = e
  value_add : ∀ e o, value (add e o) = value e + other o
  value_subtract : ∀ e o, value (subtract e o) = value e - other o

section

variable [CommRing α]

/-- Adding and subtracting are adding a multiple by one and by minus one. -/
theorem AddsMultiples.of_multAdd {ε δ : Type} {value : ε → α} {other : δ → α}
    {multAdd : ε → α → δ → ε} (hzero : ∀ e o, multAdd e 0 o = e)
    (h : ∀ e c o, c ≠ 0 → value (multAdd e c o) = value e + c * other o) :
    AddsMultiples value other multAdd (multAdd · 1) (multAdd · (-1)) := by
  have hvalue (e : ε) (c : α) (o : δ) : value (multAdd e c o) = value e + c * other o := by
    by_cases hc : c = 0
    · rw [hc, hzero, zero_mul, add_zero]
    · exact h e c o hc
  refine ⟨hvalue, hzero, fun e o => ?_, fun e o => ?_⟩
  · rw [hvalue, one_mul]
  · rw [hvalue, neg_one_mul, sub_eq_add_neg]

variable [DecidableEq α] (ρ : Assignment α)

/-- Linear expressions add multiples of each other. -/
theorem LinearExpr.addsMultiples :
    AddsMultiples (LinearExpr.eval ρ) (LinearExpr.eval ρ) multAdd add subtract := by
  refine .of_multAdd (fun _ _ => if_pos (beq_self_eq_true 0)) fun e c o hc => ?_
  rw [multAdd, if_neg (mt beq_iff_eq.1 hc), eval, Terms.eval_multAdd, eval, eval]
  ring

/-- Columns add multiples of each other. -/
theorem Column.addsMultiples :
    AddsMultiples (Column.eval ρ) (Column.eval ρ) multAdd add subtract :=
  .of_multAdd (fun _ _ => congrArg Column.mk (if_pos (beq_self_eq_true 0)))
    fun a c o _ => Terms.eval_multAdd a.terms c o.terms

/-- Quadratic expressions add multiples of each other, in both parts. -/
theorem QuadExpr.addsMultiples :
    AddsMultiples (QuadExpr.eval ρ) (QuadExpr.eval ρ) multAdd add subtract := by
  refine .of_multAdd (fun _ _ => if_pos (beq_self_eq_true 0)) fun q c o hc => ?_
  rw [multAdd, if_neg (mt beq_iff_eq.1 hc), eval, (LinearExpr.addsMultiples ρ).value_multAdd,
    QuadTerm.eval, Merging.total_append, Merging.total_map_mul_left, eval, eval, QuadTerm.eval,
    QuadTerm.eval]
  ring

/-- Quadratic expressions add multiples of linear ones, in the linear part. -/
theorem QuadExpr.addsMultiples_linear :
    AddsMultiples (QuadExpr.eval ρ) (LinearExpr.eval ρ)
      (fun q c o => q.mapLinear (·.multAdd c o)) (fun q o => q.mapLinear (·.add o))
      (fun q o => q.mapLinear (·.subtract o)) := by
  refine .of_multAdd (fun q o => ?_) fun q c o _ => ?_
  · rw [mapLinear, (LinearExpr.addsMultiples ρ).multAdd_zero]
  · rw [eval, mapLinear, (LinearExpr.addsMultiples ρ).value_multAdd, eval, add_assoc]

end

/-! ## Operators -/

/-- The operators on variables, constants and linear expressions are those on values. -/
structure Operators [CommRing α] [DecidableEq α] (ρ : Assignment α) : Prop where
  ofConstant : ∀ c : α, (LinearExpr.ofConstant c).eval ρ = c
  ofVar : ∀ x : Var, (LinearExpr.ofVar x).eval ρ = x.value ρ
  ofLinear : ∀ e : LinearExpr α, (QuadExpr.ofLinear e).eval ρ = e.eval ρ
  /-- A variable times a constant, in either order. -/
  ofTerm : ∀ (c : α) (x : Var), (LinearExpr.ofTerm c x).eval ρ = c * x.value ρ
  exprPlusExpr : ∀ e o : LinearExpr α, (e.add o).eval ρ = e.eval ρ + o.eval ρ
  exprMinusExpr : ∀ e o : LinearExpr α, (e.subtract o).eval ρ = e.eval ρ - o.eval ρ
  exprPlusVar : ∀ (e : LinearExpr α) (x : Var), (e.plusVar x).eval ρ = e.eval ρ + x.value ρ
  exprMinusVar : ∀ (e : LinearExpr α) (x : Var), (e.minusVar x).eval ρ = e.eval ρ - x.value ρ
  exprPlusConstant : ∀ (e : LinearExpr α) (c : α), (e.addConstant c).eval ρ = e.eval ρ + c
  exprMinusConstant : ∀ (e : LinearExpr α) (c : α), (e.minusConstant c).eval ρ = e.eval ρ - c
  exprTimesConstant : ∀ (e : LinearExpr α) (c : α), (e.scale c).eval ρ = e.eval ρ * c
  neg : ∀ e : LinearExpr α, e.neg.eval ρ = -e.eval ρ
  varPlusVar : ∀ x y : Var, (x.plus y).eval ρ = x.value ρ + y.value ρ
  varMinusVar : ∀ x y : Var, (x.minus y).eval ρ = x.value ρ - y.value ρ
  varPlusConstant : ∀ (x : Var) (c : α), (x.plusConstant c).eval ρ = x.value ρ + c
  varMinusConstant : ∀ (x : Var) (c : α), (x.minusConstant c).eval ρ = x.value ρ - c
  varPlusExpr : ∀ (x : Var) (e : LinearExpr α), (x.plusExpr e).eval ρ = x.value ρ + e.eval ρ
  varMinusExpr : ∀ (x : Var) (e : LinearExpr α), (x.minusExpr e).eval ρ = x.value ρ - e.eval ρ

namespace LinearExpr

variable [CommRing α] {ρ : Assignment α}

/-- The value of a linear expression with a term appended. -/
theorem eval_addTerm (e : LinearExpr α) (c : α) (x : Var) :
    (e.addTerm c x).eval ρ = e.eval ρ + c * x.value ρ := by
  rw [eval, addTerm, Terms.eval_append, Terms.eval_cons, Terms.eval_nil, eval]
  ring

/-- The value of a linear expression with all signs changed. -/
theorem eval_neg (e : LinearExpr α) : e.neg.eval ρ = -e.eval ρ := by
  rw [eval, neg, Terms.eval, Merging.total_map_neg, eval, Terms.eval, neg_add]

/-- The value of a linear expression multiplied from the right. -/
theorem eval_scale (e : LinearExpr α) (c : α) : (e.scale c).eval ρ = e.eval ρ * c := by
  rw [eval, scale, Terms.eval, Merging.total_map_mul_right, eval, Terms.eval, add_mul]

end LinearExpr

open LinearExpr in
/-- Each of them is that on values. -/
theorem operators [CommRing α] [DecidableEq α] (ρ : Assignment α) : Operators ρ where
  ofConstant c := by rw [ofConstant, eval, Terms.eval_nil, zero_add]
  ofVar x := by simp [ofVar, ofTerm, eval]
  ofLinear e := zero_add _
  ofTerm c x := by simp [ofTerm, eval]
  exprPlusExpr := (addsMultiples ρ).value_add
  exprMinusExpr := (addsMultiples ρ).value_subtract
  exprPlusVar e x := by rw [plusVar, eval_addTerm, one_mul]
  exprMinusVar e x := by rw [minusVar, eval_addTerm, neg_one_mul, sub_eq_add_neg]
  exprPlusConstant e c := (add_assoc ..).symm
  exprMinusConstant e c := (add_sub_assoc ..).symm
  exprTimesConstant := eval_scale
  neg := eval_neg
  varPlusVar x y := by simp [Var.plus, eval]
  varMinusVar x y := by simp [Var.minus, eval, sub_eq_add_neg]
  varPlusConstant x c := by simp [Var.plusConstant, eval]
  varMinusConstant x c := by simp [Var.minusConstant, eval, sub_eq_add_neg]
  varPlusExpr x e := by rw [Var.plusExpr, plusVar, eval_addTerm, one_mul, add_comm]
  varMinusExpr x e := by
    rw [Var.minusExpr, plusVar, eval_addTerm, eval_neg, one_mul, neg_add_eq_sub]

/-! ## Parts of an expression -/

/-- The terms of one sort in an expression: how they are read and replaced, and what they count
for. -/
structure Part (ε β α : Type) [CommRing α] where
  terms : ε → List (β × α)
  withTerms : ε → List (β × α) → ε
  value : ε → α
  /-- The value of what a term is for. -/
  weight : β → α
  terms_withTerms : ∀ e ts, terms (withTerms e ts) = ts
  withTerms_terms : ∀ e, withTerms e (terms e) = e
  withTerms_withTerms : ∀ e ts us, withTerms (withTerms e ts) us = withTerms e us
  /-- In the value the total of the terms is added to that of the rest. -/
  value_withTerms : ∀ e ts, value (withTerms e ts) =
    value e - Merging.total weight (terms e) + Merging.total weight ts

section

variable [CommRing α] (ρ : Assignment α)

/-- The terms of a linear expression. -/
def LinearExpr.part : Part (LinearExpr α) Var α where
  terms := terms
  withTerms e ts := { e with terms := ts }
  value := eval ρ
  weight := Handle.value ρ
  terms_withTerms _ _ := rfl
  withTerms_terms _ := rfl
  withTerms_withTerms _ _ _ := rfl
  value_withTerms e ts := by
    rw [eval, eval, Terms.eval, Terms.eval]
    ring

/-- The terms of a column. -/
def Column.part : Part (Column α) Cons α where
  terms := terms
  withTerms _ ts := ⟨ts⟩
  value := eval ρ
  weight := Handle.value ρ
  terms_withTerms _ _ := rfl
  withTerms_terms _ := rfl
  withTerms_withTerms _ _ _ := rfl
  value_withTerms a ts := by
    rw [eval, eval, Terms.eval, Terms.eval]
    ring

/-- The linear terms of a quadratic expression. -/
def QuadExpr.linearPart : Part (QuadExpr α) Var α where
  terms q := q.linear.terms
  withTerms q ts := q.mapLinear fun e => { e with terms := ts }
  value := eval ρ
  weight := Handle.value ρ
  terms_withTerms _ _ := rfl
  withTerms_terms _ := rfl
  withTerms_withTerms _ _ _ := rfl
  value_withTerms q ts := by
    rw [eval, eval, mapLinear, LinearExpr.eval, LinearExpr.eval, Terms.eval, Terms.eval]
    ring

/-- The products of a quadratic expression. -/
def QuadExpr.quadPart : Part (QuadExpr α) (Var × Var) α where
  terms := quad
  withTerms q ts := { q with quad := ts }
  value := eval ρ
  weight := QuadTerm.pairValue ρ
  terms_withTerms _ _ := rfl
  withTerms_terms _ := rfl
  withTerms_withTerms _ _ _ := rfl
  value_withTerms q ts := by
    rw [eval, eval, QuadTerm.eval, QuadTerm.eval]
    ring

end

/-! ## Removing terms -/

section

variable [CommRing α] {ε β : Type} (P : Part ε β α)

/-- A removal takes just the terms for one thing, whose value is `v`, out of a part. -/
structure Part.Removes (isFor : β → Prop) [DecidablePred isFor] (v : α) (remove : ε → Bool × ε) :
    Prop where
  /-- It reports whether there were any. -/
  found_iff : ∀ e, (remove e).1 = true ↔ ∃ t ∈ P.terms e, isFor t.1
  left : ∀ e, (remove e).2 = P.withTerms e ((P.terms e).filter fun t => ¬isFor t.1)
  /-- The value loses that of the thing as often as the coefficients say. -/
  value_eq : ∀ e, P.value (remove e).2 =
    P.value e - (((P.terms e).filter fun t => isFor t.1).map (·.2)).sum * v

variable {P}

/-- A filter by a test for the thing is a removal. -/
theorem Part.Removes.of_filter {isFor : β → Prop} [DecidablePred isFor] {v : α} {p : β → Bool}
    {remove : ε → Bool × ε} (hp : ∀ x, p x = true ↔ isFor x) (hv : ∀ x, isFor x → P.weight x = v)
    (h : ∀ e, remove e = ((P.terms e).any fun t => p t.1,
      P.withTerms e ((P.terms e).filter fun t => !p t.1))) :
    P.Removes isFor v remove := by
  have hleft (e : ε) : (remove e).2 = P.withTerms e ((P.terms e).filter fun t => ¬isFor t.1) := by
    simp only [h, ← hp, Bool.not_eq_true, Bool.decide_eq_false]
  refine ⟨fun e => ?_, hleft, fun e => ?_⟩
  · simp only [h, List.any_eq_true, hp]
  · have hweight : ∀ t ∈ (P.terms e).filter fun t => isFor t.1, P.weight t.1 = v := fun t ht =>
      hv t.1 (of_decide_eq_true (List.mem_filter.1 ht).2)
    -- What is left counts for the total less that of the terms taken out, which have one weight.
    have hsplit := Merging.total_filter_add (w := P.weight) (fun t => isFor t.1) (P.terms e)
    rw [hleft, P.value_withTerms, ← hsplit, Merging.total_of_weight hweight]
    simp only [decide_not]
    ring

end

/-- Another handle is for the same thing: it is of the same model and has the same index. -/
def Handle.Names {k : Kind} (x y : Handle k) : Prop := y.model = x.model ∧ y.index = x.index

instance {k : Kind} (x : Handle k) : DecidablePred x.Names := fun _ =>
  inferInstanceAs (Decidable (_ ∧ _))

/-- Handles that name one thing have one value. -/
theorem Handle.value_of_names {k : Kind} (ρ : Assignment α) {x y : Handle k} (h : x.Names y) :
    y.value ρ = x.value ρ := Handle.value_congr (same_iff_place.1 (same_iff.2 h))

section

variable [CommRing α] (ρ : Assignment α)

/-- The terms for a variable are removed from a linear expression. -/
theorem LinearExpr.removes_removeTerm (x : Var) :
    (part ρ).Removes x.Names (x.value ρ) (·.removeTerm x) :=
  .of_filter (fun _ => Handle.same_iff) (fun _ => Handle.value_of_names ρ) fun _ => rfl

/-- The terms for a constraint are removed from a column. -/
theorem Column.removes_removeTerm (r : Cons) :
    (part ρ).Removes r.Names (r.value ρ) (·.removeTerm r) :=
  .of_filter (fun _ => Handle.same_iff) (fun _ => Handle.value_of_names ρ) fun _ => rfl

/-- The linear terms for a variable are removed from a quadratic expression. -/
theorem QuadExpr.removes_removeTerm (x : Var) :
    (linearPart ρ).Removes x.Names (x.value ρ) (·.removeTerm x) :=
  .of_filter (fun _ => Handle.same_iff) (fun _ => Handle.value_of_names ρ) fun _ => rfl

open QuadTerm in
/-- The terms for a product in either order are removed from a quadratic expression. -/
theorem QuadExpr.removes_removeQuadTerm (x y : Var) :
    (quadPart ρ).Removes (fun p => unordered p = unordered (x, y))
      (x.value ρ * y.value ρ) (·.removeQuadTerm x y) := by
  refine .of_filter (p := fun p => samePair p (x, y) || samePair p (y, x)) (fun p => ?_)
    (fun _ => pairValue_congr) fun _ => rfl
  simp only [Bool.or_eq_true, samePair_iff, place_eq_iff_names, unordered_eq_iff, names_eq_iff]

end

/-! ## Appending terms -/

namespace Part

variable [CommRing α] {ε β : Type} (P : Part ε β α)

/-- Appends terms to a part. -/
def append (e : ε) (ts : List (β × α)) : ε := P.withTerms e (P.terms e ++ ts)

/-- Appends terms to a part one by one, in place. -/
def push (ts : List (β × α)) : InPlace ε Unit := ts.forM fun t => modify fun e => P.append e [t]

/-- A call appends the terms that are selected to a part, or fails as their selection does. In place
it does the same, and if it fails, what was there is there still. -/
def Appends (selected : Except Error (List (β × α))) (call : ε → Except Error ε)
    (inPlace : InPlace ε Unit) : Prop :=
  ∀ e, match selected with
    | .ok ts => call e = .ok (P.append e ts) ∧ inPlace.exec e = (.ok (), P.append e ts) ∧
        P.value (P.append e ts) = P.value e + Merging.total P.weight ts
    | .error err => call e = .error err ∧ inPlace.exec e = (.error err, e)

/-- Appending adds the total of the terms to the value. -/
theorem value_append (e : ε) (ts : List (β × α)) :
    P.value (P.append e ts) = P.value e + Merging.total P.weight ts := by
  rw [append, P.value_withTerms, Merging.total_append]
  ring

/-- Terms appended one by one are appended together. -/
theorem exec_push (e : ε) (ts : List (β × α)) : (P.push ts).exec e = (.ok (), P.append e ts) := by
  induction ts generalizing e with
  | nil =>
    rw [append, List.append_nil, P.withTerms_terms]
    rfl
  | cons t ts ih =>
    have hone : (P.push (t :: ts)).exec e = (P.push ts).exec (P.append e [t]) := rfl
    -- The rest is appended to what the first step leaves.
    rw [hone, ih, append, append, append, P.terms_withTerms, P.withTerms_withTerms,
      List.append_assoc, List.singleton_append]

/-- Terms are appended. -/
theorem appends_push (ts : List (β × α)) :
    P.Appends (.ok ts) (fun e => .ok (P.append e ts)) (P.push ts) :=
  fun e => ⟨rfl, P.exec_push e ts, P.value_append e ts⟩

/-- Terms are appended if a check succeeds that comes first. -/
theorem Appends.check {P : Part ε β α} {selected : Except Error (List (β × α))}
    {call : ε → Except Error ε} {inPlace : InPlace ε Unit} (r : Except Error Unit)
    (h : P.Appends selected call inPlace) :
    P.Appends (r >>= fun _ => selected) (fun e => r >>= fun _ => call e)
      (do InPlace.check r; inPlace) := by
  intro e
  cases r with
  | error err => exact ⟨rfl, rfl⟩
  | ok _ => exact h e

end Part

/-! ### What is selected -/

/-- The terms of things and coefficients pair by pair, which have to be equally many. -/
def pairUp {β : Type} (what : Counted) (coefs : List α) (xs : List β) :
    Except Error (List (β × α)) :=
  if coefs.length = xs.length then .ok (xs.zip coefs)
  else .error (.lengthMismatch what coefs.length xs.length)

/-- The `len` terms from position `start` on of things and coefficients pair by pair, which have to
be there. -/
def pairUpRange {β : Type} (coefs : List α) (xs : List β) (start len : ℕ) :
    Except Error (List (β × α)) :=
  let all := xs.zip coefs
  if indexLimit ≤ start + len then .error (.invalidArgument (.termRangeOverflow start len))
  else if all.length < start + len then .error (.lengthMismatch .termRange (start + len) all.length)
  else .ok ((all.drop start).take len)

/-- The terms of first variables, second variables and coefficients, which have to be equally
many. -/
def pairUpProducts (coefs : List α) (xs ys : List Var) : Except Error (List (QuadTerm α)) :=
  if coefs.length ≠ xs.length then
    .error (.lengthMismatch .coefficientsAndFirstVariables coefs.length xs.length)
  else if coefs.length ≠ ys.length then
    .error (.lengthMismatch .coefficientsAndSecondVariables coefs.length ys.length)
  else .ok ((xs.zip ys).zip coefs)

theorem pairUp_eq {β : Type} (what : Counted) (coefs : List α) (xs : List β) :
    pairUp what coefs xs = checkLength what coefs.length xs.length >>= fun _ =>
      .ok (xs.zip coefs) := by
  rw [pairUp, checkLength]
  split_ifs <;> rfl

theorem pairUpProducts_eq (coefs : List α) (xs ys : List Var) : pairUpProducts coefs xs ys =
    checkLength .coefficientsAndFirstVariables coefs.length xs.length >>= fun _ =>
      checkLength .coefficientsAndSecondVariables coefs.length ys.length >>= fun _ =>
        .ok ((xs.zip ys).zip coefs) := by
  simp only [pairUpProducts, checkLength, ite_not]
  split_ifs <;> rfl

/-- A range of pairs is paired up from the ranges of the two lists. -/
theorem pairUpRange_eq {β : Type} (coefs : List α) (xs : List β) (start len : ℕ) :
    pairUpRange coefs xs start len =
      checkTermRange start len (min coefs.length xs.length) >>= fun _ =>
        pairUp .coefficientsAndVariables ((coefs.drop start).take len)
          ((xs.drop start).take len) := by
  have hlength : (xs.zip coefs).length = min coefs.length xs.length := by
    rw [List.length_zip, min_comm]
  have hslice : ((xs.zip coefs).drop start).take len =
      ((xs.drop start).take len).zip ((coefs.drop start).take len) := by
    simp only [List.zip_eq_zipWith, List.drop_zipWith, List.take_zipWith]
  rw [pairUpRange, checkTermRange, rangeEnd?, hlength, hslice]
  by_cases hlimit : start + len < indexLimit
  · rw [if_neg (not_le.2 hlimit), if_pos hlimit]
    by_cases hshort : min coefs.length xs.length < start + len
    · rw [if_pos hshort]
      dsimp only
      rw [if_pos hshort]
      rfl
    · -- Both slices are whole, so pairing them up does not fail.
      have hequal : ((coefs.drop start).take len).length = ((xs.drop start).take len).length := by
        simp only [List.length_take, List.length_drop]
        omega
      rw [if_neg hshort, pairUp, if_pos hequal]
      dsimp only
      rw [if_neg hshort]
      rfl
  · rw [if_pos (not_lt.1 hlimit), if_neg hlimit]
    rfl

section

variable [CommRing α] (ρ : Assignment α)

/-- Terms are appended to a linear expression. -/
theorem LinearExpr.appends_addTerms (coefs : List α) (xs : List Var) :
    (part ρ).Appends (pairUp .coefficientsAndVariables coefs xs) (·.addTerms coefs xs)
      (pushTerms coefs xs) := by
  rw [pairUp_eq]
  exact ((part ρ).appends_push (xs.zip coefs)).check _

/-- Terms are appended to a column. -/
theorem Column.appends_addTerms (coefs : List α) (rs : List Cons) :
    (part ρ).Appends (pairUp .coefficientsAndConstraints coefs rs) (·.addTerms coefs rs)
      (pushTerms coefs rs) := by
  rw [pairUp_eq]
  exact ((part ρ).appends_push (rs.zip coefs)).check _

/-- Linear terms are appended to a quadratic expression. -/
theorem QuadExpr.appends_addTerms (coefs : List α) (xs : List Var) :
    (linearPart ρ).Appends (pairUp .coefficientsAndVariables coefs xs) (·.addTerms coefs xs)
      (pushTerms coefs xs) := by
  have hcall : (fun q : QuadExpr α => q.addTerms coefs xs) = fun q =>
      checkLength .coefficientsAndVariables coefs.length xs.length >>= fun _ =>
        .ok ((linearPart ρ).append q (xs.zip coefs)) := by
    funext q
    rw [addTerms, LinearExpr.addTerms]
    cases checkLength .coefficientsAndVariables coefs.length xs.length <;> rfl
  rw [pairUp_eq, hcall]
  exact ((linearPart ρ).appends_push (xs.zip coefs)).check _

/-- Products are appended to a quadratic expression. -/
theorem QuadExpr.appends_addQuadTerms (coefs : List α) (xs ys : List Var) :
    (quadPart ρ).Appends (pairUpProducts coefs xs ys) (·.addQuadTerms coefs xs ys)
      (pushQuadTerms coefs xs ys) := by
  rw [pairUpProducts_eq]
  exact (((quadPart ρ).appends_push ((xs.zip ys).zip coefs)).check _).check _

/-- A range of terms is appended to a linear expression. -/
theorem LinearExpr.appends_addTermsRange (coefs : List α) (xs : List Var) (start len : ℕ) :
    (part ρ).Appends (pairUpRange coefs xs start len) (·.addTermsRange coefs xs start len)
      (pushTermsRange coefs xs start len) := by
  have hcall : (fun e : LinearExpr α => e.addTermsRange coefs xs start len) = fun e =>
      checkTermRange start len (min coefs.length xs.length) >>= fun _ =>
        e.addTerms ((coefs.drop start).take len) ((xs.drop start).take len) := by
    funext e
    rw [addTermsRange, checkTermRange]
    cases rangeEnd? start len with
    | none => rfl
    | some stop =>
      dsimp only
      split_ifs <;> rfl
  rw [pairUpRange_eq, hcall]
  exact (appends_addTerms ρ _ _).check _

end

/-- In exact arithmetic, under every assignment: multiples, operators and merging do to values what
they do to numbers. A removal takes out the terms for one variable, one constraint or one product in
either order, with all that they count for, and says whether there were any. An append brings in the
terms that its lists select and what they count for, or else it fails and changes nothing. -/
theorem operations_on_values [CommRing α] [DecidableEq α] (ρ : Assignment α) :
    (AddsMultiples (LinearExpr.eval ρ) (LinearExpr.eval ρ) .multAdd .add .subtract ∧
      AddsMultiples (QuadExpr.eval ρ) (QuadExpr.eval ρ) .multAdd .add .subtract ∧
      AddsMultiples (QuadExpr.eval ρ) (LinearExpr.eval ρ) (fun q c e => q.mapLinear (·.multAdd c e))
        (fun q e => q.mapLinear (·.add e)) (fun q e => q.mapLinear (·.subtract e)) ∧
      AddsMultiples (Column.eval ρ) (Column.eval ρ) .multAdd .add .subtract) ∧
    Operators ρ ∧
    ((∀ e : LinearExpr α, e.purge.eval ρ = e.eval ρ) ∧
      (∀ q : QuadExpr α, q.purge.eval ρ = q.eval ρ) ∧
      ∀ a : Column α, a.purge.eval ρ = a.eval ρ) ∧
    ((∀ x : Var, (LinearExpr.part ρ).Removes x.Names (x.value ρ) (·.removeTerm x)) ∧
      (∀ x : Var, (QuadExpr.linearPart ρ).Removes x.Names (x.value ρ) (·.removeTerm x)) ∧
      (∀ r : Cons, (Column.part ρ).Removes r.Names (r.value ρ) (·.removeTerm r)) ∧
      ∀ x y : Var, (QuadExpr.quadPart ρ).Removes
        (fun p => QuadTerm.unordered p = QuadTerm.unordered (x, y)) (x.value ρ * y.value ρ)
        (·.removeQuadTerm x y)) ∧
    ∀ (coefs : List α) (xs ys : List Var) (rs : List Cons) (start len : ℕ),
      (LinearExpr.part ρ).Appends (pairUp .coefficientsAndVariables coefs xs)
        (·.addTerms coefs xs) (LinearExpr.pushTerms coefs xs) ∧
      (LinearExpr.part ρ).Appends (pairUpRange coefs xs start len)
        (·.addTermsRange coefs xs start len) (LinearExpr.pushTermsRange coefs xs start len) ∧
      (QuadExpr.linearPart ρ).Appends (pairUp .coefficientsAndVariables coefs xs)
        (·.addTerms coefs xs) (QuadExpr.pushTerms coefs xs) ∧
      (QuadExpr.quadPart ρ).Appends (pairUpProducts coefs xs ys)
        (·.addQuadTerms coefs xs ys) (QuadExpr.pushQuadTerms coefs xs ys) ∧
      (Column.part ρ).Appends (pairUp .coefficientsAndConstraints coefs rs)
        (·.addTerms coefs rs) (Column.pushTerms coefs rs) := by
  refine ⟨⟨LinearExpr.addsMultiples ρ, QuadExpr.addsMultiples ρ, QuadExpr.addsMultiples_linear ρ,
    Column.addsMultiples ρ⟩, operators ρ,
    ⟨LinearExpr.eval_purge, QuadExpr.eval_purge, Column.eval_purge⟩,
    ⟨LinearExpr.removes_removeTerm ρ, QuadExpr.removes_removeTerm ρ, Column.removes_removeTerm ρ,
      QuadExpr.removes_removeQuadTerm ρ⟩, fun coefs xs ys rs start len => ?_⟩
  exact ⟨LinearExpr.appends_addTerms ρ coefs xs,
    LinearExpr.appends_addTermsRange ρ coefs xs start len, QuadExpr.appends_addTerms ρ coefs xs,
    QuadExpr.appends_addQuadTerms ρ coefs xs ys, Column.appends_addTerms ρ coefs rs⟩

end MathProgram
