import Mathlib.Data.Nat.Notation

/-!
# Sequences of steps

Facts about steps that may fail, about folding and mapping them over a list, about properties that
composition preserves, and about lists in a strict order.
-/

namespace MathProgram

variable {α β ε : Type}

/-- A sequence of two steps succeeds if both do. -/
theorem bind_eq_ok {x : Except ε α} {f : α → Except ε β} {b : β} :
    x >>= f = .ok b ↔ ∃ a, x = .ok a ∧ f a = .ok b := by
  cases x with
  | error e => exact ⟨nofun, fun ⟨_, h, _⟩ => nomatch h⟩
  | ok a => exact ⟨fun h => ⟨a, rfl, h⟩, fun ⟨_, h, h'⟩ => Except.ok.inj h ▸ h'⟩

/-- Whichever of two is taken has what both have. -/
theorem ite_of {p : α → Prop} {c : Prop} [Decidable c] {a b : α} (ha : p a) (hb : p b) :
    p (if c then a else b) := iteInduction (fun _ => ha) fun _ => hb

/-- What every step of a run keeps, the run keeps. -/
theorem foldl_invariant {P : α → Prop} {f : α → β → α} {xs : List β} {a : α}
    (ha : P a) (hstep : ∀ a, P a → ∀ x ∈ xs, P (f a x)) : P (xs.foldl f a) := by
  induction xs generalizing a with
  | nil => exact ha
  | cons x xs ih =>
    exact ih (hstep a ha x (List.mem_cons_self ..)) fun b hb y hy =>
      hstep b hb y (List.mem_cons_of_mem _ hy)

/-- A loop none of whose steps fails, by its state after each initial part of the items. -/
theorem foldlM_eq_some {step : β → α → Option β} {xs : List α} (state : List α → β)
    (h : ∀ done x rest, xs = done ++ x :: rest → step (state done) x = some (state (done ++ [x]))) :
    xs.foldlM step (state []) = some (state xs) := by
  -- The state is that of the items done, so the induction is on those that are left.
  suffices hgen : ∀ rest done, xs = done ++ rest →
      rest.foldlM step (state done) = some (state xs) from hgen xs [] rfl
  intro rest
  induction rest with
  | nil =>
    intro done hxs
    rw [hxs, List.append_nil]
    rfl
  | cons x rest ih =>
    intro done hxs
    rw [List.foldlM_cons, h done x rest hxs]
    exact ih (done ++ [x]) (by rw [hxs, List.append_assoc]; rfl)

/-- Mapping a step over items on none of which it fails. -/
theorem mapM_eq_pure {m : Type → Type} [Monad m] [LawfulMonad m] {f : α → m β} {g : α → β}
    {xs : List α} (h : ∀ x ∈ xs, f x = pure (g x)) : xs.mapM f = pure (xs.map g) := by
  induction xs with
  | nil => exact List.mapM_nil
  | cons x xs ih =>
    rw [List.mapM_cons, h x (List.mem_cons_self ..), pure_bind,
      ih fun y hy => h y (List.mem_cons_of_mem _ hy), pure_bind]
    rfl

/-- Mapping a check over items none of which it turns into anything else. -/
theorem mapM_eq_ok_iff {f : α → Except ε β} {g : α → β}
    (hf : ∀ a b, f a = .ok b → b = g a) {xs : List α} {ys : List β} :
    xs.mapM f = .ok ys ↔ (∀ x ∈ xs, f x = .ok (g x)) ∧ ys = xs.map g := by
  induction xs generalizing ys with
  | nil => exact ⟨fun h => ⟨nofun, (Except.ok.inj h).symm⟩, fun h => h.2 ▸ rfl⟩
  | cons x xs ih =>
    rw [List.mapM_cons, bind_eq_ok]
    constructor
    · rintro ⟨y, hy, hys⟩
      obtain ⟨zs, hzs, hpure⟩ := bind_eq_ok.1 hys
      obtain ⟨hall, rfl⟩ := ih.1 hzs
      obtain rfl := hf x y hy
      exact ⟨List.forall_mem_cons.2 ⟨hy, hall⟩, (Except.ok.inj hpure).symm⟩
    · rintro ⟨hall, rfl⟩
      obtain ⟨hx, hxs⟩ := List.forall_mem_cons.1 hall
      exact ⟨g x, hx, bind_eq_ok.2 ⟨xs.map g, ih.2 ⟨hxs, rfl⟩, rfl⟩⟩

/-- Giving a value has a property of computations, and so has one computation after another if both
have it. -/
structure Compositional {m : Type → Type} [Monad m] (P : {α : Type} → m α → Prop) : Prop where
  pure : ∀ {α : Type} (a : α), P (Pure.pure a : m α)
  bind : ∀ {α β : Type} {act : m α} {next : α → m β}, P act → (∀ a, P (next a)) →
    P (act >>= next)

namespace Compositional

variable {m : Type → Type} [Monad m] {P : {α : Type} → m α → Prop} {α β : Type}

/-- One computation or another, and then what follows both. -/
theorem join (hP : Compositional (m := m) P) {c : Prop} [Decidable c] {act act' : m α}
    {next : α → m β} (hact : P act) (hact' : P act') (hnext : ∀ a, P (next a)) :
    P (if c then act >>= next else act' >>= next) :=
  ite_of (hP.bind hact hnext) (hP.bind hact' hnext)

/-- A computation on every item of a list, with all results. -/
theorem mapM [LawfulMonad m] (hP : Compositional (m := m) P) {xs : List α} {act : α → m β}
    (hact : ∀ x ∈ xs, P (act x)) : P (xs.mapM act) := by
  induction xs with
  | nil => exact hP.pure _
  | cons x xs ih =>
    obtain ⟨hx, hxs⟩ := List.forall_mem_cons.1 hact
    rw [List.mapM_cons]
    exact hP.bind hx fun _ => hP.bind (ih hxs) fun _ => hP.pure _

/-- A computation on every item of a list. -/
theorem forM (hP : Compositional (m := m) P) {xs : List α} {act : α → m PUnit}
    (hact : ∀ x ∈ xs, P (act x)) : P (xs.forM act) := by
  induction xs with
  | nil => exact hP.pure _
  | cons x xs ih =>
    obtain ⟨hx, hxs⟩ := List.forall_mem_cons.1 hact
    exact hP.bind hx fun _ => ih hxs

end Compositional

/-- Lists in one strict order with the same members are the same. -/
theorem eq_of_pairwise_of_mem_iff {r : α → α → Prop} (hr : ∀ a b, r a b → ¬r b a) {xs ys : List α}
    (hxs : xs.Pairwise r) (hys : ys.Pairwise r) (hmem : ∀ a, a ∈ xs ↔ a ∈ ys) : xs = ys := by
  have hnodup {zs : List α} (hzs : zs.Pairwise r) : zs.Nodup := by
    refine hzs.imp fun {a b} hab heq => ?_
    subst heq
    exact hr a a hab hab
  have hperm : xs.Perm ys := (List.perm_ext_iff_of_nodup (hnodup hxs) (hnodup hys)).2 hmem
  exact hperm.eq_of_pairwise (fun a b _ _ hab hba => absurd hba (hr a b hab)) hxs hys

end MathProgram
