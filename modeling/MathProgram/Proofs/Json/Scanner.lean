import MathProgram.Json.Scanner
import MathProgram.Proofs.Json.Equations
import MathProgram.Proofs.Json.Tokens

/-!
# The scanner and the reader

The scanner counts the nesting in its state, and the reader hands a bound down instead. `Scans`
relates a computation of the scanner to one of the reader: with enough fuel (`Ends`) it comes to an
end, at a place inside of the document and not before the start, with the nesting as it was
(`Scan.Kept`), and with the result of the reader. It is shown for tokens here (`scans_token`), so
every token uses up at least one byte and the last one is at the end of the document
(`token_progress`).
-/

namespace MathProgram.Json

namespace Scan

/-- Going on twice. -/
theorem move_move (s : Scan) (m n : ℕ) : (s.move m).move n = s.move (m + n) :=
  congrArg (fun offset => { s with offset }) (Nat.add_assoc ..)

/-- The place of a state in a document. -/
def cursor (src : List UInt8) (s : Scan) : Cursor := ⟨src.drop s.offset, s.offset⟩

/-- What a computation does to the state. It does not go back, nor beyond the end of the document.
Both levels are as they were. If the counter was within the limit at the start, it was so all the
way, and the containers that were open in addition to those at the start were as many as the
counter allowed, and `k` more. -/
structure Kept (src : List UInt8) (k : ℕ) (s s' : Scan) : Prop where
  forward : s.offset ≤ s'.offset
  inside : s'.offset ≤ src.length
  depth : s'.depth.now = s.depth.now
  deepest : s.depth.now ≤ maxNesting → s'.depth.most ≤ max s.depth.most maxNesting
  active : s'.active.now = s.active.now
  mostActive : s.depth.now ≤ maxNesting →
    s'.active.most ≤ max s.active.most (s.active.now + (maxNesting - s.depth.now) + k)

variable {src : List UInt8} {k : ℕ} {s s' s'' : Scan}

/-- Going on inside of the document keeps the levels. -/
theorem kept_move {n : ℕ} (h : s.offset + n ≤ src.length) : Kept src k s (s.move n) where
  forward := Nat.le_add_right _ _
  inside := h
  depth := rfl
  deepest _ := le_max_left _ _
  active := rfl
  mostActive _ := le_max_left _ _

/-- Standing still keeps the levels. -/
theorem Kept.refl (h : s.offset ≤ src.length) : Kept src k s s := kept_move (n := 0) h

/-- One computation after another. -/
theorem Kept.trans (h : Kept src k s s') (h' : Kept src k s' s'') :
    Kept src k s s'' where
  forward := h.forward.trans h'.forward
  inside := h'.inside
  depth := h'.depth.trans h.depth
  deepest hs := by
    have h₁ := h.deepest hs
    have h₂ := h'.deepest (h.depth ▸ hs)
    omega
  active := h'.active.trans h.active
  mostActive hs := by
    have h₁ := h.mostActive hs
    have h₂ := h'.mostActive (h.depth ▸ hs)
    rw [h.depth, h.active] at h₂
    omega

end Scan

section Scans

open Scan (Kept)

variable {α β : Type} {src : List UInt8} {k : ℕ} {s s' : Scan}

/-- From a state on, a computation comes to an end: with any fuel beyond some amount it has this
result and leaves this state. -/
def Ends (act : ℕ → Scanner α) (s : Scan) (r : Except ReadError α) (s' : Scan) : Prop :=
  ∃ bound, ∀ fuel ≥ bound, act fuel s = some (r, s')

/-- From a state on, a computation of the scanner comes to an end, keeps the levels, and has the
result of a reading. -/
def Scans (src : List UInt8) (k : ℕ) (act : ℕ → Scanner α) (x : Reading α) (s : Scan) : Prop :=
  ∃ r s', Ends act s r s' ∧ Kept src k s s' ∧
    r.map (fun a => (a, s'.cursor src)) = x (s.cursor src)

/-- The run of one computation after another: that is left out if the first fails, or runs out of
fuel. -/
theorem Scanner.run_bind (act : Scanner α) (next : α → Scanner β) (s : Scan) :
    (act >>= next) s = match act s with
      | some (.ok a, s') => next a s'
      | some (.error e, s') => some (.error e, s')
      | none => none := by
  show (act s).bind (fun p => ExceptT.bindCont next p.1 p.2) = _
  rcases act s with _ | ⟨_ | _, _⟩ <;> rfl

/-- A computation that needs no fuel. -/
theorem Ends.of_run {act : Scanner α} {r : Except ReadError α} (h : act s = some (r, s')) :
    Ends (fun _ => act) s r s' :=
  ⟨0, fun _ _ => h⟩

/-- A computation that goes the same way from here. -/
theorem Ends.congr {act body : ℕ → Scanner α} {r : Except ReadError α}
    (hact : ∀ fuel, act fuel s = body fuel s) (h : Ends body s r s') : Ends act s r s' := by
  obtain ⟨bound, h⟩ := h
  exact ⟨bound, fun fuel hfuel => (hact fuel).trans (h fuel hfuel)⟩

/-- A computation that ends with one unit of fuel. -/
theorem Ends.done {act : ℕ → Scanner α} {r : Except ReadError α}
    (h : ∀ fuel, act (fuel + 1) s = some (r, s')) : Ends act s r s' := by
  refine ⟨1, fun fuel hfuel => ?_⟩
  obtain ⟨fuel, rfl⟩ := Nat.exists_eq_add_of_le' hfuel
  exact h fuel

/-- A computation that goes on elsewhere with one unit of fuel less. -/
theorem Ends.step {act body : ℕ → Scanner α} {s₁ : Scan} {r : Except ReadError α}
    (hact : ∀ fuel, act (fuel + 1) s = body fuel s₁) (h : Ends body s₁ r s') : Ends act s r s' := by
  obtain ⟨bound, h⟩ := h
  refine ⟨bound + 1, fun fuel hfuel => ?_⟩
  obtain ⟨fuel, rfl⟩ := Nat.exists_eq_add_of_le' (Nat.le_of_add_left_le hfuel)
  rw [hact, h fuel (by omega)]

/-- One computation after another. -/
theorem Ends.bind {act : ℕ → Scanner α} {next : α → ℕ → Scanner β} {a : α} {s₁ : Scan}
    {r : Except ReadError β} (h : Ends act s (.ok a) s₁) (hnext : Ends (next a) s₁ r s') :
    Ends (fun fuel => act fuel >>= fun a => next a fuel) s r s' := by
  obtain ⟨bound, h⟩ := h
  obtain ⟨bound', hnext⟩ := hnext
  refine ⟨max bound bound', fun fuel hfuel => ?_⟩
  dsimp only
  rw [Scanner.run_bind, h fuel (le_of_max_le_left hfuel)]
  exact hnext fuel (le_of_max_le_right hfuel)

/-- After an error nothing else is done. -/
theorem Ends.bind_error {act : ℕ → Scanner α} {next : α → ℕ → Scanner β} {e : ReadError}
    (h : Ends act s (.error e) s') :
    Ends (fun fuel => act fuel >>= fun a => next a fuel) s (.error e) s' := by
  obtain ⟨bound, h⟩ := h
  refine ⟨bound, fun fuel hfuel => ?_⟩
  dsimp only
  rw [Scanner.run_bind, h fuel hfuel]

/-- A result at once. -/
theorem Scans.pure (a : α) (hs : s.offset ≤ src.length) :
    Scans src k (fun _ => Pure.pure a) (Pure.pure a) s :=
  ⟨.ok a, s, .of_run rfl, .refl hs, rfl⟩

/-- An error at once. -/
theorem Scans.fault (f : Fault) (hs : s.offset ≤ src.length) :
    Scans src k (fun _ => (Scanner.fault f : Scanner α)) (Reading.fault f) s :=
  ⟨.error ⟨s.offset, f⟩, s, .of_run rfl, .refl hs, rfl⟩

/-- A computation that uses up one unit of fuel. -/
theorem Scans.succ {act body : ℕ → Scanner α} {x : Reading α}
    (hact : ∀ fuel, act (fuel + 1) = body fuel) (h : Scans src k body x s) :
    Scans src k act x s := by
  obtain ⟨r, s', hends, hkept, hr⟩ := h
  exact ⟨r, s', hends.step fun fuel => congrFun (hact fuel) s, hkept, hr⟩

/-- A reading that goes the same way from here. -/
theorem Scans.congr {act : ℕ → Scanner α} {x y : Reading α} (h : Scans src k act y s)
    (hxy : x (s.cursor src) = y (s.cursor src)) : Scans src k act x s := by
  rwa [Scans, hxy]

/-- One computation after another. -/
theorem Scans.bind {act : ℕ → Scanner α} {x : Reading α} {next : α → ℕ → Scanner β}
    {y : α → Reading β} (h : Scans src k act x s)
    (hnext : ∀ a s', Kept src k s s' → x (s.cursor src) = .ok (a, s'.cursor src) →
      Scans src k (next a) (y a) s') :
    Scans src k (fun fuel => act fuel >>= fun a => next a fuel) (x >>= y) s := by
  obtain ⟨r, s₁, hends, hkept, hr⟩ := h
  cases r with
  | error e =>
    refine ⟨.error e, s₁, hends.bind_error, hkept, ?_⟩
    rw [Reading.run_bind, ← hr]
    rfl
  | ok a =>
    obtain ⟨r', s₂, hends', hkept', hr'⟩ := hnext a s₁ hkept hr.symm
    refine ⟨r', s₂, hends.bind hends', hkept.trans hkept', ?_⟩
    rw [Reading.run_bind, ← hr]
    exact hr'

end Scans

/-! ## The tokens of the scanner -/

namespace Scanner

open Scan (Kept)

variable (src : List UInt8) (s : Scan)

/-- Looking at the state changes nothing. -/
theorem run_get : (get : Scanner Scan) s = some (.ok s, s) := rfl

/-- Going on needs no bytes. -/
theorem run_advance (n : ℕ) : advance n s = some (.ok (), s.move n) := rfl

/-- Looking at the next byte changes nothing. -/
theorem run_peek : peek src s = some (.ok (src.drop s.offset).head?, s) := by
  rw [List.head?_drop]
  rfl

variable {src s}

/-- What is left of a document after `n` bytes. -/
theorem drop_move (n : ℕ) {w rest : List UInt8} (h : src.drop s.offset = w ++ rest)
    (hn : w.length = n) : src.drop (s.move n).offset = rest := by
  rw [Scan.move, ← hn, ← List.drop_drop, h, List.drop_left]

/-- Bytes that are left lie inside of the document. -/
theorem offset_add_le {w rest : List UInt8} {n : ℕ} (hs : s.offset ≤ src.length)
    (h : src.drop s.offset = w ++ rest) (hn : w.length = n) : s.offset + n ≤ src.length := by
  have hlength := congrArg List.length h
  rw [List.length_drop, List.length_append] at hlength
  omega

/-- Taking a byte that is left. -/
theorem run_bump {b : UInt8} {bs : List UInt8} (h : src.drop s.offset = b :: bs) :
    bump src s = some (.ok b, s.move 1) := by
  rw [bump, run_bind, run_peek, h]
  rfl

/-- At the end of the document there is no byte to take. -/
theorem run_bump_nil (h : src.drop s.offset = []) :
    bump src s = some (.error ⟨s.offset, .unexpectedEnd⟩, s) := by
  rw [bump, run_bind, run_peek, h]
  rfl

/-- The blanks are skipped. -/
theorem ends_skipBlanks : Ends (skipBlanks src) s (.ok ())
    (s.move ((src.drop s.offset).takeWhile isBlank).length) := by
  generalize hrest : src.drop s.offset = rest
  induction rest generalizing s with
  | nil =>
    refine .done fun fuel => ?_
    rw [skipBlanks, run_bind, run_peek, hrest]
    rfl
  | cons b bs ih =>
    have hstep (fuel : ℕ) : skipBlanks src (fuel + 1) s =
        (if isBlank b then do
          advance 1
          skipBlanks src fuel
        else return () : Scanner Unit) s := by
      rw [skipBlanks, run_bind, run_peek, hrest]
      rfl
    by_cases hb : isBlank b
    · have hends := ih (drop_move 1 (w := [b]) hrest rfl)
      rw [Scan.move_move] at hends
      rw [List.takeWhile_cons_of_pos hb, List.length_cons, Nat.add_comm]
      refine hends.step fun fuel => ?_
      rw [hstep, if_pos hb]
      rfl
    · rw [List.takeWhile_cons_of_neg hb]
      refine .done fun fuel => ?_
      rw [hstep, if_neg hb]
      rfl

/-- Taking the bytes of a text starts with one byte. -/
theorem run_quotedFrom {b : UInt8} {bs : List UInt8} (h : src.drop s.offset = b :: bs)
    (acc : List UInt8) (fuel : ℕ) : quotedFrom src (fuel + 1) acc s =
      (if b == byte '"' then return acc.reverse
        else if b == byte '\\' then do
          let e ← bump src
          if e == byte 'u' then
            let places := (src.drop (← get).offset).take 4
            match if places.length = 4 then escapedChar? places else none with
            | some c => do
              advance 4
              quotedFrom src fuel ((String.utf8EncodeChar c).reverse ++ acc)
            | none => fault .badUnicodeEscape
          else quotedFrom src fuel (unescape e :: acc)
        else quotedFrom src fuel (b :: acc) : Scanner (List UInt8)) (s.move 1) := by
  rewrite [quotedFrom, run_bind, run_bump h]
  rfl

/-- An escape by number takes four places after its two bytes. -/
theorem run_quotedFrom_unicode {b e : UInt8} {es : List UInt8}
    (h : src.drop s.offset = b :: e :: es) (hquote : ¬ (b == byte '"') = true)
    (hslash : (b == byte '\\') = true) (he : (e == byte 'u') = true) (acc : List UInt8) (fuel : ℕ) :
    quotedFrom src (fuel + 1) acc s =
      (match if ((src.drop (s.move 2).offset).take 4).length = 4
          then escapedChar? ((src.drop (s.move 2).offset).take 4) else none with
        | some c => do
          advance 4
          quotedFrom src fuel ((String.utf8EncodeChar c).reverse ++ acc)
        | none => fault .badUnicodeEscape : Scanner (List UInt8)) (s.move 2) := by
  rw [run_quotedFrom h, if_neg hquote, if_pos hslash, run_bind,
    run_bump (drop_move 1 (w := [b]) h rfl), Scan.move_move]
  dsimp only
  rw [if_pos he]
  rfl

/-- The bytes of a text are taken as the reader takes them. -/
theorem exists_quotedFrom {k offset : ℕ} {bs : List UInt8} (acc : List UInt8)
    (hrest : src.drop s.offset = bs) (hoffset : s.offset = offset) (hs : s.offset ≤ src.length) :
    ∃ r s', Ends (quotedFrom src · acc) s r s' ∧ Kept src k s s' ∧
      r.map (fun out => (out, s'.cursor src)) = quotedBytes bs offset acc := by
  fun_induction quotedBytes bs offset acc generalizing s with
  | case1 offset acc =>
    subst hoffset
    refine ⟨.error ⟨s.offset, .unexpectedEnd⟩, s, .done fun fuel => ?_, .refl hs, rfl⟩
    rw [quotedFrom, run_bind, run_bump_nil hrest]
  | case2 b bs offset acc hquote =>
    subst hoffset
    refine ⟨.ok acc.reverse, s.move 1, .done fun fuel => ?_,
      Scan.kept_move (offset_add_le (w := [b]) hs hrest rfl), ?_⟩
    · rw [run_quotedFrom hrest, if_pos hquote]
      rfl
    · rw [Except.map, Scan.cursor, drop_move 1 (w := [b]) hrest rfl]
      rfl
  | case3 b offset acc hquote hslash =>
    subst hoffset
    refine ⟨.error ⟨s.offset + 1, .unexpectedEnd⟩, s.move 1, .done fun fuel => ?_,
      Scan.kept_move (offset_add_le (w := [b]) hs hrest rfl), rfl⟩
    rw [run_quotedFrom hrest, if_neg hquote, if_pos hslash, run_bind,
      run_bump_nil (drop_move 1 (w := [b]) hrest rfl)]
    rfl
  | case4 b offset acc hquote hslash e he p q r t rest c hc ih =>
    subst hoffset
    have hinside : s.offset + 6 ≤ src.length :=
      offset_add_le (w := [b, e, p, q, r, t]) hs hrest rfl
    obtain ⟨r', s', hends, hkept, hr⟩ := ih (s := s.move 6)
      (drop_move 6 (w := [b, e, p, q, r, t]) hrest rfl) rfl hinside
    refine ⟨r', s', hends.step fun fuel => ?_, (Scan.kept_move hinside).trans hkept, hr⟩
    have hplaces : (src.drop (s.move 2).offset).take 4 = [p, q, r, t] := by
      rw [drop_move 2 (w := [b, e]) hrest rfl]
      rfl
    rw [run_quotedFrom_unicode hrest hquote hslash he, hplaces, if_pos (by rfl), hc]
    rfl
  | case5 b offset acc hquote hslash e he p q r t rest hc =>
    subst hoffset
    refine ⟨.error ⟨s.offset + 2, .badUnicodeEscape⟩, s.move 2, .done fun fuel => ?_,
      Scan.kept_move (offset_add_le (w := [b, e]) hs hrest rfl), rfl⟩
    have hplaces : (src.drop (s.move 2).offset).take 4 = [p, q, r, t] := by
      rw [drop_move 2 (w := [b, e]) hrest rfl]
      rfl
    rw [run_quotedFrom_unicode hrest hquote hslash he, hplaces, if_pos (by rfl), hc]
    rfl
  | case6 b offset acc hquote hslash e es he hshort =>
    subst hoffset
    refine ⟨.error ⟨s.offset + 2, .badUnicodeEscape⟩, s.move 2, .done fun fuel => ?_,
      Scan.kept_move (offset_add_le (w := [b, e]) hs hrest rfl), rfl⟩
    have hplaces : ((src.drop (s.move 2).offset).take 4).length ≠ 4 := by
      rw [drop_move 2 (w := [b, e]) hrest rfl]
      rcases es with _ | ⟨p, _ | ⟨q, _ | ⟨r, _ | ⟨t, rest⟩⟩⟩⟩
      · decide
      · simp
      · simp
      · simp
      · exact (hshort p q r t rest rfl).elim
    rw [run_quotedFrom_unicode hrest hquote hslash he, if_neg hplaces]
    rfl
  | case7 b offset acc hquote hslash e es he ih =>
    subst hoffset
    have hinside : s.offset + 2 ≤ src.length := offset_add_le (w := [b, e]) hs hrest rfl
    obtain ⟨r, s', hends, hkept, hr⟩ := ih (s := s.move 2)
      (drop_move 2 (w := [b, e]) hrest rfl) rfl hinside
    refine ⟨r, s', hends.step fun fuel => ?_, (Scan.kept_move hinside).trans hkept, hr⟩
    rw [run_quotedFrom hrest, if_neg hquote, if_pos hslash, run_bind,
      run_bump (drop_move 1 (w := [b]) hrest rfl)]
    dsimp only
    rw [if_neg he, Scan.move_move]
  | case8 b bs offset acc hquote hslash ih =>
    subst hoffset
    have hinside : s.offset + 1 ≤ src.length := offset_add_le (w := [b]) hs hrest rfl
    obtain ⟨r, s', hends, hkept, hr⟩ := ih (s := s.move 1)
      (drop_move 1 (w := [b]) hrest rfl) rfl hinside
    refine ⟨r, s', hends.step fun fuel => ?_, (Scan.kept_move hinside).trans hkept, hr⟩
    rw [run_quotedFrom hrest, if_neg hquote, if_neg hslash]

/-- A text is taken as the reader takes it, after the opening quote. -/
theorem exists_quoted {k : ℕ} {b : UInt8} {bs : List UInt8} (hrest : src.drop s.offset = b :: bs)
    (hs : s.offset ≤ src.length) :
    ∃ r s', Ends (quoted src) s r s' ∧ Kept src k s s' ∧
      r.map (fun t => .token (.scalar (.text t)) (s'.cursor src)) =
        readText ⟨bs, s.offset + 1⟩ := by
  have hinside : s.offset + 1 ≤ src.length := offset_add_le (w := [b]) hs hrest rfl
  have hbump : Ends (fun _ => (discard (bump src) : Scanner Unit)) s (.ok ()) (s.move 1) := by
    refine .of_run ?_
    show (bump src >>= fun _ => pure ()) s = _
    rw [run_bind, run_bump hrest]
    rfl
  obtain ⟨r, s', hends, hkept, hr⟩ := exists_quotedFrom (k := k) []
    (drop_move 1 (w := [b]) hrest rfl) rfl hinside
  have hforth := (Scan.kept_move hinside).trans hkept
  have hbytes : quotedBytes bs (s.offset + 1) [] = r.map fun out => (out, s'.cursor src) := hr.symm
  rw [readText]
  dsimp only
  rw [hbytes]
  cases r with
  | error e => exact ⟨.error e, s', hbump.bind hends.bind_error, hforth, rfl⟩
  | ok bytes =>
    have hquoted {r : Except ReadError String} (h : decoded bytes s' = some (r, s')) :
        Ends (quoted src) s r s' := hbump.bind (hends.bind (.of_run h))
    dsimp only [Except.map]
    cases htext : Utf8.text? bytes with
    | none =>
      have hrun : decoded bytes s' = some (.error ⟨s'.offset, .invalidUtf8⟩, s') := by
        rw [decoded, htext]
        rfl
      exact ⟨.error ⟨s'.offset, .invalidUtf8⟩, s', hquoted hrun, hforth, rfl⟩
    | some t =>
      have hrun : decoded bytes s' = some (.ok t, s') := by
        rw [decoded, htext]
        rfl
      exact ⟨.ok t, s', hquoted hrun, hforth, rfl⟩

/-- A run is taken whether or not it is a value. -/
theorem run_run (belongs : UInt8 → Bool) (value? : List UInt8 → Option Json) (f : Fault) :
    run src belongs value? f s =
      ((value? ((src.drop s.offset).takeWhile belongs)).elim (throw ⟨s.offset, f⟩)
        pure : Scanner Json) (s.move ((src.drop s.offset).takeWhile belongs).length) := by
  rewrite [run, run_bind, run_get]
  dsimp only
  rewrite [run_bind, run_advance]
  cases value? ((src.drop s.offset).takeWhile belongs) <;> rfl

/-- A run is taken as the reader takes it. -/
theorem exists_run {k : ℕ} (belongs : UInt8 → Bool) (value? : List UInt8 → Option Json)
    (f : Fault) (hs : s.offset ≤ src.length) :
    ∃ r s', run src belongs value? f s = some (r, s') ∧ Kept src k s s' ∧
      r.map (fun v => .token (.scalar v) (s'.cursor src)) =
        readRun (s.cursor src) belongs value? f := by
  have hsplit := (List.takeWhile_append_dropWhile (p := belongs) (l := src.drop s.offset)).symm
  have hinside := offset_add_le hs hsplit rfl
  have hcursor : (s.move ((src.drop s.offset).takeWhile belongs).length).cursor src =
      ⟨(src.drop s.offset).drop ((src.drop s.offset).takeWhile belongs).length,
        s.offset + ((src.drop s.offset).takeWhile belongs).length⟩ := by
    rw [Scan.cursor, Scan.move, List.drop_drop]
  rw [run_run, readRun]
  dsimp only [Scan.cursor]
  cases value? ((src.drop s.offset).takeWhile belongs) with
  | none => exact ⟨.error ⟨s.offset, f⟩, _, rfl, Scan.kept_move hinside, rfl⟩
  | some v =>
    refine ⟨.ok v, _, rfl, Scan.kept_move hinside, ?_⟩
    dsimp only
    rw [← hcursor]
    rfl

/-- At the end of the document there is no token. -/
theorem run_tokenHere_nil (h : src.drop s.offset = []) (fuel : ℕ) :
    tokenHere src fuel s = some (.ok none, s) := by
  rewrite [tokenHere, run_bind, run_peek, h]
  rfl

/-- A byte of punctuation is a token. -/
theorem run_tokenHere_punctuation {b : UInt8} {bs : List UInt8} {t : Token}
    (h : src.drop s.offset = b :: bs) (hb : punctuation? b = some t) (fuel : ℕ) :
    tokenHere src fuel s = some (.ok (some t), s.move 1) := by
  rewrite [tokenHere, run_bind, run_peek, h, List.head?_cons]
  dsimp only
  rewrite [hb]
  rfl

/-- Any other byte starts a scalar, and tells what sort of one. -/
theorem run_tokenHere_scalar {b : UInt8} {bs : List UInt8} (h : src.drop s.offset = b :: bs)
    (hb : punctuation? b = none) (fuel : ℕ) : tokenHere src fuel s =
      (if b == byte '"' then return some (.scalar (.text (← quoted src fuel)))
        else if b == byte '-' || isDigit b then
          return some (.scalar (← run src isNumberPart number? .badNumber))
        else return some (.scalar (← run src isLetter word? .unexpectedInput)) :
          Scanner (Option Token)) s := by
  rewrite [tokenHere, run_bind, run_peek, h, List.head?_cons]
  dsimp only
  rewrite [hb]
  rfl

/-- The token that starts here is taken as the reader takes it. -/
theorem exists_tokenHere {k : ℕ} (hs : s.offset ≤ src.length) :
    ∃ r s', Ends (tokenHere src) s r s' ∧ Kept src k s s' ∧
      r.map (fun t => (t, s'.cursor src)) = (s.cursor src).tokenHere.map Lexed.split := by
  -- A scalar is a token with nothing else to do.
  have hscalar {α : Type} {act : ℕ → Scanner α} {v : α → Json} {l : Except ReadError Lexed}
      (h : ∃ r s', Ends act s r s' ∧ Kept src k s s' ∧
        r.map (fun a => .token (.scalar (v a)) (s'.cursor src)) = l) :
      ∃ r s', Ends (fun fuel => act fuel >>= fun a => return some (.scalar (v a))) s r s' ∧
        Kept src k s s' ∧
        r.map (fun t : Option Token => (t, s'.cursor src)) = l.map Lexed.split := by
    obtain ⟨r, s', hends, hkept, rfl⟩ := h
    cases r with
    | error e => exact ⟨.error e, s', hends.bind_error, hkept, rfl⟩
    | ok a => exact ⟨.ok (some (.scalar (v a))), s', hends.bind (.of_run rfl), hkept, rfl⟩
  cases hrest : src.drop s.offset with
  | nil =>
    refine ⟨.ok none, s, .done fun _ => run_tokenHere_nil hrest _, .refl hs, ?_⟩
    rw [Except.map, Scan.cursor, hrest]
    rfl
  | cons b bs =>
    have hcursor : s.cursor src = ⟨b :: bs, s.offset⟩ := by rw [Scan.cursor, hrest]
    rw [hcursor, Cursor.tokenHere]
    dsimp only
    cases hb : punctuation? b with
    | some t =>
      refine ⟨.ok (some t), s.move 1, .done fun _ => run_tokenHere_punctuation hrest hb _,
        Scan.kept_move (offset_add_le (w := [b]) hs hrest rfl), ?_⟩
      rw [Except.map, Scan.cursor, drop_move 1 (w := [b]) hrest rfl]
      rfl
    | none =>
      have hhere := run_tokenHere_scalar hrest hb
      dsimp only
      -- What is read by a run is read from the first byte on.
      have hrun (belongs : UInt8 → Bool) (value? : List UInt8 → Option Json) (f : Fault) :
          ∃ r s', Ends (fun _ => run src belongs value? f) s r s' ∧ Kept src k s s' ∧
            r.map (fun v => .token (.scalar v) (s'.cursor src)) =
              readRun ⟨b :: bs, s.offset⟩ belongs value? f := by
        obtain ⟨r, s', hrun, hkept, hr⟩ := exists_run (k := k) belongs value? f hs
        exact ⟨r, s', .of_run hrun, hkept, hcursor ▸ hr⟩
      split_ifs with hquote hnumber
      · obtain ⟨r, s', hends, h⟩ := hscalar (exists_quoted (k := k) hrest hs)
        refine ⟨r, s', hends.congr fun fuel => ?_, h⟩
        rw [hhere, if_pos hquote]
      · obtain ⟨r, s', hends, h⟩ := hscalar (v := id) (hrun isNumberPart number? .badNumber)
        refine ⟨r, s', hends.congr fun fuel => ?_, h⟩
        rw [hhere, if_neg hquote, if_pos hnumber]
        rfl
      · obtain ⟨r, s', hends, h⟩ := hscalar (v := id) (hrun isLetter word? .unexpectedInput)
        refine ⟨r, s', hends.congr fun fuel => ?_, h⟩
        rw [hhere, if_neg hquote, if_neg hnumber]
        rfl

/-- A token is taken as the reader reads it. -/
theorem scans_token {k : ℕ} (hs : s.offset ≤ src.length) :
    Scans src k (token src) Reading.token s := by
  have hsplit := (List.takeWhile_append_dropWhile (p := isBlank) (l := src.drop s.offset)).symm
  have hinside := offset_add_le hs hsplit rfl
  obtain ⟨r, s', hends, hkept, hr⟩ := exists_tokenHere (k := k)
    (s := s.move ((src.drop s.offset).takeWhile isBlank).length) hinside
  refine ⟨r, s', ends_skipBlanks.bind hends, (Scan.kept_move hinside).trans hkept, ?_⟩
  rw [hr, Reading.token, Cursor.next, Cursor.skipBlanks, Scan.cursor, Scan.cursor, Scan.move,
    List.drop_drop]

/-- A token that is taken uses up at least one byte, and the last one is at the end of the
document. -/
theorem token_progress {k : ℕ} (hs : s.offset ≤ src.length) :
    ∃ r s', Ends (token src) s r s' ∧ Kept src k s s' ∧
      (r = .ok none → s'.offset = src.length) ∧
      (∀ t, r = .ok (some t) → s.offset < s'.offset) := by
  obtain ⟨r, s', hends, hkept, hr⟩ := scans_token (k := k) hs
  have hinside := hkept.inside
  refine ⟨r, s', hends, hkept, ?_, ?_⟩
  · rintro rfl
    have hrest := List.drop_eq_nil_iff.1 (Reading.rest_of_token_none hr.symm)
    omega
  · rintro t rfl
    have hlt := Reading.rest_of_token_some hr.symm
    rw [Scan.cursor, Scan.cursor, List.length_drop, List.length_drop] at hlt
    omega

end Scanner

end MathProgram.Json
