import MathProgram.Proofs.Json.Equations
import MathProgram.Proofs.Json.Lexemes

/-!
# Conformance of the reader

What the reader makes of the documents that the grammar allows. `Yields` follows a computation both
ways: it ends with a value if a condition holds, and with an error otherwise. Each production of the
grammar gets one such statement, by induction on the document (`yields_value`, `yields_items`,
`yields_members`), and the conditions add up to the two of `read_document_text`: that the document
is nested no deeper than allowed, and that no text of it has a pair of code units.
-/

namespace MathProgram.Json

open Utf8 (bytes)

/-! ## Computations that end in one of two ways -/

/-- A computation ends with a value and a place if a condition holds, and with an error
otherwise. -/
structure Yields {α : Type} (x : Reading α) (c : Cursor) (fits : Prop) (a : α) (after : Cursor) :
    Prop where
  ends : fits → x c = .ok (a, after)
  fails : ¬ fits → ∃ e, x c = .error e

section Yields

variable {α β : Type} {x x' : Reading α} {y : α → Reading β} {c c' c₁ after : Cursor}
  {fits fits' : Prop} {a : α} {b : β}

/-- A condition may be put in other words. -/
theorem Yields.congr (h : Yields x c fits a after) (hiff : fits ↔ fits') :
    Yields x c fits' a after :=
  ⟨fun hf => h.ends (hiff.2 hf), fun hf => h.fails (hiff.not.2 hf)⟩

/-- Computations that run alike end alike. -/
theorem Yields.of_run (h : Yields x' c' fits a after) (hrun : x c = x' c') :
    Yields x c fits a after :=
  ⟨fun hf => hrun.trans (h.ends hf), fun hf => by rw [hrun]; exact h.fails hf⟩

/-- A value that is there already. -/
theorem yields_pure : Yields (pure a : Reading α) c True a c :=
  ⟨fun _ => rfl, fun h => absurd trivial h⟩

/-- One computation after another: both conditions are needed. -/
theorem Yields.bind (hx : Yields x c fits a c₁) (hy : Yields (y a) c₁ fits' b after) :
    Yields (x >>= y) c (fits ∧ fits') b after where
  ends := fun ⟨hf, hf'⟩ => by
    rw [Reading.run_bind, hx.ends hf]
    exact hy.ends hf'
  fails hnot := by
    rw [Reading.run_bind]
    by_cases hf : fits
    · rw [hx.ends hf]
      exact hy.fails fun hf' => hnot ⟨hf, hf'⟩
    · obtain ⟨e, he⟩ := hx.fails hf
      exact ⟨e, by rw [he]⟩

/-- If the second computation always ends with a value, only the first adds a condition. -/
theorem Yields.bind_left (hx : Yields x c fits a c₁) (hy : Yields (y a) c₁ True b after) :
    Yields (x >>= y) c fits b after :=
  (hx.bind hy).congr (by rw [and_true])

/-- If the first computation always ends with a value, only the second adds a condition. -/
theorem Yields.bind_right (hx : Yields x c True a c₁) (hy : Yields (y a) c₁ fits b after) :
    Yields (x >>= y) c fits b after :=
  (hx.bind hy).congr (by rw [true_and])

/-- A token is read. -/
theorem yields_token {t : Token} (h : c.next = .ok (.token t after)) :
    Yields Reading.token c True (some t) after :=
  ⟨fun _ => Reading.run_token h, fun h => absurd trivial h⟩

end Yields

namespace Grammar

open Reading

/-! ## Productions -/

/-- Blanks before a token are skipped. -/
theorem token_blanks (bs : List Blank) (rest : List UInt8) (offset : ℕ) :
    token ⟨encoded (blanks bs) ++ rest, offset⟩ =
      token ⟨rest, offset + (encoded (blanks bs)).length⟩ := by
  rw [token, next_blanks]
  rfl

/-- Blanks before what starts with a token are skipped. -/
theorem bind_token_blanks {α : Type} (y : Option Token → Reading α) (bs : List Blank)
    (rest : List UInt8) (offset : ℕ) :
    (token >>= y) ⟨encoded (blanks bs) ++ rest, offset⟩ =
      (token >>= y) ⟨rest, offset + (encoded (blanks bs)).length⟩ := by
  rw [run_bind, run_bind, token_blanks]

/-- No text has a pair of code units. -/
def PairFree (ss : List (List Part)) : Prop := ∀ s ∈ ss, ∀ p ∈ s, p.isPair = false

/-- There is no pair where there is no text. -/
@[simp]
theorem pairFree_nil : PairFree [] := by
  simp [PairFree]

/-- Texts are free of pairs one by one. -/
@[simp]
theorem pairFree_cons {s : List Part} {ss : List (List Part)} :
    PairFree (s :: ss) ↔ (∀ p ∈ s, p.isPair = false) ∧ PairFree ss := by
  simp [PairFree]

/-- Texts of two parts are free of pairs in both. -/
@[simp]
theorem pairFree_append {ss ss' : List (List Part)} :
    PairFree (ss ++ ss') ↔ PairFree ss ∧ PairFree ss' := by
  simp [PairFree, or_imp, forall_and]

variable {room : ℕ} {c c₁ after : Cursor} {t : Json} {rest : List UInt8}

/-- A token that is a value by itself. -/
theorem yields_scalar (h : c.next = .ok (.token (.scalar t) after)) :
    Yields (of (value room)) c True t after := by
  refine ⟨fun _ => ?_, fun h => absurd trivial h⟩
  rw [run_value, run_bind, run_token h]
  dsimp only
  rw [run_valueFrom]

/-- What is in brackets is nested one level deeper than its parts. -/
theorem yields_opening {n : ℕ} {p : Prop} {b : Bracket} (h : c.next = .ok (.token (.opening b) c₁))
    (hinside : ∀ room, Yields (inside room b) c₁ (n ≤ room ∧ p) t after) (room : ℕ) :
    Yields (of (value room)) c (n + 1 ≤ room ∧ p) t after := by
  have hrun := run_value_opening room h
  cases room with
  | zero => exact ⟨fun hf => by omega, fun _ => ⟨_, hrun⟩⟩
  | succ room => exact ((hinside room).of_run hrun).congr (by simp)

/-- A text is read if it has no pair. -/
theorem yields_quoted (s : List Part) (rest : List UInt8) (offset : ℕ) :
    Yields token ⟨encoded (quoted s) ++ rest, offset⟩ (∀ p ∈ s, p.isPair = false)
      (some (.scalar (.text (decode Escape.taken s))))
      ⟨rest, offset + (encoded (quoted s)).length⟩ where
  ends hs := run_token (next_quoted hs rest offset)
  fails hs := by
    obtain ⟨e, he⟩ := next_quoted_pair (s := s) (by simpa using hs) rest offset
    exact ⟨e, run_token_error he⟩

/-- Blanks before a value are skipped. -/
theorem run_value_blanks (room : ℕ) (bs : List Blank) (rest : List UInt8) (offset : ℕ) :
    of (value room) ⟨encoded (blanks bs) ++ rest, offset⟩ =
      of (value room) ⟨rest, offset + (encoded (blanks bs)).length⟩ := by
  rw [run_value, run_value, bind_token_blanks]

/-- Punctuation after blanks is read. -/
theorem yields_punctuation {t : Token} (bs : List Blank) {b : UInt8} (rest : List UInt8)
    (offset : ℕ) (hb : punctuation? b = some t) :
    Yields token ⟨encoded (blanks bs) ++ b :: rest, offset⟩ True (some t)
      ⟨rest, offset + (encoded (blanks bs)).length + 1⟩ :=
  yields_token (by rw [next_blanks]; exact next_punctuation hb)

/-- A square bracket starts an array. -/
theorem next_square (cs : List Char) (rest : List UInt8) (offset : ℕ) :
    Cursor.next ⟨encoded ('[' :: (cs ++ [']'])) ++ rest, offset⟩ =
      .ok (.token (.opening .square) ⟨encoded cs ++ byte ']' :: rest, offset + 1⟩) := by
  rw [encoded_cons (by decide), encoded_append, List.cons_append, List.append_assoc]
  exact next_punctuation rfl

/-- A curly bracket starts an object. -/
theorem next_curly (cs : List Char) (rest : List UInt8) (offset : ℕ) :
    Cursor.next ⟨encoded ('\x7b' :: (cs ++ ['\x7d'])) ++ rest, offset⟩ =
      .ok (.token (.opening .curly) ⟨encoded cs ++ byte '\x7d' :: rest, offset + 1⟩) := by
  rw [encoded_cons (by decide), encoded_append, List.cons_append, List.append_assoc]
  exact next_punctuation rfl

/-- No text starts with a closing bracket. -/
theorem next_quoted_ne_closing (s : List Part) (rest : List UInt8) (offset : ℕ) (b : Bracket)
    (c₁ : Cursor) :
    Cursor.next ⟨encoded (quoted s) ++ rest, offset⟩ ≠ .ok (.token (.closing b) c₁) := by
  by_cases hs : ∀ p ∈ s, p.isPair = false
  · rw [next_quoted hs]
    simp
  · obtain ⟨e, he⟩ := next_quoted_pair (s := s) (by simpa using hs) rest offset
    rw [he]
    simp

/-- No value starts with a closing bracket. -/
theorem next_value_ne_closing (v : Value) (hrest : Delimited rest) (offset : ℕ) (b : Bracket)
    (c₁ : Cursor) :
    Cursor.next ⟨encoded v.chars ++ rest, offset⟩ ≠ .ok (.token (.closing b) c₁) := by
  cases v with
  | word w =>
    rw [Value.chars, next_denoted_word w offset hrest]
    simp
  | number n =>
    obtain ⟨t, h⟩ := n.exists_denotes
    rw [Value.chars, next_denoted_number h offset hrest]
    simp
  | string s => exact next_quoted_ne_closing s rest offset b c₁
  | emptyArray | array =>
    rw [Value.chars, next_square]
    simp
  | emptyObject | object =>
    rw [Value.chars, next_curly]
    simp

/-- No items start with a closing bracket. -/
theorem next_items_ne_closing (vs : Items) (hrest : Delimited rest) (offset : ℕ) (b : Bracket)
    (c₁ : Cursor) :
    Cursor.next ⟨encoded vs.chars ++ rest, offset⟩ ≠ .ok (.token (.closing b) c₁) := by
  cases vs with
  | last bs v bs' =>
    simp only [Items.chars, encoded_append, List.append_assoc]
    rw [next_blanks]
    exact next_value_ne_closing v (delimited_blanks bs' hrest) _ b c₁
  | cons bs v bs' vs =>
    simp only [Items.chars, encoded_append, List.append_assoc]
    rw [next_blanks, encoded_cons (by decide)]
    have hcomma := delimited_punctuation (b := byte ',') (encoded vs.chars ++ rest) (by decide)
    exact next_value_ne_closing v (delimited_blanks bs' hcomma) _ b c₁

/-- No members start with a closing bracket. -/
theorem next_members_ne_closing (ms : Members) (rest : List UInt8) (offset : ℕ) (b : Bracket)
    (c₁ : Cursor) :
    Cursor.next ⟨encoded ms.chars ++ rest, offset⟩ ≠ .ok (.token (.closing b) c₁) := by
  cases ms <;> simp only [Members.chars, encoded_append, List.append_assoc] <;>
    rw [next_blanks] <;> exact next_quoted_ne_closing _ _ _ b c₁

/-- An empty array is read. -/
theorem yields_emptyArray (room : ℕ) (bs : List Blank) (rest : List UInt8) (offset : ℕ) :
    Yields (of (array room)) ⟨encoded (blanks bs) ++ byte ']' :: rest, offset⟩ True (.arr [])
      ⟨rest, offset + (encoded (blanks bs)).length + 1⟩ := by
  refine Yields.of_run ?_ (run_array room _)
  refine (yields_punctuation (t := .closing .square) bs rest offset rfl).bind_right ?_
  exact yields_pure

/-- An empty object is read. -/
theorem yields_emptyObject (room : ℕ) (bs : List Blank) (rest : List UInt8) (offset : ℕ) :
    Yields (of (object room)) ⟨encoded (blanks bs) ++ byte '\x7d' :: rest, offset⟩ True (.obj [])
      ⟨rest, offset + (encoded (blanks bs)).length + 1⟩ := by
  refine Yields.of_run ?_ (run_object room _)
  refine (yields_punctuation (t := .closing .curly) bs rest offset rfl).bind_right ?_
  exact yields_pure

section Steps

variable {fits fits' : Prop} {bs : List Blank} {offset : ℕ} {u : Json}

/-- The last item is followed by the closing bracket. -/
theorem yields_items_last (before : List Json)
    (hvalue : Yields (of (value room)) c fits t ⟨encoded (blanks bs) ++ byte ']' :: rest, offset⟩) :
    Yields (itemsHere room before) c fits (.arr (before.reverse ++ [t]))
      ⟨rest, offset + (encoded (blanks bs)).length + 1⟩ := by
  rw [← List.reverse_cons]
  refine Yields.of_run ?_ (run_itemsHere room c before)
  refine hvalue.bind_left ?_
  refine (yields_punctuation (t := .closing .square) bs rest offset rfl).bind_right ?_
  exact yields_pure

/-- Any other item is followed by a comma and further items. -/
theorem yields_items_cons {before : List Json}
    (hvalue : Yields (of (value room)) c fits t ⟨encoded (blanks bs) ++ byte ',' :: rest, offset⟩)
    (hrest : Yields (itemsHere room (t :: before))
      ⟨rest, offset + (encoded (blanks bs)).length + 1⟩ fits' u after) :
    Yields (itemsHere room before) c (fits ∧ fits') u after := by
  refine Yields.of_run ?_ (run_itemsHere room c before)
  refine hvalue.bind ?_
  refine (yields_punctuation (t := .comma) bs rest offset rfl).bind_right ?_
  exact hrest

/-- The value of the last member is followed by the closing bracket. -/
theorem yields_memberValue_last (before : List (String × Json)) (name : String)
    (hvalue : Yields (of (value room)) c fits t
      ⟨encoded (blanks bs) ++ byte '\x7d' :: rest, offset⟩) :
    Yields (memberValue room before name) c fits (.obj (before.reverse ++ [(name, t)]))
      ⟨rest, offset + (encoded (blanks bs)).length + 1⟩ := by
  rw [← List.reverse_cons]
  refine hvalue.bind_left ?_
  refine (yields_punctuation (t := .closing .curly) bs rest offset rfl).bind_right ?_
  exact yields_pure

/-- The value of any other member is followed by a comma and further members. -/
theorem yields_memberValue_cons {before : List (String × Json)} {name : String}
    (hvalue : Yields (of (value room)) c fits t ⟨encoded (blanks bs) ++ byte ',' :: rest, offset⟩)
    (hrest : Yields (membersHere room ((name, t) :: before))
      ⟨rest, offset + (encoded (blanks bs)).length + 1⟩ fits' u after) :
    Yields (memberValue room before name) c (fits ∧ fits') u after := by
  refine hvalue.bind ?_
  refine (yields_punctuation (t := .comma) bs rest offset rfl).bind_right ?_
  exact hrest

/-- A member starts with its name and a colon. -/
theorem yields_member {before : List (String × Json)} {name : List Part}
    (hvalue : Yields (memberValue room before (decode Escape.taken name))
      ⟨rest, offset + (encoded (quoted name)).length + (encoded (blanks bs)).length + 1⟩ fits u
      after) :
    Yields (membersHere room before)
      ⟨encoded (quoted name) ++ (encoded (blanks bs) ++ byte ':' :: rest), offset⟩
      ((∀ p ∈ name, p.isPair = false) ∧ fits) u after := by
  refine Yields.of_run ?_ (run_membersHere room _ before)
  refine (yields_quoted name _ offset).bind ?_
  refine (yields_punctuation (t := .colon) bs rest _ rfl).bind_right ?_
  exact hvalue

end Steps

/-- A comma is its own byte. -/
theorem encoded_comma (cs : List Char) : encoded (',' :: cs) = byte ',' :: encoded cs :=
  encoded_cons (by decide)

/-- A colon is its own byte. -/
theorem encoded_colon (cs : List Char) : encoded (':' :: cs) = byte ':' :: encoded cs :=
  encoded_cons (by decide)

-- Mutual induction on the document. The offset that is reached depends on the document alone, so it
-- is found before the room and before the parts that have been read already.
mutual

/-- A value is read if it is not nested too deeply and has no text with a pair. -/
theorem yields_value (v : Value) {t : Json} (h : v.Denotes Escape.taken t) {rest : List UInt8}
    (hrest : Delimited rest) (offset : ℕ) : ∃ offset', ∀ room,
      Yields (of (value room)) ⟨encoded v.chars ++ rest, offset⟩
        (v.nesting ≤ room ∧ PairFree v.strings) t ⟨rest, offset'⟩ := by
  match v with
  | .word w =>
    obtain rfl := h
    refine ⟨_, fun room => (yields_scalar (next_denoted_word w offset hrest)).congr ?_⟩
    simp [Value.nesting, Value.strings]
  | .number n =>
    refine ⟨_, fun room => (yields_scalar (next_denoted_number h offset hrest)).congr ?_⟩
    simp [Value.nesting, Value.strings]
  | .string s =>
    obtain rfl := h
    have hread (room : ℕ) := ((yields_quoted s rest offset).bind
      (yields_pure.of_run (run_valueFrom room _ _))).of_run (run_value room _)
    refine ⟨_, fun room => (hread room).congr ?_⟩
    simp [Value.nesting, Value.strings]
  | .emptyArray bs =>
    obtain rfl := h
    refine ⟨_, yields_opening (next_square _ rest offset) fun room =>
      (yields_emptyArray room bs rest _).congr ?_⟩
    simp [Value.strings]
  | .array vs =>
    obtain ⟨ts, hts, rfl⟩ := h
    obtain ⟨offset', hread⟩ := yields_items vs hts rest (offset + 1)
    -- The array is read as items, since its first token is no closing bracket.
    have hrest := delimited_punctuation (b := byte ']') rest (by decide)
    refine ⟨offset', yields_opening (next_square _ rest offset) fun room =>
      (hread room []).of_run ?_⟩
    exact run_array_items room _ (next_items_ne_closing vs hrest _ _)
  | .emptyObject bs =>
    obtain rfl := h
    refine ⟨_, yields_opening (next_curly _ rest offset) fun room =>
      (yields_emptyObject room bs rest _).congr ?_⟩
    simp [Value.strings]
  | .object ms =>
    obtain ⟨ts, hts, rfl⟩ := h
    obtain ⟨offset', hread⟩ := yields_members ms hts rest (offset + 1)
    refine ⟨offset', yields_opening (next_curly _ rest offset) fun room =>
      (hread room []).of_run ?_⟩
    exact run_object_members room _ (next_members_ne_closing ms _ _ _)

/-- Items are read if all of them are. -/
theorem yields_items (vs : Items) {ts : List Json} (h : vs.Denotes Escape.taken ts)
    (rest : List UInt8) (offset : ℕ) : ∃ offset', ∀ room before,
      Yields (itemsHere room before) ⟨encoded vs.chars ++ byte ']' :: rest, offset⟩
        (vs.nesting ≤ room ∧ PairFree vs.strings) (.arr (before.reverse ++ ts))
        ⟨rest, offset'⟩ := by
  match vs with
  | .last bs v bs' =>
    obtain ⟨t, ht, rfl⟩ := h
    obtain ⟨offset', hvalue⟩ := yields_value v ht (delimited_blanks bs'
      (delimited_punctuation (b := byte ']') rest (by decide)))
      (offset + (encoded (blanks bs)).length)
    refine ⟨offset' + (encoded (blanks bs')).length + 1, fun room before => ?_⟩
    simp only [Items.chars, encoded_append, List.append_assoc]
    exact yields_items_last before ((hvalue room).of_run (run_value_blanks room bs _ offset))
  | .cons bs v bs' vs =>
    obtain ⟨t, ts, ht, hts, rfl⟩ := h
    -- A number or word comes to an end at the blanks and the comma behind it.
    obtain ⟨offset₁, hvalue⟩ := yields_value v ht (delimited_blanks bs'
      (delimited_punctuation (b := byte ',') (encoded vs.chars ++ byte ']' :: rest) (by decide)))
      (offset + (encoded (blanks bs)).length)
    obtain ⟨offset', hitems⟩ := yields_items vs hts rest
      (offset₁ + (encoded (blanks bs')).length + 1)
    refine ⟨offset', fun room before => ?_⟩
    have hread := yields_items_cons ((hvalue room).of_run (run_value_blanks room bs _ offset))
      (hitems room (t :: before))
    rw [List.reverse_cons, List.append_assoc] at hread
    simp only [Items.chars, encoded_append, encoded_comma, List.append_assoc, List.cons_append]
    refine hread.congr ?_
    simp [Items.nesting, Items.strings, and_and_and_comm]

/-- Members are read if all of them are. -/
theorem yields_members (ms : Members) {ts : List (String × Json)} (h : ms.Denotes Escape.taken ts)
    (rest : List UInt8) (offset : ℕ) : ∃ offset', ∀ room before,
      Yields (membersHere room before) ⟨encoded ms.chars ++ byte '\x7d' :: rest, offset⟩
        (ms.nesting ≤ room ∧ PairFree ms.strings) (.obj (before.reverse ++ ts))
        ⟨rest, offset'⟩ := by
  match ms with
  | .last bs₁ name bs₂ bs v bs' =>
    obtain ⟨t, ht, rfl⟩ := h
    obtain ⟨offset', hvalue⟩ := yields_value v ht (delimited_blanks bs'
      (delimited_punctuation (b := byte '\x7d') rest (by decide)))
      (offset + (encoded (blanks bs₁)).length + (encoded (quoted name)).length +
        (encoded (blanks bs₂)).length + 1 + (encoded (blanks bs)).length)
    refine ⟨offset' + (encoded (blanks bs')).length + 1, fun room before => ?_⟩
    have hread := yields_member (yields_memberValue_last before (decode Escape.taken name)
      ((hvalue room).of_run (run_value_blanks room bs _ _)))
    simp only [Members.chars, encoded_append, encoded_colon, List.append_assoc, List.cons_append]
    refine (hread.of_run (bind_token_blanks _ bs₁ _ offset)).congr ?_
    simp [Members.nesting, Members.strings, and_left_comm]
  | .cons bs₁ name bs₂ bs v bs' ms =>
    obtain ⟨t, ts, ht, hts, rfl⟩ := h
    obtain ⟨offset₁, hvalue⟩ := yields_value v ht (delimited_blanks bs'
      (delimited_punctuation (b := byte ',') (encoded ms.chars ++ byte '\x7d' :: rest) (by decide)))
      (offset + (encoded (blanks bs₁)).length + (encoded (quoted name)).length +
        (encoded (blanks bs₂)).length + 1 + (encoded (blanks bs)).length)
    obtain ⟨offset', hmembers⟩ := yields_members ms hts rest
      (offset₁ + (encoded (blanks bs')).length + 1)
    refine ⟨offset', fun room before => ?_⟩
    have hread := yields_member (yields_memberValue_cons
      ((hvalue room).of_run (run_value_blanks room bs _ _))
      (hmembers room ((decode Escape.taken name, t) :: before)))
    rw [List.reverse_cons, List.append_assoc] at hread
    simp only [Members.chars, encoded_append, encoded_colon, encoded_comma, List.append_assoc,
      List.cons_append]
    refine (hread.of_run (bind_token_blanks _ bs₁ _ offset)).congr ?_
    simp [Members.nesting, Members.strings]
    tauto

end

/-! ## Documents -/

/-- After blanks the end of the document is reached. -/
theorem yields_end (bs : List Blank) (offset : ℕ) :
    Yields token ⟨encoded (blanks bs), offset⟩ True none
      ⟨[], offset + (encoded (blanks bs)).length⟩ := by
  refine ⟨fun _ => ?_, fun h => absurd trivial h⟩
  have hskip := token_blanks bs [] offset
  rw [List.append_nil] at hskip
  rw [hskip]
  rfl

/-- A document is read as what it stands for by the meanings that the reader takes, if it is not
nested too deeply and has no text with a pair; otherwise it is an error. -/
theorem read_of_denotes {d : Document} {t : Json} (h : d.Denotes Escape.taken t) :
    (read (bytes d.text)).toOption =
      if d.nesting ≤ maxNesting ∧ ∀ p ∈ d.parts, p.isPair = false then some t else none := by
  obtain ⟨bs, v, bs'⟩ := d
  have hend := delimited_blanks bs' delimited_nil
  rw [List.append_nil] at hend
  obtain ⟨offset', hread⟩ := yields_value v h hend (0 + (encoded (blanks bs)).length)
  have hvalue := (hread maxNesting).of_run (run_value_blanks maxNesting bs _ 0)
  have hdocument : Yields document ⟨encoded (blanks bs) ++ (encoded v.chars ++
      encoded (blanks bs')), 0⟩ (v.nesting ≤ maxNesting ∧ PairFree v.strings) t
      ⟨[], offset' + (encoded (blanks bs')).length⟩ := by
    refine hvalue.bind_left ?_
    refine (yields_end bs' offset').bind_right ?_
    exact yields_pure
  have hparts : (∀ p ∈ v.strings.flatten, p.isPair = false) ↔ PairFree v.strings := by
    simp only [List.mem_flatten, PairFree, forall_exists_index, and_imp]
    exact ⟨fun h s hs p hp => h p s hs hp, fun h p s hs hp => h s hs p hp⟩
  rw [Document.text, bytes_ofList, encoded_append, encoded_append, read_eq, Document.nesting,
    Document.parts]
  split_ifs with hfits
  · rw [hdocument.ends (hfits.imp_right hparts.1)]
    rfl
  · obtain ⟨e, he⟩ := hdocument.fails fun hf => hfits (hf.imp_right hparts.2)
    rw [he]
    rfl

/-- The reader takes two escapes for something else than they mean. -/
theorem char_eq_taken_iff (p : Part) : p.char Escape.char = p.char Escape.taken ↔
    p ≠ .short .backspace ∧ p ≠ .short .formFeed := by
  cases p with
  | short e => cases e <;> simp [Part.char, Escape.taken, Escape.char]
  | plain | unit | pair => simp [Part.char]

/-- What becomes of a document that the grammar allows. It stands for one tree `t` by the standard,
and for one tree `u` by the meanings that the reader takes, which are the same exactly if no text of
it has the escape `\b` or `\f`. If it is nested at most 64 deep and no text has a pair of code
units, it is read as `u`, and otherwise it is an error. -/
theorem read_document_text (d : Document) : ∃ t u,
    (∀ v, d.Denotes Escape.char v ↔ v = t) ∧ (∀ v, d.Denotes Escape.taken v ↔ v = u) ∧
    (t = u ↔ .short .backspace ∉ d.parts ∧ .short .formFeed ∉ d.parts) ∧
    (read (bytes d.text)).toOption =
      if d.nesting ≤ 64 ∧ ∀ p ∈ d.parts, p.isPair = false then some u else none := by
  obtain ⟨t, ht⟩ := d.exists_denotes Escape.char
  obtain ⟨u, hu⟩ := d.exists_denotes Escape.taken
  refine ⟨t, u, fun v => ⟨fun hv => d.denotes_unique hv ht, fun hv => hv ▸ ht⟩,
    fun v => ⟨fun hv => d.denotes_unique hv hu, fun hv => hv ▸ hu⟩, ?_, read_of_denotes hu⟩
  rw [Document.denotes_eq_iff ht hu]
  simp only [char_eq_taken_iff]
  exact ⟨fun h => ⟨fun hmem => (h _ hmem).1 rfl, fun hmem => (h _ hmem).2 rfl⟩,
    fun h p hp => ⟨fun heq => h.1 (heq ▸ hp), fun heq => h.2 (heq ▸ hp)⟩⟩

/-- The document whose text is a single escape of a backspace. -/
def backspaceText : Document := ⟨[], .string [.short .backspace], []⟩

/-- The first half of a pair. -/
theorem isHigh_d83d : (CodeUnit.ofNat 0xD83D).IsHigh := by
  decide

/-- The second half of the pair. -/
theorem isLow_de00 : (CodeUnit.ofNat 0xDE00).IsLow := by
  decide

/-- The document whose text is a single character, escaped as a pair of code units. -/
def pairText : Document :=
  ⟨[], .string [.pair (.ofNat 0xD83D) (.ofNat 0xDE00) isHigh_d83d isLow_de00], []⟩

/-- A backspace that is escaped is read as the letter `b`, and a pair of code units is an error,
although both documents stand for texts. -/
theorem escapes_misread :
    (backspaceText.text = "\"\\b\"" ∧ backspaceText.nesting ≤ 64 ∧
      backspaceText.Denotes Escape.char (.text "\x08") ∧
      (read (bytes backspaceText.text)).toOption = some (.text "b")) ∧
    pairText.text = "\"\\ud83d\\ude00\"" ∧ pairText.nesting ≤ 64 ∧
      pairText.Denotes Escape.char (.text "😀") ∧
      (read (bytes pairText.text)).toOption = none := by
  have hbackspace : backspaceText.Denotes Escape.taken (.text "b") := rfl
  have hpair : pairText.Denotes Escape.taken (.text "😀") := rfl
  refine ⟨⟨by decide, by decide, rfl, ?_⟩, by decide, by decide, rfl, ?_⟩
  · rw [read_of_denotes hbackspace, if_pos (by decide)]
  · rw [read_of_denotes hpair, if_neg (by decide)]

end Grammar

end MathProgram.Json
