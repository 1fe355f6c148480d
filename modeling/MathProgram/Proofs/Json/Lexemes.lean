import MathProgram.Proofs.Json.Grammar
import MathProgram.Proofs.Json.Tokens

/-!
# Lexemes of the grammar as tokens

What the lexer makes of the blanks, words, numbers and texts that the grammar allows. Blanks are
skipped (`next_blanks`), words and numbers are read as what they stand for (`next_denoted_word`,
`next_denoted_number`). Texts are where the lexer differs from the standard: the escapes `\b` and
`\f` are taken for the letters (`Escape.taken`), and the halves of a pair of code units are looked
at one by one, and no half is a character. So a text is read by these meanings if it has no pair
(`next_quoted`), and is an error if it has one (`next_quoted_pair`).
-/

namespace MathProgram.Json.Grammar

open Utf8 (bytes)

/-- The bytes of characters. -/
def encoded (cs : List Char) : List UInt8 := cs.flatMap String.utf8EncodeChar

section Encoded

variable {cs ds : List Char} {c : Char}

/-- Characters are encoded one after another. -/
@[simp] theorem encoded_append : encoded (cs ++ ds) = encoded cs ++ encoded ds :=
  List.flatMap_append

/-- The bytes of a text are those of its characters. -/
theorem bytes_ofList (cs : List Char) : bytes (String.ofList cs) = encoded cs := by
  rw [Utf8.bytes_eq_flatMap, String.toList_ofList, encoded]

/-- A character below 128 is its own byte. -/
theorem encoded_cons (h : c.toNat < 128) : encoded (c :: cs) = byte c :: encoded cs := by
  rw [encoded, List.flatMap_cons, Utf8.utf8EncodeChar_of_lt h]
  rfl

/-- Characters below 128 are their own bytes. -/
theorem encoded_eq_map (h : ∀ c ∈ cs, c.toNat < 128) : encoded cs = cs.map byte := by
  rw [encoded, ← List.flatMap_pure_eq_map]
  exact List.flatMap_congr fun c hc => Utf8.utf8EncodeChar_of_lt (h c hc)

end Encoded

/-! ## Blanks and words -/

/-- A blank is one blank byte. -/
theorem encoded_blanks (b : Blank) (bs : List Blank) :
    ∃ w, isBlank w ∧ encoded (blanks (b :: bs)) = w :: encoded (blanks bs) := by
  cases b <;> exact ⟨_, by decide, encoded_cons (by decide)⟩

/-- Blanks are skipped. -/
theorem next_blanks (bs : List Blank) (rest : List UInt8) (offset : ℕ) :
    Cursor.next ⟨encoded (blanks bs) ++ rest, offset⟩ =
      Cursor.next ⟨rest, offset + (encoded (blanks bs)).length⟩ := by
  induction bs generalizing offset with
  | nil => rfl
  | cons b bs ih =>
    obtain ⟨w, hw, hbytes⟩ := encoded_blanks b bs
    rw [hbytes, List.cons_append, next_blank hw, ih, List.length_cons]
    congr 2
    omega

/-- Blanks before a delimiter delimit as well. -/
theorem delimited_blanks (bs : List Blank) {rest : List UInt8} (h : Delimited rest) :
    Delimited (encoded (blanks bs) ++ rest) := by
  cases bs with
  | nil => exact h
  | cons b bs =>
    obtain ⟨w, hw, hbytes⟩ := encoded_blanks b bs
    rw [hbytes]
    rintro _ ⟨⟩
    exact (classes_apart w).1 (.inl hw)

/-- A word is read as what it stands for. -/
theorem next_denoted_word (w : Word) {rest : List UInt8} (offset : ℕ) (hrest : Delimited rest) :
    Cursor.next ⟨encoded w.text.toList ++ rest, offset⟩ = .ok (.token (.scalar w.tree)
      ⟨rest, offset + (encoded w.text.toList).length⟩) := by
  rw [encoded, ← Utf8.bytes_eq_flatMap]
  have hletter : (bytes w.text).all isLetter := by cases w <;> rfl
  exact next_word (by cases w <;> decide) (List.all_eq_true.1 hletter) hrest (by cases w <;> rfl)

/-! ## Numbers -/

/-- The character of a digit is a digit. -/
theorem isDigit_digitChar (d : Fin 10) : (digitChar d).isDigit := by
  revert d
  decide

/-- The characters of digits are digits. -/
theorem isDigit_of_mem_map {ds : List (Fin 10)} : ∀ c ∈ ds.map digitChar, c.isDigit := by
  simp [isDigit_digitChar]

/-- Digits are read as the number that they denote. -/
theorem digitsValue_map_digitChar (ds : List (Fin 10)) :
    Decimal.digitsValue 0 (ds.map digitChar) = natural ds := by
  have hvalue : ∀ d : Fin 10, (digitChar d).toNat - '0'.toNat = d := by decide
  simp only [Decimal.digitsValue, natural, List.foldl_map, hvalue]

/-- A run of digits is read whole. -/
theorem wholeDigits?_map_digitChar {ds : List (Fin 10)} (h : ds ≠ []) :
    Decimal.wholeDigits? (ds.map digitChar) = some (natural ds) := by
  have hall : (ds.map digitChar).all Char.isDigit := List.all_eq_true.2 isDigit_of_mem_map
  rw [Decimal.wholeDigits?, hall, digitsValue_map_digitChar, if_neg (by simp [h])]

/-- An exponent part is read as the power of ten. -/
theorem exponentPart?_chars (e : Exponent) : Decimal.exponentPart? e.chars = some e.value := by
  have hne : e.digits.map digitChar ≠ [] := by simpa using e.nonempty
  have hread := wholeDigits?_map_digitChar e.nonempty
  rw [Exponent.chars, Decimal.exponentPart?, if_pos (by simp), Exponent.value]
  rcases e.sign with _ | ⟨⟨⟩⟩
  · rw [signChars]
    have hsplit := Decimal.splitSign_digits [] hne isDigit_of_mem_map
    rw [List.append_nil] at hsplit
    rw [List.nil_append, hsplit]
    simp [hread]
  · simp [signChars, Decimal.splitSign, hread]
  · simp [signChars, Decimal.splitSign, hread]

/-- The characters that numbers of the grammar are written with. -/
def isNumeral (c : Char) : Bool :=
  c.isDigit || c == '-' || c == '+' || c == '.' || c == 'e' || c == 'E'

/-- A character of a number is a single byte that numbers are made of. -/
theorem isNumeral_spec {c : Char} (h : isNumeral c) : c.toNat < 128 ∧ isNumberPart (byte c) := by
  simp only [isNumeral, Bool.or_eq_true, beq_iff_eq] at h
  rcases h with ((((h | rfl) | rfl) | rfl) | rfl) | rfl
  · obtain ⟨hlt, hdigit⟩ := isDigit_byte h
    exact ⟨hlt, by simp [isNumberPart, hdigit]⟩
  all_goals decide

namespace Number

variable (n : Number)

/-- A number is written with the characters of numbers. -/
theorem isNumeral_of_mem_chars : ∀ c ∈ n.chars, isNumeral c := by
  have hdigits {ds : List (Fin 10)} : ∀ c ∈ ds.map digitChar, isNumeral c := fun c hc => by
    simp [isNumeral, isDigit_of_mem_map c hc]
  have hexponent : ∀ c ∈ n.exponent.elim [] Exponent.chars, isNumeral c := by
    cases n.exponent with
    | none => simp
    | some e =>
      rintro c (⟨⟩ | ⟨-, hc⟩)
      · cases e.capital <;> decide
      · have hsign : ∀ o, ∀ c ∈ signChars o, isNumeral c := by
          rintro (_ | _ | _) <;> simp [signChars, isNumeral]
        exact (List.mem_append.1 hc).elim (hsign e.sign c) (hdigits c)
  have hfraction : ∀ c ∈ Decimal.fractionText (n.fraction.map digitChar), isNumeral c := by
    unfold Decimal.fractionText
    split_ifs
    · simp
    · rintro c (⟨⟩ | ⟨-, hc⟩)
      · decide
      · exact hdigits c hc
  have hsign : ∀ c ∈ Decimal.signText n.negative, isNumeral c := by
    cases n.negative <;> simp [Decimal.signText, isNumeral]
  intro c hc
  simp only [chars, List.mem_append] at hc
  obtain hc | hc | hc | hc := hc
  · exact hsign c hc
  · exact hdigits c hc
  · exact hfraction c hc
  · exact hexponent c hc

/-- A number is read as a decimal of its sign and magnitude. -/
theorem ofLiteral?_chars : ∃ d, Decimal.ofLiteral? n.chars = some d ∧ d.negative = n.negative ∧
    d.magnitude = n.magnitude := by
  have hne : n.whole.map digitChar ≠ [] := by simpa using n.nonempty
  have hexponent : Decimal.exponentPart? (n.exponent.elim [] Exponent.chars) =
      some (n.exponent.elim 0 Exponent.value) := by
    cases n.exponent with
    | none => rfl
    | some e => exact exponentPart?_chars e
  refine ⟨_, Decimal.ofLiteral?_parts n.negative hne isDigit_of_mem_map isDigit_of_mem_map
    hexponent, rfl, ?_⟩
  rw [Decimal.magnitude, magnitude, ← List.map_append, digitsValue_map_digitChar, List.length_map]

/-- A number without fraction and exponent is read as a whole number. -/
theorem integerLiteral?_chars (h : n.IsInteger) : integerLiteral? n.chars = some n.integer := by
  have hne : n.whole.map digitChar ≠ [] := by simpa using n.nonempty
  rw [chars, h.1, h.2, integerLiteral?, Decimal.splitSign_signText _ _ hne isDigit_of_mem_map,
    integer]
  simp [Decimal.fractionText, wholeDigits?_map_digitChar n.nonempty]

/-- A number with a fraction or an exponent is not read as a whole number. -/
theorem integerLiteral?_chars_of_not (h : ¬ n.IsInteger) : integerLiteral? n.chars = none := by
  have hne : n.whole.map digitChar ≠ [] := by simpa using n.nonempty
  refine Decimal.integerLiteral?_parts n.negative hne isDigit_of_mem_map ?_
  -- The point or the letter of the exponent is no digit.
  by_cases hf : n.fraction = []
  · cases he : n.exponent with
    | none => exact absurd ⟨hf, he⟩ h
    | some e =>
      refine ⟨if e.capital then 'E' else 'e', ?_, by cases e.capital <;> decide⟩
      simp [Exponent.chars]
  · exact ⟨'.', by simp [Decimal.fractionText, hf], by decide⟩

variable {n}

/-- A number is read as what it stands for. -/
theorem numberOf?_chars {t : Json} (h : n.Denotes t) : numberOf? n.chars = some t := by
  unfold numberOf?
  cases h with
  | @int i hn hi =>
    have hrange : -2 ^ 63 ≤ n.integer ∧ n.integer < 2 ^ 63 := hi ▸ ⟨i.le_toInt, i.toInt_lt⟩
    rw [n.integerLiteral?_chars hn, Option.filter_some, if_pos (decide_eq_true hrange), ← hi]
    dsimp only
    rw [Int64.ofInt_toInt]
  | @num x h hx =>
    obtain ⟨d, hd, hnegative, hmagnitude⟩ := n.ofLiteral?_chars
    -- A whole number that is not one of 64 bits is filtered out.
    have hwhole : (integerLiteral? n.chars).filter
        (fun i => decide (-2 ^ 63 ≤ i ∧ i < 2 ^ 63)) = none := by
      by_cases hn : n.IsInteger
      · rw [n.integerLiteral?_chars hn, Option.filter_some, if_neg]
        intro hrange
        obtain ⟨hlow, hhigh⟩ := of_decide_eq_true hrange
        exact h hn (Int64.ofInt n.integer) (Int64.toInt_ofInt_of_le hlow hhigh)
      · rw [n.integerLiteral?_chars_of_not hn, Option.filter_none]
    have hfloat := d.isNearest_toFloat
    rw [hnegative, hmagnitude] at hfloat
    rw [hwhole, hd]
    dsimp only
    rw [Option.map_some, hfloat.unique hx]

end Number

/-- A number is read as what it stands for. -/
theorem next_denoted_number {n : Number} {t : Json} (h : n.Denotes t) {rest : List UInt8}
    (offset : ℕ) (hrest : Delimited rest) :
    Cursor.next ⟨encoded n.chars ++ rest, offset⟩ = .ok (.token (.scalar t)
      ⟨rest, offset + (encoded n.chars).length⟩) := by
  have hlt : ∀ c ∈ n.chars, c.toNat < 128 := fun c hc =>
    (isNumeral_spec (n.isNumeral_of_mem_chars c hc)).1
  have hback : (n.chars.map byte).map (fun b => Char.ofNat b.toNat) = n.chars := by
    have hchars := Utf8.map_char_bytes (s := String.ofList n.chars) (by simpa using hlt)
    rwa [bytes_ofList, encoded_eq_map hlt, String.toList_ofList] at hchars
  have hvalue : number? (n.chars.map byte) = some t := by
    rw [← Number.numberOf?_chars h]
    exact congrArg numberOf? hback
  obtain ⟨d, ds, hds⟩ := List.exists_cons_of_ne_nil n.nonempty
  rw [encoded_eq_map hlt]
  refine next_number ?_ ?_ ?_ hrest hvalue
  · have hdigit : ∀ d : Fin 10, isDigit (byte (digitChar d)) := by decide
    intro b hb
    rw [Number.chars, hds] at hb
    cases hneg : n.negative
    · obtain rfl : byte (digitChar d) = b := by simpa [hneg, Decimal.signText] using hb
      exact .inr (hdigit d)
    · obtain rfl : byte '-' = b := by simpa [hneg, Decimal.signText] using hb
      exact .inl rfl
  · simp [Number.chars, hds]
  · simp only [List.mem_map, forall_exists_index, and_imp]
    rintro _ c hc rfl
    exact (isNumeral_spec (n.isNumeral_of_mem_chars c hc)).2

/-! ## Texts -/

/-- The character that the reader takes an escape for. -/
def Escape.taken : Escape → Char
  | .backspace => 'b'
  | .formFeed => 'f'
  | e => e.char

/-- Hexadecimal digits are single bytes, none of them a plus sign, and are read as their values. -/
theorem hexDigit_spec (d : HexDigit) : d.char.toNat < 128 ∧ byte d.char ≠ byte '+' ∧
    hexDigit? (byte d.char) = some (d.value : ℕ) := by
  have hall : ∀ (v : Fin 16) (capital : Bool), (HexDigit.mk v capital).char.toNat < 128 ∧
      byte (HexDigit.mk v capital).char ≠ byte '+' ∧
      hexDigit? (byte (HexDigit.mk v capital).char) = some (v : ℕ) := by
    decide
  exact hall d.value d.capital

/-- The bytes of a code unit. -/
theorem encoded_codeUnit (u : CodeUnit) (cs : List Char) :
    encoded ('\\' :: 'u' :: (u.chars ++ cs)) =
      byte '\\' :: byte 'u' :: byte u.first.char :: byte u.second.char :: byte u.third.char ::
        byte u.fourth.char :: encoded cs := by
  have hunit : encoded u.chars = u.chars.map byte :=
    encoded_eq_map (by simp [CodeUnit.chars, (hexDigit_spec _).1])
  rw [encoded_cons (by decide), encoded_cons (by decide), encoded_append, hunit]
  rfl

/-- The digits of a code unit are read as the character that it is by itself, if it is one. -/
theorem escapedChar?_codeUnit (u : CodeUnit) : escapedChar? [byte u.first.char,
    byte u.second.char, byte u.third.char, byte u.fourth.char] =
      if u.value.isValidChar then some (Char.ofNat u.value) else none := by
  unfold escapedChar?
  dsimp only
  rw [if_neg (by simpa using (hexDigit_spec u.first).2.1)]
  have hvalue : hexValue? 0 [byte u.first.char, byte u.second.char, byte u.third.char,
      byte u.fourth.char] = some u.value := by
    simp [hexValue?, (hexDigit_spec _).2.2, CodeUnit.value]
  rw [hvalue]
  rfl

/-- A code unit is a character by itself exactly if it is no half of a pair. -/
theorem isValidChar_codeUnit (u : CodeUnit) :
    u.value.isValidChar ↔ ¬ u.IsHigh ∧ ¬ u.IsLow := by
  have h1 := u.first.value.isLt
  have h2 := u.second.value.isLt
  have h3 := u.third.value.isLt
  have h4 := u.fourth.value.isLt
  have hlt : u.value < 0x10000 := by
    unfold CodeUnit.value
    omega
  unfold Nat.isValidChar CodeUnit.IsHigh CodeUnit.IsLow
  omega

/-- A part that is no pair is read as the character that it is taken for. -/
theorem quotedBytes_part {p : Part} (hp : p.isPair = false) (rest : List UInt8) (offset : ℕ)
    (acc : List UInt8) : quotedBytes (encoded p.chars ++ rest) offset acc =
      quotedBytes rest (offset + (encoded p.chars).length)
        ((String.utf8EncodeChar (p.char Escape.taken)).reverse ++ acc) := by
  cases p with
  | plain c control quote backslash =>
    have hbytes : encoded [c] = String.utf8EncodeChar c := List.flatMap_singleton ..
    rw [Part.chars, hbytes]
    exact quotedBytes_char quote backslash rest offset acc
  | short e =>
    cases e <;> exact quotedBytes_backslash rest offset acc (by decide)
  | unit u high low =>
    have hchar := escapedChar?_codeUnit u
    rw [if_pos ((isValidChar_codeUnit u).2 ⟨high, low⟩)] at hchar
    have hbytes := encoded_codeUnit u []
    rw [List.append_nil] at hbytes
    rw [Part.chars, hbytes]
    exact quotedBytes_unicode rest offset acc hchar
  | pair => cases hp

/-- The first half of a pair is no character, so the pair is an error. -/
theorem quotedBytes_pair {p : Part} (hp : p.isPair) (rest : List UInt8) (offset : ℕ)
    (acc : List UInt8) : ∃ e, quotedBytes (encoded p.chars ++ rest) offset acc = .error e := by
  cases p with
  | plain | short | unit => cases hp
  | pair first second high low =>
    have hchar := escapedChar?_codeUnit first
    rw [if_neg fun h => ((isValidChar_codeUnit first).1 h).1 high] at hchar
    rw [Part.chars, encoded_codeUnit, quotedBytes.eq_def]
    dsimp only [List.cons_append]
    rw [if_neg (by decide), if_pos (by decide), if_pos (by decide), hchar]
    exact ⟨_, rfl⟩

variable {s : List Part}

/-- The parts of a text are read one after another, if no pair is among them. -/
theorem quotedBytes_parts (hs : ∀ p ∈ s, p.isPair = false) (rest : List UInt8) (offset : ℕ)
    (acc : List UInt8) :
    quotedBytes (encoded (s.flatMap Part.chars) ++ rest) offset acc =
      quotedBytes rest (offset + (encoded (s.flatMap Part.chars)).length)
        ((encoded (s.map (Part.char Escape.taken))).reverse ++ acc) := by
  induction s generalizing offset acc with
  | nil => rfl
  | cons p s ih =>
    rw [List.flatMap_cons, encoded_append, List.append_assoc,
      quotedBytes_part (hs p (List.mem_cons_self ..)),
      ih fun q hq => hs q (List.mem_cons_of_mem _ hq)]
    simp [encoded, Nat.add_assoc]

/-- A pair among the parts of a text is an error. -/
theorem quotedBytes_parts_pair (hs : ∃ p ∈ s, p.isPair) (rest : List UInt8) (offset : ℕ)
    (acc : List UInt8) :
    ∃ e, quotedBytes (encoded (s.flatMap Part.chars) ++ rest) offset acc = .error e := by
  induction s generalizing offset acc with
  | nil => simp at hs
  | cons p s ih =>
    rw [List.flatMap_cons, encoded_append, List.append_assoc]
    cases hp : p.isPair
    · rw [quotedBytes_part hp]
      exact ih (by simpa [hp] using hs) _ _
    · exact quotedBytes_pair hp _ _ _

/-- A text starts with a quote, which starts nothing else. -/
theorem next_quote (bs : List UInt8) (offset : ℕ) :
    Cursor.next ⟨byte '"' :: bs, offset⟩ = readText ⟨bs, offset + 1⟩ := by
  have hquote : punctuation? (byte '"') = none := by decide
  rw [next_of_not_blank (by decide), Cursor.tokenHere]
  dsimp only
  rw [hquote]
  dsimp only
  rw [if_pos (by decide)]

/-- The bytes of a text with its quotes. -/
theorem encoded_quoted (s : List Part) (rest : List UInt8) : encoded (quoted s) ++ rest =
    byte '"' :: (encoded (s.flatMap Part.chars) ++ byte '"' :: rest) := by
  rw [quoted, encoded_cons (by decide), encoded_append, encoded_cons (c := '"') (by decide)]
  simp [encoded]

/-- A text without pairs is read as what its escapes are taken for. -/
theorem next_quoted (hs : ∀ p ∈ s, p.isPair = false) (rest : List UInt8) (offset : ℕ) :
    Cursor.next ⟨encoded (quoted s) ++ rest, offset⟩ =
      .ok (.token (.scalar (.text (decode Escape.taken s)))
        ⟨rest, offset + (encoded (quoted s)).length⟩) := by
  have hlength := congrArg List.length (encoded_quoted s [])
  rw [List.append_nil] at hlength
  rw [encoded_quoted, next_quote, readText, quotedBytes_parts hs, quotedBytes_quote]
  dsimp only
  rw [List.append_nil, List.reverse_reverse, ← bytes_ofList, Utf8.text?_bytes, hlength]
  dsimp only
  rw [decode]
  simp [Nat.add_assoc, Nat.add_comm 1]

/-- A text with a pair is an error. -/
theorem next_quoted_pair (hs : ∃ p ∈ s, p.isPair) (rest : List UInt8) (offset : ℕ) :
    ∃ e, Cursor.next ⟨encoded (quoted s) ++ rest, offset⟩ = .error e := by
  obtain ⟨e, he⟩ := quotedBytes_parts_pair hs (byte '"' :: rest) (offset + 1) []
  exact ⟨e, by rw [encoded_quoted, next_quote, readText, he]⟩

end MathProgram.Json.Grammar
