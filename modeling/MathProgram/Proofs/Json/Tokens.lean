import MathProgram.Json.Printer
import MathProgram.Json.Reader
import MathProgram.Proofs.Decimal.ReadBack
import MathProgram.Proofs.Text.Utf8

/-!
# Tokens are read back

What the printer writes for one token is read as that token, whatever follows: punctuation
(`next_punctuation`), texts (`next_text`), words (`next_word`), and numbers of both kinds
(`next_int`, `next_num`). Words and numbers are runs, so what follows them must not go on with the
run; it is `Delimited`.

A text is read byte by byte. `quotedBytes_escape` is the step for one character: however it is
escaped, the bytes of the character itself are put back.
-/

namespace MathProgram.Json

open Utf8 (bytes)

/-- What holds of the first 256 numbers holds of all bytes. -/
theorem forall_byte {p : UInt8 → Prop} (h : ∀ n < 256, p (UInt8.ofNat n)) (b : UInt8) : p b := by
  have hb := h b.toNat b.toNat_lt
  rwa [UInt8.ofNat_toNat] at hb

/-- The classes of bytes are apart: blanks and punctuation go on no number and no word, and the
first byte of a number or a word starts nothing else. -/
theorem classes_apart (b : UInt8) :
    (isBlank b ∨ (punctuation? b).isSome → isNumberPart b = false ∧ isLetter b = false) ∧
    ((punctuation? b).isSome → isBlank b = false) ∧
    (isLetter b → (b == byte '-' || isDigit b) = false) ∧
    (isLetter b ∨ b = byte '-' ∨ isDigit b →
      isBlank b = false ∧ (punctuation? b).isNone ∧ b ≠ byte '"') := by
  -- All of this is about single bytes, so that one check of the 256 bytes settles it.
  revert b
  exact forall_byte (by decide +kernel)

/-- A digit is a single byte, which is a digit. -/
theorem isDigit_byte {c : Char} (h : c.isDigit) : c.toNat < 128 ∧ isDigit (byte c) := by
  obtain ⟨hlow, hhigh⟩ : 48 ≤ c.toNat ∧ c.toNat ≤ 57 := Char.isDigit_iff_toNat.1 h
  have hbyte : (byte c).toNat = c.toNat := UInt8.toNat_ofNat_of_lt' (by show c.toNat < 256; omega)
  refine ⟨by omega, ?_⟩
  rw [isDigit, Bool.and_eq_true, decide_eq_true_iff, decide_eq_true_iff, UInt8.le_iff_toNat_le,
    UInt8.le_iff_toNat_le, hbyte]
  exact ⟨hlow, hhigh⟩

/-! ## Texts -/

section Steps

variable (bs : List UInt8) (offset : ℕ) (acc : List UInt8)

/-- A quote ends a text. -/
theorem quotedBytes_quote :
    quotedBytes (byte '"' :: bs) offset acc = .ok (acc.reverse, ⟨bs, offset + 1⟩) := by
  rw [quotedBytes.eq_def]
  exact if_pos rfl

/-- A byte that is neither a quote nor a backslash is taken as it is. -/
theorem quotedBytes_cons {b : UInt8} (hquote : b ≠ byte '"') (hslash : b ≠ byte '\\') :
    quotedBytes (b :: bs) offset acc = quotedBytes bs (offset + 1) (b :: acc) := by
  rw [quotedBytes.eq_def]
  dsimp only
  rw [if_neg (by simpa using hquote), if_neg (by simpa using hslash)]

/-- A backslash before anything but `u` stands for one byte. -/
theorem quotedBytes_backslash {e : UInt8} (he : e ≠ byte 'u') :
    quotedBytes (byte '\\' :: e :: bs) offset acc =
      quotedBytes bs (offset + 2) (unescape e :: acc) := by
  rw [quotedBytes.eq_def]
  dsimp only
  rw [if_neg (by decide), if_pos (by decide), if_neg (by simpa using he)]

/-- A backslash, `u` and four places stand for a character. -/
theorem quotedBytes_unicode {p q r s : UInt8} {c : Char} (hc : escapedChar? [p, q, r, s] = some c) :
    quotedBytes (byte '\\' :: byte 'u' :: p :: q :: r :: s :: bs) offset acc =
      quotedBytes bs (offset + 6) ((String.utf8EncodeChar c).reverse ++ acc) := by
  rw [quotedBytes.eq_def]
  dsimp only
  rw [if_neg (by decide), if_pos (by decide), if_pos (by decide), hc]

end Steps

/-- Bytes that are neither quotes nor backslashes are taken as they are. -/
theorem quotedBytes_plain {w : List UInt8} (hw : ∀ b ∈ w, b ≠ byte '"' ∧ b ≠ byte '\\')
    (rest : List UInt8) (offset : ℕ) (acc : List UInt8) :
    quotedBytes (w ++ rest) offset acc =
      quotedBytes rest (offset + w.length) (w.reverse ++ acc) := by
  induction w generalizing offset acc with
  | nil => rfl
  | cons b w ih =>
    obtain ⟨hquote, hslash⟩ := hw b (List.mem_cons_self ..)
    rw [List.cons_append, quotedBytes_cons _ _ _ hquote hslash,
      ih fun c hc => hw c (List.mem_cons_of_mem _ hc)]
    simp [Nat.add_comm, Nat.add_left_comm]

/-- The escape of a control character names it. -/
theorem escapedChar?_hex4 {c : Char} (h : c.toNat < 0x20) :
    (bytes (hex4 c.toNat)).length = 4 ∧ escapedChar? (bytes (hex4 c.toNat)) = some c := by
  have hall : ∀ n < 0x20, (bytes (hex4 n)).length = 4 ∧
      escapedChar? (bytes (hex4 n)) = some (Char.ofNat n) := by
    decide
  have hc := hall c.toNat h
  rwa [Char.ofNat_toNat] at hc

/-- A character that needs no escape is taken as it is. -/
theorem quotedBytes_char {c : Char} (hquote : c ≠ '"') (hslash : c ≠ '\\') (rest : List UInt8)
    (offset : ℕ) (acc : List UInt8) :
    quotedBytes (String.utf8EncodeChar c ++ rest) offset acc =
      quotedBytes rest (offset + (String.utf8EncodeChar c).length)
        ((String.utf8EncodeChar c).reverse ++ acc) := by
  -- It is one byte that is no quote and no backslash, or several from 128 on.
  refine quotedBytes_plain (fun b hb => ?_) rest offset acc
  obtain hlt | hge := Nat.lt_or_ge c.toNat 128
  · have hne {d : Char} (hd : c ≠ d) (hd128 : d.toNat < 128) : c.toNat.toUInt8 ≠ byte d := by
      intro h
      have h' := congrArg UInt8.toNat h
      rw [byte, UInt8.toNat_ofNat_of_lt' (by show c.toNat < 256; omega),
        UInt8.toNat_ofNat_of_lt' (by show d.toNat < 256; omega)] at h'
      exact hd (Char.toNat_inj.1 h')
    rw [Utf8.utf8EncodeChar_of_lt hlt, List.mem_singleton] at hb
    rw [hb]
    exact ⟨hne hquote (by decide), hne hslash (by decide)⟩
  · have hlarge := Utf8.le_of_mem_utf8EncodeChar hge hb
    constructor
    · rintro rfl
      exact absurd hlarge (by decide)
    · rintro rfl
      exact absurd hlarge (by decide)

/-- One character is read back, however it is escaped. -/
theorem quotedBytes_escape (c : Char) (rest : List UInt8) (offset : ℕ) (acc : List UInt8) :
    quotedBytes (bytes (escape c) ++ rest) offset acc =
      quotedBytes rest (offset + (bytes (escape c)).length)
        ((String.utf8EncodeChar c).reverse ++ acc) := by
  unfold escape
  split_ifs with hquote hslash hn hr ht hcontrol
  · subst hquote
    exact quotedBytes_backslash rest offset acc (by decide)
  · subst hslash
    exact quotedBytes_backslash rest offset acc (by decide)
  · subst hn
    exact quotedBytes_backslash rest offset acc (by decide)
  · subst hr
    exact quotedBytes_backslash rest offset acc (by decide)
  · subst ht
    exact quotedBytes_backslash rest offset acc (by decide)
  · -- Six bytes: a backslash, the letter `u` and four places.
    obtain ⟨hlength, hplaces⟩ := escapedChar?_hex4 hcontrol
    rw [Utf8.bytes_append]
    match hb : bytes (hex4 c.toNat), hlength with
    | [p, q, r, s], _ =>
      rw [hb] at hplaces
      exact quotedBytes_unicode rest offset acc hplaces
  · rw [Utf8.bytes_eq_flatMap, String.toList_singleton, List.flatMap_singleton]
    exact quotedBytes_char hquote hslash rest offset acc

/-- The bytes of a text are read back up to the closing quote. -/
theorem quotedBytes_text (cs : List Char) (rest : List UInt8) (offset : ℕ) (acc : List UInt8) :
    quotedBytes (cs.flatMap (fun c => bytes (escape c)) ++ byte '"' :: rest) offset acc =
      .ok (acc.reverse ++ cs.flatMap String.utf8EncodeChar,
        ⟨rest, offset + (cs.flatMap fun c => bytes (escape c)).length + 1⟩) := by
  induction cs generalizing offset acc with
  | nil =>
    rw [List.flatMap_nil, List.nil_append, quotedBytes_quote]
    simp
  | cons c cs ih =>
    rw [List.flatMap_cons, List.append_assoc, quotedBytes_escape, ih]
    simp [Nat.add_assoc]

/-! ## Runs -/

/-- What follows a token cannot go on with a number or a word. -/
def Delimited (rest : List UInt8) : Prop :=
  ∀ b ∈ rest.head?, isNumberPart b = false ∧ isLetter b = false

/-- The end of the document delimits. -/
theorem delimited_nil : Delimited [] := by
  simp [Delimited]

/-- Punctuation delimits. -/
theorem delimited_punctuation {b : UInt8} (bs : List UInt8) (hb : (punctuation? b).isSome) :
    Delimited (b :: bs) := by
  intro c hc
  obtain rfl : b = c := by simpa using hc
  exact (classes_apart b).1 (.inr hb)

section Next

variable {bs rest w : List UInt8} {b : UInt8} {offset : ℕ}

/-- Where no blank stands a token starts. -/
theorem next_of_not_blank (hb : isBlank b = false) :
    Cursor.next ⟨b :: bs, offset⟩ = Cursor.tokenHere ⟨b :: bs, offset⟩ := by
  simp [Cursor.next, Cursor.skipBlanks, hb]

/-- A blank is skipped. -/
theorem next_blank (hb : isBlank b) :
    Cursor.next ⟨b :: bs, offset⟩ = Cursor.next ⟨bs, offset + 1⟩ := by
  simp [Cursor.next, Cursor.skipBlanks, hb, Nat.add_assoc, Nat.add_comm 1]

/-- Punctuation is a token by itself. -/
theorem next_punctuation {t : Token} (hb : punctuation? b = some t) :
    Cursor.next ⟨b :: bs, offset⟩ = .ok (.token t ⟨bs, offset + 1⟩) := by
  have hblank : isBlank b = false := (classes_apart b).2.1 (by rw [hb]; rfl)
  rw [next_of_not_blank hblank, Cursor.tokenHere]
  dsimp only
  rw [hb]

/-- A run is read as the value it stands for. -/
theorem readRun_append {belongs : UInt8 → Bool} {value? : List UInt8 → Option Json} {v : Json}
    (fault : Fault) (hw : ∀ b ∈ w, belongs b) (hrest : ∀ b ∈ rest.head?, belongs b = false)
    (hv : value? w = some v) :
    readRun ⟨w ++ rest, offset⟩ belongs value? fault =
      .ok (.token (.scalar v) ⟨rest, offset + w.length⟩) := by
  -- The run ends where the delimiter begins.
  have hstop : rest.takeWhile belongs = [] := by
    cases rest with
    | nil => rfl
    | cons b bs => simp [hrest b (by simp)]
  have hrun : (w ++ rest).takeWhile belongs = w := by
    rw [List.takeWhile_append_of_pos hw, hstop, List.append_nil]
  unfold readRun
  dsimp only
  rw [hrun, hv]
  simp

/-- The bytes of a quoted text. -/
theorem bytes_quotedPieces (s : String) : (quotedPieces s).flatMap bytes =
    byte '"' :: (s.toList.flatMap (fun c => bytes (escape c)) ++ [byte '"']) := by
  rw [quotedPieces, List.flatMap_cons, List.flatMap_append, List.flatMap_map]
  rfl

/-- A text is read as a token. -/
theorem next_text (s : String) (rest : List UInt8) (offset : ℕ) :
    Cursor.next ⟨(quotedPieces s).flatMap bytes ++ rest, offset⟩ = .ok (.token (.scalar (.text s))
      ⟨rest, offset + ((quotedPieces s).flatMap bytes).length⟩) := by
  have hquote : punctuation? (byte '"') = none := by decide
  -- The opening quote is no blank and no punctuation, so a text is read.
  rw [bytes_quotedPieces, List.cons_append, List.append_assoc, next_of_not_blank (by decide),
    Cursor.tokenHere]
  dsimp only
  rw [hquote]
  dsimp only
  rw [if_pos (by decide), readText, List.singleton_append, quotedBytes_text]
  dsimp only
  rw [List.reverse_nil, List.nil_append, ← Utf8.bytes_eq_flatMap, Utf8.text?_bytes]
  simp [Nat.add_assoc, Nat.add_comm 1]

/-- A word is read as a token. -/
theorem next_word {v : Json} (hw : w ≠ []) (hletter : ∀ b ∈ w, isLetter b) (hrest : Delimited rest)
    (hv : word? w = some v) :
    Cursor.next ⟨w ++ rest, offset⟩ = .ok (.token (.scalar v) ⟨rest, offset + w.length⟩) := by
  obtain ⟨b, bs, rfl⟩ := List.exists_cons_of_ne_nil hw
  have hb := hletter b (List.mem_cons_self ..)
  have hnumber := (classes_apart b).2.2.1 hb
  obtain ⟨hblank, hpunctuation, hquote⟩ := (classes_apart b).2.2.2 (.inl hb)
  rw [List.cons_append, next_of_not_blank hblank, Cursor.tokenHere]
  dsimp only
  rw [Option.isNone_iff_eq_none.1 hpunctuation]
  dsimp only
  rw [if_neg (by simpa using hquote), if_neg (by simp [hnumber]), ← List.cons_append]
  exact readRun_append _ hletter (fun c hc => (hrest c hc).2) hv

/-- A number is read as a token. -/
theorem next_number {v : Json} (hfirst : ∀ b ∈ w.head?, b = byte '-' ∨ isDigit b) (hw : w ≠ [])
    (hpart : ∀ b ∈ w, isNumberPart b) (hrest : Delimited rest) (hv : number? w = some v) :
    Cursor.next ⟨w ++ rest, offset⟩ = .ok (.token (.scalar v) ⟨rest, offset + w.length⟩) := by
  obtain ⟨b, bs, rfl⟩ := List.exists_cons_of_ne_nil hw
  have hb := hfirst b (by simp)
  obtain ⟨hblank, hpunctuation, hquote⟩ := (classes_apart b).2.2.2 (.inr hb)
  rw [List.cons_append, next_of_not_blank hblank, Cursor.tokenHere]
  dsimp only
  rw [Option.isNone_iff_eq_none.1 hpunctuation]
  dsimp only
  rw [if_neg (by simpa using hquote), if_pos (by simpa using hb), ← List.cons_append]
  exact readRun_append _ hpart (fun c hc => (hrest c hc).1) hv

end Next

/-! ## Numbers -/

/-- The characters that the printer writes numbers with. -/
def isNumberChar (c : Char) : Bool := c.isDigit || c == '-' || c == '.' || c == 'e'

/-- The characters of a number: it begins with a sign or a digit. -/
structure NumberText (cs : List Char) : Prop where
  nonempty : cs ≠ []
  chars : ∀ c ∈ cs, isNumberChar c
  first : ∀ c ∈ cs.head?, c = '-' ∨ c.isDigit

/-- A text of a number, checked character by character. -/
theorem numberText_cons {c : Char} {cs : List Char} (hfirst : c = '-' ∨ c.isDigit)
    (hall : (c :: cs).all isNumberChar) : NumberText (c :: cs) where
  nonempty := List.cons_ne_nil c cs
  chars := List.all_eq_true.1 hall
  first := by
    rintro _ ⟨⟩
    exact hfirst

/-- A digit is written in numbers. -/
theorem isNumberChar_digit {c : Char} (h : c.isDigit) : isNumberChar c := by
  simp [isNumberChar, h]

/-- A character of a number is a single byte that numbers are made of. -/
theorem isNumberChar_spec {c : Char} (h : isNumberChar c) :
    c.toNat < 128 ∧ isNumberPart (byte c) := by
  simp only [isNumberChar, Bool.or_eq_true, beq_iff_eq] at h
  rcases h with ((h | rfl) | rfl) | rfl
  · obtain ⟨hlt, hdigit⟩ := isDigit_byte h
    exact ⟨hlt, by simp [isNumberPart, hdigit]⟩
  all_goals decide

/-- The text of a number is read as a token. -/
theorem next_numberText {s : String} {v : Json} {rest : List UInt8} (hs : NumberText s.toList)
    (offset : ℕ) (hrest : Delimited rest) (hv : number? (bytes s) = some v) :
    Cursor.next ⟨bytes s ++ rest, offset⟩ =
      .ok (.token (.scalar v) ⟨rest, offset + (bytes s).length⟩) := by
  have hbytes : bytes s = s.toList.map byte := by
    rw [Utf8.bytes_eq_flatMap, ← List.flatMap_pure_eq_map]
    refine List.flatMap_congr fun c hc => ?_
    exact Utf8.utf8EncodeChar_of_lt (isNumberChar_spec (hs.chars c hc)).1
  refine next_number ?_ ?_ ?_ hrest hv
  · intro b hb
    rw [hbytes, List.head?_map, Option.mem_map] at hb
    obtain ⟨c, hc, rfl⟩ := hb
    exact (hs.first c hc).imp (congrArg byte) fun h => (isDigit_byte h).2
  · rw [hbytes]
    exact fun h => hs.nonempty (List.map_eq_nil_iff.1 h)
  · intro b hb
    rw [hbytes, List.mem_map] at hb
    obtain ⟨c, hc, rfl⟩ := hb
    exact (isNumberChar_spec (hs.chars c hc)).2

/-- The number that a literal stands for. -/
def numberOf? (cs : List Char) : Option Json :=
  match (integerLiteral? cs).filter fun i => -2 ^ 63 ≤ i ∧ i < 2 ^ 63 with
  | some i => some (.int (Int64.ofInt i))
  | none => (Decimal.ofLiteral? cs).map fun d => .num d.toFloat

/-- A number is judged by its characters. -/
theorem number?_bytes {s : String} (hs : NumberText s.toList) :
    number? (bytes s) = numberOf? s.toList := by
  have hchars := Utf8.map_char_bytes fun c hc => (isNumberChar_spec (hs.chars c hc)).1
  have hnumber : number? (bytes s) = numberOf? ((bytes s).map fun b => Char.ofNat b.toNat) := rfl
  rw [hnumber, hchars]

/-- The text of a whole number. -/
theorem numberText_toString (i : ℤ) : NumberText (toString i).toList := by
  have hdigits := Decimal.isDigit_toDigits i.natAbs
  have hne : Nat.toDigits 10 i.natAbs ≠ [] := Nat.toDigits_ne_nil
  rw [Decimal.toList_toString_int]
  split_ifs with h
  · rw [List.nil_append]
    exact ⟨hne, fun c hc => isNumberChar_digit (hdigits c hc),
      fun c hc => .inr (hdigits c (List.mem_of_mem_head? hc))⟩
  · refine ⟨by simp, fun c hc => ?_, by simp⟩
    obtain rfl | hc := List.mem_cons.1 hc
    · decide
    · exact isNumberChar_digit (hdigits c hc)

/-- A whole number of 64 bits is read as that number. -/
theorem number?_int (i : Int64) : number? (bytes (toString i.toInt)) = some (.int i) := by
  have hrange : -2 ^ 63 ≤ i.toInt ∧ i.toInt < 2 ^ 63 := ⟨i.le_toInt, i.toInt_lt⟩
  rw [number?_bytes (numberText_toString _), numberOf?, integerLiteral?_toString,
    Option.filter_some, if_pos (decide_eq_true hrange)]
  dsimp only
  rw [Int64.ofInt_toInt]

/-- The text of a decimal. -/
theorem numberText_scientific (d : Decimal) : NumberText d.scientific.toList := by
  obtain ⟨whole, fraction, e, hne, hw, hf, htext, -⟩ := Decimal.scientific_parts d
  have hsign : ∀ c ∈ Decimal.signText d.negative, c = '-' := by
    cases d.negative <;> simp [Decimal.signText]
  have hfraction : ∀ c ∈ Decimal.fractionText fraction, isNumberChar c := by
    unfold Decimal.fractionText
    split_ifs
    · simp
    · intro c hc
      obtain rfl | hc := List.mem_cons.1 hc
      · decide
      · exact isNumberChar_digit (hf c hc)
  obtain ⟨c₀, cs, rfl⟩ := List.exists_cons_of_ne_nil hne
  rw [htext]
  refine ⟨by simp, fun c hc => ?_, fun c hc => ?_⟩
  · simp only [List.mem_append, List.mem_cons (a := c) (b := 'e')] at hc
    obtain hc | hc | hc | rfl | hc := hc
    · rw [hsign c hc]
      decide
    · exact isNumberChar_digit (hw c hc)
    · exact hfraction c hc
    · decide
    · exact (numberText_toString e).chars c hc
  · cases hneg : Decimal.signText d.negative with
    | nil =>
      rw [hneg] at hc
      obtain rfl : c₀ = c := by simpa using hc
      exact .inr (hw c₀ (List.mem_cons_self ..))
    | cons c₁ cs₁ =>
      rw [hneg] at hc
      obtain rfl : c₁ = c := by simpa using hc
      exact .inl (hsign c₁ (by rw [hneg]; exact List.mem_cons_self ..))

/-- The literal of a double that is no NaN is read as that double. -/
theorem number?_num {x : Float} (hx : x.isNaN = false) :
    NumberText (numberLiteral x).toList ∧ number? (bytes (numberLiteral x)) = some (.num x) := by
  have hread {s : String} (hs : NumberText s.toList) (hint : integerLiteral? s.toList = none)
      (hnum : (Decimal.ofLiteral? s.toList).map Decimal.toFloat = some x) :
      NumberText s.toList ∧ number? (bytes s) = some (.num x) := by
    refine ⟨hs, ?_⟩
    rw [number?_bytes hs, numberOf?, hint, Option.filter_none]
    simpa using hnum
  unfold numberLiteral
  split
  · rename_i hnan
    rw [Binary.ofFloat_eq_nan_iff, hx] at hnan
    cases hnan
  · -- An infinity is written as a literal that overflows.
    rename_i negative hinf
    have hnum := Float.ofLiteral?_huge hinf
    cases negative
    · exact hread (numberText_cons (.inr rfl) rfl) (by decide) hnum
    · exact hread (numberText_cons (.inl rfl) rfl) (by decide) hnum
  · rename_i negative m q hfin
    obtain ⟨d, htext, -⟩ := Float.exists_decimal hfin
    refine hread ?_ (Float.integerLiteral?_scientific hfin) (Float.ofLiteral?_scientific hfin)
    rw [htext]
    exact numberText_scientific d

end MathProgram.Json
