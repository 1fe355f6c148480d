import MathProgram.Json.Tree
import MathProgram.Text.Utf8

/-!
# JSON tokens

`Cursor.next` skips blanks and reads one token off the bytes of a document. What it accepts is
wider than the standard in three places: a backslash before a character other than `n`, `r`, `t`
and `u` stands for that character, the four places of a `\u` escape may begin with a plus sign, and
a number is any run of the characters that numbers are made of, judged by the literal readers.

`Cursor.next_lt` says that a token uses up at least one byte.
-/

namespace MathProgram.Json

-- Powers are `Nat.pow` and `Int.pow` themselves, not those of the monoids a file may have in scope.
attribute [local instance (2000)] instPowNat

/-- The two kinds of brackets. -/
inductive Bracket where
  | square
  | curly
  deriving DecidableEq, Repr

/-- A token. Texts, numbers and words are complete values. -/
inductive Token where
  | opening (b : Bracket)
  | closing (b : Bracket)
  | comma
  | colon
  | scalar (v : Json)

/-- Why a document cannot be read. -/
inductive Fault where
  | trailingData
  | unexpectedEnd
  | badNumber
  | unexpectedInput
  | badUnicodeEscape
  | invalidUtf8
  | nestingTooDeep
  | unexpectedToken
  | expectedItemEnd
  | expectedMemberName
  | expectedColon
  | expectedMemberEnd
  deriving DecidableEq, Repr

/-- The wording of a fault. -/
def Fault.message : Fault → String
  | trailingData => "trailing data"
  | unexpectedEnd => "unexpected end of input"
  | badNumber => "bad number"
  | unexpectedInput => "unexpected input"
  | badUnicodeEscape => "bad unicode escape"
  | invalidUtf8 => "invalid utf-8 in string"
  | nestingTooDeep => "nesting too deep"
  | unexpectedToken => "unexpected token"
  | expectedItemEnd => "expected ',' or ']'"
  | expectedMemberName => "expected member name"
  | expectedColon => "expected ':'"
  | expectedMemberEnd => "expected ',' or '\x7d'"

/-- A fault and the byte offset at which it shows. -/
structure ReadError where
  offset : Nat
  fault : Fault
  deriving DecidableEq, Repr

/-- The wording of a read error. -/
def ReadError.message (e : ReadError) : String :=
  "task file: " ++ e.fault.message ++ " (offset " ++ toString e.offset ++ ")"

/-- A place in a document: the bytes still to come, and how many came before. -/
structure Cursor where
  rest : List UInt8
  offset : Nat
  deriving DecidableEq, Repr

/-- The result of reading a token: none is left, or a token and the place after it. -/
inductive Lexed where
  | finish (offset : Nat)
  | token (t : Token) (after : Cursor)

/-- The byte of an ASCII character. -/
def byte (c : Char) : UInt8 := c.toNat.toUInt8

/-- A blank between tokens. -/
def isBlank (b : UInt8) : Bool :=
  b == byte ' ' || b == byte '\n' || b == byte '\r' || b == byte '\t'

/-- A decimal digit. -/
def isDigit (b : UInt8) : Bool := byte '0' ≤ b && b ≤ byte '9'

/-- A character that numbers are made of. -/
def isNumberPart (b : UInt8) : Bool :=
  isDigit b || b == byte '-' || b == byte '+' || b == byte '.' || b == byte 'e' || b == byte 'E'

/-- An ASCII letter. -/
def isLetter (b : UInt8) : Bool :=
  (byte 'a' ≤ b && b ≤ byte 'z') || (byte 'A' ≤ b && b ≤ byte 'Z')

/-- The value of a hexadecimal digit. -/
def hexDigit? (b : UInt8) : Option Nat :=
  if isDigit b then some (b.toNat - '0'.toNat)
  else if byte 'a' ≤ b && b ≤ byte 'f' then some (b.toNat - 'a'.toNat + 10)
  else if byte 'A' ≤ b && b ≤ byte 'F' then some (b.toNat - 'A'.toNat + 10)
  else none

/-- The number that hexadecimal digits denote, after the digits read before. -/
def hexValue? (before : Nat) : List UInt8 → Option Nat
  | [] => some before
  | b :: bs => (hexDigit? b).bind fun d => hexValue? (16 * before + d) bs

/-- The character of the four places of a `\u` escape. The places may begin with a plus sign;
surrogates are no characters. -/
def escapedChar? (places : List UInt8) : Option Char :=
  let digits := match places with
    | b :: bs => if b == byte '+' then bs else places
    | [] => []
  (hexValue? 0 digits).bind fun n => if n.isValidChar then some (Char.ofNat n) else none

/-- What a backslash and this character stand for. -/
def unescape (b : UInt8) : UInt8 :=
  if b == byte 'n' then byte '\n'
  else if b == byte 'r' then byte '\r'
  else if b == byte 't' then byte '\t'
  else b

/-- Reads the bytes of a text up to the closing quote; `acc` holds, reversed, those read before. -/
def quotedBytes : List UInt8 → Nat → List UInt8 → Except ReadError (List UInt8 × Cursor)
  | [], offset, _ => .error ⟨offset, .unexpectedEnd⟩
  | b :: bs, offset, acc =>
    if b == byte '"' then .ok (acc.reverse, ⟨bs, offset + 1⟩)
    else if b == byte '\\' then
      match bs with
      | [] => .error ⟨offset + 1, .unexpectedEnd⟩
      | e :: es =>
        if e == byte 'u' then
          match es with
          | p :: q :: r :: s :: rest =>
            match escapedChar? [p, q, r, s] with
            | some c => quotedBytes rest (offset + 6) ((String.utf8EncodeChar c).reverse ++ acc)
            | none => .error ⟨offset + 2, .badUnicodeEscape⟩
          | _ => .error ⟨offset + 2, .badUnicodeEscape⟩
        else quotedBytes es (offset + 2) (unescape e :: acc)
    else quotedBytes bs (offset + 1) (b :: acc)

/-- Reads a text whose opening quote has been read. -/
def readText (c : Cursor) : Except ReadError Lexed :=
  match quotedBytes c.rest c.offset [] with
  | .error e => .error e
  | .ok (bs, after) =>
    match Utf8.text? bs with
    | some s => .ok (.token (.scalar (.text s)) after)
    | none => .error ⟨after.offset, .invalidUtf8⟩

/-- The value of a number literal: a whole number if it is one of 64 bits, else a double. -/
def number? (literal : List UInt8) : Option Json :=
  let cs := literal.map fun b => Char.ofNat b.toNat
  let whole := (integerLiteral? cs).filter fun i => -2 ^ (63 : Nat) ≤ i ∧ i < 2 ^ (63 : Nat)
  match whole with
  | some i => some (.int (Int64.ofInt i))
  | none => (Decimal.ofLiteral? cs).map fun d => .num d.toFloat

/-- The value of a word. -/
def word? (letters : List UInt8) : Option Json :=
  if letters = Utf8.bytes "null" then some .null
  else if letters = Utf8.bytes "true" then some (.bool true)
  else if letters = Utf8.bytes "false" then some (.bool false)
  else none

/-- Reads the longest run of bytes that belong to a class as one value. -/
def readRun (c : Cursor) (belongs : UInt8 → Bool) (value? : List UInt8 → Option Json)
    (fault : Fault) : Except ReadError Lexed :=
  let run := c.rest.takeWhile belongs
  match value? run with
  | some v => .ok (.token (.scalar v) ⟨c.rest.drop run.length, c.offset + run.length⟩)
  | none => .error ⟨c.offset, fault⟩

/-- The token that a byte is by itself. -/
def punctuation? (b : UInt8) : Option Token :=
  if b == byte '[' then some (.opening .square)
  else if b == byte '\x7b' then some (.opening .curly)
  else if b == byte ']' then some (.closing .square)
  else if b == byte '\x7d' then some (.closing .curly)
  else if b == byte ',' then some .comma
  else if b == byte ':' then some .colon
  else none

namespace Cursor

/-- The place after the blanks. -/
def skipBlanks (c : Cursor) : Cursor :=
  let blanks := c.rest.takeWhile isBlank
  ⟨c.rest.drop blanks.length, c.offset + blanks.length⟩

/-- Reads the token that starts here. -/
def tokenHere (c : Cursor) : Except ReadError Lexed :=
  match c.rest with
  | [] => .ok (.finish c.offset)
  | b :: bs =>
    match punctuation? b with
    | some t => .ok (.token t ⟨bs, c.offset + 1⟩)
    | none =>
      if b == byte '"' then readText ⟨bs, c.offset + 1⟩
      else if b == byte '-' || isDigit b then readRun c isNumberPart number? .badNumber
      else readRun c isLetter word? .unexpectedInput

/-- Skips blanks and reads a token. -/
def next (c : Cursor) : Except ReadError Lexed := c.skipBlanks.tokenHere

end Cursor

/-! ## Progress -/

/-- Reading a text never gains bytes. -/
theorem quotedBytes_length_le {bs : List UInt8} {offset : Nat} {acc out : List UInt8}
    {after : Cursor} (h : quotedBytes bs offset acc = .ok (out, after)) :
    after.rest.length ≤ bs.length := by
  fun_induction quotedBytes bs offset acc <;> simp_all <;> grind

/-- A word has at least one letter. -/
theorem word?_nil : word? [] = none := by
  decide

/-- A number has at least one place. -/
theorem number?_nil : number? [] = none := by
  decide

/-- A run that gives a value uses up at least one byte. -/
theorem readRun_lt {c after : Cursor} {belongs : UInt8 → Bool} {value? : List UInt8 → Option Json}
    {fault : Fault} {t : Token} (hv : value? [] = none)
    (h : readRun c belongs value? fault = .ok (.token t after)) :
    after.rest.length < c.rest.length := by
  unfold readRun at h
  dsimp only at h
  split at h
  · rename_i v hr
    simp only [Except.ok.injEq, Lexed.token.injEq] at h
    obtain ⟨-, rfl⟩ := h
    have hne : (c.rest.takeWhile belongs).length ≠ 0 := by
      intro h0
      rw [List.eq_nil_of_length_eq_zero h0, hv] at hr
      cases hr
    have hle := (List.takeWhile_prefix (l := c.rest) belongs).length_le
    simp only [List.length_drop]
    omega
  · cases h

/-- A text read whole never gains bytes. -/
theorem readText_length_le {c after : Cursor} {t : Token} (h : readText c = .ok (.token t after)) :
    after.rest.length ≤ c.rest.length := by
  unfold readText at h
  split at h
  · cases h
  · rename_i hq
    have := quotedBytes_length_le hq
    split at h
    · cases h
      exact this
    · cases h

namespace Cursor

/-- Skipping blanks never gains bytes. -/
theorem skipBlanks_length_le (c : Cursor) : c.skipBlanks.rest.length ≤ c.rest.length := by
  simp [skipBlanks]

/-- A token that starts here uses up at least one byte. -/
theorem tokenHere_lt {c after : Cursor} {t : Token} (h : c.tokenHere = .ok (.token t after)) :
    after.rest.length < c.rest.length := by
  unfold tokenHere at h
  split at h
  · cases h
  · rename_i b bs hb
    have hcons : bs.length < c.rest.length := by simp [hb]
    split at h
    · cases h
      exact hcons
    · split at h
      · exact Nat.lt_of_le_of_lt (readText_length_le h) hcons
      · split at h
        · exact readRun_lt number?_nil h
        · exact readRun_lt word?_nil h

/-- A token uses up at least one byte. -/
theorem next_lt {c after : Cursor} {t : Token} (h : c.next = .ok (.token t after)) :
    after.rest.length < c.rest.length :=
  Nat.lt_of_lt_of_le (tokenHere_lt h) c.skipBlanks_length_le

end Cursor

end MathProgram.Json
