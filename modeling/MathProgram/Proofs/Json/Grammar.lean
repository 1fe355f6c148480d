import MathProgram.Proofs.Decimal.Nearest
import MathProgram.Json.Tree

/-!
# The grammar of JSON

The documents that the JSON standard allows, as trees of what they are written with: the blanks, the
digits of each number, and each escape as it stands. Whatever the grammar demands is part of the
types, so each `Document` is valid, and `Document.text` writes it down. Blanks may stand around
every value, every name and every bracket; here they belong to the value, the name or the empty
brackets that they surround.

`Document.Denotes` says which tree a document stands for. It takes what the eight short escapes mean
as a parameter, since a reader may differ from the standard there; the standard meaning is
`Escape.char`. Number literals without fraction and exponent are whole numbers if they fit 64 bits,
and all others stand for the nearest double. Every document stands for one tree
(`exists_denotes`, `denotes_unique`), and with other meanings of the escapes for the same one if no
text of it changes (`denotes_eq_iff`).
-/

namespace MathProgram.Json.Grammar

/-! ## Lexemes -/

/-- A blank. -/
inductive Blank where
  | space
  | tab
  | lineFeed
  | carriageReturn

/-- The character of a blank. -/
def Blank.char : Blank → Char
  | space => ' '
  | tab => '\t'
  | lineFeed => '\n'
  | carriageReturn => '\r'

/-- The characters of blanks. -/
def blanks (bs : List Blank) : List Char := bs.map Blank.char

/-- A word. -/
inductive Word where
  | null
  | false
  | true

/-- The text of a word. -/
def Word.text : Word → String
  | null => "null"
  | false => "false"
  | true => "true"

/-- What a word stands for. -/
def Word.tree : Word → Json
  | null => .null
  | false => .bool Bool.false
  | true => .bool Bool.true

/-- The character of a decimal digit. -/
def digitChar (d : Fin 10) : Char := Char.ofNat ('0'.toNat + d)

/-- The number that decimal digits denote. -/
def natural (ds : List (Fin 10)) : ℕ := ds.foldl (fun (n : ℕ) (d : Fin 10) => 10 * n + d) 0

/-- A sign that is written. -/
inductive Sign where
  | plus
  | minus

/-- The characters of a sign, if it is written. -/
def signChars : Option Sign → List Char
  | none => []
  | some .plus => ['+']
  | some .minus => ['-']

/-- The exponent part of a number. -/
structure Exponent where
  /-- It is introduced by a capital letter. -/
  capital : Bool
  sign : Option Sign
  digits : List (Fin 10)
  nonempty : digits ≠ []

/-- The characters of an exponent part. -/
def Exponent.chars (e : Exponent) : List Char :=
  (if e.capital then 'E' else 'e') :: (signChars e.sign ++ e.digits.map digitChar)

/-- The power of ten. -/
def Exponent.value (e : Exponent) : ℤ :=
  match e.sign with
  | some .minus => -(natural e.digits : ℤ)
  | _ => natural e.digits

/-- A number. -/
structure Number where
  negative : Bool
  whole : List (Fin 10)
  /-- The digits after the point. Without digits there is no point. -/
  fraction : List (Fin 10)
  exponent : Option Exponent
  nonempty : whole ≠ []
  no_leading_zero : whole.head? = some 0 → whole = [0]

namespace Number

/-- The characters of a number. -/
def chars (n : Number) : List Char :=
  Decimal.signText n.negative ++ (n.whole.map digitChar ++
    (Decimal.fractionText (n.fraction.map digitChar) ++ n.exponent.elim [] Exponent.chars))

/-- The absolute value of a number. -/
def magnitude (n : Number) : ℚ :=
  natural (n.whole ++ n.fraction) *
    10 ^ (n.exponent.elim 0 Exponent.value - n.fraction.length : ℤ)

/-- The number has neither fraction nor exponent. -/
def IsInteger (n : Number) : Prop := n.fraction = [] ∧ n.exponent = none

/-- The value of a number that has neither fraction nor exponent. -/
def integer (n : Number) : ℤ := if n.negative then -(natural n.whole : ℤ) else natural n.whole

/-- What a number stands for: the whole number that it is, if it is one of 64 bits, and else the
nearest double. -/
inductive Denotes (n : Number) : Json → Prop where
  | int {i : Int64} (h : n.IsInteger) (hi : i.toInt = n.integer) : Denotes n (.int i)
  | num {x : Float} (h : n.IsInteger → ∀ i : Int64, i.toInt ≠ n.integer)
      (hx : IsNearest n.negative n.magnitude x) : Denotes n (.num x)

end Number

/-- An escape of two characters, by what it means. -/
inductive Escape where
  | quote
  | backslash
  | slash
  | backspace
  | formFeed
  | lineFeed
  | carriageReturn
  | tab
  deriving DecidableEq

/-- The character after the backslash. -/
def Escape.letter : Escape → Char
  | quote => '"'
  | backslash => '\\'
  | slash => '/'
  | backspace => 'b'
  | formFeed => 'f'
  | lineFeed => 'n'
  | carriageReturn => 'r'
  | tab => 't'

/-- The character that an escape means. -/
def Escape.char : Escape → Char
  | quote => '"'
  | backslash => '\\'
  | slash => '/'
  | backspace => '\x08'
  | formFeed => '\x0c'
  | lineFeed => '\n'
  | carriageReturn => '\r'
  | tab => '\t'

/-- A hexadecimal digit. -/
structure HexDigit where
  value : Fin 16
  capital : Bool

/-- The character of a hexadecimal digit. -/
def HexDigit.char (d : HexDigit) : Char :=
  if d.value < 10 then Char.ofNat ('0'.toNat + d.value)
  else if d.capital then Char.ofNat ('A'.toNat + (d.value - 10))
  else Char.ofNat ('a'.toNat + (d.value - 10))

/-- The four digits of a code unit of 16 bits. -/
structure CodeUnit where
  first : HexDigit
  second : HexDigit
  third : HexDigit
  fourth : HexDigit

namespace CodeUnit

/-- The characters of a code unit. -/
def chars (u : CodeUnit) : List Char := [u.first.char, u.second.char, u.third.char, u.fourth.char]

/-- The number that the four digits denote. -/
def value (u : CodeUnit) : ℕ :=
  16 * (16 * (16 * u.first.value + u.second.value) + u.third.value) + u.fourth.value

/-- The code unit of a number below 65536, in small letters. -/
def ofNat (n : ℕ) : CodeUnit :=
  ⟨⟨Fin.ofNat 16 (n / 4096), false⟩, ⟨Fin.ofNat 16 (n / 256), false⟩,
    ⟨Fin.ofNat 16 (n / 16), false⟩, ⟨Fin.ofNat 16 n, false⟩⟩

/-- The first half of a pair. -/
def IsHigh (u : CodeUnit) : Prop := 0xD800 ≤ u.value ∧ u.value < 0xDC00

/-- The second half of a pair. -/
def IsLow (u : CodeUnit) : Prop := 0xDC00 ≤ u.value ∧ u.value < 0xE000

instance (u : CodeUnit) : Decidable u.IsHigh := inferInstanceAs (Decidable (_ ∧ _))

instance (u : CodeUnit) : Decidable u.IsLow := inferInstanceAs (Decidable (_ ∧ _))

end CodeUnit

/-- A part of a text, which stands for one character. -/
inductive Part where
  /-- A character as it is. -/
  | plain (c : Char) (control : 0x20 ≤ c.toNat) (quote : c ≠ '"') (backslash : c ≠ '\\')
  | short (e : Escape)
  /-- A code unit that is a character by itself. -/
  | unit (u : CodeUnit) (high : ¬ u.IsHigh) (low : ¬ u.IsLow)
  /-- Two code units that are a character together. -/
  | pair (first second : CodeUnit) (high : first.IsHigh) (low : second.IsLow)

namespace Part

/-- The characters that a part is written with. -/
def chars : Part → List Char
  | plain c _ _ _ => [c]
  | short e => ['\\', e.letter]
  | unit u _ _ => '\\' :: 'u' :: u.chars
  | pair first second _ _ => '\\' :: 'u' :: (first.chars ++ '\\' :: 'u' :: second.chars)

/-- The character that a part stands for, by the meanings of the escapes. -/
def char (meaning : Escape → Char) : Part → Char
  | plain c _ _ _ => c
  | short e => meaning e
  | unit u _ _ => Char.ofNat u.value
  | pair first second _ _ =>
    Char.ofNat (0x10000 + (first.value - 0xD800) * 0x400 + (second.value - 0xDC00))

/-- The part is a pair of code units. -/
def isPair : Part → Bool
  | pair .. => true
  | _ => false

end Part

/-- The characters of a text with its quotes. -/
def quoted (s : List Part) : List Char := '"' :: (s.flatMap Part.chars ++ ['"'])

/-- The text that its parts stand for. -/
def decode (meaning : Escape → Char) (s : List Part) : String :=
  String.ofList (s.map (Part.char meaning))

/-! ## Documents -/

mutual

/-- A value without the blanks around it. -/
inductive Value where
  | word (w : Word)
  | number (n : Number)
  | string (s : List Part)
  | emptyArray (inside : List Blank)
  | array (vs : Items)
  | emptyObject (inside : List Blank)
  | object (ms : Members)

/-- The items of an array, with the blanks around each. -/
inductive Items where
  | last (before : List Blank) (v : Value) (after : List Blank)
  | cons (before : List Blank) (v : Value) (after : List Blank) (vs : Items)

/-- The members of an object, with the blanks around each name and each value. -/
inductive Members where
  | last (before : List Blank) (name : List Part) (after : List Blank)
      (before' : List Blank) (v : Value) (after' : List Blank)
  | cons (before : List Blank) (name : List Part) (after : List Blank)
      (before' : List Blank) (v : Value) (after' : List Blank) (ms : Members)

end

mutual

/-- The characters of a value. -/
def Value.chars : Value → List Char
  | .word w => w.text.toList
  | .number n => n.chars
  | .string s => quoted s
  | .emptyArray inside => '[' :: (blanks inside ++ [']'])
  | .array vs => '[' :: (vs.chars ++ [']'])
  | .emptyObject inside => '\x7b' :: (blanks inside ++ ['\x7d'])
  | .object ms => '\x7b' :: (ms.chars ++ ['\x7d'])

/-- The characters of items. -/
def Items.chars : Items → List Char
  | .last before v after => blanks before ++ (v.chars ++ blanks after)
  | .cons before v after vs => blanks before ++ (v.chars ++ (blanks after ++ ',' :: vs.chars))

/-- The characters of members. -/
def Members.chars : Members → List Char
  | .last before name after before' v after' =>
    blanks before ++ (quoted name ++ (blanks after ++ ':' ::
      (blanks before' ++ (v.chars ++ blanks after'))))
  | .cons before name after before' v after' ms =>
    blanks before ++ (quoted name ++ (blanks after ++ ':' ::
      (blanks before' ++ (v.chars ++ (blanks after' ++ ',' :: ms.chars)))))

end

mutual

/-- How deep arrays and objects are nested. -/
def Value.nesting : Value → ℕ
  | .word _ | .number _ | .string _ => 0
  | .emptyArray _ | .emptyObject _ => 1
  | .array vs => vs.nesting + 1
  | .object ms => ms.nesting + 1

/-- The deepest nesting among items. -/
def Items.nesting : Items → ℕ
  | .last _ v _ => v.nesting
  | .cons _ v _ vs => max v.nesting vs.nesting

/-- The deepest nesting among members. -/
def Members.nesting : Members → ℕ
  | .last _ _ _ _ v _ => v.nesting
  | .cons _ _ _ _ v _ ms => max v.nesting ms.nesting

end

mutual

/-- The texts of a value, names included. -/
def Value.strings : Value → List (List Part)
  | .string s => [s]
  | .array vs => vs.strings
  | .object ms => ms.strings
  | _ => []

/-- The texts of items. -/
def Items.strings : Items → List (List Part)
  | .last _ v _ => v.strings
  | .cons _ v _ vs => v.strings ++ vs.strings

/-- The texts of members. -/
def Members.strings : Members → List (List Part)
  | .last _ name _ _ v _ => name :: v.strings
  | .cons _ name _ _ v _ ms => name :: (v.strings ++ ms.strings)

end

mutual

/-- The tree that a value stands for, by the meanings of the escapes. -/
def Value.Denotes (meaning : Escape → Char) : Value → Json → Prop
  | .word w, t => t = w.tree
  | .number n, t => n.Denotes t
  | .string s, t => t = .text (decode meaning s)
  | .emptyArray _, t => t = .arr []
  | .array vs, t => ∃ ts, vs.Denotes meaning ts ∧ t = .arr ts
  | .emptyObject _, t => t = .obj []
  | .object ms, t => ∃ ts, ms.Denotes meaning ts ∧ t = .obj ts

/-- The trees that items stand for, in order. -/
def Items.Denotes (meaning : Escape → Char) : Items → List Json → Prop
  | .last _ v _, ts => ∃ t, v.Denotes meaning t ∧ ts = [t]
  | .cons _ v _ vs, ts =>
    ∃ t ts', v.Denotes meaning t ∧ vs.Denotes meaning ts' ∧ ts = t :: ts'

/-- The members that members stand for, in order. -/
def Members.Denotes (meaning : Escape → Char) : Members → List (String × Json) → Prop
  | .last _ name _ _ v _, ts => ∃ t, v.Denotes meaning t ∧ ts = [(decode meaning name, t)]
  | .cons _ name _ _ v _ ms, ts =>
    ∃ t ts', v.Denotes meaning t ∧ ms.Denotes meaning ts' ∧ ts = (decode meaning name, t) :: ts'

end

/-- A document: a value with blanks around it. -/
structure Document where
  before : List Blank
  value : Value
  after : List Blank

namespace Document

variable (d : Document)

/-- The text of a document. -/
def text : String := String.ofList (blanks d.before ++ (d.value.chars ++ blanks d.after))

/-- How deep arrays and objects are nested. -/
def nesting : ℕ := d.value.nesting

/-- The parts of all texts of the document. -/
def parts : List Part := d.value.strings.flatten

/-- The tree that a document stands for, by the meanings of the escapes. -/
def Denotes (meaning : Escape → Char) (t : Json) : Prop := d.value.Denotes meaning t

end Document

/-! ## Every document stands for one tree -/

/-- Every number stands for something. -/
theorem Number.exists_denotes (n : Number) : ∃ t, n.Denotes t := by
  by_cases h : n.IsInteger ∧ ∃ i : Int64, i.toInt = n.integer
  · obtain ⟨hn, i, hi⟩ := h
    exact ⟨_, .int hn hi⟩
  · have hnearest := Decimal.isNearest_toFloat ⟨n.negative, natural (n.whole ++ n.fraction),
      n.exponent.elim 0 Exponent.value - n.fraction.length⟩
    exact ⟨_, .num (fun hn i hi => h ⟨hn, i, hi⟩) hnearest⟩

/-- A number stands for one thing only. -/
theorem Number.denotes_unique {n : Number} {t t' : Json} (h : n.Denotes t) (h' : n.Denotes t') :
    t = t' := by
  cases h with
  | int hn hi =>
    cases h' with
    | int _ hi' => rw [Int64.toInt_inj.1 (hi.trans hi'.symm)]
    | num h' _ => exact absurd hi (h' hn _)
  | num h hx =>
    cases h' with
    | int hn hi => exact absurd hi (h hn _)
    | num _ hx' => rw [hx.unique hx']

section Meaning

variable {meaning meaning' : Escape → Char}

mutual

/-- Every value stands for a tree. -/
theorem Value.exists_denotes (meaning : Escape → Char) (v : Value) : ∃ t, v.Denotes meaning t := by
  match v with
  | .word _ | .string _ | .emptyArray _ | .emptyObject _ => exact ⟨_, rfl⟩
  | .number n => exact n.exists_denotes
  | .array vs =>
    obtain ⟨ts, h⟩ := vs.exists_denotes meaning
    exact ⟨_, ts, h, rfl⟩
  | .object ms =>
    obtain ⟨ts, h⟩ := ms.exists_denotes meaning
    exact ⟨_, ts, h, rfl⟩

/-- Items stand for trees. -/
theorem Items.exists_denotes (meaning : Escape → Char) (vs : Items) :
    ∃ ts, vs.Denotes meaning ts := by
  match vs with
  | .last _ v _ =>
    obtain ⟨t, h⟩ := v.exists_denotes meaning
    exact ⟨_, t, h, rfl⟩
  | .cons _ v _ vs =>
    obtain ⟨t, h⟩ := v.exists_denotes meaning
    obtain ⟨ts, h'⟩ := vs.exists_denotes meaning
    exact ⟨_, t, ts, h, h', rfl⟩

/-- Members stand for names and trees. -/
theorem Members.exists_denotes (meaning : Escape → Char) (ms : Members) :
    ∃ ts, ms.Denotes meaning ts := by
  match ms with
  | .last _ _ _ _ v _ =>
    obtain ⟨t, h⟩ := v.exists_denotes meaning
    exact ⟨_, t, h, rfl⟩
  | .cons _ _ _ _ v _ ms =>
    obtain ⟨t, h⟩ := v.exists_denotes meaning
    obtain ⟨ts, h'⟩ := ms.exists_denotes meaning
    exact ⟨_, t, ts, h, h', rfl⟩

end

mutual

/-- By two meanings of the escapes a value stands for one tree exactly if all its texts agree. -/
theorem Value.denotes_eq_iff {v : Value} {t t' : Json} (h : v.Denotes meaning t)
    (h' : v.Denotes meaning' t') :
    t = t' ↔ ∀ s ∈ v.strings, decode meaning s = decode meaning' s := by
  match v with
  | .word _ | .emptyArray _ | .emptyObject _ =>
    obtain rfl := h
    obtain rfl := h'
    simp [Value.strings]
  | .number n => simp [Value.strings, Number.denotes_unique h h']
  | .string s =>
    obtain rfl := h
    obtain rfl := h'
    simp [Value.strings]
  | .array vs =>
    obtain ⟨ts, hts, rfl⟩ := h
    obtain ⟨ts', hts', rfl⟩ := h'
    rw [Value.strings, ← Items.denotes_eq_iff hts hts', Json.arr.injEq]
  | .object ms =>
    obtain ⟨ts, hts, rfl⟩ := h
    obtain ⟨ts', hts', rfl⟩ := h'
    rw [Value.strings, ← Members.denotes_eq_iff hts hts', Json.obj.injEq]

/-- By two meanings of the escapes items stand for the same trees exactly if all texts agree. -/
theorem Items.denotes_eq_iff {vs : Items} {ts ts' : List Json} (h : vs.Denotes meaning ts)
    (h' : vs.Denotes meaning' ts') :
    ts = ts' ↔ ∀ s ∈ vs.strings, decode meaning s = decode meaning' s := by
  match vs with
  | .last _ v _ =>
    obtain ⟨t, ht, rfl⟩ := h
    obtain ⟨t', ht', rfl⟩ := h'
    rw [Items.strings, ← Value.denotes_eq_iff ht ht', List.singleton_inj]
  | .cons _ v _ vs =>
    obtain ⟨t, ts, ht, hts, rfl⟩ := h
    obtain ⟨t', ts', ht', hts', rfl⟩ := h'
    rw [Items.strings, List.forall_mem_append, ← Value.denotes_eq_iff ht ht',
      ← Items.denotes_eq_iff hts hts', List.cons_eq_cons]

/-- By two meanings of the escapes members stand for the same ones exactly if all texts agree. -/
theorem Members.denotes_eq_iff {ms : Members} {ts ts' : List (String × Json)}
    (h : ms.Denotes meaning ts) (h' : ms.Denotes meaning' ts') :
    ts = ts' ↔ ∀ s ∈ ms.strings, decode meaning s = decode meaning' s := by
  match ms with
  | .last _ name _ _ v _ =>
    obtain ⟨t, ht, rfl⟩ := h
    obtain ⟨t', ht', rfl⟩ := h'
    rw [Members.strings, List.forall_mem_cons, ← Value.denotes_eq_iff ht ht', List.singleton_inj,
      Prod.mk.injEq]
  | .cons _ name _ _ v _ ms =>
    obtain ⟨t, ts, ht, hts, rfl⟩ := h
    obtain ⟨t', ts', ht', hts', rfl⟩ := h'
    rw [Members.strings, List.forall_mem_cons, List.forall_mem_append,
      ← Value.denotes_eq_iff ht ht', ← Members.denotes_eq_iff hts hts', List.cons_eq_cons,
      Prod.mk.injEq, and_assoc]

end

namespace Document

/-- Every document stands for a tree. -/
theorem exists_denotes (d : Document) (meaning : Escape → Char) : ∃ t, d.Denotes meaning t :=
  d.value.exists_denotes meaning

/-- A document stands for one tree only. -/
theorem denotes_unique {d : Document} {t t' : Json} (h : d.Denotes meaning t)
    (h' : d.Denotes meaning t') : t = t' :=
  (Value.denotes_eq_iff h h').2 fun _ _ => rfl

/-- By two meanings of the escapes a document stands for one tree exactly if all parts of its texts
stand for the same characters. -/
theorem denotes_eq_iff {d : Document} {t t' : Json} (h : d.Denotes meaning t)
    (h' : d.Denotes meaning' t') :
    t = t' ↔ ∀ p ∈ d.parts, p.char meaning = p.char meaning' := by
  rw [Value.denotes_eq_iff h h', parts]
  simp only [decode, String.ofList_inj, List.map_inj_left, List.mem_flatten, forall_exists_index,
    and_imp]
  exact ⟨fun h p s hs hp => h s hs p hp, fun h s hs p hp => h p s hs hp⟩

end Document

end Meaning

end MathProgram.Json.Grammar
