/-!
# UTF-8

Bytes and texts. `Utf8.bytes` encodes, `Utf8.text?` decodes bytes that are valid throughout, and
`Utf8.lossy` decodes any bytes: each longest piece that begins a character and does not finish it
becomes one U+FFFD, and so does each byte that begins none.
-/

namespace MathProgram.Utf8

/-- The bytes of a text. -/
def bytes (s : String) : List UInt8 := s.toUTF8.data.toList

/-- The text that bytes encode, if they are valid throughout. -/
def text? (bs : List UInt8) : Option String := String.fromUTF8? ⟨bs.toArray⟩

/-- The ranges of the bytes that have to follow a first byte, or `none` if no character of more
than one byte starts with it. The second byte is bounded more tightly where the plain range would
admit an overlong form, a surrogate, or a value beyond U+10FFFF. -/
def following? (b : UInt8) : Option (List (UInt8 × UInt8)) :=
  let tail : UInt8 × UInt8 := (0x80, 0xBF)
  if 0xC2 ≤ b && b ≤ 0xDF then some [tail]
  else if b == 0xE0 then some [(0xA0, 0xBF), tail]
  else if b == 0xED then some [(0x80, 0x9F), tail]
  else if 0xE1 ≤ b && b ≤ 0xEF then some [tail, tail]
  else if b == 0xF0 then some [(0x90, 0xBF), tail, tail]
  else if 0xF1 ≤ b && b ≤ 0xF3 then some [tail, tail, tail]
  else if b == 0xF4 then some [(0x80, 0x8F), tail, tail]
  else none

/-- How many bytes at the front lie in the ranges, one by one. -/
def inRanges : List (UInt8 × UInt8) → List UInt8 → Nat
  | (low, high) :: ranges, b :: bs => if low ≤ b && b ≤ high then inRanges ranges bs + 1 else 0
  | _, _ => 0

/-- The scalar value that a first byte and the bytes after it encode. -/
def scalarValue (first : UInt8) (rest : List UInt8) : Nat :=
  let lead := match rest.length with
    | 1 => first.toNat % 0x20
    | 2 => first.toNat % 0x10
    | _ => first.toNat % 0x08
  rest.foldl (fun n b => n * 64 + b.toNat % 64) lead

/-- The character that replaces what cannot be decoded. -/
def replacement : Char := '\uFFFD'

/-- Decodes bytes, with U+FFFD for what cannot be decoded. -/
def lossyChars : List UInt8 → List Char
  | [] => []
  | b :: bs =>
    if b < 0x80 then Char.ofNat b.toNat :: lossyChars bs
    else match following? b with
      | none => replacement :: lossyChars bs
      | some ranges =>
        let n := inRanges ranges bs
        let c := if n = ranges.length then Char.ofNat (scalarValue b (bs.take n)) else replacement
        c :: lossyChars (bs.drop n)
  termination_by bs => bs.length
  decreasing_by all_goals simp only [List.length_cons, List.length_drop]; omega

/-- Decodes bytes to a text, with U+FFFD for what cannot be decoded. -/
def lossy (bs : List UInt8) : String := String.ofList (lossyChars bs)

end MathProgram.Utf8
