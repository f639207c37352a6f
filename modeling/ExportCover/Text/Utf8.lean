/-!
# Bytes and characters

UTF-8 in both directions. Reading is lossy: bytes that encode no character are replaced by U+FFFD,
one for each longest run of bytes that could still have begun a character. `decode?` is the strict
reading, which refuses such bytes.
-/

namespace ExportCover

/-- The content of a file. -/
abbrev Bytes := List UInt8

/-- A character of a decoded text, with the number of bytes that it was read from. A `faulty` one
stands for bytes that encode no character. -/
structure Glyph where
  char : Char
  width : Nat
  faulty : Bool
deriving DecidableEq, Repr

namespace Text

/-- The ranges in which the bytes after a lead byte lie, or nothing if the byte leads no character. -/
def trailRanges (lead : UInt8) : Option (List (UInt8 × UInt8)) :=
  if lead < 0x80 then some []
  else if 0xC2 ≤ lead ∧ lead ≤ 0xDF then some [(0x80, 0xBF)]
  else if lead = 0xE0 then some [(0xA0, 0xBF), (0x80, 0xBF)]
  else if lead = 0xED then some [(0x80, 0x9F), (0x80, 0xBF)]
  else if 0xE1 ≤ lead ∧ lead ≤ 0xEF then some [(0x80, 0xBF), (0x80, 0xBF)]
  else if lead = 0xF0 then some [(0x90, 0xBF), (0x80, 0xBF), (0x80, 0xBF)]
  else if 0xF1 ≤ lead ∧ lead ≤ 0xF3 then some [(0x80, 0xBF), (0x80, 0xBF), (0x80, 0xBF)]
  else if lead = 0xF4 then some [(0x80, 0x8F), (0x80, 0xBF), (0x80, 0xBF)]
  else none

/-- How many of the following bytes lie in their ranges, up to the first that does not. -/
def trailLength : List (UInt8 × UInt8) → Bytes → Nat
  | (lo, hi) :: ranges, b :: rest => if lo ≤ b ∧ b ≤ hi then trailLength ranges rest + 1 else 0
  | _, _ => 0

/-- The bits that a lead byte with `n` bytes after it gives to the character. -/
def leadBits (lead : UInt8) : Nat → Nat
  | 0 => lead.toNat
  | 1 => lead.toNat % 32
  | 2 => lead.toNat % 16
  | _ => lead.toNat % 8

/-- The character or the faulty run that `lead` begins, followed by `rest`. -/
def readGlyph (lead : UInt8) (rest : Bytes) : Glyph :=
  match trailRanges lead with
  | none => ⟨'\uFFFD', 1, true⟩
  | some ranges =>
    let found := trailLength ranges rest
    if found = ranges.length then
      let value := (rest.take found).foldl (fun v b => v * 64 + b.toNat % 64) (leadBits lead found)
      ⟨Char.ofNat value, found + 1, false⟩
    else ⟨'\uFFFD', found + 1, true⟩

/-- The characters of a text, after `skip` bytes that belong to the one before. -/
def glyphsFrom : Nat → Bytes → List Glyph
  | _, [] => []
  | skip + 1, _ :: rest => glyphsFrom skip rest
  | 0, lead :: rest =>
    let glyph := readGlyph lead rest
    glyph :: glyphsFrom (glyph.width - 1) rest

/-- The characters of a text with the bytes that each of them takes. -/
def glyphs (bytes : Bytes) : List Glyph :=
  glyphsFrom 0 bytes

/-- The text that bytes encode, with U+FFFD for what encodes nothing. -/
def decode (bytes : Bytes) : String :=
  String.ofList ((glyphs bytes).map (·.char))

/-- The text that bytes encode, if all of them encode something. -/
def decode? (bytes : Bytes) : Option String :=
  let read := glyphs bytes
  if read.any (·.faulty) then none else some (String.ofList (read.map (·.char)))

/-- The bytes of a text. -/
def encode (s : String) : Bytes :=
  s.toList.flatMap String.utf8EncodeChar

end Text

end ExportCover
