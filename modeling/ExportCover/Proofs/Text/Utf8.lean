import Mathlib.Data.List.Basic
import ExportCover.Text.Utf8

/-!
# What is written can be read

The bytes of a text are read as that text (`Text.decode?_encode`): the first bytes of an encoded
character fix how many follow, and every byte that follows lies in its range.
-/

namespace ExportCover.Text

variable {lead : UInt8} {rest : Bytes} {n : Nat}

/-- The ranges after a lead byte, by its number. -/
lemma trailRanges_eq (lead : UInt8) : trailRanges lead
    = if lead.toNat < 0x80 then some []
      else if 0xC2 ≤ lead.toNat ∧ lead.toNat ≤ 0xDF then some [(0x80, 0xBF)]
      else if lead.toNat = 0xE0 then some [(0xA0, 0xBF), (0x80, 0xBF)]
      else if lead.toNat = 0xED then some [(0x80, 0x9F), (0x80, 0xBF)]
      else if 0xE1 ≤ lead.toNat ∧ lead.toNat ≤ 0xEF then some [(0x80, 0xBF), (0x80, 0xBF)]
      else if lead.toNat = 0xF0 then some [(0x90, 0xBF), (0x80, 0xBF), (0x80, 0xBF)]
      else if 0xF1 ≤ lead.toNat ∧ lead.toNat ≤ 0xF3 then
        some [(0x80, 0xBF), (0x80, 0xBF), (0x80, 0xBF)]
      else if lead.toNat = 0xF4 then some [(0x80, 0x8F), (0x80, 0xBF), (0x80, 0xBF)]
      else none := by
  simp only [trailRanges, UInt8.lt_iff_toNat_lt, UInt8.le_iff_toNat_le, ← UInt8.toNat_inj]
  rfl

/-- A byte of a character, after the first. -/
def trailByte (n : Nat) : UInt8 :=
  UInt8.ofNat (n % 64 + 128)

/-- The value of a byte behind the first. -/
@[simp]
lemma toNat_trailByte : (trailByte n).toNat = n % 64 + 128 :=
  UInt8.toNat_ofNat_of_lt' (show n % 64 + 128 < 256 by omega)

/-- A byte behind the first that fits its range is counted. -/
lemma trailLength_cons {lo hi : UInt8} {ranges : List (UInt8 × UInt8)}
    (fits : lo.toNat ≤ n % 64 + 128 ∧ n % 64 + 128 ≤ hi.toNat) :
    trailLength ((lo, hi) :: ranges) (trailByte n :: rest) = trailLength ranges rest + 1 := by
  rw [trailLength, if_pos]
  simpa only [UInt8.le_iff_toNat_le, toNat_trailByte] using fits

/-- One byte behind the first always fits the last range. -/
lemma trailLength_one : trailLength [(0x80, 0xBF)] (trailByte n :: rest) = 1 := by
  rw [trailLength_cons (by simp; omega)]
  simp [trailLength]

/-- Only the first of two bytes has a range of its own. -/
lemma trailLength_two {lo hi : UInt8} {second third : Nat}
    (fits : lo.toNat ≤ second % 64 + 128 ∧ second % 64 + 128 ≤ hi.toNat) :
    trailLength [(lo, hi), (0x80, 0xBF)] (trailByte second :: trailByte third :: rest) = 2 := by
  rw [trailLength_cons fits, trailLength_one]

/-- Only the first of three bytes has a range of its own. -/
lemma trailLength_three {lo hi : UInt8} {second third fourth : Nat}
    (fits : lo.toNat ≤ second % 64 + 128 ∧ second % 64 + 128 ≤ hi.toNat) :
    trailLength [(lo, hi), (0x80, 0xBF), (0x80, 0xBF)]
      (trailByte second :: trailByte third :: trailByte fourth :: rest) = 3 := by
  rw [trailLength_cons fits, trailLength_two (by simp; omega)]

section Glyphs

variable {value : Nat}

/-- Bytes in their ranges follow the lead byte, so that the character is read from all of them. -/
lemma readGlyph_eq {ranges : List (UInt8 × UInt8)} (trail : Bytes)
    (expected : trailRanges lead = some ranges)
    (found : trailLength ranges (trail ++ rest) = ranges.length)
    (whole : trail.length = ranges.length)
    (value_eq : trail.foldl (fun v b => v * 64 + b.toNat % 64) (leadBits lead ranges.length)
      = value) :
    readGlyph lead (trail ++ rest) = ⟨Char.ofNat value, ranges.length + 1, false⟩ := by
  simp only [readGlyph, expected, found, if_true, ← whole, List.take_left]
  rw [whole, value_eq]

/-- One byte below 0x80 is a character. -/
lemma readGlyph_one (small : value < 0x80) (rest : Bytes) :
    readGlyph (UInt8.ofNat value) rest = ⟨Char.ofNat value, 1, false⟩ := by
  have lead := UInt8.toNat_ofNat_of_lt' (show value < 256 by omega)
  have ranges : trailRanges (UInt8.ofNat value) = some [] := by
    rw [trailRanges_eq, lead, if_pos small]
  exact readGlyph_eq [] ranges (by simp [trailLength]) rfl lead

/-- Two bytes make a character from 0x80 on. -/
lemma readGlyph_two (large : 0x80 ≤ value) (small : value < 0x800) (rest : Bytes) :
    readGlyph (UInt8.ofNat (value / 64 % 32 + 192)) (trailByte value :: rest)
      = ⟨Char.ofNat value, 2, false⟩ := by
  have lead := UInt8.toNat_ofNat_of_lt' (show value / 64 % 32 + 192 < 256 by omega)
  have ranges : trailRanges (UInt8.ofNat (value / 64 % 32 + 192)) = some [(0x80, 0xBF)] := by
    rw [trailRanges_eq, lead, if_neg (by omega), if_pos (by omega)]
  refine readGlyph_eq [_] ranges trailLength_one rfl ?_
  simp only [List.foldl_cons, List.foldl_nil, toNat_trailByte, leadBits, lead,
    List.length_singleton]
  omega

/-- Three bytes make a character from 0x800 on, but for surrogates. -/
lemma readGlyph_three (large : 0x800 ≤ value) (small : value < 0x10000)
    (valid : value < 0xD800 ∨ 0xDFFF < value) (rest : Bytes) :
    readGlyph (UInt8.ofNat (value / 4096 % 16 + 224))
        (trailByte (value / 64) :: trailByte value :: rest)
      = ⟨Char.ofNat value, 3, false⟩ := by
  have lead := UInt8.toNat_ofNat_of_lt' (show value / 4096 % 16 + 224 < 256 by omega)
  obtain ⟨lo, hi, ranges, fits⟩ : ∃ lo hi,
      trailRanges (UInt8.ofNat (value / 4096 % 16 + 224)) = some [(lo, hi), (0x80, 0xBF)] ∧
        lo.toNat ≤ value / 64 % 64 + 128 ∧ value / 64 % 64 + 128 ≤ hi.toNat := by
    rw [trailRanges_eq, lead, if_neg (by omega), if_neg (by omega)]
    split
    next => exact ⟨_, _, rfl, by simp; omega, by simp; omega⟩
    next =>
      split
      next => exact ⟨_, _, rfl, by simp, by simp; omega⟩
      next =>
        rw [if_pos (by omega)]
        exact ⟨_, _, rfl, by simp, by simp; omega⟩
  refine readGlyph_eq [_, _] ranges (trailLength_two fits) rfl ?_
  simp only [List.foldl_cons, List.foldl_nil, toNat_trailByte, leadBits, lead, List.length_cons,
    List.length_nil]
  omega

/-- Four bytes make a character from 0x10000 on. -/
lemma readGlyph_four (large : 0x10000 ≤ value) (small : value < 0x110000) (rest : Bytes) :
    readGlyph (UInt8.ofNat (value / 262144 % 8 + 240))
        (trailByte (value / 4096) :: trailByte (value / 64) :: trailByte value :: rest)
      = ⟨Char.ofNat value, 4, false⟩ := by
  have lead := UInt8.toNat_ofNat_of_lt' (show value / 262144 % 8 + 240 < 256 by omega)
  obtain ⟨lo, hi, ranges, fits⟩ : ∃ lo hi, trailRanges (UInt8.ofNat (value / 262144 % 8 + 240))
        = some [(lo, hi), (0x80, 0xBF), (0x80, 0xBF)] ∧
        lo.toNat ≤ value / 4096 % 64 + 128 ∧ value / 4096 % 64 + 128 ≤ hi.toNat := by
    rw [trailRanges_eq, lead, if_neg (by omega), if_neg (by omega), if_neg (by omega),
      if_neg (by omega), if_neg (by omega)]
    split
    next => exact ⟨_, _, rfl, by simp; omega, by simp; omega⟩
    next =>
      split
      next => exact ⟨_, _, rfl, by simp, by simp; omega⟩
      next =>
        rw [if_pos (by omega)]
        exact ⟨_, _, rfl, by simp, by simp; omega⟩
  refine readGlyph_eq [_, _, _] ranges (trailLength_three fits) rfl ?_
  simp only [List.foldl_cons, List.foldl_nil, toNat_trailByte, leadBits, lead, List.length_cons,
    List.length_nil]
  omega

/-- The first bytes of an encoded text are read as its first character, and no others. -/
lemma readGlyph_encode (c : Char) (rest : Bytes) : ∃ lead trail,
    String.utf8EncodeChar c = lead :: trail ∧
      readGlyph lead (trail ++ rest) = ⟨c, trail.length + 1, false⟩ := by
  have valid : c.val.toNat < 0xD800 ∨ 0xDFFF < c.val.toNat ∧ c.val.toNat < 0x110000 := c.valid
  have same : Char.ofNat c.val.toNat = c := Char.ofNat_toNat c
  rw [String.utf8EncodeChar]
  split
  next => exact ⟨_, _, rfl, (readGlyph_one (by omega) rest).trans (by rw [same]; rfl)⟩
  split
  next => exact ⟨_, _, rfl, (readGlyph_two (by omega) (by omega) rest).trans (by rw [same]; rfl)⟩
  split
  next =>
    exact ⟨_, _, rfl, (readGlyph_three (by omega) (by omega) (by omega) rest).trans
      (by rw [same]; rfl)⟩
  next =>
    exact ⟨_, _, rfl, (readGlyph_four (by omega) (by omega) rest).trans (by rw [same]; rfl)⟩

end Glyphs

/-- The bytes of the character that was read are passed over. -/
lemma glyphsFrom_append (skipped rest : Bytes) :
    glyphsFrom skipped.length (skipped ++ rest) = glyphsFrom 0 rest := by
  induction skipped with
  | nil => rfl
  | cons byte skipped ih => exact ih

/-- An encoded text is read character by character. -/
lemma glyphs_encode (chars : List Char) :
    (glyphsFrom 0 (chars.flatMap String.utf8EncodeChar)).map (fun read => (read.char, read.faulty))
      = chars.map fun c => (c, false) := by
  induction chars with
  | nil => rfl
  | cons c chars ih =>
    obtain ⟨lead, trail, encoded, read⟩ :=
      readGlyph_encode c (chars.flatMap String.utf8EncodeChar)
    rw [List.flatMap_cons, encoded, List.cons_append, glyphsFrom, read, List.map_cons,
      List.map_cons, Nat.add_sub_cancel, glyphsFrom_append, ih]

/-- What is written can be read: the bytes of a text are read as that text. -/
theorem decode?_encode (s : String) : decode? (encode s) = some s := by
  have read : (glyphs (encode s)).map (fun read => (read.char, read.faulty))
      = s.toList.map fun c => (c, false) := glyphs_encode s.toList
  have chars : (glyphs (encode s)).map (·.char) = s.toList := by
    simpa [Function.comp_def] using congrArg (List.map Prod.fst) read
  have sound : (glyphs (encode s)).any (·.faulty) = false := by
    have flags := congrArg (List.any · Prod.snd) read
    simp only [List.any_map, Function.comp_def] at flags
    rw [flags]
    simp
  rw [decode?, if_neg (by simp [sound]), chars, String.ofList_toList]

end ExportCover.Text
