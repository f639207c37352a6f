/-!
# Texts

Tests and cuts on texts, stated on their lists of characters so that lemmas on lists apply to them.
-/

namespace ExportCover.Text

/-- `ending` stands at the end of `s`. -/
def endsWith (s ending : String) : Bool :=
  ending.toList.isSuffixOf s.toList

/-- `start` stands at the start of `s`. -/
def startsWith (s start : String) : Bool :=
  start.toList.isPrefixOf s.toList

/-- `part` stands somewhere in the list. -/
def hasInfix (part : List Char) : List Char → Bool
  | [] => part.isEmpty
  | c :: rest => part.isPrefixOf (c :: rest) || hasInfix part rest

/-- `part` stands somewhere in `s`. -/
def contains (s part : String) : Bool :=
  hasInfix part.toList s.toList

/-- The text without its last `n` characters. -/
def dropEnd (s : String) (n : Nat) : String :=
  String.ofList (s.toList.take (s.toList.length - n))

/-- The text without its first and its last character, as quotes around a name are removed. -/
def dropEnds (s : String) : String :=
  String.ofList (s.toList.drop 1).dropLast

/-- The part of `s` up to its last `sep` (that `sep` included) and the part after it. -/
def splitLast (sep : Char) (s : String) : String × String :=
  let tail := (s.toList.reverse.takeWhile (· != sep)).reverse
  (String.ofList (s.toList.take (s.toList.length - tail.length)), String.ofList tail)

/-- The text padded with blanks on the right to `width` characters. -/
def padRight (s : String) (width : Int) : String :=
  String.ofList (s.toList ++ List.replicate (width.toNat - s.toList.length) ' ')

/-- ASCII capitals become small letters; every other character stays. -/
def lower (s : String) : String :=
  String.ofList (s.toList.map Char.toLower)

/-- `n` written in base sixteen with at least `width` digits. -/
def hex (width n : Nat) : String :=
  let digits := Nat.toDigits 16 n
  String.ofList (List.replicate (width - digits.length) '0' ++ digits)

end ExportCover.Text
