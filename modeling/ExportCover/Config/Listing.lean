import ExportCover.Fault
import ExportCover.Json.Basic

/-!
# Lists of texts from a configuration

A configuration file may hold anything where a list of texts is meant. Such a list is gone through
from its start; an item that is no text is a fault only once it is reached.
-/

namespace ExportCover

/-- The texts at the start of a list, and whether an item that is no text follows them. -/
structure Listing where
  texts : List String
  broken : Bool
deriving DecidableEq, Repr

namespace Listing

/-- A list of texts. -/
def ofTexts (texts : List String) : Listing := ⟨texts, false⟩

/-- The texts at the start of a list of values. -/
def ofItems : List Json → Listing
  | [] => ⟨[], false⟩
  | .string s :: rest => ⟨s :: (ofItems rest).texts, (ofItems rest).broken⟩
  | _ :: _ => ⟨[], true⟩

/-- The parts of a value as a list of texts. A value without parts is a fault. -/
def ofValue (value : Json) : Except Fault Listing :=
  match value.parts? with
  | some items => .ok (ofItems items)
  | none => .error .illTyped

/-- Some text of the list has a property. -/
def any (listing : Listing) (holds : String → Bool) : Except Fault Bool :=
  if listing.texts.any holds then .ok true
  else if listing.broken then .error .illTyped
  else .ok false

end Listing

end ExportCover
