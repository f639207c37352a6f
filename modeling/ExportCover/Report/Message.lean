import ExportCover.Fault

/-!
# Messages

The texts of the rule in each language that it speaks. A language without a text falls back to
English.
-/

namespace ExportCover.Message

/-- The rule that a function without a test breaks. -/
def ruleId : String := "require-test"

/-- The rule that warns about exports that are not checked. -/
def uncheckedRuleId : String := "require-test/unchecked-export"

/-- What is known about the rule, in the order in which it is reported. -/
def ruleInfo : List (String × String) :=
  [("id", ruleId),
    ("type", "suggestion"),
    ("description", "Every exported function must be imported by at least one test file"),
    ("category", "Best Practices"),
    ("recommended", "error")]

/-- The texts in English. -/
def english : List (String × String) :=
  [("missing_test", "Write a test for this exported function"),
    ("unchecked_export", "This export's shape is not checked for test coverage")]

/-- The texts in Japanese. -/
def japanese : List (String × String) :=
  [("missing_test", "関数にテストを必ず書いてください"),
    ("unchecked_export", "この export の形式はテストの有無を確認できません")]

/-- The texts of a language; English for one that is not spoken. -/
def table (locale : String) : List (String × String) :=
  if locale == "ja" then japanese else english

/-- The text for a key in a language. -/
def find (key locale : String) : Except Fault String :=
  match ((table locale).lookup key).or (english.lookup key) with
  | some text => .ok text
  | none => .error (.missingKey key)

/-- The text about a function without a test. -/
def missingTest (locale : String) : String :=
  ((table locale).lookup "missing_test").getD ""

/-- The text about an export that is not checked. -/
def uncheckedExport (locale : String) : String :=
  ((table locale).lookup "unchecked_export").getD ""

end ExportCover.Message
