import ExportCover.Text.Quoted

/-!
# Faults

Why an operation has no answer. Each cause carries what its message needs; `Fault.message` is the
only place where the wording stands.
-/

namespace ExportCover

/-- What the operating system refuses. -/
inductive SystemError where
  | noEntry
  | alreadyExists
  | notDirectory
  | isDirectory
  | tooManyLinks
  | busy
deriving DecidableEq, Repr

namespace SystemError

/-- The number of the error. -/
def code : SystemError → Nat
  | .noEntry => 2
  | .busy => 16
  | .alreadyExists => 17
  | .notDirectory => 20
  | .isDirectory => 21
  | .tooManyLinks => 40

/-- The description of the error. -/
def description : SystemError → String
  | .noEntry => "No such file or directory"
  | .busy => "Device or resource busy"
  | .alreadyExists => "File exists"
  | .notDirectory => "Not a directory"
  | .isDirectory => "Is a directory"
  | .tooManyLinks => "Too many levels of symbolic links"

end SystemError

/-- The cause of a failed operation. -/
inductive Fault where
  /-- A configuration or a table of messages lacks a key. -/
  | missingKey (key : String)
  /-- No such configuration key exists. -/
  | unknownKey (key : String)
  /-- A switch was given a text that means neither true nor false. -/
  | notSwitch (key raw : String)
  /-- A value has a type that its use does not admit. -/
  | illTyped
  /-- A value that is no list was asked to grow. -/
  | notGrowable
  /-- A declarator whose name is needed has none. -/
  | namelessDeclarator
  /-- A heading of a table is not a text. -/
  | headingNotText
  /-- A row of a table lacks a cell. -/
  | shortRow
  /-- A module has no export statement with that number. -/
  | noSuchExport
  /-- The empty text was given for a path. -/
  | emptyPath
  /-- A text names no member of a closed class of names. -/
  | notMember (class_ text : String)
  /-- Links lead back to where they started. -/
  | linkLoop (path : String)
  /-- The operating system refused an operation on a path. -/
  | system (error : SystemError) (path : String)
  /-- No grammar reads a file of that name. -/
  | noGrammar (path : String)
  /-- No grammar has that name. -/
  | unknownGrammar (name : String)
  /-- A test file cannot be read and the configuration says to stop then. -/
  | unreadableTest (path : String) (cause : Fault)
deriving DecidableEq, Repr

namespace Fault

/-- The text of a fault. A fault that is reported by its kind alone has none. -/
def message : Fault → String
  | .missingKey key => Text.quoted key
  | .unknownKey key => Text.quoted ("Unknown config key: " ++ key)
  | .notSwitch key raw => "Expected true/false for " ++ key ++ ", got: " ++ raw
  | .illTyped | .notGrowable | .namelessDeclarator | .headingNotText | .shortRow
  | .noSuchExport => ""
  | .emptyPath => "no path specified"
  | .notMember class_ text => Text.quoted text ++ " is not a valid " ++ class_
  | .linkLoop path => "Symlink loop from " ++ Text.quoted path
  | .system error path =>
    "[Errno " ++ toString error.code ++ "] " ++ error.description ++ ": " ++ Text.quoted path
  | .noGrammar path => "no JavaScript/TypeScript grammar for " ++ path
  | .unknownGrammar name =>
    "tree-sitter grammar " ++ Text.quoted name ++ " unavailable: Could not find language library for "
      ++ name
  | .unreadableTest path cause => "Cannot read test file " ++ path ++ ": " ++ cause.message

/-- The fault is one that the check reports to its user, rather than a defect of its input. -/
def isReported : Fault → Bool
  | .noGrammar _ | .unknownGrammar _ | .unreadableTest _ _ => true
  | _ => false

end Fault

end ExportCover
