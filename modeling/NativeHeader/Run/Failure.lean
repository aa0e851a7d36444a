import NativeHeader.Fault
import NativeHeader.Files.Tree

/-! Why a run ended without a header.

Faults of the schema are expected and reported in the log; the others end the
program. -/
namespace NativeHeader

inductive Failure where
  | fault (cause : Fault)
  | file (cause : FileError)
  /-- The schema file is not UTF-8. -/
  | notUnicode
  /-- The schema file has an integer beyond the limit. -/
  | longInteger
  /-- An option that has to be given is not. -/
  | missingOption (name : String)
  | optionNotText (name : String)

namespace Failure

def message : Failure → String
  | .fault cause => cause.message
  | .file cause => cause.message
  | .notUnicode => "The schema file is not valid UTF-8."
  | .longInteger => "The schema file has an integer with too many digits."
  | .missingOption name => s!"The option {name} is missing."
  | .optionNotText name => s!"The option {name} has to be a text."

/-- Whether a failure says that the schema is at fault, in its shape or its types. -/
def isReported : Failure → Bool
  | .fault (.shape _) | .fault (.unsupported _ _) => true
  | _ => false

end Failure

end NativeHeader
