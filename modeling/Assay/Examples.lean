import Assay.Examples.Comments
import Assay.Examples.Diagnostics
import Assay.Examples.Launches

/-!
# The example programs by name
-/

namespace Assay.Examples

/-- The transcript of the example program with a name. -/
def transcript? (name : String) : Option Transcript :=
  match name with
  | "diagnostics" => some (run Diagnostics.program)
  | "recursive_schema" => some (run Comments.program)
  | "launches" => some (run Launches.program)
  | _ => none

end Assay.Examples
