import Assay.Draft

/-!
# Example programs

An example program builds schemas, uses them and writes lines.  It ends with an exit code, which is
zero unless a schema could not be built.
-/

namespace Assay.Examples

/-- What an example program leaves: its exit code and the lines it has written. -/
structure Transcript where
  exitCode : Nat
  lines : List String

/-- Runs an example program in a new registry. -/
def run (program : Building (List String)) : Transcript :=
  let start : Registry := {}
  match (program.run.run start).1 with
  | .ok lines => { exitCode := 0, lines }
  | .error _ => { exitCode := 1, lines := [] }

/-- Carries out a request to the registry of a program. -/
def request {α : Type} (ask : Registry → α × Registry) : Building α := do
  let (answer, registry) := ask (← get)
  set registry
  return answer

/-- Whether a schema accepts a value, with the reason if it does not. -/
def assert (schema : Schema) (limits : Limits) (value : Json) : Building (Except Error Unit) :=
  request (·.assert schema limits (some value))

/-- The description of a schema. -/
def describe (schema : Schema) : Building String := request (·.describe schema)

/-- The parts of an object, field by field. -/
def object (entries : List (String × Json)) : Json := .ofEntries entries

end Assay.Examples
