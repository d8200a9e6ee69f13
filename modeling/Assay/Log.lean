import Assay.Error

/-!
# Log events

What the library reports besides its answers.  Somebody who listens at level `warn` sees the
warnings, and at level `debug` all events.  The text of a schema in an event is worked out only for
an event that is seen, which matters because describing a schema uses references.
-/

namespace Assay

/-- How closely somebody listens. -/
inductive Level where
  | warn
  | debug
  deriving DecidableEq, Repr

namespace Level

/-- The name of a level. -/
def name : Level → String
  | .warn => "WARN"
  | .debug => "DEBUG"

/-- Whether somebody who listens at `listening` sees what is reported at `reported`. -/
def sees (listening reported : Level) : Bool :=
  match listening, reported with
  | .warn, .debug => false
  | _, _ => true

end Level

/-- A reported event. -/
inductive Event where
  /-- A run met the depth limit; a run of routine code does not know its place. -/
  | depthExceeded (limit : Nat) (path : Option Path)
  /-- The chain of a reference comes back to itself. -/
  | cycleDetected
  /-- A reference was followed to the described schema. -/
  | resolved (target : String)
  /-- The described schema was compiled; the length counts the bytes of the source in UTF-8. -/
  | compiled (schema : String) (sourceLength : Nat)
  /-- The described schema has no routine. -/
  | notCompilable (schema : String) (cause : CompileError)
  deriving DecidableEq, Repr

namespace Event

/-- The level at which an event is reported. -/
def level : Event → Level
  | .depthExceeded _ _ | .cycleDetected => .warn
  | .resolved _ | .compiled _ _ | .notCompilable _ _ => .debug

/-- The message of an event. -/
def message : Event → String
  | .depthExceeded _ _ => "Validation depth limit exceeded"
  | .cycleDetected => "Lazy reference cycle detected"
  | .resolved _ => "Resolved lazy reference"
  | .compiled _ _ => "Compiled validator"
  | .notCompilable _ _ => "Schema is not compilable"

/-- The named values of an event, as texts. -/
def fields : Event → List (String × String)
  | .depthExceeded limit none => [("limit", toString limit)]
  | .depthExceeded limit (some path) => [("limit", toString limit), ("path", path.text)]
  | .cycleDetected => []
  | .resolved target => [("resolved", target)]
  | .compiled schema sourceLength =>
      [("schema", schema), ("source_len", toString sourceLength)]
  | .notCompilable schema cause => [("schema", schema), ("error", cause.message)]

end Event

end Assay
