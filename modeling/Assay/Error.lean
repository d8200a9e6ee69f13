import Assay.Path

/-!
# Errors

What can go wrong, at the three moments at which it shows: a schema is malformed, a schema cannot be
compiled, or a value is not accepted.  Each kind of error is a type of causes with one function that
words them.
-/

namespace Assay

/-- A malformed schema.  All causes but the last are found when the schema is built, and the last
when a reference is first used. -/
inductive SchemaError where
  | emptyUnion
  | emptyTuple
  | emptyEnum
  | duplicateField (name : String)
  | cyclicReference
  deriving DecidableEq, Repr

/-- The wording of a malformed schema. -/
def SchemaError.message : SchemaError → String
  | .emptyUnion => "union must have at least one alternative"
  | .emptyTuple => "tuple must have at least one position"
  | .emptyEnum => "enum must have at least one member"
  | .duplicateField name => "duplicate field in object schema: " ++ name
  | .cyclicReference => "lazy reference resolves to itself"

/-- A schema that cannot be compiled. -/
inductive CompileError where
  | missingGenerator (description : String)
  | unresolvedReference (cause : SchemaError)
  deriving DecidableEq, Repr

/-- The wording of a failed compilation. -/
def CompileError.message : CompileError → String
  | .missingGenerator description => "no code generator for `" ++ description ++ "`"
  | .unresolvedReference cause => "unresolved lazy reference: " ++ cause.message

/-- A value that does not match: where it is, what was expected there, and what was found. -/
structure Mismatch where
  path : Path
  expected : String
  actual : String
  deriving DecidableEq, Repr

/-- The wording of a mismatch.  A mismatch of the whole value names no place. -/
def Mismatch.message (mismatch : Mismatch) : String :=
  "Expected " ++ mismatch.expected ++ mismatch.path.clause ++ " (got " ++ mismatch.actual ++ ")"

/-- Why a request about a value was not answered as asked. -/
inductive Error where
  /-- The value does not match. -/
  | mismatch (found : Mismatch)
  /-- More references would have been active at `path` than the limit allows. -/
  | depthLimit (limit : Nat) (path : Path)
  /-- The schema is malformed. -/
  | schema (cause : SchemaError)
  /-- The schema cannot be compiled. -/
  | compile (cause : CompileError)
  /-- The value matches, but does not have the requested shape. -/
  | misfit
  deriving DecidableEq, Repr

/-- The wording of an error. -/
def Error.message : Error → String
  | .mismatch found => found.message
  | .depthLimit limit path =>
      "nesting depth limit of " ++ toString limit ++ " exceeded" ++ path.clause
  | .schema cause => "schema error: " ++ cause.message
  | .compile cause => "compile error: " ++ cause.message
  | .misfit => "JSON error: the value does not have the requested shape"

end Assay
