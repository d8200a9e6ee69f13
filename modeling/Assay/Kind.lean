import Assay.Json

/-!
# Kinds of values

The coarsest tests a schema can make: whether a value is of a scalar kind, or is a container of a
kind.  An absent value is of no kind; only `Primitive.any` accepts it.
-/

namespace Assay

/-- The scalar kinds.  `any` accepts everything, an absent value included. -/
inductive Primitive where
  | string
  | number
  | integer
  | boolean
  | any
  deriving DecidableEq, Repr

namespace Primitive

/-- The name of a kind in descriptions and routine sources. -/
def name : Primitive → String
  | .string => "string"
  | .number => "number"
  | .integer => "integer"
  | .boolean => "boolean"
  | .any => "any"

/-- The kind of a name. -/
def ofName? (name : String) : Option Primitive :=
  [string, number, integer, boolean, any].find? fun kind => kind.name == name

/-- Whether a value is of a kind.  A number is an integer if it has no fractional part, whichever
way it is represented. -/
def accepts (kind : Primitive) (value : Option Json) : Bool :=
  match kind, value with
  | .any, _ => true
  | .string, some (.string _) => true
  | .number, some (.number _) => true
  | .integer, some (.number found) => found.isIntegral
  | .boolean, some (.bool _) => true
  | _, _ => false

end Primitive

/-- The container kinds. -/
inductive Container where
  | array
  | object
  deriving DecidableEq, Repr

namespace Container

/-- The name of a container kind in descriptions and routine sources. -/
def name : Container → String
  | .array => "array"
  | .object => "object"

/-- The container kind of a name. -/
def ofName? (name : String) : Option Container :=
  [array, object].find? fun kind => kind.name == name

/-- Whether a value is a container of a kind. -/
def accepts (kind : Container) (value : Option Json) : Bool :=
  match kind, value with
  | .array, some (.array _) => true
  | .object, some (.object _) => true
  | _, _ => false

end Container

end Assay
