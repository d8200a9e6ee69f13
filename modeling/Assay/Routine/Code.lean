import Assay.Schema

/-!
# Routine code

What a schema is compiled to.  Code has the same connectives as a schema but no references: a
reference has been replaced by the code of what it leads to, or, where that would never end, by
handing the value over to the schema itself.  Every rule in it has a generator, so code can always
be written out.
-/

namespace Assay

/-- The code of a routine. -/
inductive Code where
  | primitive (kind : Primitive)
  | literal (expected : Literal)
  | container (kind : Container)
  | oneOf (members : List Literal)
  | custom (rule : Rule) (generate : String → String)
  | both (first second : Code)
  | either (first second : Code)
  | array (item : Code)
  | record (item : Code)
  | tuple (positions : List Code)
  | object (fields : List (String × Code))
  | union (alternatives : List Code)
  /-- What a reference led to, expanded in its place. -/
  | expanded (body : Code)
  /-- What a reference led to while the same schema was already being expanded.  The label is the
  description of the schema at that time. -/
  | handover (target : Schema) (label : String)

end Assay
