import Assay.References

/-!
# Descriptions

The short text that stands for a schema in diagnostics and in the log.  It spells out a few levels
of nesting and elides what is deeper.  An object is never entered, and a reference is described by
the schema it leads to, which takes a level as well.

Describing a schema uses the references it comes across.  `Schema.mentionsWithin` lists them in the
order in which they are used.
-/

namespace Assay.Schema

/-- The number of levels a description spells out. -/
def descriptionDepth : Nat := 4

/-- The description of a schema in at most `levels` levels. -/
def describeWithin (resolve : Resolver) : (levels : Nat) → Schema → String
  | 0, _ => "..."
  | _ + 1, .primitive _ kind => kind.name
  | _ + 1, .literal _ expected => expected.text
  | _ + 1, .container _ kind => kind.name
  | levels + 1, .both _ first second =>
      describeWithin resolve levels first ++ " & " ++ describeWithin resolve levels second
  | levels + 1, .either _ first second =>
      describeWithin resolve levels first ++ " | " ++ describeWithin resolve levels second
  | levels + 1, .array _ item => "array<" ++ describeWithin resolve levels item ++ ">"
  | levels + 1, .record _ item => "record<" ++ describeWithin resolve levels item ++ ">"
  | levels + 1, .tuple _ positions =>
      "[" ++ String.intercalate ", " (positions.map (describeWithin resolve levels)) ++ "]"
  | _ + 1, .object _ _ => "object"
  | levels + 1, .union _ alternatives =>
      String.intercalate " | " (alternatives.map (describeWithin resolve levels))
  | _ + 1, .oneOf _ members => String.intercalate " | " (members.map Literal.text)
  | levels + 1, .reference id =>
      match resolve id with
      | .ok target => describeWithin resolve levels target
      | .error _ => "<unresolved>"
  | _ + 1, .custom _ rule => rule.description

/-- The references that the description in `levels` levels uses, in order. -/
def mentionsWithin (resolve : Resolver) : (levels : Nat) → Schema → List NodeId
  | 0, _ => []
  | levels + 1, .both _ first second =>
      mentionsWithin resolve levels first ++ mentionsWithin resolve levels second
  | levels + 1, .either _ first second =>
      mentionsWithin resolve levels first ++ mentionsWithin resolve levels second
  | levels + 1, .array _ item => mentionsWithin resolve levels item
  | levels + 1, .record _ item => mentionsWithin resolve levels item
  | levels + 1, .tuple _ positions => positions.flatMap (mentionsWithin resolve levels)
  | levels + 1, .union _ alternatives => alternatives.flatMap (mentionsWithin resolve levels)
  | levels + 1, .reference id =>
      id :: match resolve id with
        | .ok target => mentionsWithin resolve levels target
        | .error _ => []
  | _ + 1, _ => []

/-- The description of a schema. -/
def describe (resolve : Resolver) (schema : Schema) : String :=
  schema.describeWithin resolve descriptionDepth

/-- The references that the description of a schema uses, in order. -/
def mentions (resolve : Resolver) (schema : Schema) : List NodeId :=
  schema.mentionsWithin resolve descriptionDepth

end Assay.Schema
