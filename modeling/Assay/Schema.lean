import Assay.Kind
import Assay.Literal
import Assay.Rule

/-!
# Schemas

A schema says which values are accepted.  It is a tree of nodes; what makes recursive schemas
possible is the node `reference`, which holds no schema but only its own identity and is looked up
when the schema is used.

Every node has an identity, given when it is built.  Two schemas that look alike are still different
nodes, while a schema that is used in several places is one and the same node there.  The identity
decides what a reference leads to, which routine is reused and where the expansion of a recursive
schema stops.
-/

namespace Assay

/-- The identity of a node. -/
abbrev NodeId := Nat

/-- A schema.  Lists of parts are in the order in which they are tried. -/
inductive Schema where
  /-- Values of a scalar kind. -/
  | primitive (id : NodeId) (kind : Primitive)
  /-- One fixed scalar, or the absence of a value. -/
  | literal (id : NodeId) (expected : Literal)
  /-- Any container of a kind, whatever it contains. -/
  | container (id : NodeId) (kind : Container)
  /-- Values that two schemas accept. -/
  | both (id : NodeId) (first second : Schema)
  /-- Values that one of two schemas accepts; the second is tried only if the first rejects. -/
  | either (id : NodeId) (first second : Schema)
  /-- Arrays of accepted elements. -/
  | array (id : NodeId) (item : Schema)
  /-- Objects of accepted values, whatever their keys. -/
  | record (id : NodeId) (item : Schema)
  /-- Arrays with one element for each position. -/
  | tuple (id : NodeId) (positions : List Schema)
  /-- Objects with the declared fields; other keys are ignored. -/
  | object (id : NodeId) (fields : List (String × Schema))
  /-- Values that one of several alternatives accepts. -/
  | union (id : NodeId) (alternatives : List Schema)
  /-- One of several fixed scalars. -/
  | oneOf (id : NodeId) (members : List Literal)
  /-- Whatever the schema accepts that the reference leads to. -/
  | reference (id : NodeId)
  /-- Values that satisfy a rule. -/
  | custom (id : NodeId) (rule : Rule)

namespace Schema

/-- The identity of the root node. -/
def id : Schema → NodeId
  | .primitive id _ => id
  | .literal id _ => id
  | .container id _ => id
  | .both id _ _ => id
  | .either id _ _ => id
  | .array id _ => id
  | .record id _ => id
  | .tuple id _ => id
  | .object id _ => id
  | .union id _ => id
  | .oneOf id _ => id
  | .reference id => id
  | .custom id _ => id

/-- Whether two schemas are the same node. -/
def isSameNode (left right : Schema) : Bool := left.id == right.id

/-- The parts of a node, in the order in which they are tried.  A reference has none. -/
def children : Schema → List Schema
  | .both _ first second => [first, second]
  | .either _ first second => [first, second]
  | .array _ item => [item]
  | .record _ item => [item]
  | .tuple _ positions => positions
  | .object _ fields => fields.map (·.2)
  | .union _ alternatives => alternatives
  | _ => []

end Schema

end Assay
