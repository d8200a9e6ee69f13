import Assay.Registry

/-!
# Drafts

A draft is a schema as it is written down, before it has nodes.  Building it gives every node its
identity, innermost parts first and from left to right, and ends at the first part that is
malformed.  A draft can use a schema that is already bound, in which case the result shares its
nodes, and it can refer to a name by a reference, which is looked up only when it is used.
-/

namespace Assay

/-- A schema as it is written down. -/
inductive Draft where
  /-- A schema that has a word of its own. -/
  | word (name : String)
  | literal (expected : Literal)
  | oneOf (members : List Literal)
  | container (kind : Container)
  | both (first second : Draft)
  | either (first second : Draft)
  /-- What the draft accepts, and `null`. -/
  | nullable (base : Draft)
  /-- What the draft accepts, and an absent value. -/
  | optional (base : Draft)
  | array (item : Draft)
  | record (item : Draft)
  | tuple (positions : List Draft)
  | union (alternatives : List Draft)
  | object (fields : List (String × Draft))
  /-- What the draft accepts if it also satisfies the rule. -/
  | refine (base : Draft) (rule : Rule)
  | custom (rule : Rule)
  /-- The schema that is bound to a name now. -/
  | bound (name : String)
  /-- A reference to whatever is bound to a name when the reference is used. -/
  | named (name : String)
  /-- A reference to a schema that is built now. -/
  | deferred (base : Draft)
  /-- A part that could not be read, with the reason. -/
  | unreadable (reason : String)
  deriving Inhabited

/-- Why a draft was not built. -/
inductive BuildError where
  | malformed (cause : SchemaError)
  | unknownWord (word : String)
  | unknownName (name : String)
  | unreadable (reason : String)
  deriving DecidableEq, Repr

/-- A part of building: it may fail, and the registry gets the new nodes either way. -/
abbrev Building := ExceptT BuildError (StateM Registry)

namespace Building

/-- The identity of a new node. -/
def freshId : Building NodeId := do
  let registry ← get
  set { registry with nextId := registry.nextId + 1 }
  return registry.nextId

/-- Gives the factory of a reference. -/
def addFactory (id : NodeId) (factory : Factory) : Building Unit :=
  modify fun registry =>
    { registry with references := { registry.references with
        factories := (id, factory) :: registry.references.factories } }

/-- A new node. -/
def node (make : NodeId → Schema) : Building Schema := do return make (← freshId)

/-- A new reference. -/
def reference (factory : Factory) : Building Schema := do
  let id ← freshId
  addFactory id factory
  return .reference id

/-- What accepts one scalar and whatever another schema accepts. -/
def alsoLiteral (expected : Literal) (base : Schema) : Building Schema := do
  let alone ← node (.literal · expected)
  node (.either · alone base)

/-- What satisfies a rule besides being accepted by another schema. -/
def narrowed (base : Schema) (rule : Rule) : Building Schema := do
  let condition ← node (.custom · rule)
  node (.both · base condition)

/-- The schema that has a word of its own. -/
def word (name : String) : Building Schema :=
  match name with
  | "string" => node (.primitive · .string)
  | "number" => node (.primitive · .number)
  | "integer" => node (.primitive · .integer)
  | "boolean" => node (.primitive · .boolean)
  | "any" => node (.primitive · .any)
  | "unknown" => node (.primitive · .any)
  | "null" => node (.literal · .null)
  | "undefined" => node (.literal · .undefined)
  | "datetime" => node (.custom · .dateTime)
  | "date" => do narrowed (← node (.primitive · .string)) .dateTime
  | _ => throw (.unknownWord name)

/-- The schema that is bound to a name. -/
def bound (name : String) : Building Schema := do
  match (← get).references.bindings.lookup name with
  | some schema => return schema
  | none => throw (.unknownName name)

/-- The first entry that repeats an earlier one. -/
def firstRepeated? : (earlier : List String) → List String → Option String
  | _, [] => none
  | earlier, name :: rest =>
      if name ∈ earlier then some name else firstRepeated? (name :: earlier) rest

/-- One of several fixed scalars; there is at least one. -/
def oneOf (members : List Literal) : Building Schema :=
  if members.isEmpty then throw (.malformed .emptyEnum) else node (.oneOf · members)

/-- A tuple, which has at least one position. -/
def tuple (positions : List Schema) : Building Schema :=
  if positions.isEmpty then throw (.malformed .emptyTuple) else node (.tuple · positions)

/-- A union, which has at least one alternative. -/
def union (alternatives : List Schema) : Building Schema :=
  if alternatives.isEmpty then throw (.malformed .emptyUnion) else node (.union · alternatives)

/-- An object, which declares every field once. -/
def object (fields : List (String × Schema)) : Building Schema :=
  match firstRepeated? [] (fields.map (·.1)) with
  | some name => throw (.malformed (.duplicateField name))
  | none => node (.object · fields)

end Building

namespace Draft

mutual

/-- Builds a draft. -/
def build : Draft → Building Schema
  | .word name => Building.word name
  | .literal expected => Building.node (.literal · expected)
  | .oneOf members => Building.oneOf members
  | .container kind => Building.node (.container · kind)
  | .both first second => do
      let first ← build first
      let second ← build second
      Building.node (.both · first second)
  | .either first second => do
      let first ← build first
      let second ← build second
      Building.node (.either · first second)
  | .nullable base => do Building.alsoLiteral .null (← build base)
  | .optional base => do Building.alsoLiteral .undefined (← build base)
  | .array item => do
      let item ← build item
      Building.node (.array · item)
  | .record item => do
      let item ← build item
      Building.node (.record · item)
  | .tuple positions => do Building.tuple (← buildAll positions)
  | .union alternatives => do Building.union (← buildAll alternatives)
  | .object fields => do Building.object (← buildFields fields)
  | .refine base rule => do Building.narrowed (← build base) rule
  | .custom rule => Building.node (.custom · rule)
  | .bound name => Building.bound name
  | .named name => Building.reference (.named name)
  | .deferred base => do Building.reference (.fixed (← build base))
  | .unreadable reason => throw (.unreadable reason)

/-- Builds several drafts from left to right. -/
def buildAll : List Draft → Building (List Schema)
  | [] => return []
  | draft :: rest => do return (← build draft) :: (← buildAll rest)

/-- Builds the drafts of fields from left to right. -/
def buildFields : List (String × Draft) → Building (List (String × Schema))
  | [] => return []
  | (name, draft) :: rest => do return (name, ← build draft) :: (← buildFields rest)

end

end Draft

namespace Registry

/-- Builds a draft. -/
def build (registry : Registry) (draft : Draft) : Except BuildError Schema × Registry :=
  draft.build.run.run registry

/-- Binds a name to a schema. -/
def bind (registry : Registry) (name : String) (schema : Schema) : Registry :=
  { registry with references := registry.references.bind name schema }

/-- Builds a draft and binds a name to it.  If building fails, the name keeps its binding. -/
def define (registry : Registry) (name : String) (draft : Draft) :
    Except BuildError Unit × Registry :=
  match registry.build draft with
  | (.ok schema, registry) => (.ok (), registry.bind name schema)
  | (.error cause, registry) => (.error cause, registry)

end Registry

end Assay
