import Assay.Description
import Assay.Routine.Code

/-!
# Lowering

Turns a schema into code.  References are expanded in place, and the schemas being expanded are kept
in a list of identities: a reference that leads back to one of them becomes a handover.  Lowering
stops at the first part that has no code, a rule without generator or a reference that leads
nowhere.

Along a chain of nested expansions all schemas are different, and there are no more of them than
references.  This bounds the number of rounds that are needed.
-/

namespace Assay

/-- The outcome of lowering a part, with the references used for it in order.  The references are
kept when lowering fails. -/
structure Lowering (α : Type) where
  result : Except CompileError α
  used : List NodeId

namespace Lowering

/-- Continues after a part, unless it failed. -/
def andThen {α β : Type} (first : Lowering α) (next : α → Lowering β) : Lowering β :=
  match first.result with
  | .error cause => ⟨.error cause, first.used⟩
  | .ok value =>
      let rest := next value
      ⟨rest.result, first.used ++ rest.used⟩

instance : Monad Lowering where
  pure value := ⟨.ok value, []⟩
  bind := andThen

/-- The outcome of a part that has no code. -/
def fail {α : Type} (cause : CompileError) : Lowering α := ⟨.error cause, []⟩

/-- Records that references are used. -/
def use (ids : List NodeId) : Lowering Unit := ⟨.ok (), ids⟩

end Lowering

namespace Schema

/-- The code of a rule, which needs a generator. -/
def lowerRule (rule : Rule) : Lowering Code :=
  match rule.generate with
  | some generate => return .custom rule generate
  | none => .fail (.missingGenerator rule.description)

/-- The code that hands a value over to a schema. -/
def handover (resolve : Resolver) (target : Schema) : Lowering Code := do
  .use (target.mentions resolve)
  return .handover target (target.describe resolve)

/-- The code of a reference inside the expansion of some schemas, where `descend` expands one
more. -/
def lowerReference (resolve : Resolver) (expanding : List NodeId)
    (descend : List NodeId → Schema → Lowering Code) (id : NodeId) : Lowering Code := do
  .use [id]
  match resolve id with
  | .error cause => .fail (.unresolvedReference cause)
  | .ok target =>
      if target.id ∈ expanding then handover resolve target
      else return .expanded (← descend (target.id :: expanding) target)

mutual

/-- The code of a schema inside the expansion of some schemas, where `descend` expands what a
reference leads to. -/
def lowerBy (resolve : Resolver) (expanding : List NodeId)
    (descend : List NodeId → Schema → Lowering Code) : Schema → Lowering Code
  | .primitive _ kind => return .primitive kind
  | .literal _ expected => return .literal expected
  | .container _ kind => return .container kind
  | .oneOf _ members => return .oneOf members
  | .custom _ rule => lowerRule rule
  | .both _ first second => do
      return .both (← lowerBy resolve expanding descend first)
        (← lowerBy resolve expanding descend second)
  | .either _ first second => do
      return .either (← lowerBy resolve expanding descend first)
        (← lowerBy resolve expanding descend second)
  | .array _ item => do return .array (← lowerBy resolve expanding descend item)
  | .record _ item => do return .record (← lowerBy resolve expanding descend item)
  | .tuple _ positions => do return .tuple (← lowerAllBy resolve expanding descend positions)
  | .object _ fields => do return .object (← lowerFieldsBy resolve expanding descend fields)
  | .union _ alternatives => do
      return .union (← lowerAllBy resolve expanding descend alternatives)
  | .reference id => lowerReference resolve expanding descend id

/-- The codes of several schemas. -/
def lowerAllBy (resolve : Resolver) (expanding : List NodeId)
    (descend : List NodeId → Schema → Lowering Code) : List Schema → Lowering (List Code)
  | [] => return []
  | schema :: rest => do
      return (← lowerBy resolve expanding descend schema) ::
        (← lowerAllBy resolve expanding descend rest)

/-- The codes of declared fields. -/
def lowerFieldsBy (resolve : Resolver) (expanding : List NodeId)
    (descend : List NodeId → Schema → Lowering Code) :
    List (String × Schema) → Lowering (List (String × Code))
  | [] => return []
  | (name, schema) :: rest => do
      return (name, ← lowerBy resolve expanding descend schema) ::
        (← lowerFieldsBy resolve expanding descend rest)

end

/-- The code of a schema with at most `rounds` nested expansions.  A handover takes the place of an
expansion beyond that. -/
def lowerWithin (resolve : Resolver) :
    (rounds : Nat) → (expanding : List NodeId) → Schema → Lowering Code
  | 0, expanding, schema => lowerBy resolve expanding (fun _ target => handover resolve target) schema
  | rounds + 1, expanding, schema =>
      lowerBy resolve expanding (lowerWithin resolve rounds) schema

/-- The code of a schema.  The schema itself is the first one being expanded. -/
def lower (references : References) (schema : Schema) : Lowering Code :=
  schema.lowerWithin references.target references.factories.length [schema.id]

end Schema

end Assay
