import Assay.Error
import Assay.Schema

/-!
# References

A reference leads to a schema through its *factory*, which names a binding or holds a schema, and
chains of references are followed until a schema that is not a reference comes.  What a reference
leads to is fixed by its first use: from then on the recorded result counts, whatever its factory
would give later.

`References.target` answers what a reference leads to without recording anything, so it can serve
everything that happens during one step.  `References.walk` is the walk behind it, and tells in
addition which factories were called on the way.
-/

namespace Assay

/-- What a reference leads to. -/
abbrev Resolver := NodeId → Except SchemaError Schema

/-- Where a reference gets its schema from. -/
inductive Factory where
  /-- The schema that is bound to the name when the factory is called. -/
  | named (name : String)
  /-- Always the same schema. -/
  | fixed (schema : Schema)

/-- The bindings of names, the factories of all references, and the results recorded so far.  A
later binding of a name stands in front of an earlier one. -/
structure References where
  bindings : List (String × Schema) := []
  factories : List (NodeId × Factory) := []
  resolved : List (NodeId × Except SchemaError Schema) := []

namespace References

/-- What stands in for an unbound name: a schema that accepts one telling string.  Nothing can be
nested in it, so all such schemas can share the identity that no built node has. -/
def placeholder (name : String) : Schema := .literal 0 (.string ("<missing " ++ name ++ ">"))

/-- What the factory of a reference gives now. -/
def produce? (references : References) (id : NodeId) : Option Schema :=
  (references.factories.lookup id).map fun
    | .named name => (references.bindings.lookup name).getD (placeholder name)
    | .fixed schema => schema

/-- How a walk along a chain of references ends. -/
inductive Ending where
  /-- It reaches a schema that is not a reference. -/
  | reached (schema : Schema)
  /-- It reaches a reference that was found to lead nowhere before. -/
  | inherited (cause : SchemaError)
  /-- It comes back to a reference it has already passed. -/
  | cycle

/-- The result that is recorded for a walk. -/
def Ending.result : Ending → Except SchemaError Schema
  | .reached schema => .ok schema
  | .inherited cause => .error cause
  | .cycle => .error .cyclicReference

/-- A walk along a chain: the references whose factories were called, in order, and the ending. -/
structure Walk where
  called : List NodeId
  ending : Ending

/-- Follows the chain that starts at `id` by calling factories.  `passed` holds the references in
front of `id`, so a chain that meets itself again is recognised.  A recorded result is used for
every reference but the first.  Each round passes another reference, so as many rounds as there are
factories are enough. -/
def walkFrom (references : References) : (rounds : Nat) → (passed : List NodeId) → NodeId → Walk
  | rounds, passed, id =>
      match references.produce? id with
      | none => ⟨[id], .cycle⟩
      | some (.reference next) =>
          if next ∈ id :: passed then ⟨[id], .cycle⟩
          else match references.resolved.lookup next, rounds with
            | some (.ok schema), _ => ⟨[id], .reached schema⟩
            | some (.error cause), _ => ⟨[id], .inherited cause⟩
            | none, 0 => ⟨[id], .cycle⟩
            | none, rounds + 1 =>
                let rest := references.walkFrom rounds (id :: passed) next
                ⟨id :: rest.called, rest.ending⟩
      | some schema => ⟨[id], .reached schema⟩

/-- Follows the chain that starts at a reference. -/
def walk (references : References) (id : NodeId) : Walk :=
  references.walkFrom references.factories.length [] id

/-- What a reference leads to: the recorded result, or else what the walk along its chain finds. -/
def target (references : References) : Resolver := fun id =>
  match references.resolved.lookup id with
  | some result => result
  | none => (references.walk id).ending.result

/-- Records what a reference leads to. -/
def record (references : References) (id : NodeId) (result : Except SchemaError Schema) :
    References :=
  { references with resolved := (id, result) :: references.resolved }

/-- Binds a name. -/
def bind (references : References) (name : String) (schema : Schema) : References :=
  { references with bindings := (name, schema) :: references.bindings }

end References

end Assay
