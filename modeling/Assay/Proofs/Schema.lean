import Assay.Path
import Assay.References
import Mathlib.Logic.Relation

/-!
# The structure of schemas

Induction over the parts of a schema, the places inside a value that a container schema looks at,
and the schemas that can be reached from a schema.

A container schema looks at one place inside the value for each of its checks.  All four kinds of
containers differ only in which places these are, so `Schema.parts?` lists them once and everything
that holds of a container is stated for the list.
-/

namespace Assay

theorem mapIdx_eq_map {α β : Type} (image : α → β) (elements : List α) :
    elements.mapIdx (fun _ element => image element) = elements.map image := by
  apply List.ext_getElem?
  intro position
  simp

theorem map_mapIdx {α β γ : Type} (numbered : Nat → α → β) (image : β → γ) (elements : List α) :
    (elements.mapIdx numbered).map image =
      elements.mapIdx fun position element => image (numbered position element) := by
  rw [← mapIdx_eq_map, List.mapIdx_mapIdx]
  rfl

theorem mapIdx_map {α β γ : Type} (image : α → β) (numbered : Nat → β → γ) (elements : List α) :
    (elements.map image).mapIdx numbered =
      elements.mapIdx fun position element => numbered position (image element) := by
  rw [← mapIdx_eq_map, List.mapIdx_mapIdx]
  rfl

namespace Schema

/-- The parts of a schema are smaller than the schema. -/
theorem sizeOf_lt_of_mem_children {schema child : Schema} (member : child ∈ schema.children) :
    sizeOf child < sizeOf schema := by
  cases schema with
  | both id first second | either id first second =>
      simp only [children, List.mem_cons, List.not_mem_nil, or_false] at member
      rcases member with rfl | rfl <;> simp only [both.sizeOf_spec, either.sizeOf_spec] <;> omega
  | array id item | record id item =>
      simp only [children, List.mem_singleton] at member
      subst member
      simp only [array.sizeOf_spec, record.sizeOf_spec]
      omega
  | tuple id positions | union id positions =>
      have smaller := List.sizeOf_lt_of_mem member
      simp only [children] at smaller
      simp only [tuple.sizeOf_spec, union.sizeOf_spec]
      omega
  | object id fields =>
      simp only [children, List.mem_map] at member
      obtain ⟨⟨name, field⟩, inFields, rfl⟩ := member
      have smaller := List.sizeOf_lt_of_mem inFields
      simp only [Prod.mk.sizeOf_spec] at smaller
      simp only [object.sizeOf_spec]
      omega
  | _ => simp [children] at member

/-- The schema of a declared field is a part of the object. -/
theorem mem_children_object {α : Type} {parts : List (String × Schema × α)}
    {part : String × Schema × α} (member : part ∈ parts) (id : NodeId) :
    part.2.1 ∈ (object id (parts.map fun part => (part.1, part.2.1))).children := by
  rw [children, List.map_map]
  exact List.mem_map.mpr ⟨part, member, rfl⟩

/-- What holds of a schema whenever it holds of its parts holds of every schema. -/
@[elab_as_elim] theorem inductionOnChildren {motive : Schema → Prop}
    (step : ∀ schema : Schema, (∀ child ∈ schema.children, motive child) → motive schema)
    (schema : Schema) : motive schema :=
  step schema fun child member =>
    have := sizeOf_lt_of_mem_children member
    inductionOnChildren step child
termination_by sizeOf schema

/-- The test of a schema that looks at the value alone. -/
def leafTest? : Schema → Option (Option Json → Bool)
  | .primitive _ kind => some kind.accepts
  | .literal _ expected => some expected.accepts
  | .container _ kind => some kind.accepts
  | .oneOf _ members => some fun value => members.any (·.accepts value)
  | .custom _ rule => some rule.acceptsOption
  | _ => none

/-- Whether a schema looks inside a container. -/
def looksInside : Schema → Bool
  | .array _ _ | .record _ _ | .tuple _ _ | .object _ _ => true
  | _ => false

/-- Induction with one case for each kind of schema that is tested in a way of its own: those that
look at the value alone, and those that look inside a container, are one kind each. -/
@[elab_as_elim] theorem inductionOnKinds {motive : Schema → Prop}
    (leaf : ∀ (schema : Schema) (accepts : Option Json → Bool),
      schema.leafTest? = some accepts → motive schema)
    (both : ∀ id first second, motive first → motive second → motive (.both id first second))
    (either : ∀ id first second, motive first → motive second → motive (.either id first second))
    (inside : ∀ schema : Schema, schema.looksInside = true →
      (∀ child ∈ schema.children, motive child) → motive schema)
    (union : ∀ id alternatives, (∀ alternative ∈ alternatives, motive alternative) →
      motive (.union id alternatives))
    (reference : ∀ id, motive (.reference id)) (schema : Schema) : motive schema := by
  induction schema using inductionOnChildren with
  | step schema ih =>
      cases schema with
      | primitive | literal | container | oneOf | custom => exact leaf _ _ rfl
      | both id first second =>
          exact both id first second (ih first (by simp [children]))
            (ih second (by simp [children]))
      | either id first second =>
          exact either id first second (ih first (by simp [children]))
            (ih second (by simp [children]))
      | array | record | tuple | object => exact inside _ rfl ih
      | union id alternatives => exact union id alternatives ih
      | reference id => exact reference id

/-- Induction along a run: on the schema as long as it gets smaller, and on the budget where a
reference continues with another schema. -/
theorem inductionOnBudget {motive : Nat → Schema → Prop}
    (leaf : ∀ budget (schema : Schema) (accepts : Option Json → Bool),
      schema.leafTest? = some accepts → motive budget schema)
    (both : ∀ budget id first second,
      motive budget first → motive budget second → motive budget (.both id first second))
    (either : ∀ budget id first second,
      motive budget first → motive budget second → motive budget (.either id first second))
    (inside : ∀ budget (schema : Schema), schema.looksInside = true →
      (∀ child ∈ schema.children, motive budget child) → motive budget schema)
    (union : ∀ budget id alternatives, (∀ alternative ∈ alternatives, motive budget alternative) →
      motive budget (.union id alternatives))
    (reference : ∀ budget id, (∀ smaller < budget, ∀ schema, motive smaller schema) →
      motive budget (.reference id)) (budget : Nat) (schema : Schema) : motive budget schema := by
  induction budget using Nat.strongRecOn generalizing schema with
  | ind budget ih =>
      induction schema using inductionOnKinds with
      | leaf schema accepts found => exact leaf budget schema accepts found
      | both id first second firstIH secondIH => exact both budget id first second firstIH secondIH
      | either id first second firstIH secondIH =>
          exact either budget id first second firstIH secondIH
      | inside schema isInside childIH => exact inside budget schema isInside childIH
      | union id alternatives alternativeIH => exact union budget id alternatives alternativeIH
      | reference id => exact reference budget id ih

/-- One check of a container schema: the step to the place it looks at, the schema that counts there
and the value that is found there. -/
structure Part where
  segment : Segment
  schema : Schema
  value : Option Json

/-- The checks of a container schema on a value, in the order in which they are made.  There are
none if the schema is no container schema or the value is not the container it asks for. -/
def parts? : Schema → Option Json → Option (List Part)
  | .array _ item, some (.array elements) =>
      some (elements.mapIdx fun position element => ⟨.index position, item, some element⟩)
  | .record _ item, some (.object entries) =>
      some (entries.map fun entry => ⟨.field entry.1, item, some entry.2⟩)
  | .tuple _ positions, some (.array elements) =>
      if elements.length = positions.length then
        some ((positions.zip elements).mapIdx fun position pair =>
          ⟨.index position, pair.1, some pair.2⟩)
      else none
  | .object _ fields, some (.object entries) =>
      some (fields.map fun field => ⟨.field field.1, field.2, entries.lookup field.1⟩)
  | _, _ => none

/-- The checks of the four kinds of container schemas on the containers they ask for. -/
inductive Checks : Schema → Option Json → List Part → Prop where
  | array (id : NodeId) (item : Schema) (elements : List Json) :
      Checks (.array id item) (some (.array elements))
        (elements.mapIdx fun position element => ⟨.index position, item, some element⟩)
  | record (id : NodeId) (item : Schema) (entries : List (String × Json)) :
      Checks (.record id item) (some (.object entries))
        (entries.map fun entry => ⟨.field entry.1, item, some entry.2⟩)
  | tuple (id : NodeId) (positions : List Schema) (elements : List Json)
      (sameLength : elements.length = positions.length) :
      Checks (.tuple id positions) (some (.array elements))
        ((positions.zip elements).mapIdx fun position pair =>
          ⟨.index position, pair.1, some pair.2⟩)
  | object (id : NodeId) (fields : List (String × Schema)) (entries : List (String × Json)) :
      Checks (.object id fields) (some (.object entries))
        (fields.map fun field => ⟨.field field.1, field.2, entries.lookup field.1⟩)

theorem checks_of_parts? {schema : Schema} {value : Option Json} {parts : List Part}
    (found : schema.parts? value = some parts) : Checks schema value parts := by
  simp only [parts?] at found
  split at found
  · next id item elements =>
    cases found
    exact .array id item elements
  · next id item entries =>
    cases found
    exact .record id item entries
  · next id positions elements =>
    split at found
    · next sameLength =>
      cases found
      exact .tuple id positions elements sameLength
    · cases found
  · next id fields entries =>
    cases found
    exact .object id fields entries
  · cases found

/-- There are no checks of a tuple on an array exactly if the lengths differ. -/
theorem length_ne_of_no_parts {id : NodeId} {positions : List Schema} {elements : List Json}
    (none : (Schema.tuple id positions).parts? (some (.array elements)) = none) :
    elements.length ≠ positions.length := by
  intro sameLength
  simp [parts?, sameLength] at none

/-- A container schema makes its checks by its own parts. -/
theorem mem_children_of_mem_parts? {schema : Schema} {value : Option Json} {parts : List Part}
    (found : schema.parts? value = some parts) {part : Part} (member : part ∈ parts) :
    part.schema ∈ schema.children := by
  cases checks_of_parts? found with
  | array id item elements =>
      simp only [List.mem_mapIdx] at member
      obtain ⟨position, inBounds, rfl⟩ := member
      simp [children]
  | record id item entries =>
      simp only [List.mem_map] at member
      obtain ⟨entry, _, rfl⟩ := member
      simp [children]
  | tuple id positions elements sameLength =>
      simp only [List.mem_mapIdx] at member
      obtain ⟨position, inBounds, rfl⟩ := member
      exact (List.of_mem_zip (List.getElem_mem inBounds)).1
  | object id fields entries =>
      simp only [List.mem_map] at member
      obtain ⟨field, inFields, rfl⟩ := member
      exact List.mem_map_of_mem inFields

/-- One schema is a part of another, or what the other, a reference, leads to. -/
inductive Next (resolve : Resolver) : Schema → Schema → Prop where
  | child {schema child : Schema} : child ∈ schema.children → Next resolve schema child
  | target {id : NodeId} {schema : Schema} :
      resolve id = .ok schema → Next resolve (.reference id) schema

/-- One schema can be reached from another through parts and references. -/
abbrev Reaches (resolve : Resolver) : Schema → Schema → Prop :=
  Relation.ReflTransGen (Next resolve)

/-- One schema is another one, or a part of it at any depth. -/
abbrev Contains : Schema → Schema → Prop :=
  Relation.ReflTransGen fun whole part => part ∈ whole.children

/-- Whatever a schema contains can be reached from it, wherever references lead. -/
theorem reaches_of_contains {schema part : Schema} (contains : schema.Contains part)
    (resolve : Resolver) : schema.Reaches resolve part :=
  Relation.ReflTransGen.mono (fun _ _ member => .child member) _ _ contains

/-- Two resolvers lead every reference that can be reached from a schema to the same result. -/
def AgreeFrom (schema : Schema) (left right : Resolver) : Prop :=
  ∀ id : NodeId, Reaches left schema (.reference id) → right id = left id

/-- Agreement passes to whatever comes next. -/
theorem AgreeFrom.next {schema following : Schema} {left right : Resolver}
    (agree : AgreeFrom schema left right) (next : Next left schema following) :
    AgreeFrom following left right :=
  fun id reached => agree id (.head next reached)

theorem AgreeFrom.child {schema child : Schema} {left right : Resolver}
    (agree : AgreeFrom schema left right) (member : child ∈ schema.children) :
    AgreeFrom child left right :=
  agree.next (.child member)

section AgreeFrom

variable {schema reached : Schema} {left middle right : Resolver}

theorem AgreeFrom.of_reaches (agree : schema.AgreeFrom left right)
    (reaches : schema.Reaches left reached) : reached.AgreeFrom left right :=
  fun id further => agree id (reaches.trans further)

/-- Where two resolvers agree, the same schemas can be reached. -/
theorem AgreeFrom.reaches_iff (agree : schema.AgreeFrom left right) :
    schema.Reaches right reached ↔ schema.Reaches left reached := by
  constructor
  · intro reaches
    induction reaches with
    | refl => exact .refl
    | tail _ next ih =>
        cases next with
        | child member => exact ih.tail (.child member)
        | target leads => exact ih.tail (.target ((agree _ ih).symm.trans leads))
  · intro reaches
    induction reaches with
    | refl => exact .refl
    | tail before next ih =>
        cases next with
        | child member => exact ih.tail (.child member)
        | target leads => exact ih.tail (.target ((agree _ before).trans leads))

theorem AgreeFrom.symm (agree : schema.AgreeFrom left right) : schema.AgreeFrom right left :=
  fun id reaches => (agree id (agree.reaches_iff.mp reaches)).symm

theorem AgreeFrom.trans (first : schema.AgreeFrom left middle)
    (second : schema.AgreeFrom middle right) : schema.AgreeFrom left right :=
  fun id reaches => (second id (first.reaches_iff.mpr reaches)).trans (first id reaches)

end AgreeFrom

end Schema

end Assay
