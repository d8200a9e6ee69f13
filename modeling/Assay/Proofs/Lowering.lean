import Assay.Proofs.Identity
import Assay.Proofs.Schema
import Assay.Routine.Lowering

/-!
# Code of schemas

Which code a schema is lowered to.  The code has the shape of the schema, with every reference
either expanded in place or handed over to a schema that is already being expanded further out.

Two facts are shown.  The rounds of lowering are never used up, since the schemas being expanded are
different ones and every one but the outermost is what some reference leads to.  And whatever
reference can be reached from a schema is used when it is lowered: a schema that was handed over is
expanded further out, so nothing that it leads to is missed.
-/

namespace Assay

namespace Lowering

variable {α β : Type} {used : List NodeId}

/-- Lowering gives a value and uses at most some references. -/
def Gives (lowering : Lowering α) (used : List NodeId) (value : α) : Prop :=
  lowering.result = .ok value ∧ lowering.used ⊆ used

@[simp] theorem gives_pure (value other : α) :
    (pure value : Lowering α).Gives used other ↔ other = value := by
  change Except.ok value = Except.ok other ∧ [] ⊆ used ↔ other = value
  simp [eq_comm]

@[simp] theorem gives_use (ids : List NodeId) (nothing : Unit) :
    (use ids).Gives used nothing ↔ ids ⊆ used := by
  simp [Gives, use]

@[simp] theorem gives_fail (cause : CompileError) (value : α) :
    ¬ (fail cause : Lowering α).Gives used value := by
  simp [Gives, fail]

@[simp] theorem gives_bind (first : Lowering α) (next : α → Lowering β) (value : β) :
    (first >>= next).Gives used value ↔
      ∃ middle, first.Gives used middle ∧ (next middle).Gives used value := by
  change (first.andThen next).Gives used value ↔ _
  simp only [Gives, andThen]
  cases first.result with
  | error cause => simp
  | ok middle =>
      simp only [Except.ok.injEq, List.append_subset]
      constructor
      · rintro ⟨result, firstUsed, nextUsed⟩
        exact ⟨middle, ⟨rfl, firstUsed⟩, result, nextUsed⟩
      · rintro ⟨_, ⟨rfl, firstUsed⟩, result, nextUsed⟩
        exact ⟨result, firstUsed, nextUsed⟩

end Lowering

/-- The test of code that looks at the value alone. -/
def Code.leafTest? : Code → Option (Option Json → Bool)
  | .primitive kind => some kind.accepts
  | .literal expected => some expected.accepts
  | .container kind => some kind.accepts
  | .oneOf members => some fun value => members.any (·.accepts value)
  | .custom rule _ => some rule.acceptsOption
  | _ => none

namespace Schema

/-- A schema is lowered to code inside the expansion of some schemas, where every reference of the
schema is among those that are used. -/
inductive LowersTo (resolve : Resolver) (used : List NodeId) :
    (expanding : List NodeId) → Schema → Code → Prop where
  | leaf {expanding : List NodeId} {schema : Schema} {code : Code} {accepts : Option Json → Bool} :
      schema.leafTest? = some accepts → code.leafTest? = some accepts →
      LowersTo resolve used expanding schema code
  | both {expanding : List NodeId} (id : NodeId) {first second : Schema} {left right : Code} :
      LowersTo resolve used expanding first left → LowersTo resolve used expanding second right →
      LowersTo resolve used expanding (.both id first second) (.both left right)
  | either {expanding : List NodeId} (id : NodeId) {first second : Schema} {left right : Code} :
      LowersTo resolve used expanding first left → LowersTo resolve used expanding second right →
      LowersTo resolve used expanding (.either id first second) (.either left right)
  | array {expanding : List NodeId} (id : NodeId) {item : Schema} {code : Code} :
      LowersTo resolve used expanding item code →
      LowersTo resolve used expanding (.array id item) (.array code)
  | record {expanding : List NodeId} (id : NodeId) {item : Schema} {code : Code} :
      LowersTo resolve used expanding item code →
      LowersTo resolve used expanding (.record id item) (.record code)
  | tuple {expanding : List NodeId} (id : NodeId) (parts : List (Schema × Code)) :
      (∀ part ∈ parts, LowersTo resolve used expanding part.1 part.2) →
      LowersTo resolve used expanding (.tuple id (parts.map (·.1))) (.tuple (parts.map (·.2)))
  | object {expanding : List NodeId} (id : NodeId) (parts : List (String × Schema × Code)) :
      (∀ part ∈ parts, LowersTo resolve used expanding part.2.1 part.2.2) →
      LowersTo resolve used expanding (.object id (parts.map fun part => (part.1, part.2.1)))
        (.object (parts.map fun part => (part.1, part.2.2)))
  | union {expanding : List NodeId} (id : NodeId) (parts : List (Schema × Code)) :
      (∀ part ∈ parts, LowersTo resolve used expanding part.1 part.2) →
      LowersTo resolve used expanding (.union id (parts.map (·.1))) (.union (parts.map (·.2)))
  | expanded {expanding : List NodeId} {id : NodeId} {target : Schema} {body : Code} :
      id ∈ used → resolve id = .ok target →
      LowersTo resolve used (target.id :: expanding) target body →
      LowersTo resolve used expanding (.reference id) (.expanded body)
  | handover {expanding : List NodeId} {id : NodeId} {target : Schema} (label : String) :
      id ∈ used → resolve id = .ok target → target.id ∈ expanding →
      LowersTo resolve used expanding (.reference id) (.handover target label)

section Lower

variable {resolve : Resolver} {used expanding : List NodeId}
  {descend : List NodeId → Schema → Lowering Code}

theorem gives_lowerAllBy {schemas : List Schema} {codes : List Code}
    (gives : (lowerAllBy resolve expanding descend schemas).Gives used codes) :
    ∃ parts : List (Schema × Code), schemas = parts.map (·.1) ∧ codes = parts.map (·.2) ∧
      ∀ part ∈ parts, (lowerBy resolve expanding descend part.1).Gives used part.2 := by
  induction schemas generalizing codes with
  | nil =>
      simp only [lowerAllBy, Lowering.gives_pure] at gives
      subst gives
      exact ⟨[], rfl, rfl, by simp⟩
  | cons schema rest ih =>
      simp only [lowerAllBy, Lowering.gives_bind, Lowering.gives_pure] at gives
      obtain ⟨code, first, others, further, rfl⟩ := gives
      obtain ⟨parts, rfl, rfl, each⟩ := ih further
      exact ⟨(schema, code) :: parts, rfl, rfl, List.forall_mem_cons.mpr ⟨first, each⟩⟩

theorem gives_lowerFieldsBy {fields : List (String × Schema)} {codes : List (String × Code)}
    (gives : (lowerFieldsBy resolve expanding descend fields).Gives used codes) :
    ∃ parts : List (String × Schema × Code), fields = (parts.map fun part => (part.1, part.2.1)) ∧
      codes = (parts.map fun part => (part.1, part.2.2)) ∧
      ∀ part ∈ parts, (lowerBy resolve expanding descend part.2.1).Gives used part.2.2 := by
  induction fields generalizing codes with
  | nil =>
      simp only [lowerFieldsBy, Lowering.gives_pure] at gives
      subst gives
      exact ⟨[], rfl, rfl, by simp⟩
  | cons field rest ih =>
      obtain ⟨name, schema⟩ := field
      simp only [lowerFieldsBy, Lowering.gives_bind, Lowering.gives_pure] at gives
      obtain ⟨code, first, others, further, rfl⟩ := gives
      obtain ⟨parts, rfl, rfl, each⟩ := ih further
      exact ⟨(name, schema, code) :: parts, rfl, rfl, List.forall_mem_cons.mpr ⟨first, each⟩⟩

theorem lowersTo_of_lowerBy (schema : Schema)
    (continues : ∀ id target body, schema.Contains (.reference id) → resolve id = .ok target →
      target.id ∉ expanding → (descend (target.id :: expanding) target).Gives used body →
      LowersTo resolve used (target.id :: expanding) target body)
    {code : Code} (gives : (lowerBy resolve expanding descend schema).Gives used code) :
    LowersTo resolve used expanding schema code := by
  induction schema using inductionOnChildren generalizing code with
  | step schema ih =>
      have each : ∀ child ∈ schema.children, ∀ code,
          (lowerBy resolve expanding descend child).Gives used code →
          LowersTo resolve used expanding child code :=
        fun child member code childGives => ih child member
          (fun id target body contains => continues id target body (.head member contains))
          childGives
      cases schema with
      | primitive | literal | container | oneOf =>
          simp only [lowerBy, Lowering.gives_pure] at gives
          subst gives
          exact .leaf rfl rfl
      | custom id rule =>
          simp only [lowerBy, lowerRule] at gives
          split at gives
          · rw [Lowering.gives_pure] at gives
            subst gives
            exact .leaf rfl rfl
          · exact (Lowering.gives_fail _ _ gives).elim
      | both id first second =>
          simp only [lowerBy, Lowering.gives_bind, Lowering.gives_pure] at gives
          obtain ⟨left, firstGives, right, secondGives, rfl⟩ := gives
          exact .both id (each first (by simp [children]) left firstGives)
            (each second (by simp [children]) right secondGives)
      | either id first second =>
          simp only [lowerBy, Lowering.gives_bind, Lowering.gives_pure] at gives
          obtain ⟨left, firstGives, right, secondGives, rfl⟩ := gives
          exact .either id (each first (by simp [children]) left firstGives)
            (each second (by simp [children]) right secondGives)
      | array id item =>
          simp only [lowerBy, Lowering.gives_bind, Lowering.gives_pure] at gives
          obtain ⟨body, itemGives, rfl⟩ := gives
          exact .array id (each item (by simp [children]) body itemGives)
      | record id item =>
          simp only [lowerBy, Lowering.gives_bind, Lowering.gives_pure] at gives
          obtain ⟨body, itemGives, rfl⟩ := gives
          exact .record id (each item (by simp [children]) body itemGives)
      | tuple id positions =>
          simp only [lowerBy, Lowering.gives_bind, Lowering.gives_pure] at gives
          obtain ⟨codes, allGive, rfl⟩ := gives
          obtain ⟨parts, rfl, rfl, partGives⟩ := gives_lowerAllBy allGive
          apply LowersTo.tuple id parts
          intro part member
          exact each part.1 (List.mem_map_of_mem member) part.2 (partGives part member)
      | union id alternatives =>
          simp only [lowerBy, Lowering.gives_bind, Lowering.gives_pure] at gives
          obtain ⟨codes, allGive, rfl⟩ := gives
          obtain ⟨parts, rfl, rfl, partGives⟩ := gives_lowerAllBy allGive
          apply LowersTo.union id parts
          intro part member
          exact each part.1 (List.mem_map_of_mem member) part.2 (partGives part member)
      | object id fields =>
          simp only [lowerBy, Lowering.gives_bind, Lowering.gives_pure] at gives
          obtain ⟨codes, allGive, rfl⟩ := gives
          obtain ⟨parts, rfl, rfl, partGives⟩ := gives_lowerFieldsBy allGive
          apply LowersTo.object id parts
          intro part member
          exact each part.2.1 (mem_children_object member id) part.2.2 (partGives part member)
      | reference id =>
          simp only [lowerBy, lowerReference, Lowering.gives_bind, Lowering.gives_use,
            List.cons_subset, List.nil_subset, and_true, exists_const] at gives
          obtain ⟨isUsed, gives⟩ := gives
          cases leads : resolve id with
          | error cause =>
              simp only [leads] at gives
              exact (Lowering.gives_fail _ _ gives).elim
          | ok target =>
              simp only [leads] at gives
              split at gives
              · next isExpanding =>
                simp only [handover, Lowering.gives_bind, Lowering.gives_pure] at gives
                obtain ⟨_, _, rfl⟩ := gives
                exact .handover _ isUsed leads isExpanding
              · next isNew =>
                simp only [Lowering.gives_bind, Lowering.gives_pure] at gives
                obtain ⟨body, bodyGives, rfl⟩ := gives
                exact .expanded isUsed leads (continues id target body .refl leads isNew bodyGives)

/-- The identity of a schema that some reference leads to. -/
def IsTarget (resolve : Resolver) (id : NodeId) : Prop :=
  ∃ source target, resolve source = .ok target ∧ target.id = id

/-- There are no more targets of references than a number. -/
def TargetsWithin (resolve : Resolver) (count : Nat) : Prop :=
  ∀ ids : List NodeId, ids.Nodup → (∀ id ∈ ids, IsTarget resolve id) → ids.length ≤ count

/-- The identity of a schema to which a reference leads that can be reached from a schema. -/
def LeadsTo (resolve : Resolver) (schema : Schema) (id : NodeId) : Prop :=
  ∃ source target, schema.Reaches resolve (.reference source) ∧ resolve source = .ok target ∧
    target.id = id

/-- Rounds are enough for a schema inside the expansion of some schemas: references that can be
reached from it lead to no more other schemas than rounds. -/
def Fits (resolve : Resolver) (rounds : Nat) (expanding : List NodeId) (schema : Schema) : Prop :=
  ∀ ids : List NodeId, ids.Nodup → (∀ id ∈ ids, id ∉ expanding ∧ schema.LeadsTo resolve id) →
    ids.length ≤ rounds

namespace Fits

variable {rounds more : Nat} {schema : Schema}

theorem of_targetsWithin (few : TargetsWithin resolve rounds) (expanding : List NodeId)
    (schema : Schema) : Fits resolve rounds expanding schema := by
  intro ids distinct new
  apply few ids distinct
  intro id member
  obtain ⟨_, source, target, _, leads⟩ := new id member
  exact ⟨source, target, leads⟩

theorem mono (fits : Fits resolve rounds expanding schema) (enough : rounds ≤ more) :
    Fits resolve more expanding schema :=
  fun ids distinct new => Nat.le_trans (fits ids distinct new) enough

theorem of_reaches (fits : Fits resolve rounds expanding schema) {reached : Schema}
    (reaches : schema.Reaches resolve reached) : Fits resolve rounds expanding reached := by
  intro ids distinct new
  apply fits ids distinct
  intro id member
  obtain ⟨isNew, source, target, further, leads⟩ := new id member
  exact ⟨isNew, source, target, reaches.trans further, leads⟩

/-- A further expansion takes one of the rounds, and the others are enough inside. -/
theorem expand (fits : Fits resolve rounds expanding schema) {id : NodeId} {target : Schema}
    (contains : schema.Contains (.reference id)) (leads : resolve id = .ok target)
    (isNew : target.id ∉ expanding) :
    ∃ fewer, rounds = fewer + 1 ∧ Fits resolve fewer (target.id :: expanding) target := by
  have reaches := reaches_of_contains contains resolve
  have room : ∀ ids : List NodeId, ids.Nodup →
      (∀ other ∈ ids, other ∉ target.id :: expanding ∧ target.LeadsTo resolve other) →
      ids.length + 1 ≤ rounds := by
    intro ids distinct new
    have isFirst : target.id ∉ ids := fun member => (new target.id member).1 List.mem_cons_self
    refine fits (target.id :: ids) (List.nodup_cons.mpr ⟨isFirst, distinct⟩) ?_
    rw [List.forall_mem_cons]
    refine ⟨⟨isNew, id, target, reaches, leads, rfl⟩, fun other member => ?_⟩
    obtain ⟨isOther, source, found, further, alsoLeads⟩ := new other member
    exact ⟨fun inside => isOther (List.mem_cons_of_mem _ inside), source, found,
      reaches.trans (.head (.target leads) further), alsoLeads⟩
  obtain ⟨fewer, rfl⟩ := Nat.exists_eq_add_of_le' (room [] List.nodup_nil (by simp))
  exact ⟨fewer, rfl, fun ids distinct new => Nat.le_of_succ_le_succ (room ids distinct new)⟩

end Fits

theorem lowersTo_of_lowerWithin (rounds : Nat) {schema : Schema} {code : Code}
    (fits : Fits resolve rounds expanding schema)
    (gives : (lowerWithin resolve rounds expanding schema).Gives used code) :
    LowersTo resolve used expanding schema code := by
  induction rounds generalizing expanding schema code with
  | zero =>
      apply lowersTo_of_lowerBy schema _ gives
      intro id target body contains leads isNew _
      obtain ⟨_, impossible, _⟩ := fits.expand contains leads isNew
      cases impossible
  | succ rounds ih =>
      apply lowersTo_of_lowerBy schema _ gives
      intro id target body contains leads isNew bodyGives
      obtain ⟨_, same, fitsInside⟩ := fits.expand contains leads isNew
      cases same
      exact ih fitsInside bodyGives

end Lower

/-! ## What lowering uses -/

section Reached

variable {nodes : Nodes} {registry : Registry} {used expanding : List NodeId}

theorem LowersTo.child {resolve : Resolver} {schema child : Schema} {code : Code}
    (lowers : LowersTo resolve used expanding schema code) (member : child ∈ schema.children) :
    ∃ code, LowersTo resolve used expanding child code := by
  cases lowers with
  | leaf isLeaf _ => cases schema <;> simp [children, leafTest?] at member isLeaf
  | both id first second | either id first second =>
      simp only [children, List.mem_cons, List.not_mem_nil, or_false] at member
      rcases member with rfl | rfl
      · exact ⟨_, first⟩
      · exact ⟨_, second⟩
  | array id item | record id item =>
      simp only [children, List.mem_singleton] at member
      subst member
      exact ⟨_, item⟩
  | tuple id parts each | union id parts each =>
      obtain ⟨part, inParts, rfl⟩ := List.mem_map.mp member
      exact ⟨_, each part inParts⟩
  | object id parts each =>
      simp only [children, List.map_map, List.mem_map] at member
      obtain ⟨part, inParts, rfl⟩ := member
      exact ⟨_, each part inParts⟩
  | expanded | handover => simp [children] at member

/-- Every schema being expanded is determined by its identity and is itself lowered, inside the
expansion of those further out. -/
inductive Anchored (nodes : Nodes) (registry : Registry) (used : List NodeId) :
    List NodeId → Prop where
  | nil : Anchored nodes registry used []
  | cons {expanding : List NodeId} {schema : Schema} {code : Code} :
      schema.Identified nodes registry.nextId →
      LowersTo registry.target used (schema.id :: expanding) schema code →
      Anchored nodes registry used expanding → Anchored nodes registry used (schema.id :: expanding)

/-- A schema is lowered somewhere. -/
def Covered (nodes : Nodes) (registry : Registry) (used : List NodeId) (schema : Schema) : Prop :=
  ∃ expanding code, Anchored nodes registry used expanding ∧
    LowersTo registry.target used expanding schema code

theorem Anchored.covered {id : NodeId} (anchored : Anchored nodes registry used expanding)
    (member : id ∈ expanding) :
    ∃ schema, schema.id = id ∧ schema.Identified nodes registry.nextId ∧
      Covered nodes registry used schema := by
  induction anchored with
  | nil => cases member
  | cons identified lowers further ih =>
      rcases List.mem_cons.mp member with rfl | isFurther
      · exact ⟨_, rfl, identified, _, _, .cons identified lowers further, lowers⟩
      · exact ih isFurther

/-- What comes next after a schema that is lowered somewhere is lowered somewhere. -/
theorem Covered.next (consistent : registry.Consistent nodes) {schema following : Schema}
    (covered : Covered nodes registry used schema)
    (next : Next registry.target schema following) : Covered nodes registry used following := by
  obtain ⟨expanding, code, anchored, lowers⟩ := covered
  cases next with
  | child member =>
      obtain ⟨code, childLowers⟩ := lowers.child member
      exact ⟨expanding, code, anchored, childLowers⟩
  | target leads =>
      have identified := consistent.identified_of_target leads
      cases lowers with
      | leaf isLeaf _ => cases isLeaf
      | expanded _ alsoLeads body =>
          cases leads.symm.trans alsoLeads
          exact ⟨_, _, .cons identified body anchored, body⟩
      | handover _ _ alsoLeads isExpanding =>
          cases leads.symm.trans alsoLeads
          obtain ⟨outer, sameId, outerIdentified, outerCovered⟩ := anchored.covered isExpanding
          -- One identity is one schema, so what is handed over is what is expanded further out.
          rcases outerIdentified.eq_or_placeholder identified sameId with rfl | ⟨name, rfl⟩
          · exact outerCovered
          · exact ⟨expanding, .literal _, anchored, .leaf rfl rfl⟩

/-- Whatever reference can be reached from a schema is used when it is lowered. -/
theorem LowersTo.used_of_reaches (consistent : registry.Consistent nodes) {schema : Schema}
    {code : Code} (identified : schema.Identified nodes registry.nextId)
    (lowers : LowersTo registry.target used [schema.id] schema code) {id : NodeId}
    (reaches : schema.Reaches registry.target (.reference id)) : id ∈ used := by
  have covered : ∀ reached, schema.Reaches registry.target reached →
      Covered nodes registry used reached := by
    intro reached reaches
    induction reaches with
    | refl => exact ⟨_, _, .cons identified lowers .nil, lowers⟩
    | tail _ next ih => exact ih.next consistent next
  obtain ⟨_, _, _, referenceLowers⟩ := covered _ reaches
  cases referenceLowers with
  | leaf isLeaf _ => cases isLeaf
  | expanded isUsed _ _ => exact isUsed
  | handover _ isUsed _ _ => exact isUsed

end Reached

/-- In a consistent registry there are no more targets of references than factories. -/
theorem targetsWithin_factories {nodes : Nodes} {registry : Registry}
    (consistent : registry.Consistent nodes) :
    TargetsWithin registry.target registry.references.factories.length := by
  intro ids distinct targets
  have few := List.length_filterMap_le
    (fun factory : NodeId × Factory => (registry.target factory.1).toOption.map Schema.id)
    registry.references.factories
  refine Nat.le_trans (distinct.length_le_of_subset ?_) few
  intro id member
  obtain ⟨source, target, leads, rfl⟩ := targets id member
  obtain ⟨factory, inFactories⟩ :=
    References.mem_factories_of_produce? (consistent.known_of_target leads)
  exact List.mem_filterMap.mpr ⟨(source, factory), inFactories, by simp [leads, Except.toOption]⟩

/-- In a consistent registry the rounds of lowering are enough. -/
theorem fits_factories {nodes : Nodes} {registry : Registry}
    (consistent : registry.Consistent nodes) (expanding : List NodeId) (schema : Schema) :
    Fits registry.target registry.references.factories.length expanding schema :=
  .of_targetsWithin (targetsWithin_factories consistent) expanding schema

/-- A schema is lowered to the code it is compiled to. -/
theorem lowersTo_of_lower {nodes : Nodes} {registry : Registry}
    (consistent : registry.Consistent nodes) {schema : Schema} {code : Code}
    (result : (schema.lower registry.references).result = .ok code) :
    LowersTo registry.target (schema.lower registry.references).used [schema.id] schema code :=
  lowersTo_of_lowerWithin _ (fits_factories consistent _ schema) ⟨result, List.Subset.refl _⟩

end Schema

end Assay
