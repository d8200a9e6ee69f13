import Assay.Draft
import Assay.Proofs.Registry
import Mathlib.Logic.Function.Basic

/-!
# Identities of nodes

An identity is given to one node only, so schemas of the same identity are the same schema.  To say
this, the schema of every identity is kept beside the registry; it is no part of any run.  Building
a draft adds schemas for the identities it gives and leaves those of all earlier identities alone.

Only the schemas that can be looked up matter here: those that are bound, those that references
hold, and those that references were found to lead to. -/

namespace Assay

/-- The schema of every identity that has been given. -/
abbrev Nodes := NodeId → Schema

/-- The identity of a schema has been given, and stands for the schema.  The identities below `next`
have been given. -/
structure Schema.Filed (nodes : Nodes) (next : NodeId) (schema : Schema) : Prop where
  positive : 0 < schema.id
  below : schema.id < next
  same : nodes schema.id = schema

/-- A schema is determined by its identity, or stands in for an unbound name. -/
def Schema.Identified (nodes : Nodes) (next : NodeId) (schema : Schema) : Prop :=
  schema.Filed nodes next ∨ ∃ name, schema = References.placeholder name

/-- Schemas of the same identity are the same, or the second one stands in for an unbound name. -/
theorem Schema.Identified.eq_or_placeholder {nodes : Nodes} {next : NodeId} {first second : Schema}
    (identified : first.Identified nodes next) (alsoIdentified : second.Identified nodes next)
    (sameId : first.id = second.id) :
    second = first ∨ ∃ name, second = References.placeholder name := by
  refine alsoIdentified.imp_left fun filed => ?_
  rcases identified with alsoFiled | ⟨name, rfl⟩
  · rw [← filed.same, ← sameId, alsoFiled.same]
  · have positive := filed.positive
    rw [← sameId] at positive
    exact (Nat.lt_irrefl 0 positive).elim

/-- Every schema that can be looked up is determined by its identity, and every reference that was
found to lead to a schema has a factory. -/
structure Registry.Consistent (nodes : Nodes) (registry : Registry) : Prop where
  positive : 0 < registry.nextId
  bindings : ∀ name schema, registry.references.bindings.lookup name = some schema →
    schema.Filed nodes registry.nextId
  fixed : ∀ id schema, registry.references.factories.lookup id = some (.fixed schema) →
    schema.Filed nodes registry.nextId
  recorded : ∀ id schema, registry.references.resolved.lookup id = some (.ok schema) →
    schema.Identified nodes registry.nextId
  known : ∀ id schema, registry.references.resolved.lookup id = some (.ok schema) →
    (registry.references.produce? id).isSome

/-- Identities are given, and nothing else changes of what has been settled and compiled. -/
structure Registry.Grows (nodes : Nodes) (before : Registry) (later : Nodes) (after : Registry) :
    Prop where
  nextId : before.nextId ≤ after.nextId
  nodes : ∀ id < before.nextId, later id = nodes id
  resolved : after.references.resolved = before.references.resolved
  routines : after.routines = before.routines

namespace Registry.Grows

variable {nodes middle later : Nodes} {before between after : Registry}

theorem refl (nodes : Nodes) (registry : Registry) : registry.Grows nodes nodes registry :=
  ⟨Nat.le_refl _, fun _ _ => rfl, rfl, rfl⟩

theorem trans (first : before.Grows nodes middle between)
    (second : between.Grows middle later after) : before.Grows nodes later after where
  nextId := Nat.le_trans first.nextId second.nextId
  nodes := fun id given =>
    (second.nodes id (Nat.lt_of_lt_of_le given first.nextId)).trans (first.nodes id given)
  resolved := second.resolved.trans first.resolved
  routines := second.routines.trans first.routines

theorem filed (grows : before.Grows nodes later after) {schema : Schema}
    (filed : schema.Filed nodes before.nextId) : schema.Filed later after.nextId where
  positive := filed.positive
  below := Nat.lt_of_lt_of_le filed.below grows.nextId
  same := (grows.nodes schema.id filed.below).trans filed.same

theorem identified (grows : before.Grows nodes later after) {schema : Schema}
    (identified : schema.Identified nodes before.nextId) : schema.Identified later after.nextId :=
  identified.imp_left grows.filed

end Registry.Grows

namespace Registry.Consistent

variable {nodes : Nodes} {registry after : Registry}

theorem initial (nodes : Nodes) (listening : Option Level) :
    ({ listening } : Registry).Consistent nodes := by
  constructor <;> simp

theorem identified_of_produce? (consistent : registry.Consistent nodes) {id : NodeId}
    {schema : Schema} (given : registry.references.produce? id = some schema) :
    schema.Identified nodes registry.nextId := by
  rw [References.produce?] at given
  cases found : registry.references.factories.lookup id with
  | none => simp [found] at given
  | some factory =>
      rw [found, Option.map_some, Option.some.injEq] at given
      cases factory with
      | named name =>
          cases bound : registry.references.bindings.lookup name with
          | none =>
              simp only [bound, Option.getD_none] at given
              exact .inr ⟨name, given.symm⟩
          | some schema =>
              simp only [bound, Option.getD_some] at given
              cases given
              exact .inl (consistent.bindings name schema bound)
      | fixed schema =>
          cases given
          exact .inl (consistent.fixed id schema found)

/-- Whatever a reference leads to is determined by its identity. -/
theorem identified_of_target (consistent : registry.Consistent nodes) {id : NodeId}
    {schema : Schema} (leads : registry.target id = .ok schema) :
    schema.Identified nodes registry.nextId := by
  obtain ⟨source, found | given⟩ := References.source_of_target leads
  · exact consistent.recorded source schema found
  · exact consistent.identified_of_produce? given

/-- A reference that leads to a schema has a factory. -/
theorem known_of_target (consistent : registry.Consistent nodes) {id : NodeId} {schema : Schema}
    (leads : registry.target id = .ok schema) : (registry.references.produce? id).isSome := by
  rcases References.known_of_target leads with found | known
  · exact consistent.known id schema found
  · exact known

/-- Settling references keeps a registry consistent. -/
theorem settles (consistent : registry.Consistent nodes) (settles : registry.Settles after) :
    after.Consistent nodes := by
  have leadsBefore : ∀ id schema, after.references.resolved.lookup id = some (.ok schema) →
      registry.target id = .ok schema := by
    intro id schema found
    rw [← settles.target]
    exact target_of_recorded found
  constructor
  case positive => rw [settles.nextId]; exact consistent.positive
  case bindings => rw [settles.bindings, settles.nextId]; exact consistent.bindings
  case fixed => rw [settles.factories, settles.nextId]; exact consistent.fixed
  case recorded =>
      intro id schema found
      rw [settles.nextId]
      exact consistent.identified_of_target (leadsBefore id schema found)
  case known =>
      intro id schema found
      have known := consistent.known_of_target (leadsBefore id schema found)
      rw [References.produce?] at known ⊢
      rw [settles.bindings, settles.factories]
      exact known

/-- Keeping a routine keeps a registry consistent. -/
theorem keeping (consistent : registry.Consistent nodes) (id : NodeId)
    (result : Except CompileError Code) : (registry.keeping id result).Consistent nodes :=
  ⟨consistent.positive, consistent.bindings, consistent.fixed, consistent.recorded,
    consistent.known⟩

/-- Giving a new identity to a schema keeps a registry consistent. -/
theorem allocate (consistent : registry.Consistent nodes) {schema : Schema}
    (new : schema.id = registry.nextId) :
    let later := Function.update nodes registry.nextId schema
    let after := { registry with nextId := registry.nextId + 1 }
    registry.Grows nodes later after ∧ after.Consistent later ∧
      schema.Filed later after.nextId := by
  intro later after
  have grows : registry.Grows nodes later after := by
    refine ⟨Nat.le_succ _, ?_, rfl, rfl⟩
    intro id given
    exact Function.update_of_ne (Nat.ne_of_lt given) _ _
  refine ⟨grows, ?_, ?_⟩
  · constructor
    · exact Nat.succ_pos _
    · exact fun name schema bound => grows.filed (consistent.bindings name schema bound)
    · exact fun id schema found => grows.filed (consistent.fixed id schema found)
    · exact fun id schema found => grows.identified (consistent.recorded id schema found)
    · exact consistent.known
  · constructor
    · rw [new]; exact consistent.positive
    · rw [new]; exact Nat.lt_succ_self _
    · rw [new]; exact Function.update_self ..

/-- Giving a reference a factory keeps a registry consistent. -/
theorem addFactory (consistent : registry.Consistent nodes) (id : NodeId) {factory : Factory}
    (filed : ∀ schema, factory = .fixed schema → schema.Filed nodes registry.nextId) :
    let after : Registry :=
      { registry with references := { registry.references with
          factories := (id, factory) :: registry.references.factories } }
    registry.Grows nodes nodes after ∧ after.Consistent nodes := by
  intro after
  refine ⟨⟨Nat.le_refl _, fun _ _ => rfl, rfl, rfl⟩, ?_⟩
  refine ⟨consistent.positive, consistent.bindings, ?_, consistent.recorded, ?_⟩
  · intro other schema found
    simp only [after, List.lookup_cons] at found
    split at found
    · exact filed schema (Option.some.inj found)
    · exact consistent.fixed other schema found
  · intro other schema found
    have known := consistent.known other schema found
    simp only [References.produce?, Option.isSome_map, after, List.lookup_cons] at known ⊢
    split
    · rfl
    · exact known

/-- Binding a name to a schema keeps a registry consistent. -/
theorem bind (consistent : registry.Consistent nodes) (name : String) {schema : Schema}
    (filed : schema.Filed nodes registry.nextId) :
    registry.Grows nodes nodes (registry.bind name schema) ∧
      (registry.bind name schema).Consistent nodes := by
  refine ⟨⟨Nat.le_refl _, fun _ _ => rfl, rfl, rfl⟩, ?_⟩
  refine ⟨consistent.positive, ?_, consistent.fixed, consistent.recorded, ?_⟩
  · intro other found bound
    simp only [Registry.bind, References.bind, List.lookup_cons] at bound
    split at bound
    · cases bound
      exact filed
    · exact consistent.bindings other found bound
  · intro id found leads
    have known := consistent.known id found leads
    simpa only [References.produce?, Option.isSome_map, Registry.bind, References.bind] using known

end Registry.Consistent

/-! ## Building drafts -/

namespace Building

variable {α β : Type} {nodes : Nodes} {registry : Registry}

theorem run_bind (first : Building α) (next : α → Building β) :
    (first >>= next).run.run registry =
      match first.run.run registry with
      | (.ok value, after) => (next value).run.run after
      | (.error cause, after) => (.error cause, after) := by
  simp only [ExceptT.run_bind, StateT.run_bind]
  generalize first.run.run registry = result
  obtain ⟨_ | _, after⟩ := result <;> rfl

theorem run_bound (name : String) :
    (bound name).run.run registry =
      ((registry.references.bindings.lookup name).elim (.error (.unknownName name)) .ok,
        registry) := by
  have got : (get : Building Registry).run.run registry = (.ok registry, registry) := rfl
  rw [bound, run_bind, got]
  cases found : registry.references.bindings.lookup name <;> simp only [found] <;> rfl

/-- Building in a registry ends in a consistent registry that has grown, and what is built, if
anything, is as it should be there. -/
def Keeps (building : Building α) (nodes : Nodes) (registry : Registry)
    (right : Nodes → Registry → α → Prop) : Prop :=
  ∃ later, registry.Grows nodes later (building.run.run registry).2 ∧
    (building.run.run registry).2.Consistent later ∧
    ∀ value, (building.run.run registry).1 = .ok value →
      right later (building.run.run registry).2 value

/-- What is built is a schema that is determined by its identity. -/
abbrev Files (building : Building Schema) (nodes : Nodes) (registry : Registry) : Prop :=
  building.Keeps nodes registry fun later after schema => schema.Filed later after.nextId

theorem keeps_pure (consistent : registry.Consistent nodes) {right : Nodes → Registry → α → Prop}
    {value : α} (isRight : right nodes registry value) :
    Keeps (pure value : Building α) nodes registry right :=
  ⟨nodes, .refl nodes registry, consistent, fun _ same => Except.ok.inj same ▸ isRight⟩

theorem keeps_throw (consistent : registry.Consistent nodes) {right : Nodes → Registry → α → Prop}
    (cause : BuildError) : Keeps (throw cause : Building α) nodes registry right :=
  ⟨nodes, .refl nodes registry, consistent, fun _ impossible => by cases impossible⟩

theorem Keeps.bind {first : Building α} {next : α → Building β}
    {right : Nodes → Registry → α → Prop} {rightNext : Nodes → Registry → β → Prop}
    (keeps : first.Keeps nodes registry right)
    (continues : ∀ later after value, registry.Grows nodes later after → after.Consistent later →
      right later after value → (next value).Keeps later after rightNext) :
    (first >>= next).Keeps nodes registry rightNext := by
  obtain ⟨later, grows, consistent, isRight⟩ := keeps
  rw [Keeps]
  rw [run_bind]
  generalize first.run.run registry = result at grows consistent isRight ⊢
  obtain ⟨cause | value, after⟩ := result
  · exact ⟨later, grows, consistent, fun _ impossible => by cases impossible⟩
  · obtain ⟨last, growsFurther, consistentLast, isRightLast⟩ :=
      continues later after value grows consistent (isRight value rfl)
    exact ⟨last, grows.trans growsFurther, consistentLast, isRightLast⟩

theorem files_node (consistent : registry.Consistent nodes) {make : NodeId → Schema}
    (takesId : (make registry.nextId).id = registry.nextId) : Files (node make) nodes registry := by
  obtain ⟨grows, stays, filed⟩ := consistent.allocate takesId
  exact ⟨_, grows, stays, fun _ same => Except.ok.inj same ▸ filed⟩

theorem files_reference (consistent : registry.Consistent nodes) {factory : Factory}
    (filed : ∀ schema, factory = .fixed schema → schema.Filed nodes registry.nextId) :
    Files (reference factory) nodes registry := by
  have takesId : (Schema.reference registry.nextId).id = registry.nextId := rfl
  obtain ⟨grows, stays, isFiled⟩ := consistent.allocate takesId
  obtain ⟨growsFurther, staysFurther⟩ := stays.addFactory registry.nextId
    fun schema same => grows.filed (filed schema same)
  exact ⟨_, grows.trans growsFurther, staysFurther,
    fun _ same => Except.ok.inj same ▸ growsFurther.filed isFiled⟩

theorem files_bound (consistent : registry.Consistent nodes) (name : String) :
    Files (bound name) nodes registry := by
  rw [Files, Keeps]
  rw [run_bound]
  refine ⟨nodes, .refl nodes registry, consistent, ?_⟩
  intro schema isBound
  cases found : registry.references.bindings.lookup name with
  | some other =>
      simp only [found, Option.elim_some, Except.ok.injEq] at isBound
      cases isBound
      exact consistent.bindings name schema found
  | none => simp [found] at isBound

theorem files_alsoLiteral (consistent : registry.Consistent nodes) (expected : Literal)
    (base : Schema) : Files (alsoLiteral expected base) nodes registry := by
  apply (files_node consistent rfl).bind
  intro _ _ _ _ consistent _
  exact files_node consistent rfl

theorem files_narrowed (consistent : registry.Consistent nodes) (base : Schema) (rule : Rule) :
    Files (narrowed base rule) nodes registry := by
  apply (files_node consistent rfl).bind
  intro _ _ _ _ consistent _
  exact files_node consistent rfl

theorem files_word (consistent : registry.Consistent nodes) (name : String) :
    Files (word name) nodes registry := by
  simp only [word]
  split
  case h_10 =>
      apply (files_node consistent rfl).bind
      intro _ _ base _ consistent _
      exact files_narrowed consistent base .dateTime
  case h_11 => exact keeps_throw consistent _
  all_goals exact files_node consistent rfl

end Building

namespace Draft

open Building

mutual

theorem build_files (draft : Draft) {nodes : Nodes} {registry : Registry}
    (consistent : registry.Consistent nodes) :
    Files draft.build nodes registry := by
  cases draft with
  | word name => exact files_word consistent name
  | literal expected => exact files_node consistent rfl
  | oneOf members =>
      rw [build, Building.oneOf]
      split
      · exact keeps_throw consistent _
      · exact files_node consistent rfl
  | container kind => exact files_node consistent rfl
  | both first second | either first second =>
      apply (build_files first consistent).bind
      intro _ _ _ _ consistent _
      apply (build_files second consistent).bind
      intro _ _ _ _ consistent _
      exact files_node consistent rfl
  | nullable base | optional base =>
      apply (build_files base consistent).bind
      intro _ _ _ _ consistent _
      exact files_alsoLiteral consistent _ _
  | array item | record item =>
      apply (build_files item consistent).bind
      intro _ _ _ _ consistent _
      exact files_node consistent rfl
  | tuple positions =>
      apply (buildAll_keeps positions consistent).bind
      intro _ _ _ _ consistent _
      rw [Building.tuple]
      split
      · exact keeps_throw consistent _
      · exact files_node consistent rfl
  | union alternatives =>
      apply (buildAll_keeps alternatives consistent).bind
      intro _ _ _ _ consistent _
      rw [Building.union]
      split
      · exact keeps_throw consistent _
      · exact files_node consistent rfl
  | object fields =>
      apply (buildFields_keeps fields consistent).bind
      intro _ _ _ _ consistent _
      rw [Building.object]
      split
      · exact keeps_throw consistent _
      · exact files_node consistent rfl
  | refine base rule =>
      apply (build_files base consistent).bind
      intro _ _ _ _ consistent _
      exact files_narrowed consistent _ _
  | custom rule => exact files_node consistent rfl
  | bound name => exact files_bound consistent name
  | named name =>
      apply files_reference consistent
      intro _ impossible
      cases impossible
  | deferred base =>
      apply (build_files base consistent).bind
      intro _ _ _ _ consistent filed
      apply files_reference consistent
      intro _ same
      cases same
      exact filed
  | unreadable reason => exact keeps_throw consistent _

theorem buildAll_keeps (drafts : List Draft) {nodes : Nodes} {registry : Registry}
    (consistent : registry.Consistent nodes) :
    Keeps (buildAll drafts) nodes registry fun _ _ _ => True := by
  cases drafts with
  | nil => exact keeps_pure consistent trivial
  | cons draft rest =>
      apply (build_files draft consistent).bind
      intro _ _ _ _ consistent _
      apply (buildAll_keeps rest consistent).bind
      intro _ _ _ _ consistent _
      exact keeps_pure consistent trivial

theorem buildFields_keeps (fields : List (String × Draft)) {nodes : Nodes} {registry : Registry}
    (consistent : registry.Consistent nodes) :
    Keeps (buildFields fields) nodes registry fun _ _ _ => True := by
  cases fields with
  | nil => exact keeps_pure consistent trivial
  | cons field rest =>
      obtain ⟨name, draft⟩ := field
      apply (build_files draft consistent).bind
      intro _ _ _ _ consistent _
      apply (buildFields_keeps rest consistent).bind
      intro _ _ _ _ consistent _
      exact keeps_pure consistent trivial

end

end Draft

/-- Defining a name keeps a registry consistent, whether or not the draft can be built. -/
theorem Registry.Consistent.define {nodes : Nodes} {registry : Registry}
    (consistent : registry.Consistent nodes) (name : String) (draft : Draft) :
    ∃ later, registry.Grows nodes later (registry.define name draft).2 ∧
      (registry.define name draft).2.Consistent later := by
  obtain ⟨later, grows, stays, filed⟩ := draft.build_files consistent
  rw [Registry.define, Registry.build]
  generalize draft.build.run.run registry = result at grows stays filed ⊢
  obtain ⟨cause | schema, after⟩ := result
  · exact ⟨later, grows, stays⟩
  · obtain ⟨growsFurther, staysFurther⟩ := stays.bind name (filed schema rfl)
    exact ⟨later, grows.trans growsFurther, staysFurther⟩

end Assay
