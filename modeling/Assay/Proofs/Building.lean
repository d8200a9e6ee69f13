import Assay.Proofs.Identity

/-!
# What building draws on

Building a draft reads and changes three parts of a registry only: the bindings, the factories and
the next identity.  So two registries that are the same in these build the same schema, with the
same identities, and whatever else a registry keeps is left alone by building.

Of these three parts building leaves the bindings alone, and it adds factories for identities that
it gives itself.
-/

namespace Assay

/-! ## Induction over drafts -/

/-- A property of building holds of its elementary parts and is passed on when one part follows
another. -/
structure Building.Composes (property : (α : Type) → Building α → Prop) : Prop where
  pure : ∀ {α : Type} (value : α), property α (Pure.pure value)
  throw : ∀ {α : Type} (cause : BuildError), property α (MonadExcept.throw cause)
  bind : ∀ {α β : Type} {first : Building α} {next : α → Building β}, property α first →
    (∀ value, property β (next value)) → property β (first >>= next)
  node : ∀ make : NodeId → Schema, property Schema (Building.node make)
  reference : ∀ factory : Factory, property Schema (Building.reference factory)
  bound : ∀ name : String, property Schema (Building.bound name)

namespace Building.Composes

variable {property : (α : Type) → Building α → Prop}

theorem alsoLiteral (composes : Composes property) (expected : Literal) (base : Schema) :
    property Schema (Building.alsoLiteral expected base) :=
  composes.bind (composes.node _) fun _ => composes.node _

theorem narrowed (composes : Composes property) (base : Schema) (rule : Rule) :
    property Schema (Building.narrowed base rule) :=
  composes.bind (composes.node _) fun _ => composes.node _

theorem word (composes : Composes property) (name : String) :
    property Schema (Building.word name) := by
  simp only [Building.word]
  split
  case h_10 => exact composes.bind (composes.node _) fun base => composes.narrowed base .dateTime
  case h_11 => exact composes.throw _
  all_goals exact composes.node _

mutual

/-- What composes holds of building every draft. -/
theorem build (composes : Composes property) (draft : Draft) : property Schema draft.build := by
  cases draft with
  | word name => exact composes.word name
  | literal | container | custom => exact composes.node _
  | oneOf members =>
      rw [Draft.build, Building.oneOf]
      split
      · exact composes.throw _
      · exact composes.node _
  | both first second | either first second =>
      exact composes.bind (composes.build first) fun _ =>
        composes.bind (composes.build second) fun _ => composes.node _
  | nullable base | optional base =>
      exact composes.bind (composes.build base) fun _ => composes.alsoLiteral _ _
  | array item | record item =>
      exact composes.bind (composes.build item) fun _ => composes.node _
  | tuple positions =>
      apply composes.bind (composes.buildAll positions)
      intro built
      rw [Building.tuple]
      split
      · exact composes.throw _
      · exact composes.node _
  | union alternatives =>
      apply composes.bind (composes.buildAll alternatives)
      intro built
      rw [Building.union]
      split
      · exact composes.throw _
      · exact composes.node _
  | object fields =>
      apply composes.bind (composes.buildFields fields)
      intro built
      rw [Building.object]
      split
      · exact composes.throw _
      · exact composes.node _
  | refine base rule =>
      exact composes.bind (composes.build base) fun _ => composes.narrowed _ _
  | bound name => exact composes.bound name
  | named name => exact composes.reference _
  | deferred base => exact composes.bind (composes.build base) fun _ => composes.reference _
  | unreadable reason => exact composes.throw _

theorem buildAll (composes : Composes property) (drafts : List Draft) :
    property (List Schema) (Draft.buildAll drafts) := by
  cases drafts with
  | nil => exact composes.pure _
  | cons draft rest =>
      exact composes.bind (composes.build draft) fun _ =>
        composes.bind (composes.buildAll rest) fun _ => composes.pure _

theorem buildFields (composes : Composes property) (fields : List (String × Draft)) :
    property (List (String × Schema)) (Draft.buildFields fields) := by
  cases fields with
  | nil => exact composes.pure _
  | cons field rest =>
      obtain ⟨name, draft⟩ := field
      exact composes.bind (composes.build draft) fun _ =>
        composes.bind (composes.buildFields rest) fun _ => composes.pure _

end

end Building.Composes

namespace Registry

/-! ## The ground of building -/

/-- A registry with the bindings, the factories and the next identity of another one. -/
def grounded (registry ground : Registry) : Registry :=
  { registry with
    references := { ground.references with resolved := registry.references.resolved }
    nextId := ground.nextId }

/-- Two registries have the same bindings and factories, and give the same identity next. -/
structure SameGround (left right : Registry) : Prop where
  bindings : left.references.bindings = right.references.bindings
  factories : left.references.factories = right.references.factories
  nextId : left.nextId = right.nextId

theorem SameGround.trans {left middle right : Registry} (first : left.SameGround middle)
    (second : middle.SameGround right) : left.SameGround right :=
  ⟨first.bindings.trans second.bindings, first.factories.trans second.factories,
    first.nextId.trans second.nextId⟩

theorem SameGround.grounded_eq {left right : Registry} (same : left.SameGround right) :
    left.grounded right = left := by
  simp only [grounded, ← same.nextId, ← same.bindings, ← same.factories]

/-- Building does the same on whatever ground it takes place. -/
theorem local_composes : Building.Composes fun _ building => ∀ registry ground : Registry,
    building.run.run (registry.grounded ground) =
      ((building.run.run ground).1, registry.grounded (building.run.run ground).2) where
  pure := fun _ _ _ => rfl
  throw := fun _ _ _ => rfl
  bind := by
    intro α β first next firstLocal nextLocal registry ground
    rw [Building.run_bind, Building.run_bind, firstLocal registry ground]
    generalize first.run.run ground = result
    obtain ⟨_ | value, after⟩ := result
    · rfl
    · exact nextLocal value registry after
  node := fun _ _ _ => rfl
  reference := fun _ _ _ => rfl
  bound := by
    intro name registry ground
    rw [Building.run_bound, Building.run_bound]
    rfl

/-- Defining a name does the same on whatever ground it takes place. -/
theorem define_grounded (registry ground : Registry) (name : String) (draft : Draft) :
    (registry.grounded ground).define name draft =
      ((ground.define name draft).1, registry.grounded (ground.define name draft).2) := by
  rw [define, define, build, build, local_composes.build draft registry ground]
  generalize draft.build.run.run ground = result
  obtain ⟨_ | schema, after⟩ := result <;> rfl

/-- On the same ground a name is defined in the same way. -/
theorem SameGround.define {left right : Registry} (same : left.SameGround right) (name : String)
    (draft : Draft) :
    (left.define name draft).1 = (right.define name draft).1 ∧
      (left.define name draft).2.SameGround (right.define name draft).2 := by
  have equal := left.define_grounded right name draft
  rw [same.grounded_eq] at equal
  rw [equal]
  exact ⟨rfl, rfl, rfl, rfl⟩

/-- Defining a name changes the ground and nothing else. -/
theorem define_eq (registry : Registry) (name : String) (draft : Draft) :
    (registry.define name draft).2 = registry.grounded (registry.define name draft).2 :=
  congrArg Prod.snd (registry.define_grounded registry name draft)

/-! ## New factories -/

/-- No factory belongs to an identity that has not been given. -/
def Allots (registry : Registry) : Prop :=
  ∀ id, registry.nextId ≤ id → registry.references.factories.lookup id = none

/-- Identities are given, and factories are added for these alone. -/
structure Extends (before after : Registry) : Prop where
  bindings : after.references.bindings = before.references.bindings
  nextId : before.nextId ≤ after.nextId
  factories : ∀ id < before.nextId,
    after.references.factories.lookup id = before.references.factories.lookup id
  allots : before.Allots → after.Allots

theorem Extends.refl (registry : Registry) : registry.Extends registry :=
  ⟨rfl, Nat.le_refl _, fun _ _ => rfl, fun allots => allots⟩

theorem Extends.trans {before middle after : Registry} (first : before.Extends middle)
    (second : middle.Extends after) : before.Extends after where
  bindings := second.bindings.trans first.bindings
  nextId := Nat.le_trans first.nextId second.nextId
  factories := fun id given =>
    (second.factories id (Nat.lt_of_lt_of_le given first.nextId)).trans (first.factories id given)
  allots := fun allots => second.allots (first.allots allots)

theorem extends_composes : Building.Composes fun _ building => ∀ registry : Registry,
    registry.Extends (building.run.run registry).2 where
  pure := fun _ registry => .refl registry
  throw := fun _ registry => .refl registry
  bind := by
    intro α β first next firstExtends nextExtends registry
    have extended := firstExtends registry
    rw [Building.run_bind]
    generalize first.run.run registry = result at extended ⊢
    obtain ⟨_ | value, after⟩ := result
    · exact extended
    · exact extended.trans (nextExtends value after)
  node := fun _ registry =>
    ⟨rfl, Nat.le_succ _, fun _ _ => rfl, fun allots id new => allots id (Nat.le_of_succ_le new)⟩
  reference := by
    intro factory registry
    have lookup : ∀ id, id ≠ registry.nextId →
        ((registry.nextId, factory) :: registry.references.factories).lookup id =
          registry.references.factories.lookup id := by
      intro id different
      have differs : (id == registry.nextId) = false := by simpa using different
      rw [List.lookup_cons, differs]
    exact ⟨rfl, Nat.le_succ _, fun id given => lookup id (Nat.ne_of_lt given),
      fun allots id new => (lookup id (Nat.ne_of_gt new)).trans (allots id (Nat.le_of_succ_le new))⟩
  bound := by
    intro name registry
    rw [Building.run_bound]
    exact .refl registry

/-- A definition builds a draft, and binds the name if that was possible. -/
theorem define_cases (registry : Registry) (name : String) (draft : Draft) :
    ∃ built : Registry, registry.Extends built ∧
      ((∃ cause, registry.define name draft = (.error cause, built)) ∨
        ∃ schema, registry.define name draft = (.ok (), built.bind name schema)) := by
  have extended := extends_composes.build draft registry
  rw [define, build]
  generalize draft.build.run.run registry = result at extended ⊢
  obtain ⟨cause | schema, built⟩ := result
  · exact ⟨built, extended, .inl ⟨cause, rfl⟩⟩
  · exact ⟨built, extended, .inr ⟨schema, rfl⟩⟩

theorem Allots.define {registry : Registry} (allots : registry.Allots) (name : String)
    (draft : Draft) : (registry.define name draft).2.Allots := by
  obtain ⟨built, extended, ⟨cause, defined⟩ | ⟨schema, defined⟩⟩ :=
    registry.define_cases name draft
  · rw [defined]
    exact extended.allots allots
  · rw [defined]
    exact extended.allots allots

end Registry

/-- Whether the factory of a reference has something to give, a schema of its own or one that is
bound. -/
def References.gives (references : References) (id : NodeId) : Bool :=
  match references.factories.lookup id with
  | some (.fixed _) => true
  | some (.named name) => (references.bindings.lookup name).isSome
  | none => false

/-- A definition of a name that was not bound changes nothing about what the factories give that had
something to give. -/
theorem Registry.produce?_define {registry : Registry} (allots : registry.Allots) {name : String}
    {draft : Draft} (once : (registry.define name draft).1 = .ok () →
      registry.references.bindings.lookup name = none) {id : NodeId}
    (gives : registry.references.gives id = true) :
    (registry.define name draft).2.references.produce? id = registry.references.produce? id := by
  rw [References.gives] at gives
  have isGiven : id < registry.nextId := by
    by_contra new
    rw [allots id (Nat.le_of_not_lt new)] at gives
    cases gives
  obtain ⟨built, extended, ⟨cause, defined⟩ | ⟨schema, defined⟩⟩ :=
    registry.define_cases name draft
  · rw [defined, References.produce?, References.produce?, extended.factories id isGiven,
      extended.bindings]
  · rw [defined] at once ⊢
    change ((built.references.factories.lookup id).map _) = _
    rw [References.produce?, extended.factories id isGiven]
    cases found : registry.references.factories.lookup id with
    | none => rfl
    | some factory =>
        cases factory with
        | fixed schema => rfl
        | named other =>
            have different : (other == name) = false := by
              rw [beq_eq_false_iff_ne]
              rintro rfl
              simp only [found, once rfl, Option.isSome_none, Bool.false_eq_true] at gives
            simp only [Option.map_some, Registry.bind, References.bind, List.lookup_cons, different,
              extended.bindings]

end Assay
