import Assay.Proofs.Building
import Assay.Proofs.Chain
import Assay.Proofs.Relowering
import Assay.Proofs.Session

/-!
# Answers and the history of a session

A registry keeps what references were found to lead to and what schemas were compiled to, errors
included, and it fills these records with almost everything that is asked of it.  Still an answer
does not depend on what was asked before, as long as the factories that were called give what they
gave.  Then the registry is *current*: it would find everything that it keeps again.  What was
recorded for a reference is what its chain leads to now, and what was kept for a node is what the
schema of the node is lowered to now.

For what is kept for nodes nothing has to be assumed.  It would be found again at any time in any
session, with the references as they were recorded, since lowering asks only for references that
have been settled then and are never settled anew.

So the same question gets the same answer in a new session in which only the names have been
defined.
-/

namespace Assay

namespace Registry

variable {registry before after : Registry} {nodes later : Nodes} {schema : Schema}

/-! ## Chains that have been called -/

/-- All factories on the chain of a settled reference have been called. -/
def Traced (registry : Registry) : Prop :=
  ∀ id, registry.isSettled id = true →
    ∀ other, registry.references.OnChain id other → other ∈ registry.calls

theorem invariant_traced :
    Invariant fun opening registry => ∀ id, registry.isSettled id = true ∨ id ∈ opening →
      ∀ other, registry.references.OnChain id other → other ∈ registry.calls where
  reports := fun _ _ _ _ traced => traced
  opens := by
    intro opening registry first fresh _ traced
    let walk := registry.references.walk first
    have follows := References.follows_walk registry.references first
    have keeps : ∀ other, other ∈ walk.called ∨ other ∈ registry.calls →
        other ∈ (registry.noteCalls walk.called).calls := by
      intro other member
      simpa [noteCalls] using member
    intro id isTraced other onChain
    apply keeps
    rcases isTraced with settled | isOpening
    · exact .inr (traced id (.inl settled) other onChain)
    · rcases List.mem_cons.mp isOpening with rfl | isFurther
      · -- The chain leaves what the walk calls only behind a reference that has been settled.
        have covered : other ∈ walk.called ∨ ∃ settled, registry.isSettled settled = true ∧
            registry.references.OnChain settled other := by
          induction onChain with
          | refl => exact .inl follows.mem_called
          | tail _ gives ih =>
              rcases ih with isCalled | ⟨settled, isSettled, further⟩
              · rcases follows.next_of_called isCalled gives with isCalled | passed | ⟨_, found⟩
                · exact .inl isCalled
                · cases passed
                · exact .inr ⟨_, isSettled_of_lookup found, .refl⟩
              · exact .inr ⟨settled, isSettled, further.tail gives⟩
        rcases covered with isCalled | ⟨settled, isSettled, further⟩
        · exact .inl isCalled
        · exact .inr (traced settled (.inl isSettled) other further)
      · exact .inr (traced id (.inr isFurther) other onChain)
  closes := by
    intro opening registry closed _ traced id isTraced
    apply traced
    rw [isSettled_record, Bool.or_eq_true, beq_iff_eq] at isTraced
    rw [List.mem_cons]
    tauto

theorem Traced.uses (traced : before.Traced) (uses : before.Uses after) : after.Traced := by
  have whole := invariant_traced.uses uses fun id isTraced => traced id (by simpa using isTraced)
  exact fun id settled => whole id (.inl settled)

/-! ## What is kept and what would be found again -/

/-- Code is kept for a node, and lowering the schema of the node gives the same again, using
references that have been settled. -/
structure Recalls (nodes : Nodes) (registry : Registry) (id : NodeId)
    (result : Except CompileError Routine) : Prop where
  given : id < registry.nextId
  again : (Schema.lower registry.references (nodes id)).result = result.map (·.code)
  settled : ∀ used ∈ (Schema.lower registry.references (nodes id)).used,
    registry.isSettled used = true

/-- Whatever is kept for a node would be found again, with the references as they were recorded, and
of a reference that leads nowhere it is recorded that it is cyclic. -/
structure Recollects (nodes : Nodes) (registry : Registry) : Prop where
  consistent : registry.Consistent nodes
  cyclic : ∀ id cause, registry.references.resolved.lookup id = some (.error cause) →
    cause = .cyclicReference
  recalls : ∀ id result, registry.routines.lookup id = some result →
    registry.Recalls nodes id result

theorem Recollects.initial (nodes : Nodes) (listening : Option Level) :
    ({ listening } : Registry).Recollects nodes :=
  ⟨.initial nodes listening, by simp, by simp⟩

theorem Settles.lower_eq (settles : before.Settles after) (schema : Schema) :
    schema.lower after.references = schema.lower before.references :=
  schema.lower_of_same settles.target settles.factories

theorem Recalls.settles {id : NodeId} {result : Except CompileError Routine}
    (recalls : before.Recalls nodes id result) (settles : before.Settles after) :
    after.Recalls nodes id result := by
  obtain ⟨given, again, settled⟩ := recalls
  refine ⟨?_, ?_, ?_⟩
  · rw [settles.nextId]
    exact given
  · rw [settles.lower_eq]
    exact again
  · rw [settles.lower_eq]
    exact fun used member => settles.isSettled (settled used member)

/-- A reference that leads nowhere is cyclic. -/
theorem Recollects.cause_of_target (recollects : registry.Recollects nodes) {id : NodeId}
    {cause : SchemaError} (fails : registry.target id = .error cause) : cause = .cyclicReference :=
  References.cause_of_target recollects.cyclic fails

theorem Recollects.uses (recollects : before.Recollects nodes) (uses : before.Uses after) :
    after.Recollects nodes where
  consistent := recollects.consistent.settles uses.settles
  cyclic := by
    intro id cause found
    have fails : after.target id = .error cause := target_of_recorded found
    rw [uses.settles.target] at fails
    exact recollects.cause_of_target fails
  recalls := by
    rw [uses.settles.routines]
    exact fun id result found => (recollects.recalls id result found).settles uses.settles

theorem map_code_assembling (registry : Registry) (result : Except CompileError Code) :
    (registry.assembling result).map (·.code) = result := by
  cases result <;> rfl

/-- A schema whose node has no routine yet is compiled to what it is lowered to. -/
theorem compile_code_of_fresh (fresh : registry.routines.lookup schema.id = none) :
    (registry.compile schema).1.map (·.routine.code) =
      (schema.lower registry.references).result := by
  obtain ⟨kept, found, _⟩ | ⟨_, _, _, compiled⟩ := registry.compile_cases schema
  · rw [fresh] at found
    cases found
  · rw [compiled]
    cases (schema.lower registry.references).result <;> rfl

/-- Every schema is compiled to what it is lowered to now, whether or not a result is kept for its
node. -/
theorem Recollects.compile_code (recollects : registry.Recollects nodes)
    (filed : schema.Filed nodes registry.nextId) :
    (registry.compile schema).1.map (·.routine.code) =
      (schema.lower registry.references).result := by
  obtain ⟨kept, found, compiled⟩ | ⟨fresh, _⟩ := registry.compile_cases schema
  · have again := (recollects.recalls schema.id kept found).again
    rw [filed.same] at again
    rw [again, compiled]
    cases kept <;> rfl
  · exact compile_code_of_fresh fresh

/-- What compiling keeps for a node would be found again. -/
theorem Recollects.compile (recollects : registry.Recollects nodes)
    (filed : schema.Filed nodes registry.nextId) :
    (registry.compile schema).2.Recollects nodes := by
  obtain ⟨_, _, compiled⟩ | ⟨_, reported, further, compiled⟩ := registry.compile_cases schema
  · rw [compiled]
    exact recollects
  · have uses : registry.Uses reported := (registry.uses_absorb _).trans further
    have stays := recollects.uses uses
    have recalled : reported.Recalls nodes schema.id
        (reported.assembling (schema.lower registry.references).result) := by
      refine ⟨uses.settles.nextId ▸ filed.below, ?_, ?_⟩
      · rw [filed.same, uses.settles.lower_eq schema]
        exact (map_code_assembling _ _).symm
      · rw [filed.same, uses.settles.lower_eq schema]
        intro used member
        exact further.settles.isSettled
          (isSettled_of_lookup (lookup_absorb (List.mem_map_of_mem member)))
    rw [compiled]
    refine ⟨stays.consistent.keeping _ _, stays.cyclic, ?_⟩
    intro id result kept
    rcases lookup_keeping kept with ⟨rfl, rfl⟩ | earlier
    · exact ⟨recalled.given, recalled.again, recalled.settled⟩
    · obtain ⟨given, again, settled⟩ := stays.recalls id result earlier
      exact ⟨given, again, settled⟩

/-- What is kept for a node would be found again after a name was defined, because lowering asks
only for references that have been settled. -/
theorem Recollects.define (recollects : registry.Recollects nodes) (name : String)
    (draft : Draft) :
    ∃ later, registry.Grows nodes later (registry.define name draft).2 ∧
      (registry.define name draft).2.Recollects later := by
  obtain ⟨later, grows, consistent⟩ := recollects.consistent.define name draft
  generalize (registry.define name draft).2 = after at grows consistent ⊢
  refine ⟨later, grows, consistent, ?_, ?_⟩
  · rw [grows.resolved]
    exact recollects.cyclic
  · intro id result found
    rw [grows.routines] at found
    obtain ⟨given, again, settled⟩ := recollects.recalls id result found
    have sameLowering : Schema.lower after.references (nodes id) =
        Schema.lower registry.references (nodes id) := by
      apply Schema.lower_of_used recollects.consistent consistent
      intro used member
      apply target_of_recorded
      rw [grows.resolved]
      exact lookup_of_isSettled (settled used member)
    refine ⟨Nat.lt_of_lt_of_le given grows.nextId, ?_, ?_⟩
    · rw [grows.nodes id given, sameLowering]
      exact again
    · rw [grows.nodes id given, sameLowering]
      intro used member
      rw [isSettled, grows.resolved]
      exact settled used member

/-! ## Current registries -/

/-- Whatever a registry keeps, it would find again now. -/
structure Current (nodes : Nodes) (registry : Registry) : Prop where
  consistent : registry.Consistent nodes
  faithful : registry.references.Faithful
  traced : registry.Traced
  recalls : ∀ id result, registry.routines.lookup id = some result →
    registry.Recalls nodes id result

theorem Current.initial (nodes : Nodes) (listening : Option Level) :
    ({ listening } : Registry).Current nodes :=
  ⟨.initial nodes listening, rfl, by simp [Traced, isSettled], by simp⟩

theorem Current.recollects (current : registry.Current nodes) : registry.Recollects nodes where
  consistent := current.consistent
  cyclic := by
    intro id cause found
    have fails : registry.references.target id = .error cause := target_of_recorded found
    rw [current.faithful] at fails
    exact (References.target_forget_eq_error_iff.mp fails).1
  recalls := current.recalls

theorem Current.uses (current : before.Current nodes) (uses : before.Uses after) :
    after.Current nodes where
  consistent := current.consistent.settles uses.settles
  faithful := uses.settles.faithful current.faithful
  traced := current.traced.uses uses
  recalls := (current.recollects.uses uses).recalls

/-- Compiling a schema keeps a registry current. -/
theorem Current.compile (current : registry.Current nodes)
    (filed : schema.Filed nodes registry.nextId) :
    (registry.compile schema).2.Current nodes := by
  have recollects := current.recollects.compile filed
  obtain ⟨_, _, compiled⟩ | ⟨_, reported, further, compiled⟩ := registry.compile_cases schema
  · rw [compiled]
    exact current
  · have stays := current.uses ((registry.uses_absorb _).trans further)
    rw [compiled] at recollects ⊢
    exact ⟨recollects.consistent, stays.faithful, stays.traced, recollects.recalls⟩

theorem Settles.sameGround (settles : before.Settles after) : after.SameGround before :=
  ⟨settles.bindings, settles.factories, settles.nextId⟩

theorem compile_sameGround (registry : Registry) (schema : Schema) :
    (registry.compile schema).2.SameGround registry := by
  obtain ⟨_, _, compiled⟩ | ⟨_, reported, further, compiled⟩ := registry.compile_cases schema
  · rw [compiled]
    exact ⟨rfl, rfl, rfl⟩
  · have settles := (registry.absorb_settles _).trans further.settles
    rw [compiled]
    exact ⟨settles.bindings, settles.factories, settles.nextId⟩

/-- Nothing has been recorded and nothing has been compiled. -/
def Unused (registry : Registry) : Prop :=
  registry.references.resolved = [] ∧ registry.routines = []

/-- Defining a name keeps a registry current, if the factories that were called give what they
gave. -/
theorem Current.define (current : registry.Current nodes) (name : String) (draft : Draft)
    (same : ∀ id ∈ registry.calls, (registry.define name draft).2.references.produce? id =
      registry.references.produce? id) :
    ∃ later, (registry.define name draft).2.Current later := by
  obtain ⟨later, grows, recollects⟩ := current.recollects.define name draft
  have calls : (registry.define name draft).2.calls = registry.calls := by
    rw [registry.define_eq name draft]
    rfl
  generalize (registry.define name draft).2 = after at same grows recollects calls ⊢
  have sameSettled : ∀ id, after.isSettled id = registry.isSettled id := by
    intro id
    rw [isSettled, isSettled, grows.resolved]
  have sameOnChain : ∀ id, registry.isSettled id = true → ∀ other,
      registry.references.OnChain id other →
      after.references.produce? other = registry.references.produce? other :=
    fun id settled other onChain => same other (current.traced id settled other onChain)
  refine ⟨later, recollects.consistent, ?_, ?_, recollects.recalls⟩
  · apply References.faithful_of_recorded
    intro id result found
    rw [grows.resolved] at found
    rw [References.target_forget_of_same (sameOnChain id (isSettled_of_lookup found)),
      ← current.faithful]
    exact target_of_recorded found
  · intro id settled other onChain
    rw [sameSettled] at settled
    rw [calls]
    have before : registry.references.OnChain id other := by
      induction onChain with
      | refl => exact .refl
      | tail _ gives ih => exact ih.tail ((sameOnChain id settled _ ih).symm.trans gives)
    exact current.traced id settled other before

end Registry

/-- The name and the draft of a definition. -/
def Step.definition? : Step → Option (String × Draft)
  | .define name draft => some (name, draft)
  | _ => none

/-- Whether a step asks something of bound schemas alone. -/
def Step.asksSchema : Step → Bool
  | .check _ _ _ | .assert _ _ _ | .construct _ _ _ _ | .describe _ | .inspect _ | .same _ _ |
    .compile _ _ => true
  | _ => false

namespace Session

open Registry

theorem recollects_of_reply {session : Session} {nodes : Nodes}
    (recollects : session.registry.Recollects nodes) (step : Step) :
    ∃ later, (session.reply step).2.registry.Recollects later := by
  have moves := session.reply_moves step
  generalize (session.reply step).2.registry = after at moves ⊢
  cases moves with
  | uses _ uses => exact ⟨nodes, recollects.uses uses⟩
  | compiles events bound =>
      have filed := recollects.consistent.bindings _ _ bound
      exact ⟨nodes, (recollects.compile filed).uses (.single (.hear events))⟩
  | defines name draft events =>
      obtain ⟨later, _, stays⟩ := recollects.define name draft
      exact ⟨later, stays.uses (.single (.hear events))⟩

/-- In every session, whatever is kept for a node would be found again. -/
theorem recollects_of_run (listening : Option Level) (steps : List Step) :
    ∃ nodes, ((start listening).run steps).2.registry.Recollects nodes := by
  have whole : ∀ (session : Session) (nodes : Nodes), session.registry.Recollects nodes →
      ∃ later, (session.run steps).2.registry.Recollects later := by
    induction steps with
    | nil => exact fun session nodes recollects => ⟨nodes, recollects⟩
    | cons step rest ih =>
        intro session nodes recollects
        obtain ⟨later, stays⟩ := recollects_of_reply recollects step
        exact ih (session.reply step).2 later stays
  exact whole (start listening) (fun _ => .literal 0 .null) (.initial _ listening)

/-- A step leaves it alone what the factories give that have been called. -/
def KeepsCalled (session : Session) (step : Step) : Prop :=
  ∀ id ∈ session.registry.calls,
    (session.reply step).2.registry.references.produce? id =
      session.registry.references.produce? id

theorem current_of_reply {session : Session} {nodes : Nodes} {step : Step}
    (current : session.registry.Current nodes) (keeps : session.KeepsCalled step) :
    ∃ later, (session.reply step).2.registry.Current later := by
  have moves := session.reply_moves step
  rw [KeepsCalled] at keeps
  generalize (session.reply step).2.registry = after at moves keeps ⊢
  cases moves with
  | uses _ uses => exact ⟨nodes, current.uses uses⟩
  | compiles events bound =>
      have filed := current.consistent.bindings _ _ bound
      exact ⟨nodes, (current.compile filed).uses (.single (.hear events))⟩
  | defines name draft events =>
      obtain ⟨later, stays⟩ := current.define name draft keeps
      exact ⟨later, stays.uses (.single (.hear events))⟩

/-- If no step changes what the factories give that have been called, then the registry stays
current. -/
theorem current_of_run {session : Session} {nodes : Nodes} {steps : List Step}
    (current : session.registry.Current nodes) (keeps : Throughout KeepsCalled session steps) :
    ∃ later, (session.run steps).2.registry.Current later := by
  induction steps generalizing session nodes with
  | nil => exact ⟨nodes, current⟩
  | cons step rest ih =>
      obtain ⟨now, further⟩ := keeps
      obtain ⟨later, stays⟩ := current_of_reply current now
      rw [run_cons]
      exact ih stays further

/-! ## Names that are bound once and before they are read -/

theorem sameGround_of_reply (session : Session) {step : Step}
    (noDefinition : step.isDefinition = false) :
    (session.reply step).2.registry.SameGround session.registry := by
  have moves := session.reply_moves step
  generalize (session.reply step).2.registry = after at moves ⊢
  cases moves with
  | uses _ uses => exact uses.settles.sameGround
  | @compiles _ _ schema events _ =>
      have same := session.registry.compile_sameGround schema
      exact ⟨same.bindings, same.factories, same.nextId⟩
  | defines => cases noDefinition

theorem registry_of_define (session : Session) (name : String) (draft : Draft) :
    ∃ events, (session.reply (.define name draft)).2.registry =
      { (session.registry.define name draft).2 with events } := by
  have moves := session.reply_moves (.define name draft)
  generalize (session.reply (.define name draft)).2.registry = after at moves ⊢
  cases moves with
  | uses noDefinition => cases noDefinition
  | defines _ _ events => exact ⟨events, rfl⟩

/-- No bound name is bound again, and what has been called has something to give. -/
def BindsOnce (session : Session) (step : Step) : Prop :=
  (∀ definition ∈ step.definition?,
    (session.registry.define definition.1 definition.2).1.toOption = some () →
    session.registry.references.bindings.lookup definition.1 = none) ∧
  ∀ id ∈ session.registry.calls, session.registry.references.gives id = true

instance (session : Session) (step : Step) : Decidable (session.BindsOnce step) :=
  inferInstanceAs (Decidable (_ ∧ _))

/-- If every name is bound once only, and before it is read, then no step changes what the factories
give that have been called. -/
theorem keepsCalled_of_bindsOnce {session : Session} (allots : session.registry.Allots)
    {steps : List Step} (once : Throughout BindsOnce session steps) :
    Throughout KeepsCalled session steps := by
  induction steps generalizing session with
  | nil => trivial
  | cons step rest ih =>
      obtain ⟨⟨unbound, gives⟩, further⟩ := once
      cases isDefinition : step.isDefinition with
      | false =>
          have same := sameGround_of_reply session isDefinition
          refine ⟨fun id _ => ?_, ih (fun id new => ?_) further⟩
          · rw [References.produce?, References.produce?, same.factories, same.bindings]
          · rw [same.factories]
            exact allots id (same.nextId ▸ new)
      | true =>
          cases step with
          | define name draft =>
              obtain ⟨events, after⟩ := registry_of_define session name draft
              refine ⟨fun id isCalled => ?_, ih ?_ further⟩
              · rw [after]
                refine produce?_define allots (fun defined => ?_) (gives id isCalled)
                exact unbound (name, draft) rfl (by rw [defined]; rfl)
              · rw [after]
                exact allots.define name draft
          | _ => cases isDefinition

/-! ## The session of the definitions -/

/-- The definitions of a run alone lead to the same ground, with nothing recorded and nothing
compiled. -/
theorem definitions_of_run {session bare : Session}
    (same : session.registry.SameGround bare.registry) (unused : bare.registry.Unused)
    (steps : List Step) :
    (session.run steps).2.registry.SameGround
        (bare.run (steps.filter Step.isDefinition)).2.registry ∧
      (bare.run (steps.filter Step.isDefinition)).2.registry.Unused := by
  induction steps generalizing session bare with
  | nil => exact ⟨same, unused⟩
  | cons step rest ih =>
      rw [run_cons]
      cases isDefinition : step.isDefinition with
      | false =>
          rw [List.filter_cons_of_neg (by simp [isDefinition])]
          exact ih ((sameGround_of_reply session isDefinition).trans same) unused
      | true =>
          rw [List.filter_cons_of_pos isDefinition, run_cons]
          cases step with
          | define name draft =>
              obtain ⟨events, after⟩ := registry_of_define session name draft
              obtain ⟨others, bareAfter⟩ := registry_of_define bare name draft
              have ground := (same.define name draft).2
              apply ih
              · rw [after, bareAfter]
                exact ⟨ground.bindings, ground.factories, ground.nextId⟩
              · rw [bareAfter, bare.registry.define_eq name draft]
                exact unused
          | _ => cases isDefinition

/-! ## The same question in both sessions -/

section Questions

variable {left right : Session}

theorem withSchema_answer {name : String} {next other : Schema → Answer × Session}
    (sameBindings : left.registry.references.bindings = right.registry.references.bindings)
    (same : ∀ schema, left.registry.references.bindings.lookup name = some schema →
      (next schema).1 = (other schema).1) :
    (left.withSchema name next).1 = (right.withSchema name other).1 := by
  rw [withSchema, withSchema, ← sameBindings]
  cases bound : left.registry.references.bindings.lookup name with
  | some schema => exact same schema bound
  | none => rfl

/-- The answer to a question depends on the bindings, on what references lead to and on what bound
schemas are compiled to. -/
theorem reply_answer_congr
    (sameBindings : left.registry.references.bindings = right.registry.references.bindings)
    (sameTarget : left.registry.target = right.registry.target)
    (sameCode : ∀ name schema, left.registry.references.bindings.lookup name = some schema →
      (left.registry.compile schema).1.map (·.routine.code) =
        (right.registry.compile schema).1.map (·.routine.code))
    {step : Step} (asks : step.asksSchema = true) :
    (left.reply step).1.answer = (right.reply step).1.answer := by
  cases step with
  | check | assert | construct | describe | inspect =>
      apply withSchema_answer sameBindings
      intro schema _
      simp only [answering, Registry.check, Registry.assert, Registry.describe, carryOut,
        sameTarget]
  | same =>
      apply withSchema_answer sameBindings
      intro schema _
      exact withSchema_answer sameBindings fun _ _ => rfl
  | compile name routineName =>
      apply withSchema_answer sameBindings
      intro schema bound
      have same := sameCode name schema bound
      generalize left.registry.compile schema = outcome at same ⊢
      generalize right.registry.compile schema = other at same ⊢
      obtain ⟨result, _⟩ := outcome
      obtain ⟨other, _⟩ := other
      cases result with
      | error cause =>
          cases other with
          | error other => rw [Except.error.inj same]
          | ok other => cases same
      | ok compiled =>
          cases other with
          | error other => cases same
          | ok other =>
              have sameCode : compiled.routine.code = other.routine.code := Except.ok.inj same
              simp only [Compiled.source, sameCode]
  | _ => cases asks

end Questions

/-- An answer does not depend on the history.  In a session in which no step changes what the
factories give that have been called, a question gets the answer that it gets in a new session, in
which the names have been defined in the same order and nothing else has been done: whatever was
tested, asserted, described or compiled before, successfully or not, and whoever listens. -/
theorem answers_ignore_history (listening other : Option Level) (before : List Step)
    (keeps : Throughout KeepsCalled (start listening) before) {step : Step}
    (asks : step.asksSchema = true) :
    (((start listening).run before).2.reply step).1.answer =
      (((start other).run (before.filter Step.isDefinition)).2.reply step).1.answer := by
  obtain ⟨nodes, current⟩ := current_of_run (.initial (fun _ => .literal 0 .null) listening) keeps
  have sameStart : (start listening).registry.SameGround (start other).registry := ⟨rfl, rfl, rfl⟩
  obtain ⟨ground, unused⟩ := definitions_of_run sameStart ⟨rfl, rfl⟩ before
  generalize ((start listening).run before).2 = session at current ground ⊢
  generalize ((start other).run (before.filter Step.isDefinition)).2 = bare at ground unused ⊢
  have sameReferences : bare.registry.references = session.registry.references.forget := by
    rw [References.forget, ground.bindings, ground.factories, ← unused.1]
  have sameTarget : session.registry.target = bare.registry.target := by
    rw [Registry.target, Registry.target, sameReferences]
    exact current.faithful
  apply reply_answer_congr ground.bindings sameTarget _ asks
  intro name schema bound
  have sameLowering : schema.lower session.registry.references =
      schema.lower bare.registry.references := schema.lower_of_same sameTarget ground.factories
  rw [current.recollects.compile_code (current.consistent.bindings name schema bound), sameLowering,
    compile_code_of_fresh (by rw [unused.2]; rfl)]

/-- Nested lists are asked for, another name is defined and the lists are compiled before the
question is put. -/
theorem answers_ignore_history_of_lists :
    let value : Option Json := some (.array [.array [], .ofInt 5])
    let list : Step := .define "list" (.array (.named "list"))
    let text : Step := .define "text" (.word "string")
    let question : Step := .compile "list" "again"
    let source := "(is_array(value) && value.iter().all(|v0| interpret(array<array<...>>, v0)))"
    (((start none).run [list, .assert "list" value none, text, .compile "list" "routine"]).2.reply
        question).1.answer = .compiled source ∧
      (((start (some .warn)).run [list, text]).2.reply question).1.answer = .compiled source := by
  intro value list text question source
  have once : Throughout BindsOnce (start none)
      [list, .assert "list" value none, text, .compile "list" "routine"] := by
    decide +kernel
  have keeps := keepsCalled_of_bindsOnce (fun _ _ => rfl) once
  have asks : question.asksSchema = true := rfl
  have same := answers_ignore_history none (some .warn) _ keeps asks
  have answer : (((start (some .warn)).run [list, text]).2.reply question).1.answer =
      .compiled source := by
    decide +kernel
  exact ⟨same.trans answer, answer⟩

end Session

end Assay
