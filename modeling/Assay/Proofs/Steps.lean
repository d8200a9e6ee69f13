import Assay.Proofs.Building
import Assay.Session

/-!
# What a step does to the registry

There are many steps, but only three things that they do to the registry.  Whoever asks something
has the journal of a run taken in, and so uses references one after another.  Whoever compiles a
schema may have a routine assembled, and whoever defines a name builds nodes and binds the name.
What holds of these three holds of every step, and so of every run.
-/

namespace Assay

/-- Whether a step defines a name. -/
def Step.isDefinition : Step → Bool
  | .define _ _ => true
  | _ => false

namespace Registry

variable {before after : Registry}

/-- What a step does to a registry before the events are handed over that it reports. -/
inductive Effect (before : Registry) : Step → Registry → Prop where
  | absorbs {step : Step} (journal : Journal) :
      step.isDefinition = false → Effect before step (before.absorb journal)
  | compiles {name routineName : String} {schema : Schema} :
      before.references.bindings.lookup name = some schema →
      Effect before (.compile name routineName) (before.compile schema).2
  | defines (name : String) (draft : Draft) :
      Effect before (.define name draft) (before.define name draft).2

/-- A step that changes nothing takes in nothing. -/
theorem Effect.refl {step : Step} (noDefinition : step.isDefinition = false) :
    before.Effect step before :=
  .absorbs [] noDefinition

/-- Asserting by a routine takes in what the routine notes, and what the schema notes if the routine
rejects. -/
theorem exists_absorb_assertCompiled (registry : Registry) (compiled : Compiled) (limits : Limits)
    (value : Option Json) :
    ∃ journal, (registry.assertCompiled compiled limits value).2 = registry.absorb journal := by
  have first : (registry.checkCompiled compiled limits value).2 = registry.absorb _ := rfl
  rw [assertCompiled]
  generalize registry.checkCompiled compiled limits value = result at first ⊢
  obtain ⟨accepted, middle⟩ := result
  subst first
  cases accepted with
  | true => exact ⟨_, rfl⟩
  | false => exact ⟨_ ++ _, (List.foldl_append ..).symm⟩

/-- What a step can do to a registry, apart from the events that it reports. -/
inductive Moves (before : Registry) : Step → Registry → Prop where
  | uses {step : Step} {after : Registry} :
      step.isDefinition = false → before.Uses after → Moves before step after
  | compiles {name routineName : String} {schema : Schema} (events : List Event) :
      before.references.bindings.lookup name = some schema →
      Moves before (.compile name routineName) { (before.compile schema).2 with events }
  | defines (name : String) (draft : Draft) (events : List Event) :
      Moves before (.define name draft) { (before.define name draft).2 with events }

/-- Whoever listens goes on listening. -/
theorem Moves.isSeen {step : Step} (moves : before.Moves step after) (level : Level) :
    after.isSeen level = before.isSeen level := by
  cases moves with
  | uses _ uses => exact uses.isSeen level
  | @compiles _ _ schema events _ =>
      obtain ⟨_, _, compiled⟩ | ⟨_, reported, further, compiled⟩ := before.compile_cases schema
      · rw [compiled]
        rfl
      · have uses : before.Uses reported := (before.uses_absorb _).trans further
        rw [compiled]
        exact uses.isSeen level
  | defines name draft events =>
      rw [before.define_eq name draft]
      rfl

end Registry

namespace Session

open Registry

variable {session : Session} {step : Step} {name : String}

theorem withSchema_effect {next : Schema → Answer × Session}
    (noDefinition : step.isDefinition = false)
    (each : ∀ schema, session.registry.references.bindings.lookup name = some schema →
      session.registry.Effect step (next schema).2.registry) :
    session.registry.Effect step (session.withSchema name next).2.registry := by
  rw [withSchema]
  cases bound : session.registry.references.bindings.lookup name with
  | some schema => exact each schema bound
  | none => exact .refl noDefinition

theorem withRoutine_effect {next : Compiled → Answer × Session}
    (noDefinition : step.isDefinition = false)
    (each : ∀ compiled, session.registry.Effect step (next compiled).2.registry) :
    session.registry.Effect step (session.withRoutine name next).2.registry := by
  rw [withRoutine]
  cases session.routines.lookup name with
  | some compiled => exact each compiled
  | none => exact .refl noDefinition

/-- A step takes in a journal, compiles a bound schema or defines a name. -/
theorem take_effect (session : Session) (step : Step) :
    session.registry.Effect step (session.take step).2.registry := by
  cases step with
  | define name draft =>
      have defines : session.registry.Effect (.define name draft)
          (session.registry.define name draft).2 := .defines name draft
      simp only [take]
      generalize session.registry.define name draft = result at defines ⊢
      obtain ⟨_ | _, after⟩ := result <;> exact defines
  | check name value limits | assert name value limits | construct name value shape limits
  | describe name | inspect name =>
      apply withSchema_effect rfl
      intro schema _
      exact .absorbs _ rfl
  | same left right =>
      apply withSchema_effect rfl
      intro schema _
      exact withSchema_effect rfl fun _ _ => .refl rfl
  | calls => exact .refl rfl
  | compile name routineName =>
      apply withSchema_effect rfl
      intro schema bound
      have compiles : session.registry.Effect (.compile name routineName)
          (session.registry.compile schema).2 := .compiles bound
      generalize session.registry.compile schema = result at compiles ⊢
      obtain ⟨_ | _, after⟩ := result <;> exact compiles
  | checkRoutine name value limits | inspectRoutine name =>
      apply withRoutine_effect rfl
      intro compiled
      exact .absorbs _ rfl
  | assertRoutine name value limits | constructRoutine name value shape =>
      apply withRoutine_effect rfl
      intro compiled
      simp only [answering, withRegistry]
      obtain ⟨journal, absorbs⟩ :=
        session.registry.exists_absorb_assertCompiled compiled _ (some value)
      rw [absorbs]
      exact .absorbs journal rfl
  | sameRoutine left right =>
      apply withRoutine_effect rfl
      intro compiled
      exact withRoutine_effect rfl fun _ => .refl rfl
  | compiledFrom name schemaName =>
      apply withRoutine_effect rfl
      intro compiled
      exact withSchema_effect rfl fun _ _ => .refl rfl
  | newContext limits | enter segment | back => exact .absorbs _ rfl
  | expect name value | test name value =>
      apply withSchema_effect rfl
      intro schema _
      exact .absorbs _ rfl

/-- A step uses references, compiles a bound schema or defines a name. -/
theorem reply_moves (session : Session) (step : Step) :
    session.registry.Moves step (session.reply step).2.registry := by
  have effect := session.take_effect step
  simp only [reply, withRegistry]
  generalize (session.take step).2.registry = after at effect ⊢
  cases effect with
  | absorbs journal noDefinition =>
      exact .uses noDefinition ((session.registry.uses_absorb journal).tail (.hear []))
  | compiles bound => exact .compiles [] bound
  | defines name draft => exact .defines name draft []

/-- The step that compiles a schema leaves what compiling it leaves, apart from the events. -/
theorem registry_reply_compile (session : Session) (name routineName : String) {schema : Schema}
    (bound : session.registry.references.bindings.lookup name = some schema) :
    (session.reply (.compile name routineName)).2.registry =
      { (session.registry.compile schema).2 with events := [] } := by
  simp only [reply, take, withSchema, bound]
  generalize session.registry.compile schema = outcome
  obtain ⟨_ | _, after⟩ := outcome <;> rfl

theorem run_cons (session : Session) (step : Step) (rest : List Step) :
    session.run (step :: rest) = ((session.reply step).1 :: ((session.reply step).2.run rest).1,
      ((session.reply step).2.run rest).2) := rfl

/-- A run is allowed step by step. -/
def Throughout (allowed : Session → Step → Prop) : Session → List Step → Prop
  | _, [] => True
  | session, step :: rest =>
      allowed session step ∧ Throughout allowed (session.reply step).2 rest

instance Throughout.decidable (allowed : Session → Step → Prop)
    [decidable : ∀ session step, Decidable (allowed session step)] :
    ∀ session steps, Decidable (Throughout allowed session steps)
  | _, [] => .isTrue trivial
  | session, step :: rest =>
      have := Throughout.decidable allowed (session.reply step).2 rest
      inferInstanceAs (Decidable (allowed session step ∧ _))

end Session

end Assay
