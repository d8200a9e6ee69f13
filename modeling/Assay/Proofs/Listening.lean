import Assay.Proofs.Building
import Assay.Proofs.Chain
import Assay.Proofs.Session

/-!
# Answers and the log

Whoever listens closely sees schemas described, and a description settles the references that it
mentions.  So listening can settle references earlier than anything else would, and after another
definition of a name the answers differ.  There are two places where this can happen.

The report on a reference describes the schema that it was found to lead to.  Nothing is settled
there if whatever the description mentions was settled before: the records are then in *order*.

The report on a compilation describes the schema that was compiled.  If a routine was assembled,
nothing is left to settle, since lowering has used every reference that can be reached from the
schema.  But lowering ends at the first part that has no code, and a description does not.
-/

namespace Assay

namespace Registry

variable {registry left right before after : Registry} {schema : Schema}

/-! ## Records in order -/

/-- Whether every reference was settled after all references that the description of what it leads
to mentions.  The records are given latest first. -/
def inOrder (resolve : Resolver) : List (NodeId × Except SchemaError Schema) → Bool
  | [] => true
  | (_, .error _) :: earlier => inOrder resolve earlier
  | (_, .ok schema) :: earlier =>
      ((schema.mentions resolve).all fun mention => (earlier.lookup mention).isSome) &&
        inOrder resolve earlier

/-- Whether the records of a registry are in order. -/
def isOrderly (registry : Registry) : Bool :=
  inOrder registry.target registry.references.resolved

theorem inOrder_of_append {resolve : Resolver}
    {later earlier : List (NodeId × Except SchemaError Schema)}
    (ordered : inOrder resolve (later ++ earlier) = true) : inOrder resolve earlier = true := by
  induction later with
  | nil => exact ordered
  | cons record rest ih =>
      obtain ⟨id, cause | schema⟩ := record
      · exact ih ordered
      · rw [List.cons_append, inOrder, Bool.and_eq_true] at ordered
        exact ih ordered.2

theorem Uses.exists_append (uses : before.Uses after) :
    ∃ later, after.references.resolved = later ++ before.references.resolved := by
  have grows : Invariant fun _ registry =>
      ∃ later, registry.references.resolved = later ++ before.references.resolved := by
    refine ⟨fun _ _ _ _ grown => grown, fun _ _ _ _ _ grown => grown, ?_⟩
    rintro _ registry id _ ⟨later, grown⟩
    exact ⟨(id, registry.target id) :: later, congrArg _ grown⟩
  exact grows.uses uses ⟨[], rfl⟩

/-- Records that are in order now were in order before. -/
theorem Uses.isOrderly (uses : before.Uses after) (ordered : after.isOrderly = true) :
    before.isOrderly = true := by
  obtain ⟨later, grown⟩ := uses.exists_append
  rw [Registry.isOrderly, uses.settles.target, grown] at ordered
  exact inOrder_of_append ordered

/-- In a registry where nobody sees descriptions, whatever the description of the target mentions
had been settled when a reference was settled, if the records are in order then. -/
theorem known_of_isOrderly {id : NodeId} (unseen : registry.isSeen .debug = false)
    (fresh : registry.references.resolved.lookup id = none)
    (ordered : (registry.settle id).isOrderly = true)
    (leads : registry.target id = .ok schema) {mention : NodeId}
    (mentioned : mention ∈ schema.mentions registry.target) :
    registry.isSettled mention = true := by
  obtain ⟨events, settled⟩ := settle_of_unseen unseen fresh
  have sameTarget := (registry.settle_settles id).target
  rw [isOrderly, sameTarget, settled, leads] at ordered
  simp only [record, References.record, inOrder, Bool.and_eq_true, List.all_eq_true] at ordered
  exact ordered.1 mention mentioned

/-! ## Registries that differ in what was reported -/

/-- Two registries are the same apart from what was reported and to whom. -/
structure Alike (left right : Registry) : Prop where
  references : left.references = right.references
  nextId : left.nextId = right.nextId
  calls : left.calls = right.calls
  routines : left.routines = right.routines
  assembled : left.assembled = right.assembled

theorem Alike.target (alike : left.Alike right) : left.target = right.target := by
  rw [Registry.target, Registry.target, alike.references]

theorem Alike.isSettled (alike : left.Alike right) (id : NodeId) :
    left.isSettled id = right.isSettled id := by
  rw [Registry.isSettled, Registry.isSettled, alike.references]

theorem Alike.report (alike : left.Alike right) (event other : Event) :
    (left.report event).Alike (right.report other) := by
  obtain ⟨events, equal⟩ := left.report_eq event
  obtain ⟨others, alsoEqual⟩ := right.report_eq other
  rw [equal, alsoEqual]
  exact ⟨alike.references, alike.nextId, alike.calls, alike.routines, alike.assembled⟩

/-- Settling a reference does the same to a registry where descriptions are seen, if it leaves the
records in order. -/
theorem Alike.settle (alike : left.Alike right) (unseen : right.isSeen .debug = false) (id : NodeId)
    (ordered : (right.settle id).isOrderly = true) : (left.settle id).Alike (right.settle id) := by
  cases found : right.references.resolved.lookup id with
  | some result =>
      have settled := isSettled_of_lookup found
      rw [settle_of_settled settled, settle_of_settled ((alike.isSettled id).trans settled)]
      exact alike
  | none =>
      have fresh : left.references.resolved.lookup id = none := by rw [alike.references, found]
      obtain ⟨events, settled⟩ := settle_of_unseen unseen found
      obtain ⟨others, alsoSettled⟩ : ∃ events, left.settle id =
          ({ left.noteCalls (left.references.walk id).called with events }).record id
            (left.target id) := by
        apply settle_of_known fresh
        intro mention isAsked
        obtain ⟨_, schema, leads, mentioned⟩ := mem_asked_iff.mp isAsked
        rw [alike.target] at leads mentioned
        rw [alike.isSettled]
        exact known_of_isOrderly unseen found ordered leads mentioned
      rw [settled, alsoSettled, alike.target, alike.references]
      refine ⟨?_, alike.nextId, ?_, alike.routines, alike.assembled⟩
      · simp only [record, noteCalls, alike.references]
      · simp only [record, noteCalls, alike.calls]

/-- Taking in a journal does the same to a registry where descriptions are seen, if it leaves the
records in order. -/
theorem Alike.absorb (alike : left.Alike right) (unseen : right.isSeen .debug = false)
    (journal : Journal) (ordered : (right.absorb journal).isOrderly = true) :
    (left.absorb journal).Alike (right.absorb journal) := by
  induction journal generalizing left right with
  | nil => exact alike
  | cons notice rest ih =>
      cases notice with
      | used id =>
          have first : (right.settle id).isOrderly = true :=
            ((right.settle id).uses_absorb rest).isOrderly ordered
          have uses : right.Uses (right.settle id) := .single (.settle id)
          exact ih (alike.settle unseen id first) ((uses.isSeen _).trans unseen) ordered
      | depthExceeded limit path =>
          have uses : right.Uses (right.report (.depthExceeded limit path)) := uses_report _ _
          exact ih (alike.report _ _) ((uses.isSeen _).trans unseen) ordered

/-- Defining a name does the same to registries that differ in what was reported. -/
theorem Alike.define (alike : left.Alike right) (name : String) (draft : Draft) :
    (left.define name draft).1 = (right.define name draft).1 ∧
      (left.define name draft).2.Alike (right.define name draft).2 := by
  have ground : left.SameGround right :=
    ⟨by rw [alike.references], by rw [alike.references], alike.nextId⟩
  obtain ⟨sameResult, sameGround⟩ := ground.define name draft
  refine ⟨sameResult, ?_⟩
  rw [left.define_eq name draft, right.define_eq name draft]
  refine ⟨?_, sameGround.nextId, alike.calls, alike.routines, alike.assembled⟩
  simp only [grounded, sameGround.bindings, sameGround.factories, alike.references]

/-- All references that the description of a schema mentions have been settled. -/
def Describes (registry : Registry) (schema : Schema) : Prop :=
  ∀ mention ∈ schema.mentions registry.target, registry.isSettled mention = true

instance (registry : Registry) (schema : Schema) : Decidable (registry.Describes schema) :=
  inferInstanceAs (Decidable (∀ _ ∈ _, _))

/-- Reporting an event that mentions only settled references changes nothing but what was
reported. -/
theorem reportDescribed_of_described (describes : registry.isSeen .debug = true →
    registry.Describes schema) (event : String → Event) :
    ∃ events, registry.reportDescribed none schema event = { registry with events } := by
  rw [reportDescribed]
  split
  · next seen =>
    have prepared : registry.prepare none schema = registry :=
      foldl_settleUnheard_of_settled none (describes seen)
    rw [prepared]
    exact registry.report_eq _
  · exact ⟨registry.events, rfl⟩

/-- After a schema has been lowered to code, its description mentions settled references only. -/
theorem describes_of_lower {nodes : Nodes} (consistent : registry.Consistent nodes)
    (filed : schema.Filed nodes registry.nextId) {code : Code}
    (lowered : (schema.lower registry.references).result = .ok code) :
    (registry.absorb (.ofMentions (schema.lower registry.references).used)).Describes schema := by
  have backs := backs_of_lower consistent filed lowered (.refl _)
  intro mention mentioned
  obtain ⟨result, found⟩ := backs.settled mention (Schema.reaches_of_mentionsWithin mentioned)
  exact isSettled_of_lookup found

theorem Alike.describes (alike : left.Alike right) (describes : right.Describes schema) :
    left.Describes schema := by
  intro mention mentioned
  rw [alike.target] at mentioned
  rw [alike.isSettled]
  exact describes mention mentioned

/-- The report on an assembly settles nothing if the description of the schema mentions settled
references only, or if nobody sees it. -/
theorem assemble_of_described (registry : Registry) (schema : Schema) :
    let lowering := schema.lower registry.references
    let lowered := registry.absorb (.ofMentions lowering.used)
    (lowered.isSeen .debug = true → lowered.Describes schema) →
    ∃ events, registry.assemble schema =
      (lowered.assembling lowering.result,
        ({ lowered with events }).keeping schema.id lowering.result) := by
  intro lowering lowered described
  obtain ⟨events, reported⟩ :=
    reportDescribed_of_described described (assemblyEvent lowering.result)
  refine ⟨events, ?_⟩
  rw [assemble, reported]
  rfl

theorem Alike.assembling (alike : left.Alike right) (result : Except CompileError Code) :
    left.assembling result = right.assembling result := by
  rw [Registry.assembling, Registry.assembling, alike.assembled]

theorem Alike.keeping (alike : left.Alike right) (events others : List Event) (id : NodeId)
    (result : Except CompileError Code) :
    (({ left with events := events }).keeping id result).Alike
      (({ right with events := others }).keeping id result) := by
  refine ⟨alike.references, alike.nextId, alike.calls, ?_, congrArg (· + 1) alike.assembled⟩
  change (id, left.assembling result) :: left.routines =
    (id, right.assembling result) :: right.routines
  rw [alike.assembling, alike.routines]

/-- Assembling a routine does the same to a registry where descriptions are seen, if it leaves the
records in order and the description of a schema without code mentions settled references only. -/
theorem Alike.assemble (alike : left.Alike right) (unseen : right.isSeen .debug = false)
    {nodes : Nodes} (consistent : right.Consistent nodes)
    (filed : schema.Filed nodes right.nextId)
    (ordered : (right.assemble schema).2.isOrderly = true)
    (described : ∀ cause, (right.assemble schema).1 = .error cause →
      (right.assemble schema).2.Describes schema) :
    (left.assemble schema).1 = (right.assemble schema).1 ∧
      (left.assemble schema).2.Alike (right.assemble schema).2 := by
  have uses := right.uses_absorb (.ofMentions (schema.lower right.references).used)
  obtain ⟨events, assembled⟩ := right.assemble_of_described schema fun seen => by
    rw [uses.isSeen, unseen] at seen
    cases seen
  rw [assembled] at ordered described ⊢
  have loweredAlike :=
    alike.absorb unseen (.ofMentions (schema.lower right.references).used) ordered
  have describes : (right.absorb (.ofMentions (schema.lower right.references).used)).Describes
      schema := by
    cases result : (schema.lower right.references).result with
    | ok code => exact describes_of_lower consistent filed result
    | error cause => exact described cause (by rw [result]; rfl)
  obtain ⟨others, alsoAssembled⟩ := left.assemble_of_described schema fun _ => by
    rw [alike.references]
    exact loweredAlike.describes describes
  rw [alsoAssembled, alike.references]
  exact ⟨loweredAlike.assembling _, loweredAlike.keeping others events _ _⟩

/-- Compiling a schema does the same to a registry where descriptions are seen, if it leaves the
records in order and, when a schema turns out to have no code, its description mentions settled
references only. -/
theorem Alike.compile (alike : left.Alike right) (unseen : right.isSeen .debug = false)
    {nodes : Nodes} (consistent : right.Consistent nodes)
    (filed : schema.Filed nodes right.nextId)
    (ordered : (right.compile schema).2.isOrderly = true)
    (described : right.routines.lookup schema.id = none →
      ∀ cause, (right.compile schema).1 = .error cause →
        (right.compile schema).2.Describes schema) :
    (left.compile schema).1 = (right.compile schema).1 ∧
      (left.compile schema).2.Alike (right.compile schema).2 := by
  rw [Registry.compile, alike.routines]
  rw [Registry.compile] at ordered described ⊢
  cases found : right.routines.lookup schema.id with
  | some result => exact ⟨rfl, alike⟩
  | none =>
      simp only [found] at ordered described ⊢
      have same := alike.assemble unseen consistent filed ordered fun cause failed =>
        described trivial cause (by rw [failed]; rfl)
      exact ⟨by rw [same.1], same.2⟩

/-- Asserting by a routine does the same to a registry where descriptions are seen, if it leaves the
records in order. -/
theorem Alike.assertCompiled (alike : left.Alike right) (unseen : right.isSeen .debug = false)
    (compiled : Compiled) (limits : Limits) (value : Option Json)
    (ordered : (right.assertCompiled compiled limits value).2.isOrderly = true) :
    (left.assertCompiled compiled limits value).1 = (right.assertCompiled compiled limits value).1 ∧
      (left.assertCompiled compiled limits value).2.Alike
        (right.assertCompiled compiled limits value).2 := by
  simp only [Registry.assertCompiled, Registry.checkCompiled, carryOut, alike.target] at ordered ⊢
  generalize compiled.routine.code.check right.target limits value = run at ordered ⊢
  have uses := right.uses_absorb run.journal
  cases answer : run.answer with
  | true =>
      simp only [answer] at ordered ⊢
      exact ⟨trivial, alike.absorb unseen run.journal ordered⟩
  | false =>
      simp only [answer] at ordered ⊢
      have middle := alike.absorb unseen run.journal ((uses_absorb _ _).isOrderly ordered)
      simp only [Registry.assert, carryOut, middle.target] at ordered ⊢
      exact ⟨trivial, middle.absorb ((uses.isSeen _).trans unseen) _ ordered⟩

end Registry

/-- The name of the schema that a step compiles. -/
def Step.compiledName? : Step → Option String
  | .compile name _ => some name
  | _ => none

namespace Session

open Registry

/-- Two sessions are the same apart from what was reported and to whom. -/
structure Alike (left right : Session) : Prop where
  registry : left.registry.Alike right.registry
  routines : left.routines = right.routines
  context : left.context = right.context

/-- Two outcomes of a step are the same apart from what was reported. -/
structure SameOutcome (left right : Answer × Session) : Prop where
  answer : left.1 = right.1
  session : left.2.Alike right.2

section Steps

variable {left right : Session} {name : String}

theorem Alike.withSchema (alike : left.Alike right) {next other : Schema → Answer × Session}
    (ordered : (right.withSchema name other).2.registry.isOrderly = true)
    (each : ∀ schema, right.registry.references.bindings.lookup name = some schema →
      (other schema).2.registry.isOrderly = true → SameOutcome (next schema) (other schema)) :
    SameOutcome (left.withSchema name next) (right.withSchema name other) := by
  rw [Session.withSchema, alike.registry.references]
  rw [Session.withSchema] at ordered ⊢
  cases bound : right.registry.references.bindings.lookup name with
  | some schema =>
      rw [bound] at ordered
      exact each schema bound ordered
  | none => exact ⟨rfl, alike⟩

theorem Alike.withRoutine (alike : left.Alike right) {next other : Compiled → Answer × Session}
    (ordered : (right.withRoutine name other).2.registry.isOrderly = true)
    (each : ∀ compiled, (other compiled).2.registry.isOrderly = true →
      SameOutcome (next compiled) (other compiled)) :
    SameOutcome (left.withRoutine name next) (right.withRoutine name other) := by
  rw [Session.withRoutine, alike.routines]
  rw [Session.withRoutine] at ordered ⊢
  cases bound : right.routines.lookup name with
  | some compiled =>
      rw [bound] at ordered
      exact each compiled ordered
  | none => exact ⟨rfl, alike⟩

theorem Alike.answering (alike : left.Alike right) {α : Type} {outcome other : α × Registry}
    (sameResult : outcome.1 = other.1) (sameRegistry : outcome.2.Alike other.2)
    (answer : α → Answer) :
    SameOutcome (left.answering answer outcome) (right.answering answer other) :=
  ⟨congrArg answer sameResult, sameRegistry, alike.routines, alike.context⟩

theorem Alike.carryOut (alike : left.Alike right) (unseen : right.registry.isSeen .debug = false)
    {α : Type} {answer : α → Answer} {run other : Recorded α} (same : run = other)
    (ordered : (right.registry.carryOut other).2.isOrderly = true) :
    SameOutcome (left.answering answer (left.registry.carryOut run))
      (right.answering answer (right.registry.carryOut other)) := by
  subst same
  have sameRegistry : (left.registry.carryOut run).2.Alike (right.registry.carryOut run).2 :=
    alike.registry.absorb unseen run.journal ordered
  exact ⟨rfl, sameRegistry, alike.routines, alike.context⟩

theorem Alike.withContext (alike : left.Alike right) (unseen : right.registry.isSeen .debug = false)
    {context other : Context} (same : context = other) (verdict : Option Bool)
    (ordered : (right.withContext other verdict).2.registry.isOrderly = true) :
    SameOutcome (left.withContext context verdict) (right.withContext other verdict) := by
  subst same
  exact ⟨rfl, alike.registry.absorb unseen _ ordered, alike.routines, rfl⟩

/-- If a step finds that a schema has no code, then its description mentions settled references
only. -/
def DescribesFailures (session : Session) (step : Step) : Prop :=
  ∀ name ∈ step.compiledName?, ∀ schema ∈ session.registry.references.bindings.lookup name,
    session.registry.routines.lookup schema.id = none →
    (session.registry.compile schema).1.toOption = none →
    (session.registry.compile schema).2.Describes schema

instance (session : Session) (step : Step) : Decidable (session.DescribesFailures step) :=
  inferInstanceAs (Decidable (∀ name ∈ step.compiledName?, _))

/-- A step has the same outcome in a session where descriptions are seen, if it leaves the records
in order and describes no schema without code that mentions new references. -/
theorem Alike.take (alike : left.Alike right) (unseen : right.registry.isSeen .debug = false)
    {nodes : Nodes} (consistent : right.registry.Consistent nodes) {step : Step}
    (ordered : (right.take step).2.registry.isOrderly = true)
    (described : right.DescribesFailures step) :
    SameOutcome (left.take step) (right.take step) := by
  have sameTarget := alike.registry.target
  cases step with
  | define name draft =>
      obtain ⟨sameResult, sameRegistry⟩ := alike.registry.define name draft
      simp only [Session.take]
      generalize left.registry.define name draft = outcome at sameResult sameRegistry ⊢
      generalize right.registry.define name draft = other at sameResult sameRegistry ⊢
      obtain ⟨result, _⟩ := outcome
      obtain ⟨_ | _, _⟩ := other <;> cases sameResult <;>
        exact ⟨rfl, sameRegistry, alike.routines, alike.context⟩
  | check | assert | construct | describe | inspect =>
      apply alike.withSchema ordered
      intro schema _ orderedThen
      exact alike.carryOut unseen (by rw [sameTarget]) orderedThen
  | same =>
      apply alike.withSchema ordered
      intro schema _ orderedThen
      exact alike.withSchema orderedThen fun _ _ _ => ⟨rfl, alike⟩
  | calls =>
      refine ⟨?_, alike⟩
      simp only [Session.take, callCounts, alike.registry.calls, alike.registry.references]
  | compile name routineName =>
      apply alike.withSchema ordered
      intro schema bound orderedThen
      have orderedCompile : (right.registry.compile schema).2.isOrderly = true := by
        generalize right.registry.compile schema = outcome at orderedThen ⊢
        obtain ⟨_ | _, _⟩ := outcome <;> exact orderedThen
      obtain ⟨sameResult, sameRegistry⟩ := alike.registry.compile unseen consistent
        (consistent.bindings name schema bound) orderedCompile
        fun fresh cause failed =>
          described name rfl schema bound fresh (by rw [failed]; rfl)
      generalize left.registry.compile schema = outcome at sameResult sameRegistry ⊢
      generalize right.registry.compile schema = other at sameResult sameRegistry ⊢
      obtain ⟨result, _⟩ := outcome
      obtain ⟨_ | _, _⟩ := other <;> cases sameResult
      · exact ⟨rfl, sameRegistry, alike.routines, alike.context⟩
      · exact ⟨rfl, sameRegistry, congrArg (List.cons _) alike.routines, alike.context⟩
  | checkRoutine | inspectRoutine =>
      apply alike.withRoutine ordered
      intro compiled orderedThen
      exact alike.carryOut unseen (by rw [sameTarget]) orderedThen
  | assertRoutine name value limits | constructRoutine name value shape =>
      apply alike.withRoutine ordered
      intro compiled orderedThen
      obtain ⟨sameResult, sameRegistry⟩ :=
        alike.registry.assertCompiled unseen compiled _ (some value) orderedThen
      exact alike.answering sameResult sameRegistry _
  | sameRoutine =>
      apply alike.withRoutine ordered
      intro compiled orderedThen
      exact alike.withRoutine orderedThen fun _ _ => ⟨rfl, alike⟩
  | compiledFrom =>
      apply alike.withRoutine ordered
      intro compiled orderedThen
      exact alike.withSchema orderedThen fun _ _ _ => ⟨rfl, alike⟩
  | newContext => exact alike.withContext unseen rfl _ ordered
  | enter | back => exact alike.withContext unseen (by rw [alike.context]) _ ordered
  | expect =>
      apply alike.withSchema ordered
      intro schema _ orderedThen
      exact alike.withContext unseen (by rw [alike.context]) _ orderedThen
  | test name value =>
      apply alike.withSchema ordered
      intro schema _ orderedThen
      rw [sameTarget, alike.context]
      exact alike.withContext unseen rfl _ orderedThen

/-- A step leaves the records in order. -/
def LeavesOrder (session : Session) (step : Step) : Prop :=
  (session.reply step).2.registry.isOrderly = true

instance (session : Session) (step : Step) : Decidable (session.LeavesOrder step) :=
  inferInstanceAs (Decidable (_ = true))

/-- A step has the same reply, apart from the events, in a session where descriptions are seen, if
it leaves the records in order and describes no schema without code that mentions new
references. -/
theorem Alike.reply (alike : left.Alike right) (unseen : right.registry.isSeen .debug = false)
    {nodes : Nodes} (consistent : right.registry.Consistent nodes) {step : Step}
    (ordered : right.LeavesOrder step) (described : right.DescribesFailures step) :
    (left.reply step).1.answer = (right.reply step).1.answer ∧
      (left.reply step).2.Alike (right.reply step).2 := by
  obtain ⟨sameAnswer, same⟩ := alike.take unseen consistent ordered described
  obtain ⟨references, nextId, calls, routines, assembled⟩ := same.registry
  exact ⟨sameAnswer, ⟨references, nextId, calls, routines, assembled⟩, same.routines, same.context⟩

/-- Steps have the same answers in a session where descriptions are seen, if each leaves the records
in order and describes no schema without code that mentions new references. -/
theorem Alike.run (alike : left.Alike right) (unseen : right.registry.isSeen .debug = false)
    {nodes : Nodes} (sound : right.registry.Sound nodes) {steps : List Step}
    (ordered : Throughout LeavesOrder right steps)
    (described : Throughout DescribesFailures right steps) :
    (left.run steps).1.map Reply.answer = (right.run steps).1.map Reply.answer := by
  induction steps generalizing left right nodes with
  | nil => rfl
  | cons step rest ih =>
      obtain ⟨sameAnswer, same⟩ := alike.reply unseen sound.consistent ordered.1 described.1
      obtain ⟨⟨later, stillSound⟩, _⟩ := right.reply_preserves step nodes sound
      have stillUnseen : (right.reply step).2.registry.isSeen .debug = false :=
        ((right.reply_moves step).isSeen .debug).trans unseen
      have further := ih same stillUnseen stillSound ordered.2 described.2
      rw [run_cons, run_cons, List.map_cons, List.map_cons, sameAnswer, further]

end Steps

/-- Listening changes no answer, unless a report settles references before they are used.  In a
session where nobody sees descriptions, suppose that whenever a reference is settled, whatever the
description of its target mentions has been settled before, and that whenever a schema turns out to
have no code, whatever its own description mentions has been settled.  Then the steps have the same
answers, the counts of calls included, whoever listens. -/
theorem listening_is_unnoticed (listening : Option Level) (steps : List Step)
    (ordered : Throughout LeavesOrder (start (some .warn)) steps)
    (described : Throughout DescribesFailures (start (some .warn)) steps) :
    ((start listening).run steps).1.map Reply.answer =
      ((start (some .warn)).run steps).1.map Reply.answer := by
  have alike : (start listening).Alike (start (some .warn)) :=
    ⟨⟨rfl, rfl, rfl, rfl, rfl⟩, rfl, rfl⟩
  exact alike.run rfl (.initial (fun _ => .literal 0 .null) _) ordered described

/-- Here a tuple has no code, but the reference in it was used before it was compiled. -/
theorem listening_is_unnoticed_of_used :
    let positive : Draft :=
      .custom { description := "positive number", accepts := Predicate.holds .positive }
    let steps : List Step :=
      [.define "item" (.word "string"), .define "pair" (.tuple [positive, .named "item"]),
        .check "pair" (some (.array [.ofInt 1, .string "a"])) none, .compile "pair" "routine",
        .calls]
    ((start (some .debug)).run steps).1.map Reply.answer =
      ((start (some .warn)).run steps).1.map Reply.answer := by
  intro positive steps
  exact listening_is_unnoticed (some .debug) steps (by decide +kernel) (by decide +kernel)

/-- A tuple is found to have no code at its first position, but the report describes it up to its
last one.  If it is seen, then it settles a reference that nothing has used, and another definition
of its name comes too late. -/
theorem listening_is_noticed :
    let positive : Draft :=
      .custom { description := "positive number", accepts := Predicate.holds .positive }
    let steps : List Step :=
      [.define "item" (.word "string"), .define "pair" (.tuple [positive, .named "item"]),
        .compile "pair" "routine", .calls, .define "item" (.word "number"),
        .check "pair" (some (.array [.ofInt 1, .string "a"])) none]
    let answers (counts : List (String × Nat)) (verdict : Bool) : List Answer :=
      [.defined, .defined, .notCompiled (.missingGenerator "positive number"), .calls counts,
        .defined, .verdict verdict]
    Throughout LeavesOrder (start (some .debug)) steps ∧
      Throughout LeavesOrder (start (some .warn)) steps ∧
      ((start (some .debug)).run steps).1.map Reply.answer = answers [("item", 1)] true ∧
      ((start (some .warn)).run steps).1.map Reply.answer = answers [] false := by
  decide +kernel

end Session

end Assay
