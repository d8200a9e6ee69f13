import Assay.Log
import Assay.Routine.Lowering
import Assay.Routine.Run
import Assay.Routine.Source

/-!
# Registries

A registry is what outlives single runs: the references and what was recorded of them, the calls of
their factories, the routines compiled so far and the events reported so far.

A run is first carried out with the references as they are and leaves a journal; the registry then
absorbs the journal.  Absorbing the use of a reference settles it: its chain is walked, the result is
recorded, and from then on it does not change.  During one step no name is bound, so what a
reference leads to is the same before and after it is settled.

Some events describe a schema.  The description is worked out while the event is being reported, and
it settles the references that it mentions.  Whoever hears events hears one at a time: what would be
reported in the middle of another report is not heard, and then not described either.
-/

namespace Assay

/-- A compiled routine.  The serial number tells separately assembled routines apart. -/
structure Routine where
  serial : Nat
  code : Code

/-- A routine together with the schema it was compiled from. -/
structure Compiled where
  routine : Routine
  schema : Schema

/-- The source of a compiled routine. -/
def Compiled.source (compiled : Compiled) : String := compiled.routine.code.source

/-- Whether two compiled routines were assembled together. -/
def Compiled.isSameRoutine (left right : Compiled) : Bool :=
  left.routine.serial == right.routine.serial

/-- What outlives single runs.  Calls and events are kept latest first.  `reentered` holds the
references that were asked for while they were being settled. -/
structure Registry where
  references : References := {}
  nextId : NodeId := 1
  calls : List NodeId := []
  routines : List (NodeId × Except CompileError Routine) := []
  assembled : Nat := 0
  listening : Option Level := none
  events : List Event := []
  reentered : List NodeId := []

namespace Registry

/-- What references lead to. -/
def target (registry : Registry) : Resolver := registry.references.target

/-- Whether somebody sees what is reported at a level. -/
def isSeen (registry : Registry) (level : Level) : Bool :=
  registry.listening.any (·.sees level)

/-- Reports an event to whoever listens closely enough. -/
def report (registry : Registry) (event : Event) : Registry :=
  if registry.isSeen event.level then { registry with events := event :: registry.events }
  else registry

/-- Records that factories were called, in order. -/
def noteCalls (registry : Registry) (called : List NodeId) : Registry :=
  { registry with calls := called.reverse ++ registry.calls }

/-- Records what a reference leads to. -/
def record (registry : Registry) (id : NodeId) (result : Except SchemaError Schema) : Registry :=
  { registry with references := registry.references.record id result }

/-- Settles a reference for a description that goes into an event.  While an event is being put
together no other event is heard, so nothing is reported here, and the schema at the end of the
chain is not described.  `telling` is the reference whose settling the event tells of, if it tells of
one; that reference is being settled, so it is not settled a second time. -/
def settleUnheard (telling : Option NodeId) (registry : Registry) (id : NodeId) : Registry :=
  if (registry.references.resolved.lookup id).isSome then registry
  else if telling = some id then { registry with reentered := id :: registry.reentered }
  else
    let walk := registry.references.walk id
    (registry.noteCalls walk.called).record id walk.ending.result

/-- Settles the references that the description of a schema in an event mentions. -/
def prepare (registry : Registry) (telling : Option NodeId) (schema : Schema) : Registry :=
  (schema.mentions registry.target).foldl (settleUnheard telling) registry

/-- Reports an event that describes a schema.  The schema is described only if somebody sees
that. -/
def reportDescribed (registry : Registry) (telling : Option NodeId) (schema : Schema)
    (event : String → Event) : Registry :=
  if registry.isSeen .debug then
    (registry.prepare telling schema).report (event (schema.describe registry.target))
  else registry

/-- Settles a reference, unless that has been done: walks its chain, reports how the walk ends and
records the result. -/
def settle (registry : Registry) (id : NodeId) : Registry :=
  if (registry.references.resolved.lookup id).isSome then registry
  else
    let walk := registry.references.walk id
    let called := registry.noteCalls walk.called
    let reported :=
      match walk.ending with
      | .reached schema => called.reportDescribed (some id) schema .resolved
      | .inherited _ => called
      | .cycle => called.report .cycleDetected
    reported.record id walk.ending.result

/-- Takes in one entry of a journal. -/
def absorbNotice (registry : Registry) : Notice → Registry
  | .used id => registry.settle id
  | .depthExceeded limit path => registry.report (.depthExceeded limit path)

/-- Takes in a journal. -/
def absorb (registry : Registry) (journal : Journal) : Registry :=
  journal.foldl absorbNotice registry

/-- The answer of a run, and the registry after it. -/
def carryOut {α : Type} (registry : Registry) (run : Recorded α) : α × Registry :=
  (run.answer, registry.absorb run.journal)

/-- The description of a schema. -/
def describe (registry : Registry) (schema : Schema) : String × Registry :=
  registry.carryOut
    { answer := schema.describe registry.target
      journal := .ofMentions (schema.mentions registry.target) }

/-- Whether a schema accepts a value. -/
def check (registry : Registry) (schema : Schema) (limits : Limits) (value : Option Json) :
    Bool × Registry :=
  registry.carryOut (schema.check registry.target limits value)

/-- Whether a schema accepts a value, with the reason if it does not. -/
def assert (registry : Registry) (schema : Schema) (limits : Limits) (value : Option Json) :
    Except Error Unit × Registry :=
  registry.carryOut (schema.assert registry.target limits value)

/-- The event that reports an assembly, with the description of the schema in it. -/
def assemblyEvent (result : Except CompileError Code) (description : String) : Event :=
  match result with
  | .ok code => .compiled description code.source.utf8ByteSize
  | .error cause => .notCompilable description cause

/-- Assembles a routine, reports how that went and keeps the result for the node. -/
def assemble (registry : Registry) (schema : Schema) : Except CompileError Routine × Registry :=
  let lowering := schema.lower registry.references
  let lowered := registry.absorb (.ofMentions lowering.used)
  let reported := lowered.reportDescribed none schema (assemblyEvent lowering.result)
  let result : Except CompileError Routine :=
    lowering.result.map fun code => { serial := reported.assembled, code }
  (result,
    { reported with
      routines := (schema.id, result) :: reported.routines
      assembled := reported.assembled + 1 })

/-- Compiles a schema.  A node is assembled once, and later requests get the same result. -/
def compile (registry : Registry) (schema : Schema) : Except CompileError Compiled × Registry :=
  let (result, registry) :=
    match registry.routines.lookup schema.id with
    | some result => (result, registry)
    | none => registry.assemble schema
  (result.map fun routine => { routine, schema }, registry)

/-- Whether a compiled routine accepts a value. -/
def checkCompiled (registry : Registry) (compiled : Compiled) (limits : Limits)
    (value : Option Json) : Bool × Registry :=
  registry.carryOut (compiled.routine.code.check registry.target limits value)

/-- Whether a compiled routine accepts a value, with the reason if it does not.  The routine has no
reasons, so the schema is asked for one. -/
def assertCompiled (registry : Registry) (compiled : Compiled) (limits : Limits)
    (value : Option Json) : Except Error Unit × Registry :=
  match registry.checkCompiled compiled limits value with
  | (true, registry) => (.ok (), registry)
  | (false, registry) => registry.assert compiled.schema limits value

/-- The numbers of calls of the factories that name a binding, by name.  A name whose factory was
never called is left out. -/
def callCounts (registry : Registry) : List (String × Nat) :=
  let names := registry.calls.filterMap fun id =>
    match registry.references.factories.lookup id with
    | some (.named name) => some name
    | _ => none
  names.eraseDups.map fun name => (name, names.count name)

end Registry

end Assay
