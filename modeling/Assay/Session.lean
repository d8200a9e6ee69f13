import Assay.Draft
import Assay.Inspect
import Assay.Shape

/-!
# Sessions

A session is a sequence of steps over one registry.  Steps name schemas by their bindings and
compiled routines by names of their own, and they also drive one context by hand.  Each step has an
answer, and the events that it reports are given with it.
-/

namespace Assay

/-- The state of a session. -/
structure Session where
  registry : Registry := {}
  routines : List (String × Compiled) := []
  context : Context := .tracked {}

/-- A step of a session. -/
inductive Step where
  /-- Builds a draft and binds a name to it. -/
  | define (name : String) (draft : Draft)
  | check (schema : String) (value : Option Json) (limits : Option Limits)
  | assert (schema : String) (value : Option Json) (limits : Option Limits)
  /-- Turns an accepted value into a typed one. -/
  | construct (schema : String) (value : Json) (shape : Shape) (limits : Option Limits)
  | describe (schema : String)
  | inspect (schema : String)
  /-- Whether two names are bound to the same node. -/
  | same (left right : String)
  /-- How often the factories of names were called. -/
  | calls
  /-- Compiles a schema and gives the routine a name. -/
  | compile (schema : String) (routine : String)
  | checkRoutine (routine : String) (value : Option Json) (limits : Option Limits)
  | assertRoutine (routine : String) (value : Json) (limits : Option Limits)
  | constructRoutine (routine : String) (value : Json) (shape : Shape)
  | sameRoutine (left right : String)
  /-- Whether a routine was compiled from the node that a name is bound to. -/
  | compiledFrom (routine : String) (schema : String)
  | inspectRoutine (routine : String)
  | newContext (limits : Limits)
  | enter (segment : Segment)
  | back
  | expect (schema : String) (value : Option Json)
  /-- Tests a value in the context of the session. -/
  | test (schema : String) (value : Option Json)

/-- What can be seen of a context from outside. -/
structure Standing where
  path : Path
  faulted : Bool
  tracking : Bool
  deriving DecidableEq, Repr

/-- How a context stands. -/
def Context.standing (context : Context) : Standing :=
  { path := context.path, faulted := context.isFaulted, tracking := context.tracking }

/-- The answer to a step. -/
inductive Answer where
  | defined
  | notDefined (cause : BuildError)
  | verdict (accepted : Bool)
  /-- The value of the step is accepted. -/
  | accepted
  /-- The accepted value of the step as a typed one. -/
  | typed (result : Typed)
  | failed (error : Error)
  | text (text : String)
  | calls (counts : List (String × Nat))
  | compiled (source : String)
  | notCompiled (cause : CompileError)
  /-- How the context of the session stands after a step, with the verdict if the step was a
  test. -/
  | context (verdict : Option Bool) (standing : Standing)
  /-- The step uses a name that is not bound. -/
  | unknownName (name : String)
  deriving DecidableEq

/-- The answer to a step together with the events it reported, oldest first. -/
structure Reply where
  answer : Answer
  events : List Event
  deriving DecidableEq

namespace Answer

/-- The answer that tells the result of an assertion. -/
def ofAsserted : Except Error Unit → Answer
  | .ok () => .accepted
  | .error error => .failed error

/-- The answer that turns an accepted value into a typed one. -/
def ofTyped (shape : Shape) (value : Json) : Except Error Unit → Answer
  | .error error => .failed error
  | .ok () =>
      match shape.build? value with
      | some result => .typed result
      | none => .failed .misfit

end Answer

namespace Session

/-- The limits of a step.  An absent value is always tested under the default ones. -/
def limitsFor (value : Option Json) (limits : Option Limits) : Limits :=
  match value with
  | some _ => limits.getD {}
  | none => {}

/-- The text that shows a schema by its description. -/
def inspection (description : String) : String :=
  "Validator(" ++ Inspect.quoted description ++ ")"

/-- The text that shows a routine by its schema and its source. -/
def routineInspection (description source : String) : String :=
  "Compiled \x7b schema: " ++ inspection description ++ ", source: " ++ Inspect.quoted source ++
    " \x7d"

/-- The session with another registry. -/
def withRegistry (session : Session) (registry : Registry) : Session := { session with registry }

/-- Continues with the schema that is bound to a name. -/
def withSchema (session : Session) (name : String)
    (next : Schema → Answer × Session) : Answer × Session :=
  match session.registry.references.bindings.lookup name with
  | some schema => next schema
  | none => (.unknownName name, session)

/-- Continues with the routine of a name. -/
def withRoutine (session : Session) (name : String)
    (next : Compiled → Answer × Session) : Answer × Session :=
  match session.routines.lookup name with
  | some compiled => next compiled
  | none => (.unknownName name, session)

/-- Changes the context of the session. -/
def withContext (session : Session) (context : Context) (verdict : Option Bool) :
    Answer × Session :=
  let registry := session.registry.absorb context.journal.reverse
  let settled := { context with journal := [] }
  (.context verdict settled.standing, { session with registry, context := settled })

/-- Gives an answer that depends on the registry. -/
def answering {α : Type} (session : Session) (answer : α → Answer) (outcome : α × Registry) :
    Answer × Session :=
  (answer outcome.1, session.withRegistry outcome.2)

/-- Takes a step. -/
def take (session : Session) : Step → Answer × Session
  | .define name draft =>
      match session.registry.define name draft with
      | (.ok (), registry) => (.defined, session.withRegistry registry)
      | (.error cause, registry) => (.notDefined cause, session.withRegistry registry)
  | .check name value limits => session.withSchema name fun schema =>
      session.answering .verdict (session.registry.check schema (limitsFor value limits) value)
  | .assert name value limits => session.withSchema name fun schema =>
      session.answering .ofAsserted (session.registry.assert schema (limitsFor value limits) value)
  | .construct name value shape limits => session.withSchema name fun schema =>
      session.answering (.ofTyped shape value)
        (session.registry.assert schema (limits.getD {}) (some value))
  | .describe name => session.withSchema name fun schema =>
      session.answering .text (session.registry.describe schema)
  | .inspect name => session.withSchema name fun schema =>
      session.answering (fun description => .text (inspection description))
        (session.registry.describe schema)
  | .same left right => session.withSchema left fun left => session.withSchema right fun right =>
      (.verdict (left.isSameNode right), session)
  | .calls => (.calls session.registry.callCounts, session)
  | .compile name routineName => session.withSchema name fun schema =>
      match session.registry.compile schema with
      | (.ok compiled, registry) =>
          (.compiled compiled.source,
            { session with registry, routines := (routineName, compiled) :: session.routines })
      | (.error cause, registry) => (.notCompiled cause, session.withRegistry registry)
  | .checkRoutine name value limits => session.withRoutine name fun compiled =>
      session.answering .verdict
        (session.registry.checkCompiled compiled (limitsFor value limits) value)
  | .assertRoutine name value limits => session.withRoutine name fun compiled =>
      session.answering .ofAsserted
        (session.registry.assertCompiled compiled (limits.getD {}) (some value))
  | .constructRoutine name value shape => session.withRoutine name fun compiled =>
      session.answering (.ofTyped shape value)
        (session.registry.assertCompiled compiled {} (some value))
  | .sameRoutine left right =>
      session.withRoutine left fun left => session.withRoutine right fun right =>
        (.verdict (left.isSameRoutine right), session)
  | .compiledFrom name schemaName => session.withRoutine name fun compiled =>
      session.withSchema schemaName fun schema =>
        (.verdict (compiled.schema.isSameNode schema), session)
  | .inspectRoutine name => session.withRoutine name fun compiled =>
      session.answering (fun description => .text (routineInspection description compiled.source))
        (session.registry.describe compiled.schema)
  | .newContext limits => session.withContext (.tracked limits) none
  | .enter segment => session.withContext (session.context.enter segment) none
  | .back => session.withContext session.context.back none
  | .expect name value => session.withSchema name fun schema =>
      session.withContext (session.context.expect schema value) none
  | .test name value => session.withSchema name fun schema =>
      let (accepted, context) := schema.test session.registry.target value session.context
      session.withContext context (some accepted)

/-- Takes a step and collects the events it reports. -/
def reply (session : Session) (step : Step) : Reply × Session :=
  let (answer, session) := session.take step
  let events := session.registry.events.reverse
  ({ answer, events }, session.withRegistry { session.registry with events := [] })

/-- Takes steps in order. -/
def run (session : Session) : List Step → List Reply × Session
  | [] => ([], session)
  | step :: rest =>
      let (first, session) := session.reply step
      let (replies, session) := session.run rest
      (first :: replies, session)

/-- A new session in which somebody may listen. -/
def start (listening : Option Level) : Session := { registry := { listening } }

/-- The replies to steps in a new session.  Whoever asks for a reference while it is being settled
waits for what cannot come, so then there are none. -/
def replies? (listening : Option Level) (steps : List Step) : Option (List Reply) :=
  let (replies, session) := (start listening).run steps
  if session.registry.reentered.isEmpty then some replies else none

end Session

end Assay
