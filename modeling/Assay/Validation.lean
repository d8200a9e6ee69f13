import Assay.Context

/-!
# Validation

Tests a value against a schema, part by part.  Each node is a test, and the tests of its parts are
combined: both of two, either of two, all children of a container, one of several alternatives.  A
test gives its verdict together with the context it leaves, and once a fault has ended the run every
further test answers no without looking at anything.

A reference continues with the schema it leads to.  The number of references that may still become
active decreases there, and everywhere else the schema becomes smaller, so every run ends: also one
on a schema that refers back to itself without going down in the value.
-/

namespace Assay

/-- A run that carries its context along. -/
abbrev Run := Context → Bool × Context

/-- A test of a value that may be absent. -/
abbrev Test := Option Json → Run

/-- Runs one after the other until one answers no. -/
def Run.all : List Run → Run
  | [] => fun context => (true, context)
  | run :: rest => fun context =>
      match run context with
      | (true, context) => Run.all rest context
      | (false, context) => (false, context)

namespace Test

/-- The test that remembers `schema` as not met and answers no. -/
def reject (schema : Schema) : Test := fun value context => (false, context.expect schema value)

/-- A test that looks at the value alone. -/
def leaf (schema : Schema) (accepts : Option Json → Bool) : Test := fun value context =>
  if accepts value then (true, context) else reject schema value context

/-- A test one step further down. -/
def under (test : Test) (segment : Segment) : Test := fun value context =>
  let (accepted, context) := test value (context.enter segment)
  (accepted, context.back)

/-- Both tests; the second runs only if the first accepts. -/
def both (first second : Test) : Test := fun value context =>
  match first value context with
  | (true, context) => second value context
  | (false, context) => (false, context)

/-- Either test; the second runs only if the first does not accept. -/
def either (first second : Test) : Test := fun value context =>
  match first value context with
  | (true, context) => (true, context)
  | (false, context) => second value context

/-- Every element of an array. -/
def array (schema : Schema) (item : Test) : Test := fun value context =>
  match value with
  | some (.array elements) =>
      Run.all (elements.mapIdx fun position element =>
        item.under (.index position) (some element)) context
  | _ => reject schema value context

/-- Every value of an object, in key order. -/
def record (schema : Schema) (item : Test) : Test := fun value context =>
  match value with
  | some (.object entries) =>
      Run.all (entries.map fun entry => item.under (.field entry.1) (some entry.2)) context
  | _ => reject schema value context

/-- Every element of an array that has one element for each test. -/
def tuple (schema : Schema) (positions : List Test) : Test := fun value context =>
  match value with
  | some (.array elements) =>
      if elements.length = positions.length then
        Run.all ((positions.zip elements).mapIdx fun position pair =>
          pair.1.under (.index position) (some pair.2)) context
      else reject schema value context
  | _ => reject schema value context

/-- Every declared field of an object, absent or not, in the order of declaration. -/
def object (schema : Schema) (fields : List (String × Test)) : Test := fun value context =>
  match value with
  | some (.object entries) =>
      Run.all (fields.map fun field =>
        field.2.under (.field field.1) (entries.lookup field.1)) context
  | _ => reject schema value context

/-- The failure that reached further down, the earlier one if both reached equally far. -/
def deeper (best : Option Failure) (found : Option Failure) : Option Failure :=
  match best, found with
  | best, none => best
  | none, some failure => some failure
  | some best, some failure => if best.depth < failure.depth then some failure else some best

/-- Tries alternatives in order, each from `start` steps down, where `prior` was remembered.  If all
reject, the failure that reached furthest down is remembered, unless none got below the start: then
it is the whole choice that was not met. -/
def tryEach (schema : Schema) (value : Option Json) (start : Nat) (prior : Option Failure) :
    List Test → (best : Option Failure) → Run
  | [], best => fun context =>
      match best with
      | some failure =>
          if start < failure.depth then (false, context.withFailure (some failure))
          else reject schema value context
      | none => reject schema value context
  | test :: rest, best => fun context =>
      match test value context with
      | (true, context) => (true, context.withFailure prior)
      | (false, context) =>
          let context := context.resetTo start
          if context.isFaulted then (false, context)
          else tryEach schema value start prior rest (deeper best context.failure)
            (context.withFailure none)

/-- One of several alternatives. -/
def union (schema : Schema) (alternatives : List Test) : Test := fun value context =>
  tryEach schema value context.depth context.failure alternatives none (context.withFailure none)

/-- The test of what a reference leads to, under one more active reference. -/
def reference (resolve : Resolver) (descend : Schema → Test) (id : NodeId) : Test :=
  fun value context =>
    let context := context.note (.used id)
    match resolve id with
    | .error cause => (false, context.raise (.schema cause))
    | .ok target =>
        match context.enterReference with
        | (false, context) => (false, context)
        | (true, context) =>
            let (accepted, context) := descend target value context
            (accepted, context.leaveReference)

end Test

namespace Schema

mutual

/-- The test of a schema, where `descend` tests what a reference leads to. -/
def testBy (resolve : Resolver) (descend : Schema → Test) (schema : Schema) : Test :=
  fun value context =>
    if context.isFaulted then (false, context)
    else match schema with
      | .primitive _ kind => Test.leaf schema kind.accepts value context
      | .literal _ expected => Test.leaf schema expected.accepts value context
      | .container _ kind => Test.leaf schema kind.accepts value context
      | .oneOf _ members =>
          Test.leaf schema (fun value => members.any (·.accepts value)) value context
      | .custom _ rule => Test.leaf schema rule.acceptsOption value context
      | .both _ first second =>
          Test.both (testBy resolve descend first) (testBy resolve descend second) value context
      | .either _ first second =>
          Test.either (testBy resolve descend first) (testBy resolve descend second) value context
      | .array _ item => Test.array schema (testBy resolve descend item) value context
      | .record _ item => Test.record schema (testBy resolve descend item) value context
      | .tuple _ positions =>
          Test.tuple schema (testsBy resolve descend positions) value context
      | .object _ fields =>
          Test.object schema (fieldTestsBy resolve descend fields) value context
      | .union _ alternatives =>
          Test.union schema (testsBy resolve descend alternatives) value context
      | .reference id => Test.reference resolve descend id value context

/-- The tests of several schemas. -/
def testsBy (resolve : Resolver) (descend : Schema → Test) : List Schema → List Test
  | [] => []
  | schema :: rest => testBy resolve descend schema :: testsBy resolve descend rest

/-- The tests of declared fields. -/
def fieldTestsBy (resolve : Resolver) (descend : Schema → Test) :
    List (String × Schema) → List (String × Test)
  | [] => []
  | (name, schema) :: rest =>
      (name, testBy resolve descend schema) :: fieldTestsBy resolve descend rest

end

/-- The test of a schema when at most `remaining` more references may become active.  Entering one
reference more ends the run, so the innermost continuation is never asked. -/
def testWithin (resolve : Resolver) : (remaining : Nat) → Schema → Test
  | 0 => testBy resolve fun _ _ context => (false, context)
  | remaining + 1 => testBy resolve (testWithin resolve remaining)

/-- The test of a schema in a context. -/
def test (resolve : Resolver) (schema : Schema) : Test := fun value context =>
  schema.testWithin resolve context.remaining value context

/-- Whether a schema accepts a value. -/
def check (resolve : Resolver) (schema : Schema) (limits : Limits) (value : Option Json) :
    Recorded Bool :=
  let (accepted, context) := schema.test resolve value (.untracked limits)
  { answer := accepted, journal := context.journal.reverse }

/-- Whether a schema accepts a value, with the reason if it does not. -/
def assert (resolve : Resolver) (schema : Schema) (limits : Limits) (value : Option Json) :
    Recorded (Except Error Unit) :=
  let (accepted, context) := schema.test resolve value (.tracked limits)
  let journal := context.journal.reverse
  if accepted then { answer := .ok (), journal }
  else
    { answer := .error (context.error resolve schema value)
      journal := journal ++ .ofMentions (context.errorMentions resolve schema value) }

end Schema

end Assay
