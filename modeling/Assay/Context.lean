import Assay.Description
import Assay.Error
import Assay.Journal
import Assay.Json.Preview
import Assay.Limits

/-!
# Contexts

A context accompanies one run over a value.  It knows the current place inside the value, remembers
what was expected last, counts the references that are active, and holds the fault that has ended
the run.  Whoever goes one step down comes back up again, so a sibling starts from the same place.

The last expectation wins: it belongs to the part whose rejection decided the run.  A run that only
asks for yes or no does not track places and expectations.
-/

namespace Assay

/-- An expectation that was not met.  Its place is given innermost step first. -/
structure Failure where
  expected : Schema
  value : Option Json
  trail : List Segment

/-- The number of steps down to the place of a failure. -/
def Failure.depth (failure : Failure) : Nat := failure.trail.length

/-- The path to the place of a failure. -/
def Failure.path (failure : Failure) : Path := failure.trail.reverse

/-- What ends a whole run and not only one attempt. -/
inductive Fault where
  /-- More references would have been active than the limit allows. -/
  | depthLimit (limit : Nat) (path : Path)
  /-- A reference leads nowhere. -/
  | schema (cause : SchemaError)
  deriving DecidableEq, Repr

/-- The state of one run over a value.  `trail` is the current place, innermost step first, `frames`
counts the active references, and `journal` is what the run has to tell, latest first. -/
structure Context where
  limits : Limits := {}
  tracking : Bool := true
  trail : List Segment := []
  failure : Option Failure := none
  fault : Option Fault := none
  frames : Nat := 0
  journal : List Notice := []

namespace Context

/-- The context of a run that reports what it finds. -/
def tracked (limits : Limits) : Context := { limits }

/-- The context of a run that only answers yes or no. -/
def untracked (limits : Limits) : Context := { limits, tracking := false }

/-- The context of a run that only answers yes or no, and that continues one in which `frames`
references are active. -/
def resumed (limits : Limits) (frames : Nat) : Context :=
  { limits, frames, tracking := false }

/-- Goes down one step. -/
def enter (context : Context) (segment : Segment) : Context :=
  if context.tracking then { context with trail := segment :: context.trail } else context

/-- Goes back up one step. -/
def back (context : Context) : Context :=
  if context.tracking then { context with trail := context.trail.tail } else context

/-- The number of steps down to the current place. -/
def depth (context : Context) : Nat := context.trail.length

/-- The path to the current place. -/
def path (context : Context) : Path := context.trail.reverse

/-- Goes back up until the place is at most `depth` steps down. -/
def resetTo (context : Context) (depth : Nat) : Context :=
  { context with trail := context.trail.drop (context.trail.length - depth) }

/-- Remembers that a schema rejected a value at the current place, instead of what was remembered
before. -/
def expect (context : Context) (expected : Schema) (value : Option Json) : Context :=
  if context.tracking then
    { context with failure := some { expected, value, trail := context.trail } }
  else context

/-- Replaces what is remembered. -/
def withFailure (context : Context) (failure : Option Failure) : Context :=
  { context with failure }

/-- Whether the run has been ended by a fault. -/
def isFaulted (context : Context) : Bool := context.fault.isSome

/-- Ends the run.  The first fault counts. -/
def raise (context : Context) (fault : Fault) : Context :=
  { context with fault := context.fault.or (some fault) }

/-- Adds an entry to the journal. -/
def note (context : Context) (notice : Notice) : Context :=
  { context with journal := notice :: context.journal }

/-- Makes one more reference active, or ends the run if as many are active as the limit allows. -/
def enterReference (context : Context) : Bool × Context :=
  let limit := context.limits.maxDepth
  if limit ≤ context.frames then
    (false, (context.note (.depthExceeded limit (some context.path))).raise
      (.depthLimit limit context.path))
  else (true, { context with frames := context.frames + 1 })

/-- Makes one reference fewer active. -/
def leaveReference (context : Context) : Context :=
  { context with frames := context.frames - 1 }

/-- The number of references that may still become active. -/
def remaining (context : Context) : Nat := context.limits.maxDepth - context.frames

/-- The expectation that explains a rejected run: the one remembered, or that of the whole run. -/
def explanation (context : Context) (root : Schema) (value : Option Json) : Failure :=
  context.failure.getD { expected := root, value, trail := [] }

/-- The error of a run that did not accept. -/
def error (context : Context) (resolve : Resolver) (root : Schema) (value : Option Json) : Error :=
  match context.fault with
  | some (.depthLimit limit path) => .depthLimit limit path
  | some (.schema cause) => .schema cause
  | none =>
      let failure := context.explanation root value
      .mismatch
        { path := failure.path
          expected := failure.expected.describe resolve
          actual := preview context.limits.previewLength failure.value }

/-- The references used by wording the error of a run that did not accept. -/
def errorMentions (context : Context) (resolve : Resolver) (root : Schema)
    (value : Option Json) : List NodeId :=
  if context.isFaulted then [] else (context.explanation root value).expected.mentions resolve

end Context

end Assay
