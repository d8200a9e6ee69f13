import Assay.Routine.Code
import Assay.Validation

/-!
# Running routine code

Runs code on a value.  A guard goes through the run and counts active references; it keeps no place
and no expectations, so a routine only answers yes or no.  Meeting the depth limit ends the whole
run, and no alternative is tried after that.

A handover continues in the interpreter with the count reached so far.
-/

namespace Assay

/-- The state of a run of code.  `journal` is what the run has to tell, latest first. -/
structure Guard where
  limits : Limits
  frames : Nat := 0
  faulted : Bool := false
  journal : List Notice := []

namespace Guard

/-- Makes one more reference active, or ends the run if as many are active as the limit allows. -/
def enter (guard : Guard) : Bool × Guard :=
  let limit := guard.limits.maxDepth
  if limit ≤ guard.frames then
    (false, { guard with
      faulted := true
      journal := .depthExceeded limit none :: guard.journal })
  else (true, { guard with frames := guard.frames + 1 })

/-- Makes one reference fewer active. -/
def leave (guard : Guard) : Guard := { guard with frames := guard.frames - 1 }

end Guard

namespace Code

/-- A run of code that carries its guard along. -/
abbrev Probe := Guard → Bool × Guard

/-- Probes one after the other until one answers no. -/
def Probe.all : List Probe → Probe
  | [] => fun guard => (true, guard)
  | probe :: rest => fun guard =>
      match probe guard with
      | (true, guard) => Probe.all rest guard
      | (false, guard) => (false, guard)

/-- Probes one after the other until one answers yes or ends the run. -/
def Probe.any : List Probe → Probe
  | [] => fun guard => (false, guard)
  | probe :: rest => fun guard =>
      match probe guard with
      | (true, guard) => (true, guard)
      | (false, guard) => if guard.faulted then (false, guard) else Probe.any rest guard

/-- A probe under one more active reference. -/
def Probe.framed (probe : Probe) : Probe := fun guard =>
  match guard.enter with
  | (false, guard) => (false, guard)
  | (true, guard) =>
      let (accepted, guard) := probe guard
      (accepted, guard.leave)

/-- Lets the interpreter test a value from here on. -/
def interpret (resolve : Resolver) (target : Schema) (value : Option Json) : Probe := fun guard =>
  let (accepted, context) := target.test resolve value (.resumed guard.limits guard.frames)
  (accepted, { guard with
    faulted := guard.faulted || context.isFaulted
    journal := context.journal ++ guard.journal })

mutual

/-- Runs code on a value. -/
def run (resolve : Resolver) (code : Code) (value : Option Json) : Probe := fun guard =>
  match code with
  | .primitive kind => (kind.accepts value, guard)
  | .literal expected => (expected.accepts value, guard)
  | .container kind => (kind.accepts value, guard)
  | .oneOf members => (members.any (·.accepts value), guard)
  | .custom rule _ => (rule.acceptsOption value, guard)
  | .both first second => Probe.all [run resolve first value, run resolve second value] guard
  | .either first second => Probe.any [run resolve first value, run resolve second value] guard
  | .array item =>
      match value with
      | some (.array elements) =>
          Probe.all (elements.map fun element => run resolve item (some element)) guard
      | _ => (false, guard)
  | .record item =>
      match value with
      | some (.object entries) =>
          Probe.all (entries.map fun entry => run resolve item (some entry.2)) guard
      | _ => (false, guard)
  | .tuple positions =>
      match value with
      | some (.array elements) =>
          if elements.length = positions.length then
            Probe.all (runPositions resolve positions elements) guard
          else (false, guard)
      | _ => (false, guard)
  | .object fields =>
      match value with
      | some (.object entries) => Probe.all (runFields resolve fields entries) guard
      | _ => (false, guard)
  | .union alternatives => Probe.any (runAlternatives resolve alternatives value) guard
  | .expanded body => Probe.framed (run resolve body value) guard
  | .handover target _ => Probe.framed (interpret resolve target value) guard

/-- The probes of the positions of a tuple on the elements at them. -/
def runPositions (resolve : Resolver) : List Code → List Json → List Probe
  | code :: codes, element :: elements =>
      run resolve code (some element) :: runPositions resolve codes elements
  | _, _ => []

/-- The probes of declared fields on the entries of an object. -/
def runFields (resolve : Resolver) : List (String × Code) → List (String × Json) → List Probe
  | [], _ => []
  | (name, code) :: rest, entries =>
      run resolve code (entries.lookup name) :: runFields resolve rest entries

/-- The probes of alternatives on one value. -/
def runAlternatives (resolve : Resolver) : List Code → Option Json → List Probe
  | [], _ => []
  | code :: rest, value => run resolve code value :: runAlternatives resolve rest value

end

/-- Whether code accepts a value. -/
def check (resolve : Resolver) (code : Code) (limits : Limits) (value : Option Json) :
    Recorded Bool :=
  let (accepted, guard) := code.run resolve value { limits }
  { answer := accepted, journal := guard.journal.reverse }

end Code

end Assay
