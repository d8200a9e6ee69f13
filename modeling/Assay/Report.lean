import Assay.Draft

/-!
# Reports

A report on one schema: its description, its compiled form, and what the interpreter and the routine
say about some values.
-/

namespace Assay

/-- What is said about one value.  A routine is only asked if there is one, and for its reason only
about a value that is present. -/
structure Finding where
  accepted : Bool
  asserted : Except Error Unit
  routineAccepted : Option Bool
  routineAsserted : Option (Except Error Unit)

/-- A report on a schema. -/
structure Report where
  description : String
  source : Except CompileError String
  findings : List Finding

namespace Registry

/-- Defines several names in order. -/
def defineAll (registry : Registry) : List (String × Draft) → Except BuildError Unit × Registry
  | [] => (.ok (), registry)
  | (name, draft) :: rest =>
      match registry.define name draft with
      | (.ok (), registry) => registry.defineAll rest
      | (.error cause, registry) => (.error cause, registry)

/-- What a routine says about a value. -/
def findCompiled (registry : Registry) (compiled : Compiled) (limits : Limits)
    (value : Option Json) : (Bool × Option (Except Error Unit)) × Registry :=
  let (accepted, registry) := registry.checkCompiled compiled limits value
  match value with
  | none => ((accepted, none), registry)
  | some _ =>
      let (asserted, registry) := registry.assertCompiled compiled limits value
      ((accepted, some asserted), registry)

/-- What is said about a value. -/
def find (registry : Registry) (schema : Schema) (compiled : Option Compiled) (limits : Limits)
    (value : Option Json) : Finding × Registry :=
  let (accepted, registry) := registry.check schema limits value
  let (asserted, registry) := registry.assert schema limits value
  match compiled with
  | none =>
      ({ accepted, asserted, routineAccepted := none, routineAsserted := none }, registry)
  | some compiled =>
      let ((routineAccepted, routineAsserted), registry) :=
        registry.findCompiled compiled limits value
      ({ accepted, asserted, routineAccepted := some routineAccepted, routineAsserted }, registry)

/-- What is said about several values.  An absent value is always tested under the default
limits. -/
def findAll (registry : Registry) (schema : Schema) (compiled : Option Compiled)
    (limits : Limits) : List (Option Json) → List Finding × Registry
  | [] => ([], registry)
  | value :: rest =>
      let applied := if value.isSome then limits else {}
      let (finding, registry) := registry.find schema compiled applied value
      let (findings, registry) := registry.findAll schema compiled limits rest
      (finding :: findings, registry)

/-- The report on a schema. -/
def reportOn (registry : Registry) (schema : Schema) (limits : Limits)
    (values : List (Option Json)) : Report × Registry :=
  let (compiled, registry) := registry.compile schema
  let (description, registry) := registry.describe schema
  let (findings, registry) := registry.findAll schema compiled.toOption limits values
  ({ description, source := compiled.map Compiled.source, findings }, registry)

end Registry

/-- The report on a draft, after some definitions. -/
def Report.make (definitions : List (String × Draft)) (draft : Draft) (limits : Limits)
    (values : List (Option Json)) : Except BuildError Report :=
  let start : Registry := {}
  match start.defineAll definitions with
  | (.error cause, _) => .error cause
  | (.ok (), registry) =>
      match registry.build draft with
      | (.error cause, _) => .error cause
      | (.ok schema, registry) => .ok (registry.reportOn schema limits values).1

end Assay
