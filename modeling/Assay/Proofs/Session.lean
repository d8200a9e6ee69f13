import Assay.Proofs.Compilation
import Assay.Proofs.Steps

/-!
# Steps of sessions

Every step of a session keeps the registry sound and everything that was settled as it was.  So a
compiled routine and its schema agree in every later state of the session, whatever names have been
bound again and whatever else has been run or compiled by then.
-/

namespace Assay.Session

open Registry

/-- A step keeps the registry sound and everything that was settled as it was. -/
theorem reply_preserves (session : Session) (step : Step) :
    session.registry.Preserves (session.reply step).2.registry := by
  have moves := session.reply_moves step
  generalize (session.reply step).2.registry = after at moves ⊢
  cases moves with
  | uses _ uses => exact uses.settles.preserves
  | compiles events bound =>
      intro nodes sound
      obtain ⟨stays, kept, _⟩ := sound.compile (sound.consistent.bindings _ _ bound)
      exact ⟨⟨nodes, stays.settles (.heard _ events)⟩, kept⟩
  | defines name draft events =>
      exact (define_preserves _ name draft).trans (Settles.heard _ events).preserves

/-- Any steps keep the registry sound and everything that was settled as it was. -/
theorem run_preserves (session : Session) (steps : List Step) :
    session.registry.Preserves (session.run steps).2.registry := by
  induction steps generalizing session with
  | nil => exact (Settles.refl session.registry).preserves
  | cons step rest ih => exact (session.reply_preserves step).trans (ih (session.reply step).2)

/-- In every session the registry is sound. -/
theorem sound_of_run (listening : Option Level) (steps : List Step) :
    ∃ nodes, ((start listening).run steps).2.registry.Sound nodes :=
  ((start listening).run_preserves steps (fun _ => .literal 0 .null)
    (.initial _ listening)).1

/-- What has been settled after a step of a session stays as it is in every later state. -/
theorem kept_after_reply (listening : Option Level) (before : List Step) (step : Step)
    (after : List Step) :
    let session := (((start listening).run before).2.reply step).2
    session.registry.Kept (session.run after).2.registry := by
  intro session
  obtain ⟨nodes, sound⟩ := sound_of_run listening before
  obtain ⟨⟨later, soundLater⟩, _⟩ := reply_preserves _ step nodes sound
  exact (session.run_preserves after later soundLater).2

theorem settles_reply_compile (session : Session) (name routineName : String) {schema : Schema}
    (bound : session.registry.references.bindings.lookup name = some schema) :
    (session.registry.compile schema).2.Settles
      (session.reply (.compile name routineName)).2.registry := by
  rw [session.registry_reply_compile name routineName bound]
  exact .of_same rfl rfl rfl

/-- After a schema was compiled, all that has been settled by the compilation stays settled, and the
code of the routine stands for the schema. -/
theorem backs_after_compile (session : Session) {nodes : Nodes}
    (sound : session.registry.Sound nodes) (name routineName : String) {schema : Schema}
    {compiled : Compiled}
    (bound : session.registry.references.bindings.lookup name = some schema)
    (result : (session.registry.compile schema).1 = .ok compiled) :
    compiled.schema = schema ∧
      (session.reply (.compile name routineName)).2.registry.Backs schema
        compiled.routine.code := by
  obtain ⟨_, _, backs⟩ := sound.compile (sound.consistent.bindings name schema bound)
  obtain ⟨sameSchema, backs⟩ := backs compiled result
  exact ⟨sameSchema, backs.of_kept (session.settles_reply_compile name routineName bound).kept⟩

/-- What is compiled agrees with its schema for ever.  After a schema was compiled in a session, the
routine checks and asserts at any later time as the schema does at any later time, for all values
and under all limits. -/
theorem compiled_agrees (listening : Option Level) (before : List Step) (name routineName : String)
    {schema : Schema} {compiled : Compiled}
    (bound :
      ((start listening).run before).2.registry.references.bindings.lookup name = some schema)
    (result : (((start listening).run before).2.registry.compile schema).1 = .ok compiled)
    (after afterwards : List Step) (limits : Limits) (value : Option Json) :
    let session := (((start listening).run before).2.reply (.compile name routineName)).2
    ((session.run after).2.registry.checkCompiled compiled limits value).1 =
        ((session.run afterwards).2.registry.check schema limits value).1 ∧
      ((session.run after).2.registry.assertCompiled compiled limits value).1 =
        ((session.run afterwards).2.registry.assert schema limits value).1 := by
  intro session
  obtain ⟨nodes, sound⟩ := sound_of_run listening before
  obtain ⟨rfl, backs⟩ := backs_after_compile _ sound name routineName bound result
  obtain ⟨⟨later, soundLater⟩, _⟩ := reply_preserves _ (.compile name routineName) nodes sound
  have kept : session.registry.Kept (session.run after).2.registry :=
    (session.run_preserves after later soundLater).2
  have keptAfterwards : session.registry.Kept (session.run afterwards).2.registry :=
    (session.run_preserves afterwards later soundLater).2
  have backsAfter := backs.of_kept kept
  constructor
  · calc ((session.run after).2.registry.checkCompiled compiled limits value).1
      _ = ((session.run after).2.registry.check compiled.schema limits value).1 :=
          backsAfter.checkCompiled_eq
      _ = (session.registry.check compiled.schema limits value).1 := backs.settled.check_eq kept
      _ = ((session.run afterwards).2.registry.check compiled.schema limits value).1 :=
          (backs.settled.check_eq keptAfterwards).symm
  · calc ((session.run after).2.registry.assertCompiled compiled limits value).1
      _ = ((session.run after).2.registry.assert compiled.schema limits value).1 :=
          backsAfter.assertCompiled_eq
      _ = (session.registry.assert compiled.schema limits value).1 := backs.settled.assert_eq kept
      _ = ((session.run afterwards).2.registry.assert compiled.schema limits value).1 :=
          (backs.settled.assert_eq keptAfterwards).symm

/-- Nested lists are compiled, and then the name that their reference uses is bound to something
else. -/
theorem compiled_agrees_after_rebinding :
    let schema : Schema := .array 2 (.reference 1)
    let compiled : Compiled :=
      { routine := { serial := 0, code := .array (.handover schema "array<array<...>>") }, schema }
    let session := (((start none).run [.define "list" (.array (.named "list"))]).2.reply
      (.compile "list" "routine")).2
    let value : Option Json := some (.array [.array [], .ofInt 5])
    let rebound := (session.run [.define "list" (.word "string")]).2.registry
    (rebound.checkCompiled compiled {} value).1 = (session.registry.check schema {} value).1 ∧
      (rebound.assertCompiled compiled {} value).1 = (session.registry.assert schema {} value).1 :=
  compiled_agrees none [.define "list" (.array (.named "list"))] "list" "routine" rfl rfl
    [.define "list" (.word "string")] [] {} (some (.array [.array [], .ofInt 5]))

end Assay.Session
