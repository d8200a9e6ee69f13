import Assay.Proofs.Session

/-!
# The first use of a schema

References are looked up when a run comes to them, so what a schema says may depend on the bindings
of that moment.  But a request leaves every reference settled that it has consulted, and asking the
same again consults the same references.  So the first answer stands, whatever is bound, run or
compiled afterwards: not because everything below the schema is settled, which need not be so, but
because everything is that the answer depends on.
-/

namespace Assay

namespace Registry

variable {registry later : Registry} {schema : Schema} {limits : Limits} {value : Option Json}

/-- What a run has used leads at every later time where it led during the run. -/
theorem target_of_used {α : Type} {run : Recorded α} (kept : (registry.carryOut run).2.Kept later)
    {used : NodeId} (told : Notice.used used ∈ run.journal) :
    later.target used = registry.target used :=
  target_of_recorded (kept used _ (lookup_absorb told))

theorem outcome_after_check (kept : (registry.check schema limits value).2.Kept later) :
    schema.outcome later.target limits.maxDepth value =
      schema.outcome registry.target limits.maxDepth value :=
  Schema.outcome_of_consults limits.maxDepth schema value fun _ consults =>
    target_of_used kept consults.mem_check

theorem outcome_after_assert (kept : (registry.assert schema limits value).2.Kept later) :
    schema.outcome later.target limits.maxDepth value =
      schema.outcome registry.target limits.maxDepth value :=
  Schema.outcome_of_consults limits.maxDepth schema value fun _ consults =>
    target_of_used kept consults.mem_assert

/-- A check answers again what it has answered. -/
theorem check_after_check (kept : (registry.check schema limits value).2.Kept later) :
    (later.check schema limits value).1 = (registry.check schema limits value).1 := by
  rw [Bool.eq_iff_iff, check_answer, check_answer, ← Schema.verdict_outcome,
    ← Schema.verdict_outcome, outcome_after_check kept]

/-- An assertion answers again what it has answered, the wording of the error included. -/
theorem assert_after_assert (kept : (registry.assert schema limits value).2.Kept later) :
    (later.assert schema limits value).1 = (registry.assert schema limits value).1 := by
  rw [assert_answer, assert_answer, outcome_after_assert kept]
  cases equal : schema.outcome registry.target limits.maxDepth value with
  | rejected failure =>
      have sameWording : failure.expected.describe later.target =
          failure.expected.describe registry.target :=
        Schema.describeWithin_of_mentions Schema.descriptionDepth failure.expected
          fun _ mentioned => target_of_used kept (Schema.mem_assert_of_mentions equal mentioned)
      simp only [Outcome.asserted, sameWording]
  | accepted | unresolved cause | tooDeep trail => rfl

/-- A description is given again as it was given. -/
theorem describe_after_describe (kept : (registry.describe schema).2.Kept later) :
    (later.describe schema).1 = (registry.describe schema).1 :=
  Schema.describeWithin_of_mentions Schema.descriptionDepth schema fun _ mentioned =>
    target_of_used kept (List.mem_map_of_mem mentioned)

end Registry

theorem Answer.ofAsserted_injective : Function.Injective Answer.ofAsserted := by
  rintro (_ | _) (_ | _) same
  · rw [Answer.failed.inj same]
  · cases same
  · cases same
  · rfl

namespace Session

open Registry

theorem withSchema_of_bound {session : Session} {name : String} {schema : Schema}
    (bound : session.registry.references.bindings.lookup name = some schema)
    (next : Schema → Answer × Session) : session.withSchema name next = next schema := by
  rw [withSchema, bound]

/-- A step that asks the registry replies with the answer that it gets, and what has been settled
for the answer stays as it is in every later state. -/
theorem reply_of_answering {α : Type} {listening : Option Level} {before : List Step} {step : Step}
    {answer : α → Answer} {result : α × Registry}
    (taken : ((start listening).run before).2.take step =
      ((start listening).run before).2.answering answer result) (after : List Step) :
    (((start listening).run before).2.reply step).1.answer = answer result.1 ∧
      result.2.Kept ((((start listening).run before).2.reply step).2.run after).2.registry := by
  have keeps := kept_after_reply listening before step after
  have replied : (((start listening).run before).2.reply step).2.registry.references =
      result.2.references := by
    simp only [reply, taken, answering, withRegistry]
  constructor
  · simp only [reply, taken, answering]
  · intro id cause found
    apply keeps id cause
    rw [replied]
    exact found

/-- The first use of a schema fixes what it means.  Once a check of a schema has answered in a
session, then after any further steps the same check answers the same, and an assertion accepts
exactly if that was yes.  Likewise an assertion gives the same error again, with its wording, and a
description is the same text again. -/
theorem first_use_fixes (listening : Option Level) (before : List Step) {name : String}
    {schema : Schema}
    (bound :
      ((start listening).run before).2.registry.references.bindings.lookup name = some schema)
    (limits : Option Limits) (value : Option Json) (after : List Step) :
    let session := ((start listening).run before).2
    let granted := limitsFor value limits
    (∀ accepted, (session.reply (.check name value limits)).1.answer = .verdict accepted →
      let later := ((session.reply (.check name value limits)).2.run after).2.registry
      (later.check schema granted value).1 = accepted ∧
        ((later.assert schema granted value).1 = .ok () ↔ accepted = true)) ∧
    (∀ result, (session.reply (.assert name value limits)).1.answer = .ofAsserted result →
      let later := ((session.reply (.assert name value limits)).2.run after).2.registry
      (later.assert schema granted value).1 = result) ∧
    ∀ text, (session.reply (.describe name)).1.answer = .text text →
      let later := ((session.reply (.describe name)).2.run after).2.registry
      (later.describe schema).1 = text := by
  intro session granted
  refine ⟨?_, ?_, ?_⟩
  · intro accepted answered later
    have taken : session.take (.check name value limits) =
        session.answering .verdict (session.registry.check schema granted value) :=
      withSchema_of_bound bound _
    obtain ⟨replied, kept⟩ := reply_of_answering taken after
    have first : (session.registry.check schema granted value).1 = accepted :=
      Answer.verdict.inj (replied.symm.trans answered)
    have again : (later.check schema granted value).1 = accepted :=
      (check_after_check kept).trans first
    refine ⟨again, ?_⟩
    rw [← check_iff_assert, again]
  · intro result answered later
    have taken : session.take (.assert name value limits) =
        session.answering .ofAsserted (session.registry.assert schema granted value) :=
      withSchema_of_bound bound _
    obtain ⟨replied, kept⟩ := reply_of_answering taken after
    have first : (session.registry.assert schema granted value).1 = result :=
      Answer.ofAsserted_injective (replied.symm.trans answered)
    exact (assert_after_assert kept).trans first
  · intro text answered later
    have taken : session.take (.describe name) =
        session.answering .text (session.registry.describe schema) :=
      withSchema_of_bound bound _
    obtain ⟨replied, kept⟩ := reply_of_answering taken after
    have first : (session.registry.describe schema).1 = text :=
      Answer.text.inj (replied.symm.trans answered)
    exact (describe_after_describe kept).trans first

/-- A list of lists is first used by each of the three requests, and again after the name that its
reference uses has been bound to strings. -/
theorem first_use_fixes_of_lists :
    let before : List Step := [.define "list" (.array (.named "list"))]
    let schema : Schema := .array 2 (.reference 1)
    let session := ((start none).run before).2
    let value : Option Json := some (.array [.array [], .ofInt 5])
    let after : List Step := [.define "list" (.word "string")]
    let checked := ((session.reply (.check "list" value none)).2.run after).2.registry
    let asserted := ((session.reply (.assert "list" value none)).2.run after).2.registry
    let described := ((session.reply (.describe "list")).2.run after).2.registry
    (checked.check schema {} value).1 = false ∧
      (asserted.assert schema {} value).1 =
        .error (.mismatch ⟨[.index 1], "array<array<...>>", "5"⟩) ∧
      (described.describe schema).1 = "array<array<...>>" := by
  intro before schema session value after checked asserted described
  have bound : session.registry.references.bindings.lookup "list" = some schema := rfl
  have fixed := first_use_fixes none before bound none value after
  exact ⟨(fixed.1 false (by decide +kernel)).1, fixed.2.1 _ (by decide +kernel),
    fixed.2.2 _ (by decide +kernel)⟩

end Session

end Assay
