import Assay.Proofs.Composition
import Assay.Proofs.Routine

/-!
# The contract of a test

What a test owes to the context that it gets, and what it makes of it.  It comes back to the place
and to the number of active references at which it started, on every way out.  It leaves a fault
alone that was raised before, and if it raises none itself and rejects, then it has remembered why,
at its own place or further down.

In return it looks at nothing in the context but the number of references that may still become
active.  So runs that track places and runs that do not, runs from the start and runs that continue
another one, answer alike.
-/

namespace Assay

namespace Outcome.Describes

variable {outcome : Outcome} {before : Context} {result : Bool × Context}

/-- Whether a run has been ended depends on the verdict alone. -/
theorem isFaulted_eq (describes : outcome.Describes before result) :
    result.2.isFaulted = outcome.verdict.isFault := by
  rw [describes.isFaulted]
  cases outcome <;> rfl

/-- A run that answers no without having been ended has rejected. -/
theorem exists_rejected (describes : outcome.Describes before result)
    (rejects : result.1 = false) (clear : result.2.isFaulted = false) :
    ∃ failure, outcome = .rejected failure := by
  rw [← Outcome.verdict_eq_reject_iff]
  have noFault : outcome.verdict.isFault = false := describes.isFaulted_eq.symm.trans clear
  cases equal : outcome.verdict with
  | accept => simp [describes.answer.mpr equal] at rejects
  | reject => rfl
  | fault halt => simp [equal, Verdict.isFault] at noFault

end Outcome.Describes

/-- An assertion reports a fault exactly if the verdict is one. -/
theorem Outcome.asserted_isFault_iff {outcome : Outcome} {resolve : Resolver} {limits : Limits} :
    (∃ error, outcome.asserted resolve limits = .error error ∧ error.isFault = true) ↔
      outcome.verdict.isFault = true := by
  cases outcome <;> simp [asserted, verdict, Verdict.isFault, Error.isFault]

theorem Failure.path_below (failure : Failure) (outer : List Segment) :
    (failure.below outer).path = outer.reverse ++ failure.path := by
  simp [Failure.below, Failure.path]

namespace Schema

/-- Once a fault has been raised, a test does nothing. -/
theorem test_of_isFaulted (resolve : Resolver) (schema : Schema) (value : Option Json)
    {context : Context} (faulted : context.isFaulted = true) :
    schema.test resolve value context = (false, context) :=
  (testWithin_computes resolve context.remaining schema).stops value context faulted

/-- A test that rejects remembers the same failure, whatever was remembered when it started. -/
theorem failure_of_rejected (resolve : Resolver) {schema : Schema} {value : Option Json}
    {context : Context} (clear : context.isFaulted = false) (tracking : context.tracking = true)
    {failure : Failure}
    (rejected : schema.outcome resolve context.remaining value = .rejected failure)
    (pending : Option Failure) :
    (schema.test resolve value (context.withFailure pending)).2.failure =
      some (failure.below context.trail) := by
  have stillClear : (context.withFailure pending).isFaulted = false := clear
  exact (test_describes resolve schema value stillClear).failure tracking failure rejected

/-- The contract of a test, in every context.  It comes back to the place and to the number of
active references at which it started.  A fault that was raised before stays as it is, and the
answer is no.  An answer yes means that no fault has been raised.

An answer no of a run that tracks places and has not been ended by a fault comes with a failure at
or below the starting place.  The failure is of this very run: the run leaves the same one whatever
had been remembered before it, and if that was nothing.  So the explanation of the run is this
failure and never the one that stands in for a missing failure. -/
theorem test_keeps_contract (resolve : Resolver) (schema : Schema) (value : Option Json)
    (context : Context) :
    let answer := (schema.test resolve value context).1
    let after := (schema.test resolve value context).2
    after.path = context.path ∧ after.frames = context.frames ∧
      (context.isFaulted = true → answer = false ∧ after.fault = context.fault) ∧
      (answer = true → after.isFaulted = false) ∧
      (answer = false → context.tracking = true → after.isFaulted = false →
        ∃ failure further, failure.path = context.path ++ further ∧
          after.failure = some failure ∧
          (∀ pending, (schema.test resolve value (context.withFailure pending)).2.failure =
            some failure) ∧
          ∀ root whole, after.explanation root whole = failure) := by
  intro answer after
  cases faulted : context.isFaulted with
  | true =>
      have stopped : schema.test resolve value context = (false, context) :=
        test_of_isFaulted resolve schema value faulted
      have sameAnswer : answer = false := by simp only [answer, stopped]
      have sameContext : after = context := by simp only [after, stopped]
      rw [sameAnswer, sameContext]
      refine ⟨rfl, rfl, fun _ => ⟨rfl, rfl⟩, ?_, ?_⟩
      · rintro ⟨⟩
      · intro _ _ clear
        cases clear.symm.trans faulted
  | false =>
      have describes := test_describes resolve schema value faulted
      have samePath : after.path = context.path := congrArg List.reverse describes.place.trail
      refine ⟨samePath, describes.place.frames, ?_, ?_, ?_⟩
      · rintro ⟨⟩
      · intro yes
        rw [describes.isFaulted_eq, describes.answer.mp yes]
        rfl
      · intro no tracking clear
        obtain ⟨inner, rejected⟩ := describes.exists_rejected no clear
        have left : after.failure = some (inner.below context.trail) :=
          describes.failure tracking inner rejected
        refine ⟨inner.below context.trail, inner.path, inner.path_below context.trail, left,
          failure_of_rejected resolve faulted tracking rejected, ?_⟩
        intro root whole
        rw [Context.explanation, left, Option.getD_some]

/-- The second alternative of a union gets further down than the first, inside an array whose run
had remembered something else before. -/
theorem test_keeps_contract_in_union :
    let schema : Schema :=
      .union 4 [.primitive 1 .string, .object 3 [("size", .primitive 2 .number)]]
    let value : Option Json := some (.object [("size", .string "x")])
    let resolve : Resolver := fun _ => .error .cyclicReference
    let context := (((Context.tracked {}).enter (.field "items")).enter (.index 3)).expect
      (.primitive 5 .boolean) none
    ∃ failure further, failure.path = context.path ++ further ∧
      (schema.test resolve value context).2.failure = some failure ∧
      (∀ pending, (schema.test resolve value (context.withFailure pending)).2.failure =
        some failure) ∧
      ∀ root whole, (schema.test resolve value context).2.explanation root whole = failure := by
  intro schema value resolve context
  exact (test_keeps_contract resolve schema value context).2.2.2.2 rfl rfl rfl

/-- The verdict depends on nothing in the context but the number of references that may still
become active: two runs that have not been ended, and in which equally many may, answer alike and
are ended alike.  The second may happen at another time, as long as the references that can be
reached from the schema lead where they led.

In particular a check, an assertion, and what the interpreter says when routine code hands a value
over to it after some references have become active, agree with each other. -/
theorem verdict_of_remaining {left right : Resolver} {schema : Schema}
    (agree : schema.AgreeFrom left right) (value : Option Json) {first second : Context}
    (firstClear : first.isFaulted = false) (secondClear : second.isFaulted = false)
    (sameRemaining : second.remaining = first.remaining) :
    (schema.test right value second).1 = (schema.test left value first).1 ∧
      (schema.test right value second).2.isFaulted = (schema.test left value first).2.isFaulted ∧
      ∀ (guard : Guard) (fresh : Limits), guard.faulted = false →
        fresh.maxDepth = guard.limits.maxDepth - guard.frames →
          (Code.interpret right schema value guard).1 = (schema.check left fresh value).answer ∧
          ((schema.assert right fresh value).answer = .ok () ↔
            (schema.check left fresh value).answer = true) ∧
          ((Code.interpret right schema value guard).2.faulted = true ↔
            ∃ error, (schema.assert left fresh value).answer = .error error ∧
              error.isFault = true) := by
  have sameOutcome (budget : Nat) :
      outcome right budget schema value = outcome left budget schema value :=
    outcome_congr budget schema agree value
  have firstDescribes := test_describes left schema value firstClear
  have secondDescribes := test_describes right schema value secondClear
  rw [sameRemaining, sameOutcome] at secondDescribes
  refine ⟨?_, ?_, ?_⟩
  · rw [Bool.eq_iff_iff, secondDescribes.answer, firstDescribes.answer]
  · rw [secondDescribes.isFaulted_eq, firstDescribes.isFaulted_eq]
  · intro guard fresh clear sameDepth
    have continued := Code.Probe.interpret_computes right schema value guard clear rfl
    rw [Guard.remaining, ← sameDepth, ← verdict_outcome, sameOutcome] at continued
    refine ⟨?_, ?_, ?_⟩
    · rw [Bool.eq_iff_iff, continued.answer, check_answer, verdict_outcome]
    · rw [assert_eq_ok_iff, check_answer, check_answer, meaning_congr _ _ agree]
    · rw [continued.faulted, assert_answer, Outcome.asserted_isFault_iff]

/-- A run that tracks places below a field, and one that does not and in which three references are
active already, on nested lists that use up the budget that is left to both. -/
theorem verdict_of_remaining_nested :
    let schema : Schema := .array 2 (.reference 1)
    let resolve : Resolver := fun _ => .ok schema
    let value : Option Json := some (.array [.array [.array [.array []]]])
    let first := (Context.tracked { maxDepth := 2 }).enter (.field "list")
    let second := Context.resumed { maxDepth := 5 } 3
    (schema.test resolve value second).1 = (schema.test resolve value first).1 ∧
      (schema.test resolve value second).2.isFaulted =
        (schema.test resolve value first).2.isFaulted ∧
      (schema.test resolve value first).2.isFaulted = true := by
  intro schema resolve value first second
  have agree : schema.AgreeFrom resolve resolve := fun _ _ => rfl
  have firstClear : first.isFaulted = false := rfl
  have secondClear : second.isFaulted = false := rfl
  obtain ⟨sameAnswer, sameFault, _⟩ := verdict_of_remaining agree value firstClear secondClear rfl
  exact ⟨sameAnswer, sameFault, rfl⟩

end Schema

end Assay
