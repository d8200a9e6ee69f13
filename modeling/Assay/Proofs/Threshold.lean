import Assay.Proofs.Session

/-!
# The depth limit as a threshold

Whatever a run answers that has not met its depth limit, it answers under every larger limit.  So a
limit that is too small shows as such and never as another verdict, also where a part that rejects
would let the next one be tried.

The same holds of routine code, whose runs only tell whether they have been ended.
-/

namespace Assay

/-- Under a larger limit an assertion answers the same, unless it has met its limit. -/
theorem Registry.assert_of_larger {registry other : Registry} {schema : Schema}
    (agree : schema.AgreeFrom registry.target other.target) {limits larger : Limits}
    (raised : limits.maxDepth ≤ larger.maxDepth)
    (samePreview : larger.previewLength = limits.previewLength) {value : Option Json}
    (enough : ∀ limit path, (registry.assert schema limits value).1 ≠
      .error (.depthLimit limit path)) :
    (other.assert schema larger value).1 = (registry.assert schema limits value).1 := by
  rw [assert_answer] at enough
  have settles := schema.outcome_settles registry.target raised value
  rw [assert_congr agree, assert_answer, assert_answer]
  cases equal : schema.outcome registry.target limits.maxDepth value with
  | tooDeep trail => simp [equal, Outcome.asserted] at enough
  | accepted | rejected failure | unresolved cause =>
      rw [settles (by simp [equal]), equal]
      simp only [Outcome.asserted, samePreview]

/-- What is accepted is accepted under every larger limit. -/
theorem Registry.check_of_larger {registry other : Registry} {schema : Schema}
    (agree : schema.AgreeFrom registry.target other.target) {limits larger : Limits}
    (raised : limits.maxDepth ≤ larger.maxDepth) {value : Option Json}
    (accepts : (registry.check schema limits value).1 = true) :
    (other.check schema larger value).1 = true := by
  rw [check_answer] at accepts ⊢
  have settled : schema.meaning registry.target limits.maxDepth value ≠ .fault .tooDeep := by
    simp [accepts]
  rw [Schema.meaning_congr _ _ agree, Schema.meaning_of_le registry.target raised settled, accepts]

/-- An assertion that meets its limit has met every smaller one. -/
theorem Registry.depthLimit_of_smaller {registry other : Registry} {schema : Schema}
    (agree : schema.AgreeFrom registry.target other.target) {limits larger : Limits}
    (raised : limits.maxDepth ≤ larger.maxDepth)
    (samePreview : larger.previewLength = limits.previewLength) {value : Option Json}
    (met : ∃ limit path, (other.assert schema larger value).1 = .error (.depthLimit limit path)) :
    ∃ limit path, (registry.assert schema limits value).1 = .error (.depthLimit limit path) := by
  by_contra enough
  rw [assert_of_larger agree raised samePreview
    (fun limit path same => enough ⟨limit, path, same⟩)] at met
  exact enough met

namespace Registry.Backs

variable {registry : Registry} {compiled : Compiled}

/-- The code of a compiled routine leaves what the meaning of its schema says. -/
theorem run_describes (backs : registry.Backs compiled.schema compiled.routine.code)
    (limits : Limits) (value : Option Json) :
    (compiled.schema.meaning registry.target limits.maxDepth value).Describes { limits }
      (compiled.routine.code.run registry.target value { limits }) := by
  obtain ⟨resolve, used, expanding, lowers, agree⟩ := backs.lowers
  exact Code.run_computes lowers agree limits.maxDepth value { limits } rfl rfl

/-- Under a larger limit routine code answers the same, unless its run has been ended. -/
theorem run_of_larger {other : Registry}
    (backs : registry.Backs compiled.schema compiled.routine.code)
    (otherBacks : other.Backs compiled.schema compiled.routine.code)
    (agree : compiled.schema.AgreeFrom registry.target other.target) {limits larger : Limits}
    (raised : limits.maxDepth ≤ larger.maxDepth) {value : Option Json}
    (enough : (compiled.routine.code.run registry.target value { limits }).2.faulted = false) :
    (compiled.routine.code.run other.target value { limits := larger }).1 =
        (compiled.routine.code.run registry.target value { limits }).1 ∧
      (compiled.routine.code.run other.target value { limits := larger }).2.faulted = false := by
  have describes := backs.run_describes limits value
  have otherDescribes := otherBacks.run_describes larger value
  rw [describes.faulted] at enough
  have settled : compiled.schema.meaning registry.target limits.maxDepth value ≠
      .fault .tooDeep := by
    intro tooDeep
    rw [tooDeep] at enough
    cases enough
  rw [Schema.meaning_congr _ _ agree, Schema.meaning_of_le registry.target raised settled]
    at otherDescribes
  refine ⟨?_, otherDescribes.faulted.trans enough⟩
  rw [Bool.eq_iff_iff, otherDescribes.answer, describes.answer]

end Registry.Backs

namespace Session

open Registry

/-- The depth limit is a threshold.  What an assertion answers that has not met its limit, it
answers under every larger limit.  So what is accepted stays accepted, and an assertion that meets
its limit has met every smaller one.  The two may happen at different times, as long as the
references that can be reached from the schema lead to the same.

The same holds of a compiled routine at any two times after it was compiled in a session: of its
run, which tells whether it has been ended, of its checks and of its assertions. -/
theorem limit_is_threshold {limits larger : Limits} (raised : limits.maxDepth ≤ larger.maxDepth)
    (samePreview : larger.previewLength = limits.previewLength) (value : Option Json) :
    (∀ (registry other : Registry) (schema : Schema),
      schema.AgreeFrom registry.target other.target →
        ((∀ limit path, (registry.assert schema limits value).1 ≠
            .error (.depthLimit limit path)) →
          (other.assert schema larger value).1 = (registry.assert schema limits value).1) ∧
        ((registry.check schema limits value).1 = true →
          (other.check schema larger value).1 = true) ∧
        ((∃ limit path, (other.assert schema larger value).1 = .error (.depthLimit limit path)) →
          ∃ limit path, (registry.assert schema limits value).1 =
            .error (.depthLimit limit path))) ∧
      ∀ (listening : Option Level) (before : List Step) (name routineName : String)
        (schema : Schema) (compiled : Compiled),
        ((start listening).run before).2.registry.references.bindings.lookup name = some schema →
        (((start listening).run before).2.registry.compile schema).1 = .ok compiled →
        ∀ after afterwards : List Step,
          let session := (((start listening).run before).2.reply (.compile name routineName)).2
          let registry := (session.run after).2.registry
          let other := (session.run afterwards).2.registry
          let run := compiled.routine.code.run registry.target value { limits }
          let rerun := compiled.routine.code.run other.target value { limits := larger }
          (run.2.faulted = false → rerun.1 = run.1 ∧ rerun.2.faulted = false) ∧
            ((registry.checkCompiled compiled limits value).1 = true →
              (other.checkCompiled compiled larger value).1 = true) ∧
            ((∀ limit path, (registry.assertCompiled compiled limits value).1 ≠
                .error (.depthLimit limit path)) →
              (other.checkCompiled compiled larger value).1 =
                  (registry.checkCompiled compiled limits value).1 ∧
                (other.assertCompiled compiled larger value).1 =
                  (registry.assertCompiled compiled limits value).1) := by
  constructor
  · intro registry other schema agree
    exact ⟨assert_of_larger agree raised samePreview, check_of_larger agree raised,
      depthLimit_of_smaller agree raised samePreview⟩
  · intro listening before name routineName schema compiled bound result after afterwards session
      registry other run rerun
    obtain ⟨nodes, sound⟩ := sound_of_run listening before
    obtain ⟨rfl, backsNow⟩ := backs_after_compile _ sound name routineName bound result
    have kept : session.registry.Kept registry := kept_after_reply listening before _ after
    have otherKept : session.registry.Kept other := kept_after_reply listening before _ afterwards
    have backs := backsNow.of_kept kept
    have otherBacks := backsNow.of_kept otherKept
    have agree : compiled.schema.AgreeFrom registry.target other.target :=
      (backsNow.settled.agreeFrom kept).symm.trans (backsNow.settled.agreeFrom otherKept)
    refine ⟨backs.run_of_larger otherBacks agree raised, ?_, ?_⟩
    · rw [backs.checkCompiled_eq, otherBacks.checkCompiled_eq]
      exact check_of_larger agree raised
    · rw [backs.checkCompiled_eq, otherBacks.checkCompiled_eq, backs.assertCompiled_eq,
        otherBacks.assertCompiled_eq]
      intro enough
      have same := assert_of_larger agree raised samePreview enough
      refine ⟨?_, same⟩
      rw [Bool.eq_iff_iff, check_iff_assert, check_iff_assert, same]

/-- Nested lists under a limit that just reaches the number among them, and under the default one,
by the interpreter and by the routine after the name that the reference uses is bound again. -/
theorem limit_is_threshold_of_nested :
    let schema : Schema := .array 2 (.reference 1)
    let compiled : Compiled :=
      { routine := { serial := 0, code := .array (.handover schema "array<array<...>>") }, schema }
    let session := (((start none).run [.define "list" (.array (.named "list"))]).2.reply
      (.compile "list" "routine")).2
    let value : Option Json := some (.array [.array [], .ofInt 5])
    let limits : Limits := { maxDepth := 1 }
    let rebound := (session.run [.define "list" (.word "string")]).2.registry
    let mismatch : Error := .mismatch ⟨[.index 1], "array<array<...>>", "5"⟩
    (session.registry.assert schema limits value).1 = .error mismatch ∧
      (session.registry.assert schema {} value).1 = .error mismatch ∧
      (session.registry.checkCompiled compiled limits value).1 = false ∧
      (rebound.checkCompiled compiled {} value).1 = false ∧
      (session.registry.assertCompiled compiled limits value).1 = .error mismatch ∧
      (rebound.assertCompiled compiled {} value).1 = .error mismatch := by
  intro schema compiled session value limits rebound mismatch
  have raised : limits.maxDepth ≤ ({} : Limits).maxDepth := by decide
  have answer : (session.registry.assert schema limits value).1 = .error mismatch := by
    decide +kernel
  have verdictCompiled : (session.registry.checkCompiled compiled limits value).1 = false := by
    decide +kernel
  have answerCompiled : (session.registry.assertCompiled compiled limits value).1 =
      .error mismatch := by
    decide +kernel
  have noLimit (limit : Nat) (path : Path) :
      (.error (.depthLimit limit path) : Except Error Unit) ≠ .error mismatch := by
    simp [mismatch]
  have threshold := limit_is_threshold raised rfl value
  have same : (session.registry.assert schema {} value).1 =
      (session.registry.assert schema limits value).1 := by
    apply (threshold.1 session.registry session.registry schema fun _ _ => rfl).1
    intro limit path exceeded
    exact noLimit limit path (exceeded.symm.trans answer)
  have compiledThreshold := threshold.2 none [.define "list" (.array (.named "list"))] "list"
    "routine" schema compiled rfl rfl [] [.define "list" (.word "string")]
  obtain ⟨sameVerdict, sameCompiled⟩ := compiledThreshold.2.2 fun limit path exceeded =>
    noLimit limit path (exceeded.symm.trans answerCompiled)
  exact ⟨answer, same.trans answer, verdictCompiled, sameVerdict.trans verdictCompiled,
    answerCompiled, sameCompiled.trans answerCompiled⟩

end Session

end Assay
