import Assay.Proofs.Contract
import Mathlib.Data.List.MinMax

/-!
# The reason that a union gives

When all alternatives of a union reject, there are as many reasons as alternatives.  The union gives
the one that reached furthest down, and the earliest of those that reached equally far.  If none got
below the place of the union, then it is the union itself that was not met.

The reasons are those that the alternatives give when they are asked alone.  So the choice depends
neither on the place of the union, nor on what the run has remembered before, nor on the unions
further out.  An alternative that accepts or that ends the run decides the union at once, and none
behind it is tried.
-/

namespace Assay

/-- The same error, seen from a place from which `path` leads to where it was seen before. -/
def Error.belowPath (path : Path) : Error → Error
  | .mismatch found => .mismatch { found with path := path ++ found.path }
  | .depthLimit limit inner => .depthLimit limit (path ++ inner)
  | error => error

/-- The limits of a run alone in which as many references may become active as in the rest of this
one. -/
def Context.rest (context : Context) : Limits :=
  { context.limits with maxDepth := context.remaining }

/-- What is reported of a failure. -/
def Failure.report (resolve : Resolver) (limits : Limits) (failure : Failure) : Mismatch where
  path := failure.path
  expected := failure.expected.describe resolve
  actual := preview limits.previewLength failure.value

@[simp] theorem Failure.length_path_report (resolve : Resolver) (limits : Limits)
    (failure : Failure) : (failure.report resolve limits).path.length = failure.depth :=
  List.length_reverse

/-! ## What is reported in a context -/

namespace Outcome

variable {resolve : Resolver} {limits : Limits}

theorem asserted_eq_mismatch_iff {outcome : Outcome} {found : Mismatch} :
    outcome.asserted resolve limits = .error (.mismatch found) ↔
      ∃ failure, outcome = .rejected failure ∧ found = failure.report resolve limits := by
  cases outcome <;> simp [asserted, Failure.report, eq_comm]

/-- An outcome that ends a run neither accepts nor rejects. -/
theorem ne_of_isFault {outcome : Outcome} (ends : outcome.verdict.isFault = true) :
    outcome ≠ .accepted ∧ ∀ failure, outcome ≠ .rejected failure := by
  cases outcome <;> simp [verdict, Verdict.isFault] at ends ⊢

theorem Describes.eq_false {outcome : Outcome} {context : Context} {result : Bool × Context}
    (describes : outcome.Describes context result) (notAccepted : outcome ≠ .accepted) :
    result.1 = false := by
  rw [← Bool.not_eq_true, describes.answer, verdict_eq_accept_iff]
  exact notAccepted

/-- What is asserted of an outcome under the limits of the rest of a run is what the run reports
that the outcome describes, as it is seen from its place and with the limit of the whole run. -/
theorem Describes.error_eq {outcome : Outcome} {context : Context} {result : Bool × Context}
    (describes : outcome.Describes context result) (tracking : context.tracking = true)
    {error : Error} (asserted : outcome.asserted resolve context.rest = .error error)
    (root : Schema) (whole : Option Json) :
    result.2.error resolve root whole =
      (error.withLimit context.limits.maxDepth).belowPath context.path := by
  have fault := describes.fault
  cases outcome with
  | accepted => cases asserted
  | rejected failure =>
      cases asserted
      have noFault : result.2.fault = none := fault
      have left := describes.failure tracking failure rfl
      have samePath : (failure.below context.trail).path = context.path ++ failure.path :=
        failure.path_below context.trail
      simp only [Context.error, noFault, Context.explanation, left, Option.getD_some, samePath,
        describes.place.limits]
      rfl
  | unresolved cause =>
      cases asserted
      have raised : result.2.fault = some (.schema cause) := fault
      simp [Context.error, raised, Error.withLimit, Error.belowPath]
  | tooDeep trail =>
      cases asserted
      have raised : result.2.fault =
          some (.depthLimit context.limits.maxDepth (context.trailTo trail).reverse) := fault
      simp [Context.error, raised, Error.withLimit, Error.belowPath, Context.trailTo, tracking,
        Context.path]

/-! ## The failure that reached furthest down -/

theorem choose_rejected (schema : Schema) (value : Option Json) (failures : List Failure)
    (best : Option Failure) :
    choose schema value (failures.map .rejected) best =
      choose schema value []
        (failures.foldl (fun best failure => Test.deeper best (some failure)) best) := by
  induction failures generalizing best with
  | nil => rfl
  | cons failure rest ih => exact ih _

/-- The failure that is kept is the first one whose report has the longest path. -/
theorem argmax_report (resolve : Resolver) (limits : Limits) (failures : List Failure) :
    (failures.map (Failure.report resolve limits)).argmax (fun found => found.path.length) =
      (failures.foldl (fun best failure => Test.deeper best (some failure)) none).map
        (Failure.report resolve limits) := by
  -- Both keep the earlier of two that get equally far, and both are known by their last step.
  induction failures using List.reverseRecOn with
  | nil => rfl
  | append_singleton before failure ih =>
      rw [List.map_append, List.map_singleton, List.argmax_concat, ih, List.foldl_append]
      cases before.foldl (fun best failure => Test.deeper best (some failure)) none with
      | none => rfl
      | some best =>
          simp only [List.foldl_cons, List.foldl_nil, Test.deeper, Option.map_some,
            Failure.length_path_report]
          split <;> rfl

/-- If all alternatives reject, so does the union.  If no report has a path, the reason is that the
union is not met, and otherwise it is the first failure whose report has the longest path. -/
theorem choose_of_rejected (resolve : Resolver) (limits : Limits) (schema : Schema)
    (value : Option Json) (failures : List Failure) :
    ∃ failure, choose schema value (failures.map .rejected) none = .rejected failure ∧
      ((∀ found ∈ failures.map (Failure.report resolve limits), found.path = []) →
        failure = { expected := schema, value, trail := [] }) ∧
      ((¬ ∀ found ∈ failures.map (Failure.report resolve limits), found.path = []) →
        failure.report resolve limits ∈
          (failures.map (Failure.report resolve limits)).argmax
            fun found => found.path.length) := by
  have kept := argmax_report resolve limits failures
  rw [choose_rejected]
  generalize failures.map (Failure.report resolve limits) = reports at kept ⊢
  cases same : failures.foldl (fun best failure => Test.deeper best (some failure)) none with
  | none =>
      rw [same, Option.map_none, List.argmax_eq_none] at kept
      subst kept
      exact ⟨_, rfl, fun _ => rfl, fun deep => (deep (by simp)).elim⟩
  | some deepest =>
      rw [same, Option.map_some] at kept
      have depth := deepest.length_path_report resolve limits
      rw [choose]
      by_cases deep : 0 < deepest.depth
      · rw [if_pos deep]
        refine ⟨deepest, rfl, fun shallow => ?_, fun _ => kept⟩
        rw [← depth, shallow _ (List.argmax_mem kept)] at deep
        cases deep
      · rw [if_neg deep]
        refine ⟨_, rfl, fun _ => rfl, fun notShallow => (notShallow fun found member => ?_).elim⟩
        have longest := List.le_of_mem_argmax member kept
        rw [← List.length_eq_zero_iff]
        omega

/-- If every alternative reports a mismatch, then there is a failure for each of them. -/
theorem rejected_of_mismatches {α : Type} {outcome : α → Outcome} {items : List α}
    {errors : List Mismatch}
    (reported : items.map (fun item => (outcome item).asserted resolve limits) =
      errors.map fun found => .error (.mismatch found)) :
    ∃ failures : List Failure, items.map outcome = failures.map .rejected ∧
      errors = failures.map (Failure.report resolve limits) := by
  induction items generalizing errors with
  | nil => exact ⟨[], rfl, List.map_eq_nil_iff.mp reported.symm⟩
  | cons item rest ih =>
      cases errors with
      | nil => cases reported
      | cons found errors =>
          obtain ⟨here, further⟩ := List.cons_eq_cons.mp reported
          obtain ⟨failure, rejected, rfl⟩ := asserted_eq_mismatch_iff.mp here
          obtain ⟨failures, outcomes, rfl⟩ := ih further
          exact ⟨failure :: failures, by rw [List.map_cons, rejected, outcomes]; rfl, rfl⟩

end Outcome

/-! ## Alternatives that decide -/

namespace Test

/-- Whatever stands behind an alternative that accepts or ends the run is not tried. -/
theorem tryEach_of_decisive {α : Type} {test : α → Test} {outcome : α → Outcome}
    {decisive : Test} {decision : Outcome} {value : Option Json} {budget : Nat} {before : List α}
    (each : ∀ item ∈ before, Run.Computes (test item value) budget (outcome item))
    (rejects : ∀ item ∈ before, ∃ failure, outcome item = .rejected failure)
    (decides : Run.Computes (decisive value) budget decision)
    (decided : ∀ failure, decision ≠ .rejected failure) (schema other : Schema) (start : Nat)
    (prior best found : Option Failure) (later others : List Test) {context : Context}
    (clear : context.isFaulted = false) (enough : context.remaining = budget) :
    tryEach schema value start prior (before.map test ++ decisive :: later) best context =
      tryEach other value start prior (before.map test ++ decisive :: others) found context := by
  induction before generalizing best found context with
  | nil =>
      have describes := decides context clear enough
      simp only [List.map_nil, List.nil_append, tryEach]
      generalize decisive value context = result at describes ⊢
      obtain ⟨accepted, middle⟩ := result
      cases accepted with
      | true => rfl
      | false =>
          cases decision with
          | accepted => exact (describes.ne_accepted rfl).elim
          | rejected failure => exact (decided failure rfl).elim
          | unresolved cause | tooDeep trail =>
              have faulted : (middle.resetTo start).isFaulted = true := describes.isFaulted
              simp only [faulted, if_true]
  | cons item rest ih =>
      obtain ⟨failure, rejected⟩ := rejects item (by simp)
      have describes := each item (by simp) context clear enough
      rw [rejected] at describes
      simp only [List.map_cons, List.cons_append, tryEach]
      generalize test item value context = result at describes ⊢
      obtain ⟨accepted, middle⟩ := result
      cases accepted with
      | true => cases describes.eq_accepted
      | false =>
          have stillClear : (middle.resetTo start).isFaulted = false := describes.isFaulted
          have sameRoom : (middle.resetTo start).remaining = budget :=
            describes.place.remaining.trans enough
          simp only [stillClear, Bool.false_eq_true, if_false]
          exact ih (fun later member => each later (by simp [member]))
            (fun later member => rejects later (by simp [member])) _ _ stillClear sameRoom

end Test

/-- An alternative that accepts or ends the run, behind alternatives that reject, gives the outcome
of all. -/
theorem Outcome.choose_of_decisive {α : Type} {outcome : α → Outcome} {decision : Outcome}
    {before : List α} (rejects : ∀ item ∈ before, ∃ failure, outcome item = .rejected failure)
    (decided : ∀ failure, decision ≠ .rejected failure) (schema : Schema) (value : Option Json)
    (later : List Outcome) (best : Option Failure) :
    choose schema value (before.map outcome ++ decision :: later) best = decision := by
  induction before generalizing best with
  | nil =>
      cases decision with
      | rejected failure => exact (decided failure rfl).elim
      | accepted | unresolved cause | tooDeep trail => rfl
  | cons item rest ih =>
      obtain ⟨failure, rejected⟩ := rejects item (by simp)
      rw [List.map_cons, List.cons_append, rejected, choose]
      exact ih (fun earlier member => rejects earlier (by simp [member])) _

namespace Schema

section Union

variable (resolve : Resolver) (id : NodeId) (value : Option Json) {context : Context}

/-- In every context a union leaves what the outcomes of its alternatives say. -/
theorem test_union_describes (alternatives : List Schema) (clear : context.isFaulted = false) :
    (Outcome.choose (.union id alternatives) value
      (alternatives.map fun alternative => alternative.outcome resolve context.remaining value)
      none).Describes context ((Schema.union id alternatives).test resolve value context) := by
  rw [← outcome_union]
  exact test_describes resolve _ value clear

/-- Behind alternatives that reject, one that accepts or ends the run decides the union, and
whatever stands behind it makes no difference. -/
theorem test_union_of_decisive {before : List Schema} {decisive : Schema}
    (rejects : ∀ earlier ∈ before, ∃ failure,
      earlier.outcome resolve context.remaining value = .rejected failure)
    (decided : ∀ failure, decisive.outcome resolve context.remaining value ≠ .rejected failure)
    (later : List Schema) (clear : context.isFaulted = false) :
    let result := (Schema.union id (before ++ decisive :: later)).test resolve value context
    (decisive.outcome resolve context.remaining value).Describes context result ∧
      ∀ others, (Schema.union id (before ++ decisive :: others)).test resolve value context =
        result := by
  intro result
  constructor
  · have describes := test_union_describes resolve id value (before ++ decisive :: later) clear
    rw [List.map_append, List.map_cons, Outcome.choose_of_decisive rejects decided] at describes
    exact describes
  · intro others
    have computes (schema : Schema) : Run.Computes
        (schema.testWithin resolve context.remaining value) context.remaining
        (schema.outcome resolve context.remaining value) :=
      (testWithin_computes resolve context.remaining schema).runs value
    have stillClear : (context.withFailure none).isFaulted = false := clear
    simp only [result, Schema.test, testWithin_union _ _ clear, Test.union, List.map_append,
      List.map_cons]
    exact Test.tryEach_of_decisive (fun earlier _ => computes earlier) rejects (computes decisive)
      decided _ _ _ _ _ _ _ _ stillClear rfl

end Union

end Schema

namespace Registry

variable {registry other : Registry} {id : NodeId} {alternatives : List Schema}

/-- A union decides by its alternatives, asked alone about the same value and with as much room for
references as the run has left.  They may be asked by another registry, as long as every reference
that can be reached from the union leads there to what it leads to here.

The first alternative that does not reject decides.  If it accepts, the union accepts.  If it ends
the run, then with its own error, seen from the place of the union and with the limit of the whole
run, and whatever stands behind it makes no difference.

If all alternatives reject, the union gives the error with the longest path, and the first of these,
seen from its place; but if no path leads below the place of the union, then the union itself was
not met there. -/
theorem union_selects_deepest
    (agree : (Schema.union id alternatives).AgreeFrom registry.target other.target)
    (value : Option Json) {context : Context} (clear : context.isFaulted = false) :
    let union := Schema.union id alternatives
    let alone := fun alternative : Schema => (other.assert alternative context.rest value).1
    let result := union.test registry.target value context
    let reports := fun error : Error => context.tracking = true →
      ∀ root whole, result.2.error registry.target root whole = error
    (∀ before decisive later, alternatives = before ++ decisive :: later →
      (∀ earlier ∈ before, ∃ found, alone earlier = .error (.mismatch found)) →
        (alone decisive = .ok () → result.1 = true ∧ result.2.isFaulted = false) ∧
        ∀ error, alone decisive = .error error → error.isFault = true →
          result.1 = false ∧ result.2.isFaulted = true ∧
            reports ((error.withLimit context.limits.maxDepth).belowPath context.path) ∧
            ∀ others, (Schema.union id (before ++ decisive :: others)).test registry.target value
              context = result) ∧
    ∀ errors : List Mismatch,
      alternatives.map alone = errors.map (fun found => .error (.mismatch found)) →
        result.1 = false ∧ result.2.isFaulted = false ∧
          ((∀ found ∈ errors, found.path = []) →
            reports (.mismatch ⟨context.path, union.describe registry.target,
              preview context.limits.previewLength value⟩)) ∧
          ((¬ ∀ found ∈ errors, found.path = []) →
            ∃ deepest ∈ errors.argmax (fun found => found.path.length),
              reports (.mismatch { deepest with path := context.path ++ deepest.path })) := by
  intro union alone result reports
  let outcome := fun alternative : Schema =>
    alternative.outcome registry.target context.remaining value
  have aloneIs : ∀ alternative ∈ alternatives,
      alone alternative = (outcome alternative).asserted registry.target context.rest := by
    intro alternative member
    exact (assert_congr (agree.child member)).trans (assert_answer registry alternative _ value)
  constructor
  · rintro before decisive later rfl rejectAlone
    have rejects : ∀ earlier ∈ before, ∃ failure, outcome earlier = .rejected failure := by
      intro earlier member
      obtain ⟨found, rejected⟩ := rejectAlone earlier member
      rw [aloneIs earlier (by simp [member])] at rejected
      obtain ⟨failure, rejected, _⟩ := Outcome.asserted_eq_mismatch_iff.mp rejected
      exact ⟨failure, rejected⟩
    rw [aloneIs decisive (by simp)]
    constructor
    · intro accepts
      have accepted : outcome decisive = .accepted := Outcome.asserted_eq_ok_iff.mp accepts
      have decided : ∀ failure, outcome decisive ≠ .rejected failure := by simp [accepted]
      have describes := (Schema.test_union_of_decisive _ id _ rejects decided later clear).1
      change (outcome decisive).Describes context result at describes
      rw [accepted] at describes
      exact ⟨describes.answer.mpr rfl, describes.isFaulted⟩
    · intro error failed isFault
      have ends : (outcome decisive).verdict.isFault = true :=
        Outcome.asserted_isFault_iff.mp ⟨error, failed, isFault⟩
      obtain ⟨notAccepted, decided⟩ := Outcome.ne_of_isFault ends
      obtain ⟨describes, same⟩ :=
        Schema.test_union_of_decisive _ id _ rejects decided later clear
      exact ⟨describes.eq_false notAccepted, describes.isFaulted_eq.trans ends,
        fun tracking root whole => describes.error_eq tracking failed root whole, same⟩
  · intro errors mismatches
    rw [List.map_congr_left aloneIs] at mismatches
    obtain ⟨failures, outcomes, rfl⟩ := Outcome.rejected_of_mismatches mismatches
    obtain ⟨failure, rejected, shallow, deep⟩ :=
      Outcome.choose_of_rejected registry.target context.rest union value failures
    have describes := Schema.test_union_describes registry.target id value alternatives clear
    rw [outcomes, rejected] at describes
    have reported : reports (.mismatch
        { failure.report registry.target context.rest with
          path := context.path ++ failure.path }) :=
      fun tracking root whole => describes.error_eq tracking rfl root whole
    refine ⟨describes.eq_false (by simp), describes.isFaulted, fun noPath => ?_, fun somePath => ?_⟩
    · rw [shallow noPath] at reported
      simp only [Failure.path, List.reverse_nil, List.append_nil] at reported
      exact reported
    · exact ⟨_, deep somePath, reported⟩

/-- Inside an array that has remembered something else before, a union fails by the first of two
alternatives that get equally far.  The last alternative is a union itself. -/
theorem union_selects_deepest_of_sizes :
    let sized (id : NodeId) (size : Schema) : Schema := .object id [("size", size)]
    let schema : Schema := .union 12
      [.primitive 1 .string, sized 3 (.primitive 2 .string),
        sized 6 (.object 5 [("unit", .primitive 4 .string)]),
        .union 11 [.literal 7 .null, sized 10 (.object 9 [("unit", .primitive 8 .boolean)])]]
    let value : Option Json := some (.object [("size", .object [("unit", .ofInt 5)])])
    let context := (((Context.tracked {}).enter (.field "items")).enter (.index 3)).expect
      (.primitive 13 .boolean) none
    let result := schema.test (target {}) value context
    ∀ root whole, result.2.error (target {}) root whole =
      .mismatch ⟨[.field "items", .index 3, .field "size", .field "unit"], "string", "5"⟩ := by
  intro sized schema value context result
  have agree : schema.AgreeFrom (target {}) (target {}) := fun _ _ => rfl
  have clear : context.isFaulted = false := rfl
  let errors : List Mismatch :=
    [⟨[], "string", "\x7b\"size\":\x7b\"unit\":5\x7d\x7d"⟩,
      ⟨[.field "size"], "string", "\x7b\"unit\":5\x7d"⟩,
      ⟨[.field "size", .field "unit"], "string", "5"⟩,
      ⟨[.field "size", .field "unit"], "boolean", "5"⟩]
  obtain ⟨deepest, isDeepest, reports⟩ :=
    ((union_selects_deepest agree value clear).2 errors rfl).2.2.2 (by decide)
  cases isDeepest
  exact reports rfl

end Registry

end Assay
