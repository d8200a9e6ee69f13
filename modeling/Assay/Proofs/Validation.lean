import Assay.Proofs.Outcome
import Assay.Proofs.References
import Assay.Registry

/-!
# Runs of the interpreter

A run over a value carries a context along, in which it goes down and up, counts active references,
remembers the last expectation and raises faults.  Here each test is shown to leave exactly what the
outcome of its schema says: the run comes back to the place and the count at which it started, and
what it reports is the outcome as it is seen from there.

Each way of combining tests has one lemma.  The run of a schema follows from them by induction on
the schema, and by induction on the budget through references. -/

namespace Assay

namespace Context

/-- The trail to a place that is `trail` further down.  A run that does not track places knows only
where it started. -/
def trailTo (context : Context) (trail : List Segment) : List Segment :=
  if context.tracking then trail ++ context.trail else context.trail

section Moves

variable (context : Context)

/-- Going down changes nothing but the place. -/
theorem enter_eq (segment : Segment) :
    context.enter segment = { context with trail := context.trailTo [segment] } := by
  rw [enter, trailTo]
  split <;> rfl

/-- Going back up changes nothing but the place. -/
theorem back_eq : context.back =
    { context with trail := if context.tracking then context.trail.tail else context.trail } := by
  rw [back]
  split <;> rfl

theorem enterReference_of_full (full : context.limits.maxDepth ≤ context.frames) :
    context.enterReference =
      (false, (context.note (.depthExceeded context.limits.maxDepth (some context.path))).raise
        (.depthLimit context.limits.maxDepth context.path)) := by
  simp [enterReference, full]

theorem enterReference_of_room (room : ¬ context.limits.maxDepth ≤ context.frames) :
    context.enterReference = (true, { context with frames := context.frames + 1 }) := by
  simp [enterReference, room]

theorem isFaulted_eq_false_iff : context.isFaulted = false ↔ context.fault = none := by
  simp [isFaulted]

end Moves

end Context

/-- Two contexts of one run stand at the same place, with the same references active. -/
structure Context.SamePlace (before after : Context) : Prop where
  limits : after.limits = before.limits
  tracking : after.tracking = before.tracking
  trail : after.trail = before.trail
  frames : after.frames = before.frames

namespace Context.SamePlace

variable {before middle after : Context}

theorem refl (context : Context) : context.SamePlace context := ⟨rfl, rfl, rfl, rfl⟩

theorem trans (first : before.SamePlace middle) (second : middle.SamePlace after) :
    before.SamePlace after where
  limits := second.limits.trans first.limits
  tracking := second.tracking.trans first.tracking
  trail := second.trail.trans first.trail
  frames := second.frames.trans first.frames

theorem withFailure (place : before.SamePlace after) (failure : Option Failure) :
    before.SamePlace (after.withFailure failure) :=
  ⟨place.limits, place.tracking, place.trail, place.frames⟩

theorem expect (place : before.SamePlace after) (schema : Schema) (value : Option Json) :
    before.SamePlace (after.expect schema value) := by
  rw [Context.expect]
  split
  · exact place.withFailure _
  · exact place

theorem remaining (place : before.SamePlace after) : after.remaining = before.remaining := by
  rw [Context.remaining, Context.remaining, place.limits, place.frames]

theorem trailTo (place : before.SamePlace after) (trail : List Segment) :
    after.trailTo trail = before.trailTo trail := by
  rw [Context.trailTo, Context.trailTo, place.tracking, place.trail]

end Context.SamePlace

namespace Outcome

/-- The fault with which an outcome ends a run. -/
def fault? (outcome : Outcome) (context : Context) : Option Fault :=
  match outcome with
  | .unresolved cause => some (.schema cause)
  | .tooDeep trail => some (.depthLimit context.limits.maxDepth (context.trailTo trail).reverse)
  | _ => none

/-- An outcome describes what a run that starts in a context answers and leaves. -/
structure Describes (outcome : Outcome) (before : Context) (result : Bool × Context) : Prop where
  answer : result.1 = true ↔ outcome.verdict = .accept
  place : before.SamePlace result.2
  fault : result.2.fault = outcome.fault? before
  failure : before.tracking = true → ∀ failure, outcome = .rejected failure →
    result.2.failure = some (failure.below before.trail)

namespace Describes

variable {outcome : Outcome} {before middle : Context} {result : Bool × Context}

/-- A run that starts where another one came back to reports as if it had started there. -/
theorem ofSamePlace (place : before.SamePlace middle)
    (describes : outcome.Describes middle result) : outcome.Describes before result where
  answer := describes.answer
  place := place.trans describes.place
  fault := by
    rw [describes.fault]
    simp only [fault?]
    simp only [place.limits, place.trailTo]
  failure := fun tracking failure rejected => by
    rw [describes.failure (place.tracking.trans tracking) failure rejected, place.trail]

theorem isFaulted (describes : outcome.Describes before result) :
    result.2.isFaulted = (outcome.fault? before).isSome := by
  rw [Context.isFaulted, describes.fault]

theorem eq_accepted (describes : outcome.Describes before (true, middle)) :
    outcome = .accepted := by
  have accepts := describes.answer.mp rfl
  cases outcome <;> first | rfl | cases accepts

theorem ne_accepted (describes : outcome.Describes before (false, middle)) :
    outcome ≠ .accepted := by
  rintro rfl
  cases describes.answer.mpr rfl

theorem accepted {after : Context} (place : before.SamePlace after)
    (clear : after.isFaulted = false) : Outcome.accepted.Describes before (true, after) where
  answer := by simp [verdict]
  place := place
  fault := after.isFaulted_eq_false_iff.mp clear
  failure := fun _ _ rejected => by cases rejected

theorem rejected {after : Context} {failure : Failure} (place : before.SamePlace after)
    (clear : after.isFaulted = false)
    (left : before.tracking = true → after.failure = some (failure.below before.trail)) :
    (Outcome.rejected failure).Describes before (false, after) where
  answer := by simp [verdict]
  place := place
  fault := after.isFaulted_eq_false_iff.mp clear
  failure := fun tracking other same => by
    cases same
    exact left tracking

end Describes

end Outcome

/-- A run computes an outcome: it leaves what the outcome says in every context of the budget in
which no fault has been raised. -/
def Run.Computes (run : Run) (budget : Nat) (outcome : Outcome) : Prop :=
  ∀ context : Context, context.isFaulted = false → context.remaining = budget →
    outcome.Describes context (run context)

namespace Run

variable {budget : Nat}

theorem all_computes {α : Type} {run : α → Run} {outcome : α → Outcome} {items : List α}
    (each : ∀ item ∈ items, (run item).Computes budget (outcome item)) :
    (Run.all (items.map run)).Computes budget (.all (items.map outcome)) := by
  induction items with
  | nil =>
      intro context clear _
      exact .accepted (.refl context) clear
  | cons item rest ih =>
      intro context clear enough
      have describes := each item (by simp) context clear enough
      simp only [List.map_cons, Run.all, Outcome.all_cons]
      generalize run item context = result at describes ⊢
      obtain ⟨accepted, middle⟩ := result
      cases accepted with
      | true =>
          have accepts := describes.eq_accepted
          rw [accepts] at describes ⊢
          exact .ofSamePlace describes.place (ih (fun item member => each item (by simp [member]))
            middle describes.isFaulted (describes.place.remaining.trans enough))
      | false =>
          rw [Outcome.both_of_ne_accepted describes.ne_accepted]
          exact describes

end Run

namespace Test

variable {budget : Nat}

theorem reject_computes (schema : Schema) (value : Option Json) :
    Run.Computes (reject schema value) budget (.unmet schema value) := by
  intro context clear _
  apply Outcome.Describes.rejected
  · exact (Context.SamePlace.refl context).expect schema value
  · rw [Context.expect]
    split <;> exact clear
  · intro tracking
    simp [Context.expect, tracking, Failure.below]

theorem leaf_computes (schema : Schema) (accepts : Option Json → Bool) (value : Option Json) :
    Run.Computes (leaf schema accepts value) budget (.leaf schema accepts value) := by
  intro context clear enough
  rw [leaf, Outcome.leaf]
  split
  · exact .accepted (.refl context) clear
  · exact reject_computes schema value context clear enough

/-- Seen from one step further up, an outcome ends a run with the same fault. -/
theorem fault?_enter (outcome : Outcome) (context : Context) (segment : Segment) :
    outcome.fault? (context.enter segment) = (outcome.below [segment]).fault? context := by
  cases outcome with
  | tooDeep trail =>
      simp only [Context.enter_eq, Outcome.fault?, Outcome.below, Context.trailTo]
      split <;> simp
  | accepted | rejected failure | unresolved cause => rfl

theorem under_computes {test : Test} {segment : Segment} {value : Option Json} {outcome : Outcome}
    (computes : (test value).Computes budget outcome) :
    Run.Computes (test.under segment value) budget (outcome.below [segment]) := by
  intro context clear enough
  have describes := computes (context.enter segment) (by rw [Context.enter_eq]; exact clear)
    (by rw [Context.enter_eq]; exact enough)
  have fault := describes.fault
  rw [fault?_enter] at fault
  rw [Context.enter_eq] at describes
  simp only [under, Context.enter_eq] at fault ⊢
  generalize test value { context with trail := context.trailTo [segment] } = result
    at describes fault ⊢
  obtain ⟨accepted, after⟩ := result
  have tracking : after.tracking = context.tracking := describes.place.tracking
  have trail : after.trail = context.trailTo [segment] := describes.place.trail
  rw [Context.back_eq]
  constructor
  case answer => rw [Outcome.verdict_below]; exact describes.answer
  case place =>
      refine ⟨describes.place.limits, tracking, ?_, describes.place.frames⟩
      simp only [tracking, trail, Context.trailTo]
      split <;> rfl
  case fault => exact fault
  case failure =>
      intro isTracking failure rejected
      cases outcome with
      | rejected inner =>
          cases rejected
          rw [describes.failure isTracking inner rfl]
          simp [Failure.below, Context.trailTo, isTracking]
      | accepted | unresolved cause | tooDeep trail => cases rejected

/-- A test computes an outcome for every value, and changes nothing once a fault has ended the
run. -/
structure Computes (test : Test) (budget : Nat) (outcome : Option Json → Outcome) : Prop where
  stops : ∀ value context, context.isFaulted = true → test value context = (false, context)
  runs : ∀ value, (test value).Computes budget (outcome value)

theorem both_computes {first second : Test} {outcome next : Option Json → Outcome}
    (firstComputes : first.Computes budget outcome) (secondComputes : second.Computes budget next)
    (value : Option Json) :
    Run.Computes (Test.both first second value) budget ((outcome value).both (next value)) := by
  intro context clear enough
  have describes := firstComputes.runs value context clear enough
  rw [Test.both]
  generalize first value context = result at describes ⊢
  obtain ⟨accepted, middle⟩ := result
  cases accepted with
  | true =>
      have accepts := describes.eq_accepted
      rw [accepts] at describes ⊢
      exact .ofSamePlace describes.place (secondComputes.runs value middle describes.isFaulted
        (describes.place.remaining.trans enough))
  | false =>
      rw [Outcome.both_of_ne_accepted describes.ne_accepted]
      exact describes

theorem either_computes {first second : Test} {outcome next : Option Json → Outcome}
    (firstComputes : first.Computes budget outcome) (secondComputes : second.Computes budget next)
    (value : Option Json) :
    Run.Computes (Test.either first second value) budget ((outcome value).either (next value)) := by
  intro context clear enough
  have describes := firstComputes.runs value context clear enough
  rw [Test.either]
  generalize first value context = result at describes ⊢
  obtain ⟨accepted, middle⟩ := result
  cases accepted with
  | true =>
      have accepts := describes.eq_accepted
      rw [accepts] at describes ⊢
      exact describes
  | false =>
      have rejects := describes.ne_accepted
      cases equal : outcome value with
      | accepted => exact (rejects equal).elim
      | rejected failure =>
          rw [equal] at describes
          exact .ofSamePlace describes.place (secondComputes.runs value middle
            describes.isFaulted (describes.place.remaining.trans enough))
      | unresolved cause | tooDeep trail =>
          -- The first test has ended the run, so the second changes nothing.
          rw [equal] at describes
          change Outcome.Describes _ context (second value middle)
          rw [secondComputes.stops value middle describes.isFaulted]
          exact describes

/-- The failures that reach furthest down are the same wherever they are seen from. -/
theorem deeper_below (outer : List Segment) (best : Option Failure) (failure : Failure) :
    deeper (best.map (·.below outer)) (some (failure.below outer)) =
      (deeper best (some failure)).map (·.below outer) := by
  cases best with
  | none => rfl
  | some best =>
      simp only [deeper, Option.map_some, Failure.depth_below, Nat.add_lt_add_iff_right]
      split <;> rfl

theorem tryEach_nil_describes (schema : Schema) (value : Option Json)
    {prior best found : Option Failure} {context : Context} (clear : context.isFaulted = false)
    (sameBest : context.tracking = true → found = best.map (·.below context.trail)) :
    (Outcome.choose schema value [] best).Describes context
      (tryEach schema value context.trail.length prior [] found context) := by
  have whole := reject_computes schema value context clear rfl
  cases tracking : context.tracking with
  | true =>
      rw [sameBest tracking]
      cases best with
      | none => exact whole
      | some failure =>
          simp only [Outcome.choose, tryEach, Option.map_some, Failure.depth_below]
          by_cases deep : 0 < failure.depth
          · rw [if_pos deep, if_pos (by omega)]
            exact .rejected ((Context.SamePlace.refl context).withFailure _) clear fun _ => rfl
          · rw [if_neg deep, if_neg (by omega)]
            exact whole
  | false =>
      -- What is remembered does not count, so the reason may differ.
      have untracked : ¬ context.tracking = true := by simp [tracking]
      obtain ⟨failure, reason⟩ :
          ∃ failure, Outcome.choose schema value [] best = .rejected failure := by
        cases best with
        | none => exact ⟨_, rfl⟩
        | some failure =>
            rw [Outcome.choose]
            split <;> exact ⟨_, rfl⟩
      rw [reason]
      rw [tryEach]
      split
      · split
        · exact .rejected ((Context.SamePlace.refl context).withFailure _) clear
            fun tracking => (untracked tracking).elim
        · exact .rejected whole.place whole.isFaulted fun tracking => (untracked tracking).elim
      · exact .rejected whole.place whole.isFaulted fun tracking => (untracked tracking).elim

theorem tryEach_describes {alternatives : List Schema} {test : Schema → Test}
    {outcome : Schema → Option Json → Outcome}
    (each : ∀ alternative ∈ alternatives, (test alternative).Computes budget (outcome alternative))
    (schema : Schema) (value : Option Json) {prior best found : Option Failure}
    {context : Context} (clear : context.isFaulted = false) (enough : context.remaining = budget)
    (sameBest : context.tracking = true → found = best.map (·.below context.trail)) :
    (Outcome.choose schema value (alternatives.map fun alternative => outcome alternative value)
      best).Describes context
        (tryEach schema value context.trail.length prior (alternatives.map test) found
          context) := by
  induction alternatives generalizing best found context with
  | nil => exact tryEach_nil_describes schema value clear sameBest
  | cons alternative rest ih =>
      have describes := (each alternative (by simp)).runs value context clear enough
      simp only [List.map_cons, tryEach]
      generalize test alternative value context = result at describes ⊢
      obtain ⟨accepted, middle⟩ := result
      cases accepted with
      | true =>
          have accepts := describes.eq_accepted
          rw [accepts] at describes ⊢
          exact .accepted (describes.place.withFailure prior) describes.isFaulted
      | false =>
          have restored : middle.resetTo context.trail.length = middle := by
            rw [← describes.place.trail]
            simp [Context.resetTo]
          simp only [restored]
          cases equal : outcome alternative value with
          | accepted => exact (describes.ne_accepted equal).elim
          | rejected failure =>
              rw [equal] at describes
              have place := describes.place.withFailure none
              rw [if_neg (by simp [describes.isFaulted, Outcome.fault?]), Outcome.choose,
                ← place.trail]
              apply Outcome.Describes.ofSamePlace place
              apply ih (fun other member => each other (by simp [member]))
              · exact describes.isFaulted
              · exact place.remaining.trans enough
              intro tracking
              rw [place.tracking] at tracking
              rw [sameBest tracking, describes.failure tracking failure rfl, deeper_below,
                place.trail]
          | unresolved cause | tooDeep trail =>
              rw [equal] at describes
              rw [if_pos (by simp [describes.isFaulted, Outcome.fault?])]
              exact describes

theorem union_computes {alternatives : List Schema} {test : Schema → Test}
    {outcome : Schema → Option Json → Outcome}
    (each : ∀ alternative ∈ alternatives, (test alternative).Computes budget (outcome alternative))
    (schema : Schema) (value : Option Json) :
    Run.Computes (Test.union schema (alternatives.map test) value) budget
      (.choose schema value (alternatives.map fun alternative => outcome alternative value)
        none) := by
  intro context clear enough
  have place := (Context.SamePlace.refl context).withFailure none
  have stillClear : (context.withFailure none).isFaulted = false := clear
  exact .ofSamePlace place (tryEach_describes each schema value stillClear enough fun _ => rfl)

/-- A reference that leads nowhere ends the run, also if no reference may become active. -/
theorem reference_computes_of_error {resolve : Resolver} {id : NodeId} {cause : SchemaError}
    (leads : resolve id = .error cause) (descend : Schema → Test) (value : Option Json) :
    Run.Computes (reference resolve descend id value) budget (.unresolved cause) := by
  intro context clear _
  have noFault := context.isFaulted_eq_false_iff.mp clear
  simp only [reference, leads]
  constructor
  case answer => simp [Outcome.verdict]
  case place => exact ⟨rfl, rfl, rfl, rfl⟩
  case fault => simp [Context.raise, Context.note, noFault, Outcome.fault?]
  case failure => simp

theorem reference_computes_zero {resolve : Resolver} {id : NodeId} {target : Schema}
    (leads : resolve id = .ok target) (descend : Schema → Test) (value : Option Json) :
    Run.Computes (reference resolve descend id value) 0 (.tooDeep []) := by
  intro context clear enough
  have noFault := context.isFaulted_eq_false_iff.mp clear
  have full : context.limits.maxDepth ≤ context.frames := by
    simpa [Context.remaining, Nat.sub_eq_zero_iff_le] using enough
  have entered := (context.note (.used id)).enterReference_of_full full
  simp only [reference, leads, entered]
  constructor
  case answer => simp [Outcome.verdict]
  case place => exact ⟨rfl, rfl, rfl, rfl⟩
  case fault =>
      simp [Context.raise, Context.note, noFault, Outcome.fault?, Context.path, Context.trailTo]
  case failure => simp

theorem reference_computes_succ {resolve : Resolver} {id : NodeId} {target : Schema}
    (leads : resolve id = .ok target) {descend : Schema → Test} {outcome : Option Json → Outcome}
    (computes : (descend target).Computes budget outcome) (value : Option Json) :
    Run.Computes (reference resolve descend id value) (budget + 1) (outcome value) := by
  intro context clear enough
  have room : ¬ context.limits.maxDepth ≤ context.frames := by
    simp only [Context.remaining] at enough
    omega
  have entered := (context.note (.used id)).enterReference_of_room room
  let inner : Context := { context.note (.used id) with frames := context.frames + 1 }
  have ran : reference resolve descend id value context =
      ((descend target value inner).1, (descend target value inner).2.leaveReference) := by
    simp only [reference, leads, entered]
    rfl
  have describes : (outcome value).Describes inner (descend target value inner) := by
    apply computes.runs value inner clear
    simp only [Context.remaining] at enough
    simp only [inner, Context.remaining, Context.note]
    omega
  rw [ran]
  constructor
  case answer => exact describes.answer
  case place =>
      have frames : (descend target value inner).2.frames = context.frames + 1 :=
        describes.place.frames
      exact ⟨describes.place.limits, describes.place.tracking, describes.place.trail,
        by simp [Context.leaveReference, frames]⟩
  case fault => exact describes.fault
  case failure => exact describes.failure

end Test

namespace Schema

variable {resolve : Resolver} {descend : Schema → Test}

theorem testsBy_eq_map (schemas : List Schema) :
    testsBy resolve descend schemas = schemas.map (testBy resolve descend) := by
  induction schemas with
  | nil => rfl
  | cons schema rest ih => rw [testsBy, ih, List.map_cons]

theorem fieldTestsBy_eq_map (fields : List (String × Schema)) :
    fieldTestsBy resolve descend fields =
      fields.map fun field => (field.1, testBy resolve descend field.2) := by
  induction fields with
  | nil => rfl
  | cons field rest ih => rw [fieldTestsBy, ih, List.map_cons]

/-- The test of one node, where `test` tests its parts and `descend` what a reference leads to. -/
def testOnce (resolve : Resolver) (test descend : Schema → Test) (schema : Schema) : Test :=
  fun value context =>
    if context.isFaulted then (false, context)
    else match schema with
      | .primitive _ kind => Test.leaf schema kind.accepts value context
      | .literal _ expected => Test.leaf schema expected.accepts value context
      | .container _ kind => Test.leaf schema kind.accepts value context
      | .oneOf _ members =>
          Test.leaf schema (fun value => members.any (·.accepts value)) value context
      | .custom _ rule => Test.leaf schema rule.acceptsOption value context
      | .both _ first second => Test.both (test first) (test second) value context
      | .either _ first second => Test.either (test first) (test second) value context
      | .array _ item => Test.array schema (test item) value context
      | .record _ item => Test.record schema (test item) value context
      | .tuple _ positions => Test.tuple schema (positions.map test) value context
      | .object _ fields =>
          Test.object schema (fields.map fun field => (field.1, test field.2)) value context
      | .union _ alternatives => Test.union schema (alternatives.map test) value context
      | .reference id => Test.reference resolve descend id value context

/-- The test of a schema is that of its root node, where the parts are tested in the same way. -/
theorem testBy_eq_testOnce (schema : Schema) :
    testBy resolve descend schema = testOnce resolve (testBy resolve descend) descend schema := by
  funext value context
  cases schema <;> simp only [testBy, testOnce, testsBy_eq_map, fieldTestsBy_eq_map]

section TestOnce

variable {test : Schema → Test} {schema : Schema} {value : Option Json} {context : Context}

theorem testOnce_of_isFaulted (faulted : context.isFaulted = true) :
    testOnce resolve test descend schema value context = (false, context) := by
  unfold testOnce
  rw [if_pos faulted]

theorem testOnce_of_leafTest? {accepts : Option Json → Bool}
    (found : schema.leafTest? = some accepts) (clear : context.isFaulted = false) :
    testOnce resolve test descend schema value context =
      Test.leaf schema accepts value context := by
  cases schema <;> cases found <;> simp [testOnce, clear]

theorem testOnce_of_no_parts (inside : schema.looksInside = true)
    (none : schema.parts? value = none) (clear : context.isFaulted = false) :
    testOnce resolve test descend schema value context = Test.reject schema value context := by
  cases schema with
  | array id item =>
      rcases value with _ | (_ | _ | _ | _ | _ | _) <;>
        first | (cases none; done) | simp [testOnce, clear, Test.array]
  | record id item =>
      rcases value with _ | (_ | _ | _ | _ | _ | _) <;>
        first | (cases none; done) | simp [testOnce, clear, Test.record]
  | object id fields =>
      rcases value with _ | (_ | _ | _ | _ | _ | _) <;>
        first | (cases none; done) | simp [testOnce, clear, Test.object]
  | tuple id positions =>
      rcases value with _ | (_ | _ | _ | _ | elements | _) <;>
        try simp [testOnce, clear, Test.tuple]
      simp [length_ne_of_no_parts none]
  | _ => cases inside

theorem testOnce_of_parts? {parts : List Part} (found : schema.parts? value = some parts)
    (clear : context.isFaulted = false) :
    testOnce resolve test descend schema value context =
      Run.all (parts.map fun part => (test part.schema).under part.segment part.value) context := by
  cases checks_of_parts? found with
  | array id item elements => simp [testOnce, clear, Test.array, map_mapIdx]
  | record id item entries => simp [testOnce, clear, Test.record, Function.comp_def]
  | tuple id positions elements sameLength =>
      simp [testOnce, clear, Test.tuple, sameLength, List.zip_map_left, mapIdx_map, map_mapIdx]
  | object id fields entries => simp [testOnce, clear, Test.object, Function.comp_def]

end TestOnce

theorem testBy_of_isFaulted (schema : Schema) (value : Option Json) {context : Context}
    (faulted : context.isFaulted = true) :
    testBy resolve descend schema value context = (false, context) := by
  rw [testBy_eq_testOnce, testOnce_of_isFaulted faulted]

theorem testBy_computes {outcome : Schema → Option Json → Outcome} {budget : Nat}
    (continues : ∀ id value, Run.Computes (Test.reference resolve descend id value) budget
      (outcomeBy resolve outcome (.reference id) value)) (schema : Schema) :
    (testBy resolve descend schema).Computes budget (outcomeBy resolve outcome schema) := by
  induction schema using inductionOnKinds with
  | leaf schema accepts found =>
      constructor
      · exact fun value context => testBy_of_isFaulted schema value
      · intro value context clear enough
        rw [testBy_eq_testOnce, testOnce_of_leafTest? found clear,
          outcomeBy_of_leafTest? found value]
        exact Test.leaf_computes schema accepts value context clear enough
  | both id first second firstIH secondIH =>
      constructor
      · exact fun value context => testBy_of_isFaulted _ value
      · intro value context clear enough
        rw [outcomeBy, testBy, if_neg (by simp [clear])]
        exact Test.both_computes firstIH secondIH value context clear enough
  | either id first second firstIH secondIH =>
      constructor
      · exact fun value context => testBy_of_isFaulted _ value
      · intro value context clear enough
        rw [outcomeBy, testBy, if_neg (by simp [clear])]
        exact Test.either_computes firstIH secondIH value context clear enough
  | inside schema inside ih =>
      constructor
      · exact fun value context => testBy_of_isFaulted schema value
      · intro value context clear enough
        cases found : schema.parts? value with
        | none =>
            rw [testBy_eq_testOnce, testOnce_of_no_parts inside found clear,
              outcomeBy_of_no_parts inside found]
            exact Test.reject_computes schema value context clear enough
        | some parts =>
            rw [testBy_eq_testOnce, testOnce_of_parts? found clear, outcomeBy_of_parts? found]
            apply Run.all_computes _ context clear enough
            intro part member
            have child := mem_children_of_mem_parts? found member
            exact Test.under_computes ((ih part.schema child).runs part.value)
  | union id alternatives ih =>
      constructor
      · exact fun value context => testBy_of_isFaulted _ value
      · intro value context clear enough
        rw [outcomeBy_union, testBy, if_neg (by simp [clear]), testsBy_eq_map]
        exact Test.union_computes ih _ value context clear enough
  | reference id =>
      constructor
      · exact fun value context => testBy_of_isFaulted _ value
      · intro value context clear enough
        rw [testBy, if_neg (by simp [clear])]
        exact continues id value context clear enough

/-- The run of a schema computes its outcome. -/
theorem testWithin_computes (resolve : Resolver) (budget : Nat) (schema : Schema) :
    (schema.testWithin resolve budget).Computes budget (outcome resolve budget schema) := by
  induction budget generalizing schema with
  | zero =>
      apply testBy_computes
      intro id value
      rw [outcomeBy]
      cases leads : resolve id with
      | error cause => exact Test.reference_computes_of_error leads _ value
      | ok target => exact Test.reference_computes_zero leads _ value
  | succ budget ih =>
      apply testBy_computes
      intro id value
      rw [outcomeBy]
      cases leads : resolve id with
      | error cause => exact Test.reference_computes_of_error leads _ value
      | ok target => exact Test.reference_computes_succ leads (ih target) value

/-- In every context in which no fault has been raised, the test of a schema leaves what its outcome
within the remaining budget says. -/
theorem test_describes (resolve : Resolver) (schema : Schema) (value : Option Json)
    {context : Context} (clear : context.isFaulted = false) :
    (outcome resolve context.remaining schema value).Describes context
      (schema.test resolve value context) :=
  (testWithin_computes resolve context.remaining schema).runs value context clear rfl

/-! ## Answers -/

/-- A check answers yes exactly if the schema accepts within the limit. -/
theorem check_answer (resolve : Resolver) (schema : Schema) (limits : Limits)
    (value : Option Json) :
    (schema.check resolve limits value).answer = true ↔
      schema.meaning resolve limits.maxDepth value = .accept := by
  have clear : (Context.untracked limits).isFaulted = false := rfl
  have describes := test_describes resolve schema value clear
  rw [← verdict_outcome]
  exact describes.answer

end Schema

/-- What an assertion answers when a schema has an outcome. -/
def Outcome.asserted (resolve : Resolver) (limits : Limits) : Outcome → Except Error Unit
  | .accepted => .ok ()
  | .rejected failure =>
      .error (.mismatch
        { path := failure.path
          expected := failure.expected.describe resolve
          actual := preview limits.previewLength failure.value })
  | .unresolved cause => .error (.schema cause)
  | .tooDeep trail => .error (.depthLimit limits.maxDepth trail.reverse)

/-- An assertion answers with the outcome of the schema within the limit. -/
theorem Schema.assert_answer (resolve : Resolver) (schema : Schema) (limits : Limits)
    (value : Option Json) :
    (schema.assert resolve limits value).answer =
      (schema.outcome resolve limits.maxDepth value).asserted resolve limits := by
  have clear : (Context.tracked limits).isFaulted = false := rfl
  have describes := test_describes resolve schema value clear
  change (schema.outcome resolve limits.maxDepth value).Describes _ _ at describes
  rw [Schema.assert]
  generalize schema.test resolve value (.tracked limits) = result at describes ⊢
  obtain ⟨accepted, context⟩ := result
  cases accepted with
  | true =>
      rw [describes.eq_accepted]
      rfl
  | false =>
      have rejects := describes.ne_accepted
      have fault := describes.fault
      have failure := describes.failure rfl
      have limits := describes.place.limits
      simp only at fault failure limits
      cases equal : schema.outcome resolve _ value with
      | accepted => exact (rejects equal).elim
      | rejected reason =>
          rw [equal] at fault failure
          simp [Context.error, fault, Outcome.fault?, Context.explanation, failure reason rfl,
            Outcome.asserted, limits, Failure.below, Failure.path, Context.tracked]
      | unresolved cause =>
          rw [equal] at fault
          simp [Context.error, fault, Outcome.fault?, Outcome.asserted]
      | tooDeep trail =>
          rw [equal] at fault
          simp [Context.error, fault, Outcome.fault?, Outcome.asserted, Context.trailTo,
            Context.tracked]

namespace Registry

variable (registry : Registry) (schema : Schema) (limits : Limits) (value : Option Json)

theorem check_answer :
    (registry.check schema limits value).1 = true ↔
      schema.meaning registry.target limits.maxDepth value = .accept :=
  Schema.check_answer registry.target schema limits value

theorem assert_answer :
    (registry.assert schema limits value).1 =
      (schema.outcome registry.target limits.maxDepth value).asserted registry.target limits :=
  Schema.assert_answer registry.target schema limits value

/-- Checks and assertions answer by the meaning of the schema within the limit: a check answers yes
exactly if the schema accepts, and an assertion tells acceptance, rejection and the two reasons for
having no verdict apart.  What the meaning takes a reference to lead to is what its chain leads to,
and an error exactly if the chain comes back to itself or has been found to. -/
theorem answers_follow_meaning :
    ((registry.check schema limits value).1 = true ↔
        schema.meaning registry.target limits.maxDepth value = .accept) ∧
      ((registry.assert schema limits value).1 = .ok () ↔
        schema.meaning registry.target limits.maxDepth value = .accept) ∧
      ((∃ found, (registry.assert schema limits value).1 = .error (.mismatch found)) ↔
        schema.meaning registry.target limits.maxDepth value = .reject) ∧
      ((∃ limit path, (registry.assert schema limits value).1 = .error (.depthLimit limit path)) ↔
        schema.meaning registry.target limits.maxDepth value = .fault .tooDeep) ∧
      (∀ cause, (registry.assert schema limits value).1 = .error (.schema cause) ↔
        schema.meaning registry.target limits.maxDepth value = .fault (.unresolved cause)) ∧
      ∀ id result, registry.target id = result ↔
        (∃ steps, registry.references.LeadsIn steps id result) ∨
          (∀ steps other, ¬ registry.references.LeadsIn steps id other) ∧
            result = .error .cyclicReference := by
  refine ⟨check_answer registry schema limits value, ?_⟩
  rw [assert_answer, ← Schema.verdict_outcome]
  refine ⟨?_, ?_, ?_, ?_, fun id result => References.target_eq_iff⟩ <;>
    cases schema.outcome registry.target limits.maxDepth value <;>
    simp [Outcome.asserted, Outcome.verdict]

end Registry

end Assay
