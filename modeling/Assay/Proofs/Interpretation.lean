import Assay.Proofs.Chain
import Assay.Proofs.Validation

/-!
# The calls of a run

A run tests a value against a schema by further tests: of the parts of the value against the parts of
the schema, and of the same value against what a reference leads to.  Schemas may lead back to
themselves without going down in the value, so neither of them gets smaller all the way down.

What gets smaller at a reference is the number of references that may still become active, and at
every other schema it is the schema.  So the tests that are going on at any moment are finitely many,
and the references among them are those that the context counts as active.
-/

namespace Assay

/-- Two contexts of one run, maybe at different places, have the same number of references active. -/
structure Context.SameCount (before after : Context) : Prop where
  limits : after.limits = before.limits
  frames : after.frames = before.frames

namespace Context.SameCount

variable {before middle after : Context}

theorem refl (context : Context) : context.SameCount context := ⟨rfl, rfl⟩

theorem trans (first : before.SameCount middle) (second : middle.SameCount after) :
    before.SameCount after :=
  ⟨second.limits.trans first.limits, second.frames.trans first.frames⟩

theorem ofSamePlace (place : before.SamePlace after) : before.SameCount after :=
  ⟨place.limits, place.frames⟩

theorem remaining (same : before.SameCount after) : after.remaining = before.remaining := by
  rw [Context.remaining, Context.remaining, same.limits, same.frames]

theorem enter (same : before.SameCount after) (segment : Segment) :
    before.SameCount (after.enter segment) := by
  rw [Context.enter_eq]
  exact ⟨same.limits, same.frames⟩

theorem back (same : before.SameCount after) : before.SameCount after.back := by
  rw [Context.back_eq]
  exact ⟨same.limits, same.frames⟩

end Context.SameCount

namespace Schema

/-- A test of a value against a schema, in the context in which a run makes it. -/
structure Call where
  schema : Schema
  value : Option Json
  context : Context

namespace Call

section Further

variable (test : Schema → Test)

/-- What a call answers and leaves. -/
def result (call : Call) : Bool × Context := test call.schema call.value call.context

/-- The calls for the checks of a container.  Each but the first is made where the one before it came
back to, and only if that one accepted. -/
def forParts : List Part → Context → List Call
  | [], _ => []
  | part :: rest, context =>
      ⟨part.schema, part.value, context.enter part.segment⟩ ::
        match test part.schema part.value (context.enter part.segment) with
        | (true, after) => forParts rest after.back
        | (false, _) => []

/-- The calls for alternatives.  Each but the first is made from the start, and only if the one before
it rejected. -/
def forAlternatives (value : Option Json) (start : Nat) : List Schema → Context → List Call
  | [], _ => []
  | alternative :: rest, context =>
      ⟨alternative, value, context⟩ ::
        match test alternative value context with
        | (true, _) => []
        | (false, after) =>
            if (after.resetTo start).isFaulted then []
            else forAlternatives value start rest ((after.resetTo start).withFailure none)

/-- The calls that are made directly by a call, in order, where `test` tells what each of them
leaves. -/
def further (resolve : Resolver) : Call → List Call
  | ⟨schema, value, context⟩ =>
      if context.isFaulted then []
      else match schema with
        | .both _ first second =>
            ⟨first, value, context⟩ ::
              match test first value context with
              | (true, after) => [⟨second, value, after⟩]
              | (false, _) => []
        | .either _ first second =>
            ⟨first, value, context⟩ ::
              match test first value context with
              | (true, _) => []
              | (false, after) => [⟨second, value, after⟩]
        | .union _ alternatives =>
            forAlternatives test value context.depth alternatives (context.withFailure none)
        | .reference id =>
            match resolve id, (context.note (.used id)).enterReference with
            | .ok target, (true, context) => [⟨target, value, context⟩]
            | _, _ => []
        | schema => forParts test ((schema.parts? value).getD []) context

end Further

end Call

/-! ## What the calls of a call are -/

/-- Whenever as many references as the budget may still become active, a test leaves as many active
as it found. -/
def KeepsCount (test : Schema → Test) (budget : Nat) : Prop :=
  ∀ schema value (context : Context), context.remaining = budget →
    context.SameCount (test schema value context).2

theorem testWithin_keepsCount (resolve : Resolver) (budget : Nat) :
    KeepsCount (testWithin resolve budget) budget := by
  intro schema value context enough
  have computes := testWithin_computes resolve budget schema
  cases faulted : context.isFaulted with
  | true =>
      rw [computes.stops value context faulted]
      exact .refl context
  | false => exact .ofSamePlace (computes.runs value context faulted enough).place

theorem test_keepsCount (resolve : Resolver) (budget : Nat) :
    KeepsCount (fun schema => schema.test resolve) budget :=
  fun schema value context _ => testWithin_keepsCount resolve _ schema value context rfl

namespace Call

variable {resolve : Resolver} {test : Schema → Test} {call next : Call}

theorem mem_forParts {parts : List Part} {start context : Context}
    (keeps : KeepsCount test start.remaining) (same : start.SameCount context)
    (member : next ∈ forParts test parts context) :
    (∃ part ∈ parts, next.schema = part.schema) ∧ start.SameCount next.context := by
  induction parts generalizing context with
  | nil => cases member
  | cons part rest ih =>
      have entered := same.enter part.segment
      have kept := entered.trans (keeps part.schema part.value _ entered.remaining)
      rw [forParts] at member
      generalize test part.schema part.value (context.enter part.segment) = left at kept member
      obtain ⟨accepted, after⟩ := left
      rcases List.mem_cons.mp member with rfl | later
      · exact ⟨⟨part, by simp, rfl⟩, entered⟩
      · cases accepted with
        | true =>
            obtain ⟨⟨other, inRest, isPart⟩, found⟩ := ih kept.back later
            exact ⟨⟨other, by simp [inRest], isPart⟩, found⟩
        | false => cases later

theorem mem_forAlternatives {value : Option Json} {depth : Nat} {alternatives : List Schema}
    {start context : Context} (keeps : KeepsCount test start.remaining)
    (same : start.SameCount context)
    (member : next ∈ forAlternatives test value depth alternatives context) :
    next.schema ∈ alternatives ∧ start.SameCount next.context := by
  induction alternatives generalizing context with
  | nil => cases member
  | cons alternative rest ih =>
      have kept := same.trans (keeps alternative value context same.remaining)
      rw [forAlternatives] at member
      generalize test alternative value context = left at kept member
      obtain ⟨accepted, after⟩ := left
      rcases List.mem_cons.mp member with rfl | later
      · exact ⟨by simp, same⟩
      · cases accepted with
        | true => cases later
        | false =>
            simp only at later
            split at later
            · cases later
            · have again : start.SameCount ((after.resetTo depth).withFailure none) :=
                ⟨kept.limits, kept.frames⟩
              obtain ⟨inRest, found⟩ := ih again later
              exact ⟨by simp [inRest], found⟩

section Kinds

variable {schema : Schema} {value : Option Json} {context : Context}

theorem further_of_isFaulted (faulted : context.isFaulted = true) :
    further test resolve ⟨schema, value, context⟩ = [] := by
  exact if_pos faulted

theorem further_of_leafTest? {accepts : Option Json → Bool}
    (found : schema.leafTest? = some accepts) :
    further test resolve ⟨schema, value, context⟩ = [] := by
  cases schema <;> cases found <;> simp [further, parts?, forParts]

theorem further_of_looksInside (inside : schema.looksInside = true)
    (clear : context.isFaulted = false) :
    further test resolve ⟨schema, value, context⟩ =
      forParts test ((schema.parts? value).getD []) context := by
  cases schema with
  | array | record | tuple | object => simp [further, clear]
  | _ => cases inside

theorem further_both {id : NodeId} {first second : Schema} (clear : context.isFaulted = false) :
    further test resolve ⟨.both id first second, value, context⟩ =
      ⟨first, value, context⟩ ::
        match test first value context with
        | (true, after) => [⟨second, value, after⟩]
        | (false, _) => [] := by
  exact if_neg (by simp [clear])

theorem further_either {id : NodeId} {first second : Schema} (clear : context.isFaulted = false) :
    further test resolve ⟨.either id first second, value, context⟩ =
      ⟨first, value, context⟩ ::
        match test first value context with
        | (true, _) => []
        | (false, after) => [⟨second, value, after⟩] := by
  exact if_neg (by simp [clear])

theorem further_union {id : NodeId} {alternatives : List Schema}
    (clear : context.isFaulted = false) :
    further test resolve ⟨.union id alternatives, value, context⟩ =
      forAlternatives test value context.depth alternatives (context.withFailure none) := by
  exact if_neg (by simp [clear])

theorem further_reference_of_error {id : NodeId} {cause : SchemaError}
    (leads : resolve id = .error cause) :
    further test resolve ⟨.reference id, value, context⟩ = [] := by
  rw [further]
  simp [leads]

theorem further_reference_of_full {id : NodeId}
    (full : context.limits.maxDepth ≤ context.frames) :
    further test resolve ⟨.reference id, value, context⟩ = [] := by
  rw [further]
  simp [(context.note (.used id)).enterReference_of_full full]

theorem further_reference_of_room {id : NodeId} {target : Schema}
    (leads : resolve id = .ok target) (room : ¬ context.limits.maxDepth ≤ context.frames)
    (clear : context.isFaulted = false) :
    further test resolve ⟨.reference id, value, context⟩ =
      [⟨target, value, { context.note (.used id) with frames := context.frames + 1 }⟩] := by
  rw [further, if_neg (by simp [clear])]
  simp only [leads, (context.note (.used id)).enterReference_of_room room]
  rfl

end Kinds

/-- A call makes calls for parts of its schema, with the same number of references active, or, if its
schema is a reference, a call for what the reference leads to, with one reference more. -/
theorem further_cases (keeps : KeepsCount test call.context.remaining)
    (member : next ∈ call.further test resolve) :
    (next.schema ∈ call.schema.children ∧ call.context.SameCount next.context) ∨
      ∃ id, call.schema = .reference id ∧ resolve id = .ok next.schema ∧
        next.value = call.value ∧ call.context.frames < call.context.limits.maxDepth ∧
        next.context =
          { call.context.note (.used id) with frames := call.context.frames + 1 } := by
  obtain ⟨schema, value, context⟩ := call
  cases clear : context.isFaulted with
  | true =>
      rw [further_of_isFaulted clear] at member
      cases member
  | false =>
  induction schema using inductionOnKinds with
  | leaf schema accepts found =>
      rw [further_of_leafTest? found] at member
      cases member
  | both id first second =>
      have kept := keeps first value context rfl
      rw [further_both clear] at member
      generalize test first value context = left at kept member
      obtain ⟨accepted, after⟩ := left
      rcases List.mem_cons.mp member with rfl | later
      · exact .inl ⟨by simp [children], .refl context⟩
      · cases accepted with
        | true =>
            cases List.mem_singleton.mp later
            exact .inl ⟨by simp [children], kept⟩
        | false => cases later
  | either id first second =>
      have kept := keeps first value context rfl
      rw [further_either clear] at member
      generalize test first value context = left at kept member
      obtain ⟨accepted, after⟩ := left
      rcases List.mem_cons.mp member with rfl | later
      · exact .inl ⟨by simp [children], .refl context⟩
      · cases accepted with
        | true => cases later
        | false =>
            cases List.mem_singleton.mp later
            exact .inl ⟨by simp [children], kept⟩
  | inside schema inside =>
      rw [further_of_looksInside inside clear] at member
      cases found : schema.parts? value with
      | none =>
          rw [found] at member
          cases member
      | some parts =>
          rw [found] at member
          obtain ⟨⟨part, inParts, isPart⟩, same⟩ := mem_forParts keeps (.refl context) member
          exact .inl ⟨isPart ▸ mem_children_of_mem_parts? found inParts, same⟩
  | union id alternatives =>
      rw [further_union clear] at member
      have same : context.SameCount (context.withFailure none) := ⟨rfl, rfl⟩
      exact .inl (mem_forAlternatives keeps same member)
  | reference id =>
      cases leads : resolve id with
      | error cause =>
          rw [further_reference_of_error leads] at member
          cases member
      | ok target =>
          by_cases full : context.limits.maxDepth ≤ context.frames
          case pos =>
              rw [further_reference_of_full full] at member
              cases member
          case neg =>
              rw [further_reference_of_room leads full clear] at member
              cases List.mem_singleton.mp member
              exact .inr ⟨id, rfl, leads, rfl, Nat.lt_of_not_le full, rfl⟩

/-! ## One node at a time -/

/-- Tests that agree on the calls for the checks of a container agree on all of them together. -/
theorem all_congr {other : Schema → Test} {parts : List Part} {context : Context}
    (same : ∀ next ∈ forParts test parts context, next.result other = next.result test) :
    Run.all (parts.map fun part => (other part.schema).under part.segment part.value) context =
      Run.all (parts.map fun part => (test part.schema).under part.segment part.value) context := by
  induction parts generalizing context with
  | nil => rfl
  | cons part rest ih =>
      have first : other part.schema part.value (context.enter part.segment) =
          test part.schema part.value (context.enter part.segment) :=
        same _ (List.mem_cons_self)
      rw [forParts] at same
      simp only [List.map_cons, Run.all, Test.under, first]
      generalize test part.schema part.value (context.enter part.segment) = left at same ⊢
      obtain ⟨accepted, after⟩ := left
      cases accepted with
      | true => exact ih fun next later => same next (List.mem_cons_of_mem _ later)
      | false => rfl

/-- Tests that agree on the calls for alternatives agree on the choice between them. -/
theorem tryEach_congr {other : Schema → Test} {schema : Schema} {value : Option Json} {start : Nat}
    {prior best : Option Failure} {alternatives : List Schema} {context : Context}
    (same : ∀ next ∈ forAlternatives test value start alternatives context,
      next.result other = next.result test) :
    Test.tryEach schema value start prior (alternatives.map other) best context =
      Test.tryEach schema value start prior (alternatives.map test) best context := by
  induction alternatives generalizing best context with
  | nil => rfl
  | cons alternative rest ih =>
      have first : other alternative value context = test alternative value context :=
        same _ (List.mem_cons_self)
      rw [forAlternatives] at same
      simp only [List.map_cons, Test.tryEach, first]
      generalize test alternative value context = left at same ⊢
      obtain ⟨accepted, after⟩ := left
      cases accepted with
      | true => rfl
      | false =>
          simp only at same ⊢
          split
          · rfl
          · next notFaulted =>
            rw [if_neg notFaulted] at same
            exact ih fun next later => same next (List.mem_cons_of_mem _ later)

/-- What a call answers and leaves depends only on the calls that it makes directly. -/
theorem testOnce_congr {other : Schema → Test}
    (same : ∀ next ∈ call.further test resolve, next.result other = next.result test) :
    call.result (testOnce resolve other other) = call.result (testOnce resolve test test) := by
  obtain ⟨schema, value, context⟩ := call
  simp only [result]
  cases clear : context.isFaulted with
  | true => rw [testOnce_of_isFaulted clear, testOnce_of_isFaulted clear]
  | false =>
  have notFaulted : ¬ context.isFaulted = true := Bool.eq_false_iff.mp clear
  induction schema using inductionOnKinds with
  | leaf schema accepts found =>
      rw [testOnce_of_leafTest? found clear, testOnce_of_leafTest? found clear]
  | both id first second =>
      rw [further_both clear] at same
      have sameFirst : other first value context = test first value context :=
        same _ (List.mem_cons_self)
      unfold testOnce
      simp only [if_neg notFaulted, Test.both, sameFirst]
      generalize test first value context = left at same ⊢
      obtain ⟨accepted, after⟩ := left
      cases accepted with
      | true => exact same _ (List.mem_cons_of_mem _ (List.mem_singleton_self _))
      | false => rfl
  | either id first second =>
      rw [further_either clear] at same
      have sameFirst : other first value context = test first value context :=
        same _ (List.mem_cons_self)
      unfold testOnce
      simp only [if_neg notFaulted, Test.either, sameFirst]
      generalize test first value context = left at same ⊢
      obtain ⟨accepted, after⟩ := left
      cases accepted with
      | true => rfl
      | false => exact same _ (List.mem_cons_of_mem _ (List.mem_singleton_self _))
  | inside schema inside =>
      rw [further_of_looksInside inside clear] at same
      cases found : schema.parts? value with
      | none =>
          rw [testOnce_of_no_parts inside found clear, testOnce_of_no_parts inside found clear]
      | some parts =>
          rw [found] at same
          rw [testOnce_of_parts? found clear, testOnce_of_parts? found clear]
          exact all_congr same
  | union id alternatives =>
      rw [further_union clear] at same
      unfold testOnce
      simp only [if_neg notFaulted]
      exact tryEach_congr same
  | reference id =>
      unfold testOnce
      simp only [if_neg notFaulted, Test.reference]
      cases leads : resolve id with
      | error cause => rfl
      | ok target =>
          by_cases full : context.limits.maxDepth ≤ context.frames
          case pos => simp only [(context.note (.used id)).enterReference_of_full full]
          case neg =>
              rw [further_reference_of_room leads full clear] at same
              let inner : Context := context.note (.used id)
              have sameTarget : other target value { inner with frames := inner.frames + 1 } =
                  test target value { inner with frames := inner.frames + 1 } :=
                same _ (List.mem_singleton_self _)
              simp only [inner.enterReference_of_room full, inner, sameTarget]

/-! ## All calls of a run -/

/-- One call is made directly by another. -/
def Makes (resolve : Resolver) (later earlier : Call) : Prop :=
  later ∈ earlier.further (fun schema => schema.test resolve) resolve

/-- One call is made by another, directly or through others. -/
abbrev Chain (resolve : Resolver) : Call → Call → Prop :=
  Relation.ReflTransGen fun earlier later => Makes resolve later earlier

/-- A test answers every call that follows from the first one as the test of one node says. -/
def Solves (resolve : Resolver) (start : Call) (test : Schema → Test) : Prop :=
  ∀ call, Chain resolve start call → call.result test = call.result (testOnce resolve test test)

/-- The calls that are going on at a moment of a run, innermost first. -/
inductive Ongoing (resolve : Resolver) (start : Call) : List Call → Prop where
  | whole : Ongoing resolve start [start]
  | inside {call next : Call} {outer : List Call} : Ongoing resolve start (call :: outer) →
      Makes resolve next call → Ongoing resolve start (next :: call :: outer)

/-- The number of references among the schemas of calls. -/
def references (calls : List Call) : Nat :=
  calls.countP fun call =>
    match call.schema with
    | .reference _ => true
    | _ => false

theorem makes_cases (makes : Makes resolve next call) :
    (next.schema ∈ call.schema.children ∧ call.context.SameCount next.context) ∨
      ∃ id, call.schema = .reference id ∧ resolve id = .ok next.schema ∧
        next.value = call.value ∧ call.context.frames < call.context.limits.maxDepth ∧
        next.context =
          { call.context.note (.used id) with frames := call.context.frames + 1 } :=
  further_cases (test_keepsCount resolve _) makes

/-- No call makes further calls without end: a reference uses up one of those that may still become
active, and otherwise the schemas get smaller. -/
theorem acc_makes (call : Call) : Acc (Makes resolve) call := by
  obtain ⟨schema, value, context⟩ := call
  generalize enough : context.remaining = budget
  -- A reference leads to a schema of any size, so the budget comes before the schema.
  induction budget using Nat.strongRecOn generalizing schema value context with
  | ind budget budgetIH =>
      induction schema using inductionOnChildren generalizing value context with
      | step schema childIH =>
          constructor
          intro next makes
          obtain ⟨nextSchema, nextValue, nextContext⟩ := next
          rcases makes_cases makes with ⟨isChild, same⟩ | ⟨id, _, _, _, room, isNext⟩
          · exact childIH nextSchema isChild nextValue nextContext (same.remaining.trans enough)
          · have fewer : nextContext.remaining < budget := by
              simp only at isNext room
              rw [isNext, ← enough]
              simp only [Context.remaining, Context.note]
              omega
            exact budgetIH nextContext.remaining fewer nextSchema nextValue nextContext rfl

/-- The context of a call counts the references that were active at first and those among the calls
around it. -/
theorem frames_of_ongoing {start : Call} {outer : List Call}
    (ongoing : Ongoing resolve start (call :: outer)) :
    call.context.limits = start.context.limits ∧
      call.context.frames = start.context.frames + references outer ∧
      references outer ≤ start.context.remaining := by
  generalize calls : call :: outer = all at ongoing
  induction ongoing generalizing call outer with
  | whole =>
      cases calls
      exact ⟨rfl, rfl, Nat.zero_le _⟩
  | @inside earlier next around _ makes ih =>
      cases calls
      obtain ⟨limits, frames, bounded⟩ := ih rfl
      rcases makes_cases makes with ⟨isChild, same⟩ | ⟨id, isReference, _, _, room, isNext⟩
      · have others : references (earlier :: around) = references around := by
          cases isSchema : earlier.schema <;>
            first
            | (rw [isSchema] at isChild; cases isChild; done)
            | simp [references, isSchema]
        rw [others]
        exact ⟨same.limits.trans limits, same.frames.trans frames, bounded⟩
      · have oneMore : references (earlier :: around) = references around + 1 := by
          simp [references, isReference]
        rw [oneMore, isNext]
        refine ⟨limits, ?_, ?_⟩
        · change earlier.context.frames + 1 = _
          omega
        · rw [limits] at room
          rw [Context.remaining]
          omega

/-- The test of a reference goes on with the test of what the reference leads to. -/
theorem test_reference (id : NodeId) (value : Option Json) {context : Context}
    (clear : context.isFaulted = false) :
    (Schema.reference id).test resolve value context =
      Test.reference resolve (fun target => target.test resolve) id value context := by
  rw [Schema.test]
  cases leads : resolve id with
  | error cause =>
      cases context.remaining <;> simp [testWithin, testBy, clear, Test.reference, leads]
  | ok target =>
      by_cases full : context.limits.maxDepth ≤ context.frames
      case pos =>
          cases context.remaining <;>
            simp [testWithin, testBy, clear, Test.reference, leads,
              (context.note (.used id)).enterReference_of_full full]
      case neg =>
          have more : context.remaining = context.limits.maxDepth - (context.frames + 1) + 1 := by
            rw [Context.remaining]
            omega
          rw [more]
          simp only [testWithin, testBy, clear, Test.reference, leads,
            (context.note (.used id)).enterReference_of_room full]
          rfl

/-- Within a budget, a schema that is no reference is tested as its root node is, where the parts are
tested within the same budget. -/
theorem testWithin_eq_testOnce (resolve : Resolver) (budget : Nat) {schema : Schema}
    (noReference : ∀ id, schema ≠ .reference id) :
    testWithin resolve budget schema =
      testOnce resolve (testWithin resolve budget) (testWithin resolve budget) schema := by
  have sameOnce : ∀ descend other : Schema → Test,
      testOnce resolve (testWithin resolve budget) descend schema =
        testOnce resolve (testWithin resolve budget) other schema := by
    intro descend other
    cases schema with
    | reference id => exact (noReference id rfl).elim
    | _ => rfl
  cases budget with
  | zero => exact (testBy_eq_testOnce schema).trans (sameOnce _ _)
  | succ budget => exact (testBy_eq_testOnce schema).trans (sameOnce _ _)

/-- The test of a schema is that of its root node, where parts and targets of references are tested
by their own tests. -/
theorem solves_test (start : Call) : Solves resolve start fun schema => schema.test resolve := by
  rintro ⟨schema, value, context⟩ _
  cases clear : context.isFaulted with
  | true =>
      have stops := (testWithin_computes resolve context.remaining schema).stops value context clear
      exact stops.trans (testOnce_of_isFaulted clear).symm
  | false =>
      by_cases isReference : ∃ id, schema = .reference id
      case pos =>
          obtain ⟨id, rfl⟩ := isReference
          exact (test_reference id value clear).trans (by simp [result, testOnce, clear])
      case neg =>
          -- All calls are tests within the budget of this context.
          have once := testWithin_eq_testOnce resolve context.remaining
            fun id same => isReference ⟨id, same⟩
          have agree : ∀ next ∈ further (testWithin resolve context.remaining) resolve
              ⟨schema, value, context⟩, next.result (fun schema => schema.test resolve) =
                next.result (testWithin resolve context.remaining) := by
            intro next member
            have same : next.context.remaining = context.remaining := by
              rcases further_cases (testWithin_keepsCount resolve context.remaining) member with
                ⟨_, same⟩ | ⟨id, leadsOn, _⟩
              · exact same.remaining
              · exact (isReference ⟨id, leadsOn⟩).elim
            rw [result, result, Schema.test, same]
          exact (congrFun (congrFun once value) context).trans (testOnce_congr agree).symm

/-- The tests of schemas are the only ones that answer all calls of a run as the test of one node
says. -/
theorem solves_iff {start : Call} {test : Schema → Test} :
    Solves resolve start test ↔ ∀ call, Chain resolve start call →
      call.result test = call.result fun schema => schema.test resolve := by
  constructor
  · intro solves call chain
    have ends : Acc (Makes resolve) call := acc_makes call
    induction ends with
    | intro call _ ih =>
        rw [solves call chain, solves_test start call chain]
        exact testOnce_congr fun next makes => ih next makes (chain.tail makes)
  · intro same call chain
    rw [same call chain, solves_test start call chain]
    exact (testOnce_congr fun next makes => same next (chain.tail makes)).symm

end Call

/-- Interpretation ends, and the limit bounds the references that are active meanwhile.  Wherever
references lead, also back to a schema that has not gone down in the value, no call of a run makes
further calls without end, and each makes finitely many directly.  So the equations that describe a
run one node at a time have one solution, the test of the schema.

At every moment of a run, the context counts the references among the calls that are going on in
addition to those active at first, and there are at most as many of them as the limit has left, which
is the whole limit in a run that starts anew.  When a call returns, as many references are active as
before.

What a reference leads to is found by a walk that comes to its end by itself. -/
theorem interpretation_ends (resolve : Resolver) (schema : Schema) (value : Option Json)
    (context : Context) :
    let start : Call := ⟨schema, value, context⟩
    let test (schema : Schema) : Test := schema.test resolve
    Acc (Call.Makes resolve) start ∧
      (∀ other, Call.Solves resolve start other ↔
        ∀ call, Call.Chain resolve start call → call.result other = call.result test) ∧
      (∀ call outer, Call.Ongoing resolve start (call :: outer) →
        call.context.limits = context.limits ∧
          call.context.frames = context.frames + Call.references outer ∧
          Call.references outer ≤ context.limits.maxDepth - context.frames ∧
          call.context.SameCount (call.result test).2) ∧
      ∀ (references : References) (id : NodeId), references.Follows [] id (references.walk id) := by
  intro start test
  refine ⟨Call.acc_makes start, fun other => Call.solves_iff, ?_, References.follows_walk⟩
  intro call outer ongoing
  obtain ⟨limits, frames, bounded⟩ := Call.frames_of_ongoing ongoing
  exact ⟨limits, frames, bounded, test_keepsCount resolve _ call.schema call.value call.context rfl⟩

/-- Left recursion stops at the limit, also where the alternative would accept. -/
example :
    let left : Schema := .either 2 (.reference 1) (.primitive 3 .string)
    (left.assert (fun _ => .ok left) { maxDepth := 3 } (some (.string "x"))).answer =
      .error (.depthLimit 3 []) := by
  decide

end Schema

end Assay
