import Assay.Proofs.Contract
import Assay.Proofs.Location

/-!
# The length of previews

How much of a value a diagnostic shows is a setting of the display and nothing else.  A run carries
the setting along, since wording the error needs it, but no test reads it: changing it before a run
has the effect of changing it afterwards.  So two assertions that differ in nothing else come to the
same verdict for the same reason, and use the same references on the way.

What is then shown is cut from one text.  Its characters are counted, not the bytes they take.
-/

namespace Assay

/-- What a diagnostic shows for what was found, if at most `limit` characters of a value may be
shown. -/
inductive Shows (limit : Nat) : Option Json → String → Prop where
  /-- An absent value is named, whatever the limit. -/
  | absent : Shows limit none "undefined"
  /-- A text that is short enough is shown as it is. -/
  | whole (value : Json) : value.text.length ≤ limit → Shows limit (some value) value.text
  /-- Of a longer text, exactly the first characters are shown that the limit allows. -/
  | front (value : Json) (shown rest : String) : value.text = shown ++ rest →
      shown.length = limit → rest ≠ "" → Shows limit (some value) (shown ++ "...")

theorem preview_shows (limit : Nat) (found : Option Json) :
    Shows limit found (preview limit found) := by
  cases found with
  | none => exact .absent
  | some value =>
      rw [preview, cut]
      split
      · next short => exact .whole value short
      · next long =>
          have parts : value.text =
              String.ofList (value.text.toList.take limit) ++
                String.ofList (value.text.toList.drop limit) := by
            rw [← String.ofList_append, List.take_append_drop, String.ofList_toList]
          have chars : limit < value.text.toList.length := by
            rw [String.length_toList]
            exact Nat.lt_of_not_le long
          refine .front value _ _ parts ?_ ?_
          · rw [String.length_ofList, List.length_take]
            exact Nat.min_eq_left (Nat.le_of_lt chars)
          · intro empty
            have none := congrArg String.toList empty
            rw [String.toList_ofList] at none
            exact Nat.not_le_of_lt chars (List.drop_eq_nil_iff.mp none)

namespace Context

/-- The context of a run that shows another number of characters of a value. -/
def withPreviewLength (context : Context) (length : Nat) : Context :=
  { context with limits := { context.limits with previewLength := length } }

end Context

/-- A run that does the same whatever the length of previews. -/
def Run.IgnoresPreviews (run : Run) : Prop :=
  ∀ (context : Context) (length : Nat),
    run (context.withPreviewLength length) =
      ((run context).1, (run context).2.withPreviewLength length)

/-- A test that does the same whatever the length of previews. -/
def Test.IgnoresPreviews (test : Test) : Prop := ∀ value, (test value).IgnoresPreviews

theorem Run.all_ignoresPreviews {α : Type} {run : α → Run} {items : List α}
    (each : ∀ item ∈ items, (run item).IgnoresPreviews) :
    (Run.all (items.map run)).IgnoresPreviews := by
  induction items with
  | nil => exact fun _ _ => rfl
  | cons item rest ih =>
      intro context length
      have following := ih fun other member => each other (by simp [member])
      simp only [List.map_cons, Run.all]
      rw [each item (by simp) context length]
      generalize run item context = result
      obtain ⟨accepted, middle⟩ := result
      cases accepted with
      | true => exact following middle length
      | false => rfl

namespace Test

theorem reject_ignoresPreviews (schema : Schema) : (reject schema).IgnoresPreviews := by
  intro value context length
  have tracking : (context.withPreviewLength length).tracking = context.tracking := rfl
  rw [reject, reject, Context.expect, Context.expect, tracking]
  split <;> rfl

theorem leaf_ignoresPreviews (schema : Schema) (accepts : Option Json → Bool) :
    (leaf schema accepts).IgnoresPreviews := by
  intro value context length
  rw [leaf, leaf]
  split
  · rfl
  · exact reject_ignoresPreviews schema value context length

theorem under_ignoresPreviews {test : Test} (ignores : test.IgnoresPreviews) (segment : Segment) :
    (test.under segment).IgnoresPreviews := by
  intro value context length
  have entered : (context.withPreviewLength length).enter segment =
      (context.enter segment).withPreviewLength length := by
    rw [Context.enter_eq, Context.enter_eq]
    rfl
  rw [under, entered, ignores value (context.enter segment) length]
  simp only [under, Context.back_eq]
  rfl

theorem both_ignoresPreviews {first second : Test} (firstIgnores : first.IgnoresPreviews)
    (secondIgnores : second.IgnoresPreviews) : (Test.both first second).IgnoresPreviews := by
  intro value context length
  rw [Test.both, Test.both, firstIgnores value context length]
  generalize first value context = result
  obtain ⟨accepted, middle⟩ := result
  cases accepted with
  | true => exact secondIgnores value middle length
  | false => rfl

theorem either_ignoresPreviews {first second : Test} (firstIgnores : first.IgnoresPreviews)
    (secondIgnores : second.IgnoresPreviews) : (Test.either first second).IgnoresPreviews := by
  intro value context length
  rw [Test.either, Test.either, firstIgnores value context length]
  generalize first value context = result
  obtain ⟨accepted, middle⟩ := result
  cases accepted with
  | true => rfl
  | false => exact secondIgnores value middle length

theorem tryEach_ignoresPreviews {alternatives : List Schema} {test : Schema → Test}
    (each : ∀ alternative ∈ alternatives, (test alternative).IgnoresPreviews) (schema : Schema)
    (value : Option Json) (start : Nat) (prior best : Option Failure) :
    (tryEach schema value start prior (alternatives.map test) best).IgnoresPreviews := by
  induction alternatives generalizing best with
  | nil =>
      intro context length
      have rejected := reject_ignoresPreviews schema value context length
      cases best with
      | none => exact rejected
      | some failure =>
          simp only [List.map_nil, tryEach]
          split
          · rfl
          · exact rejected
  | cons alternative rest ih =>
      intro context length
      have following := ih fun other member => each other (by simp [member])
      simp only [List.map_cons, tryEach]
      rw [each alternative (by simp) value context length]
      generalize test alternative value context = result
      obtain ⟨accepted, middle⟩ := result
      cases accepted with
      | true => rfl
      | false =>
          cases faulted : (middle.resetTo start).isFaulted with
          | true =>
              have alsoFaulted :
                  ((middle.withPreviewLength length).resetTo start).isFaulted = true := faulted
              simp only [faulted, alsoFaulted, if_true]
              rfl
          | false =>
              have alsoClear :
                  ((middle.withPreviewLength length).resetTo start).isFaulted = false := faulted
              simp only [faulted, alsoClear, Bool.false_eq_true, if_false]
              exact following _ ((middle.resetTo start).withFailure none) length

theorem union_ignoresPreviews {alternatives : List Schema} {test : Schema → Test}
    (each : ∀ alternative ∈ alternatives, (test alternative).IgnoresPreviews) (schema : Schema) :
    (Test.union schema (alternatives.map test)).IgnoresPreviews := by
  intro value context length
  exact tryEach_ignoresPreviews each schema value context.depth context.failure none
    (context.withFailure none) length

theorem reference_ignoresPreviews {descend : Schema → Test}
    (ignores : ∀ target, (descend target).IgnoresPreviews) (resolve : Resolver) (id : NodeId) :
    (reference resolve descend id).IgnoresPreviews := by
  intro value context length
  rw [reference, reference]
  cases resolve id with
  | error cause => rfl
  | ok target =>
      by_cases full : context.limits.maxDepth ≤ context.frames
      · have entered := (context.note (.used id)).enterReference_of_full full
        have alsoEntered :=
          ((context.withPreviewLength length).note (.used id)).enterReference_of_full full
        simp only [entered, alsoEntered]
        rfl
      · have entered := (context.note (.used id)).enterReference_of_room full
        have alsoEntered :=
          ((context.withPreviewLength length).note (.used id)).enterReference_of_room full
        have inside := ignores target value
          { context.note (.used id) with frames := context.frames + 1 } length
        simp only [entered, alsoEntered]
        exact congrArg (fun result => (result.1, result.2.leaveReference)) inside

end Test

namespace Schema

variable {resolve : Resolver} {descend : Schema → Test}

/-- Once a fault has ended the run nothing changes, so only the other contexts count. -/
theorem testBy_ignoresPreviews_of_clear {schema : Schema} {value : Option Json} {run : Run}
    (ignores : run.IgnoresPreviews)
    (same : ∀ context : Context, context.isFaulted = false →
      testBy resolve descend schema value context = run context) :
    (testBy resolve descend schema value).IgnoresPreviews := by
  intro context length
  have otherFault : (context.withPreviewLength length).isFaulted = context.isFaulted := rfl
  cases faulted : context.isFaulted with
  | true =>
      rw [testBy_of_isFaulted schema value faulted,
        testBy_of_isFaulted schema value (otherFault.trans faulted)]
  | false =>
      rw [same context faulted, same _ (otherFault.trans faulted)]
      exact ignores context length

theorem testBy_ignoresPreviews (ignores : ∀ target, (descend target).IgnoresPreviews)
    (schema : Schema) : (testBy resolve descend schema).IgnoresPreviews := by
  intro value
  induction schema using inductionOnKinds generalizing value with
  | leaf schema accepts found =>
      apply testBy_ignoresPreviews_of_clear (Test.leaf_ignoresPreviews schema accepts value)
      intro context clear
      rw [testBy_eq_testOnce, testOnce_of_leafTest? found clear]
  | both id first second firstIH secondIH =>
      apply testBy_ignoresPreviews_of_clear (Test.both_ignoresPreviews firstIH secondIH value)
      intro context clear
      rw [testBy, if_neg (by simp [clear])]
  | either id first second firstIH secondIH =>
      apply testBy_ignoresPreviews_of_clear (Test.either_ignoresPreviews firstIH secondIH value)
      intro context clear
      rw [testBy, if_neg (by simp [clear])]
  | inside schema inside ih =>
      cases found : schema.parts? value with
      | none =>
          apply testBy_ignoresPreviews_of_clear (Test.reject_ignoresPreviews schema value)
          intro context clear
          rw [testBy_eq_testOnce, testOnce_of_no_parts inside found clear]
      | some parts =>
          have each : ∀ part ∈ parts, Run.IgnoresPreviews
              ((testBy resolve descend part.schema).under part.segment part.value) := by
            intro part inParts
            have child := mem_children_of_mem_parts? found inParts
            exact Test.under_ignoresPreviews (ih part.schema child) part.segment part.value
          apply testBy_ignoresPreviews_of_clear (Run.all_ignoresPreviews each)
          intro context clear
          rw [testBy_eq_testOnce, testOnce_of_parts? found clear]
  | union id alternatives ih =>
      have union := Test.union_ignoresPreviews ih (.union id alternatives) value
      apply testBy_ignoresPreviews_of_clear union
      intro context clear
      rw [testBy, if_neg (by simp [clear]), testsBy_eq_map]
  | reference id =>
      apply testBy_ignoresPreviews_of_clear
        (Test.reference_ignoresPreviews ignores resolve id value)
      intro context clear
      rw [testBy, if_neg (by simp [clear])]

/-- The run of a schema does the same whatever the length of previews. -/
theorem testWithin_ignoresPreviews (resolve : Resolver) (budget : Nat) (schema : Schema) :
    (schema.testWithin resolve budget).IgnoresPreviews := by
  induction budget generalizing schema with
  | zero => exact testBy_ignoresPreviews (fun _ _ _ _ => rfl) schema
  | succ budget ih => exact testBy_ignoresPreviews ih schema

theorem test_ignoresPreviews (resolve : Resolver) (schema : Schema) :
    (schema.test resolve).IgnoresPreviews :=
  fun value context length =>
    schema.testWithin_ignoresPreviews resolve context.remaining value context length

/-- Two assertions within the same depth use the same references and meet the depth limit at the
same places, whatever the length of previews. -/
theorem journal_assert (resolve : Resolver) (schema : Schema) {left right : Limits}
    (sameDepth : left.maxDepth = right.maxDepth) (value : Option Json) :
    (schema.assert resolve left value).journal = (schema.assert resolve right value).journal := by
  have other : Context.tracked left =
      (Context.tracked right).withPreviewLength left.previewLength := by
    change Context.tracked left = .tracked ⟨right.maxDepth, left.previewLength⟩
    rw [← sameDepth]
  rw [assert, assert, other, schema.test_ignoresPreviews resolve value]
  generalize schema.test resolve value (.tracked right) = result
  obtain ⟨accepted, context⟩ := result
  cases accepted <;> rfl

end Schema

namespace Registry

/-- The length of previews changes nothing but what is shown.  Two assertions within the same depth
both accept, or report the same fault, or report mismatches at the same place with the same
expectation; and they leave the same registry.  What the mismatches show is then cut from the text
of one value, and if the asserted value is ordered, it is the one that the path leads to. -/
theorem assert_ignores_previews (registry : Registry) (schema : Schema) (value : Option Json)
    {left right : Limits} (sameDepth : left.maxDepth = right.maxDepth) :
    (((registry.assert schema left value).1 = .ok () ∧
          (registry.assert schema right value).1 = .ok ()) ∨
        (∃ fault : Error, fault.isFault = true ∧
          (registry.assert schema left value).1 = .error fault ∧
          (registry.assert schema right value).1 = .error fault) ∨
        ∃ path expected found leftShown rightShown,
          (registry.assert schema left value).1 = .error (.mismatch ⟨path, expected, leftShown⟩) ∧
          (registry.assert schema right value).1 =
            .error (.mismatch ⟨path, expected, rightShown⟩) ∧
          Shows left.previewLength found leftShown ∧ Shows right.previewLength found rightShown ∧
          (OrderedOption value → path.follow? value = some found)) ∧
      (registry.assert schema left value).2 = (registry.assert schema right value).2 := by
  constructor
  · rw [assert_answer, assert_answer, sameDepth]
    have isTrue := schema.outcome_trueOf registry.target right.maxDepth value
    generalize schema.outcome registry.target right.maxDepth value = outcome at isTrue ⊢
    cases outcome with
    | accepted => exact .inl ⟨rfl, rfl⟩
    | unresolved cause => exact .inr (.inl ⟨.schema cause, rfl, rfl, rfl⟩)
    | tooDeep trail =>
        refine .inr (.inl ⟨.depthLimit right.maxDepth trail.reverse, rfl, ?_, rfl⟩)
        rw [Outcome.asserted, sameDepth]
    | rejected failure =>
        obtain ⟨_, _, leads⟩ := isTrue
        exact .inr (.inr ⟨failure.path, failure.expected.describe registry.target, failure.value,
          _, _, rfl, rfl, preview_shows _ _, preview_shows _ _, leads⟩)
  · exact congrArg registry.absorb (schema.journal_assert registry.target sameDepth value)

/-- A text of five characters in eleven bytes, where four characters may be shown and where five
may be. -/
theorem assert_ignores_previews_of_wide :
    let numbers : Schema := .array 2 (.primitive 1 .number)
    let value : Option Json := some (.array [.string "日本語"])
    (assert {} numbers ⟨1, 4⟩ value).1 =
        .error (.mismatch ⟨[.index 0], "number", "\"日本語..."⟩) ∧
      (assert {} numbers ⟨1, 5⟩ value).1 =
        .error (.mismatch ⟨[.index 0], "number", "\"日本語\""⟩) ∧
      ∃ found, Shows 4 found "\"日本語..." ∧ Shows 5 found "\"日本語\"" ∧
        (OrderedOption value → Path.follow? [.index 0] value = some found) := by
  intro numbers value
  have four : (assert {} numbers ⟨1, 4⟩ value).1 =
      .error (.mismatch ⟨[.index 0], "number", "\"日本語..."⟩) := by decide +kernel
  have five : (assert {} numbers ⟨1, 5⟩ value).1 =
      .error (.mismatch ⟨[.index 0], "number", "\"日本語\""⟩) := by decide +kernel
  refine ⟨four, five, ?_⟩
  have sameDepth : (⟨1, 4⟩ : Limits).maxDepth = (⟨1, 5⟩ : Limits).maxDepth := rfl
  have same := (assert_ignores_previews {} numbers value sameDepth).1
  rw [four, five] at same
  rcases same with ⟨accepted, _⟩ | ⟨fault, isFault, isError, _⟩ |
    ⟨path, expected, found, _, _, isLeft, isRight, leftShows, rightShows, leads⟩
  · cases accepted
  · cases isError
    cases isFault
  · cases isLeft
    cases isRight
    exact ⟨found, leftShows, rightShows, leads⟩

end Registry

end Assay
