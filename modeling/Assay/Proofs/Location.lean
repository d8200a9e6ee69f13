import Assay.Proofs.Json
import Assay.Proofs.Validation

/-!
# Places that diagnostics name

A diagnostic names a place inside the value, says what was expected there and shows what was found.
Following the named path from the value leads to what is shown, only its last step may come to an
absent field, and the schema that is said to be expected can be reached from the one that was asked
and rejects what was found when it is asked alone.

The last point needs that a schema which rejects within the budget that is left somewhere also
rejects within the whole budget.
-/

namespace Assay

/-- What is found one step further down: an element of an array, or the value of a key of an object,
which may be absent.  There is no such step to other places. -/
def Segment.step? : Segment → Json → Option (Option Json)
  | .field name, .object entries => some (entries.lookup name)
  | .index position, .array elements => elements[position]?.map some
  | _, _ => none

/-- What is found at the end of a path.  There is no step from an absent value, so only the last
step may come to one. -/
def Path.follow? : Path → Option Json → Option (Option Json)
  | [], value => some value
  | segment :: rest, some value => (segment.step? value).bind (follow? rest)
  | _ :: _, none => none

/-- A value that is ordered, or absent. -/
def OrderedOption (value : Option Json) : Prop := ∀ json, value = some json → json.Ordered

namespace Schema

/-- The step of a check leads to the value of the check. -/
theorem step?_of_mem_parts? {schema : Schema} {json : Json} {parts : List Part}
    (ordered : json.Ordered) (found : schema.parts? (some json) = some parts) {part : Part}
    (member : part ∈ parts) : part.segment.step? json = some part.value := by
  cases checks_of_parts? found with
  | array id item elements =>
      obtain ⟨position, inBounds, rfl⟩ := List.mem_mapIdx.mp member
      simp [Segment.step?, inBounds]
  | record id item entries =>
      obtain ⟨entry, inEntries, rfl⟩ := List.mem_map.mp member
      cases ordered with
      | object ascending _ => simp [Segment.step?, Json.lookup_of_mem ascending inEntries]
  | tuple id positions elements sameLength =>
      obtain ⟨position, inBounds, rfl⟩ := List.mem_mapIdx.mp member
      have inElements : position < elements.length := by
        rw [List.length_zip] at inBounds
        omega
      simp [Segment.step?, inElements]
  | object id fields entries =>
      obtain ⟨field, inFields, rfl⟩ := List.mem_map.mp member
      rfl

/-- The value of a check is ordered. -/
theorem ordered_of_mem_parts? {schema : Schema} {json : Json} {parts : List Part}
    (ordered : json.Ordered) (found : schema.parts? (some json) = some parts) {part : Part}
    (member : part ∈ parts) : OrderedOption part.value := by
  intro inner present
  cases checks_of_parts? found with
  | array id item elements =>
      obtain ⟨position, inBounds, rfl⟩ := List.mem_mapIdx.mp member
      cases present
      cases ordered with
      | array each => exact each _ (List.getElem_mem inBounds)
  | record id item entries =>
      obtain ⟨entry, inEntries, rfl⟩ := List.mem_map.mp member
      cases present
      cases ordered with
      | object _ each => exact each entry inEntries
  | tuple id positions elements sameLength =>
      obtain ⟨position, inBounds, rfl⟩ := List.mem_mapIdx.mp member
      cases present
      cases ordered with
      | array each => exact each _ (List.of_mem_zip (List.getElem_mem inBounds)).2
  | object id fields entries =>
      obtain ⟨field, inFields, rfl⟩ := List.mem_map.mp member
      cases ordered with
      | object _ each =>
          obtain ⟨before, after, split, _⟩ := List.lookup_eq_some_iff.mp present
          exact each (field.1, inner) (by simp [split])

end Schema

namespace Outcome

/-- An outcome is true of a value: what was expected can be reached from the schema and rejects what
was found within some smaller budget, and if the value is ordered, the path that is named leads to
what was found.  If the outcome is that a reference leads nowhere, then one that can be reached
does. -/
def TrueOf (resolve : Resolver) (budget : Nat) (schema : Schema) (value : Option Json) :
    Outcome → Prop
  | .rejected failure =>
      schema.Reaches resolve failure.expected ∧
        (∃ within ≤ budget, failure.expected.meaning resolve within failure.value = .reject) ∧
        (OrderedOption value → failure.path.follow? value = some failure.value)
  | .tooDeep trail => OrderedOption value → ∃ found, Path.follow? trail.reverse value = some found
  | .unresolved cause =>
      ∃ id, schema.Reaches resolve (.reference id) ∧ resolve id = .error cause
  | .accepted => True

namespace TrueOf

variable {resolve : Resolver} {budget : Nat} {schema : Schema} {value : Option Json}

/-- What is true of the schema that comes next is true of the schema. -/
theorem next {following : Schema} {outcome : Outcome}
    (true : outcome.TrueOf resolve budget following value)
    (next : Schema.Next resolve schema following) {larger : Nat} (enough : budget ≤ larger) :
    outcome.TrueOf resolve larger schema value := by
  cases outcome with
  | rejected failure =>
      obtain ⟨reached, ⟨within, small, rejects⟩, leads⟩ := true
      exact ⟨.head next reached, ⟨within, Nat.le_trans small enough, rejects⟩, leads⟩
  | tooDeep trail => exact true
  | unresolved cause =>
      obtain ⟨id, reached, leads⟩ := true
      exact ⟨id, .head next reached, leads⟩
  | accepted => trivial

/-- What is true one step further down is true, with the step in front of the path. -/
theorem below {outcome : Outcome} {segment : Segment} {json : Json} {found : Option Json}
    (true : outcome.TrueOf resolve budget schema found)
    (step : json.Ordered → segment.step? json = some found ∧ OrderedOption found) :
    (outcome.below [segment]).TrueOf resolve budget schema (some json) := by
  cases outcome with
  | rejected failure =>
      obtain ⟨reached, rejects, leads⟩ := true
      refine ⟨reached, rejects, ?_⟩
      intro ordered
      obtain ⟨stepped, foundOrdered⟩ := step (ordered json rfl)
      have path : (failure.below [segment]).path = segment :: failure.path := by
        simp [Failure.path, Failure.below]
      rw [path, Path.follow?, stepped, Option.bind_some]
      exact leads foundOrdered
  | tooDeep trail =>
      intro ordered
      obtain ⟨stepped, foundOrdered⟩ := step (ordered json rfl)
      obtain ⟨last, leads⟩ := true foundOrdered
      refine ⟨last, ?_⟩
      simpa [Path.follow?, stepped] using leads
  | unresolved cause => exact true
  | accepted => trivial

theorem both {first second : Outcome} (firstTrue : first.TrueOf resolve budget schema value)
    (secondTrue : second.TrueOf resolve budget schema value) :
    (first.both second).TrueOf resolve budget schema value := by
  cases first <;> assumption

theorem either {first second : Outcome} (firstTrue : first.TrueOf resolve budget schema value)
    (secondTrue : second.TrueOf resolve budget schema value) :
    (first.either second).TrueOf resolve budget schema value := by
  cases first <;> assumption

end TrueOf

/-- The outcome of several checks is that of one of them, unless all accept. -/
theorem all_mem (outcomes : List Outcome) : all outcomes = .accepted ∨ all outcomes ∈ outcomes := by
  induction outcomes with
  | nil => exact .inl rfl
  | cons first rest ih =>
      cases first with
      | accepted => exact ih.imp_right (List.mem_cons_of_mem _)
      | rejected failure | unresolved cause | tooDeep trail => exact .inr List.mem_cons_self

theorem deeper_eq (best : Option Failure) (failure : Failure) :
    Test.deeper best (some failure) = best ∨ Test.deeper best (some failure) = some failure := by
  cases best with
  | none => exact .inr rfl
  | some best =>
      rw [Test.deeper]
      split
      · exact .inr rfl
      · exact .inl rfl

/-- The outcome of alternatives is that of one of them or of the best one before them, unless the
whole choice is not met. -/
theorem choose_mem (schema : Schema) (value : Option Json) (outcomes : List Outcome)
    (best : Option Failure) :
    choose schema value outcomes best = unmet schema value ∨
      choose schema value outcomes best ∈ outcomes ∨
      ∃ failure, best = some failure ∧ choose schema value outcomes best = .rejected failure := by
  induction outcomes generalizing best with
  | nil =>
      cases best with
      | none => exact .inl rfl
      | some failure =>
          rw [choose]
          split
          · exact .inr (.inr ⟨failure, rfl, rfl⟩)
          · exact .inl rfl
  | cons first rest ih =>
      cases first with
      | rejected failure =>
          rw [choose]
          rcases ih (Test.deeper best (some failure)) with whole | inRest | ⟨kept, isBest, same⟩
          · exact .inl whole
          · exact .inr (.inl (List.mem_cons_of_mem _ inRest))
          · rw [same]
            rcases deeper_eq best failure with old | new
            · exact .inr (.inr ⟨kept, old.symm.trans isBest, rfl⟩)
            · cases new.symm.trans isBest
              exact .inr (.inl List.mem_cons_self)
      | accepted | unresolved cause | tooDeep trail => exact .inr (.inl List.mem_cons_self)

end Outcome

/-- A schema that is itself reported as not met rejects the value. -/
theorem Schema.unmet_trueOf {resolve : Resolver} {budget : Nat} {schema : Schema}
    {value : Option Json} (whole : schema.outcome resolve budget value = .unmet schema value) :
    (Outcome.unmet schema value).TrueOf resolve budget schema value := by
  refine ⟨.refl, ⟨budget, Nat.le_refl _, ?_⟩, fun _ => rfl⟩
  rw [← verdict_outcome]
  exact congrArg Outcome.verdict whole

/-- Every outcome is true of the value. -/
theorem Schema.outcome_trueOf (resolve : Resolver) (budget : Nat) (schema : Schema)
    (value : Option Json) :
    (schema.outcome resolve budget value).TrueOf resolve budget schema value := by
  induction budget, schema using inductionOnBudget generalizing value with
  | leaf budget schema accepts found =>
      have same := outcome_of_leafTest? resolve budget found value
      rw [Outcome.leaf] at same
      split at same
      · rw [same]
        trivial
      · rw [same]
        exact unmet_trueOf same
  | both budget id first second firstIH secondIH =>
      have toFirst : Next resolve (.both id first second) first := .child (by simp [children])
      have toSecond : Next resolve (.both id first second) second := .child (by simp [children])
      have firstTrue := (firstIH value).next toFirst (Nat.le_refl _)
      have secondTrue := (secondIH value).next toSecond (Nat.le_refl _)
      rw [outcome_both]
      exact firstTrue.both secondTrue
  | either budget id first second firstIH secondIH =>
      have toFirst : Next resolve (.either id first second) first := .child (by simp [children])
      have toSecond : Next resolve (.either id first second) second := .child (by simp [children])
      have firstTrue := (firstIH value).next toFirst (Nat.le_refl _)
      have secondTrue := (secondIH value).next toSecond (Nat.le_refl _)
      rw [outcome_either]
      exact firstTrue.either secondTrue
  | inside budget schema inside ih =>
      cases found : schema.parts? value with
      | none =>
          have same := outcome_of_no_parts resolve budget inside found
          rw [same]
          exact unmet_trueOf same
      | some parts =>
          rw [outcome_of_parts? resolve budget found]
          obtain ⟨json, rfl⟩ : ∃ json, value = some json := by
            cases checks_of_parts? found <;> exact ⟨_, rfl⟩
          rcases Outcome.all_mem (parts.map fun part =>
            (part.schema.outcome resolve budget part.value).below [part.segment]) with same | among
          · rw [same]
            trivial
          · obtain ⟨part, member, same⟩ := List.mem_map.mp among
            rw [← same]
            have child := mem_children_of_mem_parts? found member
            apply ((ih part.schema child part.value).next (.child child) (Nat.le_refl _)).below
            intro ordered
            exact ⟨step?_of_mem_parts? ordered found member,
              ordered_of_mem_parts? ordered found member⟩
  | union budget id alternatives ih =>
      have same := outcome_union resolve budget id alternatives value
      rcases Outcome.choose_mem (.union id alternatives) value
        (alternatives.map fun alternative => alternative.outcome resolve budget value) none with
        whole | among | ⟨failure, isBest, _⟩
      · rw [same, whole]
        exact unmet_trueOf (same.trans whole)
      · rw [same]
        obtain ⟨alternative, member, equal⟩ := List.mem_map.mp among
        rw [← equal]
        have toAlternative : Next resolve (.union id alternatives) alternative := .child member
        exact (ih alternative member value).next toAlternative (Nat.le_refl _)
      · cases isBest
  | reference budget id ih =>
      cases leads : resolve id with
      | error cause =>
          rw [outcome_reference_of_error _ leads]
          exact ⟨id, .refl, leads⟩
      | ok target =>
          cases budget with
          | zero =>
              rw [outcome_reference_zero leads]
              exact fun _ => ⟨value, rfl⟩
          | succ budget =>
              rw [outcome_reference_succ _ leads]
              exact (ih budget (by omega) target value).next (.target leads) (by omega)

namespace Registry

variable (registry : Registry) (schema : Schema) (limits : Limits)

/-- A schema that rejects within a smaller budget is not met when it is asked alone. -/
theorem not_met_alone {within : Nat} (small : within ≤ limits.maxDepth) {value : Option Json}
    (rejects : schema.meaning registry.target within value = .reject) :
    (registry.check schema limits value).1 = false ∧
      ∃ found, (registry.assert schema limits value).1 = .error (.mismatch found) := by
  have settled : schema.meaning registry.target within value ≠ .fault .tooDeep := by simp [rejects]
  have rejectsAlone := (Schema.meaning_of_le registry.target small settled).trans rejects
  constructor
  · rw [← Bool.not_eq_true, check_answer, rejectsAlone]
    simp
  · rw [assert_answer]
    rw [← Schema.verdict_outcome] at rejectsAlone
    cases equal : schema.outcome registry.target limits.maxDepth value with
    | rejected failure => exact ⟨_, rfl⟩
    | accepted | unresolved cause | tooDeep trail => simp [equal, Outcome.verdict] at rejectsAlone

/-- Every diagnostic is true of the value.  The path of a mismatch leads from the value to a place
which is shown as it is, and what is said to be expected describes a schema that can be reached from
the one that was asked and is not met there when it is asked alone.  The path of a depth limit leads
to a place as well, and the limit is that of the run.

The value is ordered, as every value is that `Json.ofEntries` or the reader has made: looking up a
key of an object finds the entry that a run over the entries has met. -/
theorem diagnostics_are_true {value : Option Json} (ordered : OrderedOption value) :
    (∀ found, (registry.assert schema limits value).1 = .error (.mismatch found) →
      ∃ node place, schema.Reaches registry.target node ∧
        found.path.follow? value = some place ∧
        found.expected = node.describe registry.target ∧
        found.actual = preview limits.previewLength place ∧
        (registry.check node limits place).1 = false ∧
        ∃ own, (registry.assert node limits place).1 = .error (.mismatch own)) ∧
      ∀ limit path, (registry.assert schema limits value).1 = .error (.depthLimit limit path) →
        limit = limits.maxDepth ∧ ∃ place, path.follow? value = some place := by
  have isTrue := schema.outcome_trueOf registry.target limits.maxDepth value
  rw [assert_answer]
  generalize schema.outcome registry.target limits.maxDepth value = outcome at isTrue ⊢
  constructor
  · intro found reported
    cases outcome with
    | rejected failure =>
        obtain ⟨reached, ⟨within, small, rejects⟩, leads⟩ := isTrue
        cases reported
        exact ⟨failure.expected, failure.value, reached, leads ordered, rfl, rfl,
          not_met_alone registry failure.expected limits small rejects⟩
    | accepted | unresolved cause | tooDeep trail => cases reported
  · intro limit path reported
    cases outcome with
    | tooDeep trail =>
        cases reported
        exact ⟨rfl, isTrue ordered⟩
    | accepted | rejected failure | unresolved cause => cases reported

/-- The text of a mismatch two containers further down, at a place where a number is found. -/
theorem diagnostics_are_true_of_nested :
    ∃ node place,
      Schema.Reaches (target {})
        (.object 4 [("sub", .array 3 (.object 2 [("inner", .primitive 1 .string)]))]) node ∧
      Path.follow? [.field "sub", .index 0, .field "inner"]
        (some (.object [("sub", .array [.object [("inner", .ofInt 123)]])])) = some place ∧
      "string" = node.describe (target {}) ∧ "123" = preview 40 place ∧
      (check {} node {} place).1 = false ∧
      ∃ own, (assert {} node {} place).1 = .error (.mismatch own) := by
  have ordered : (Json.object [("sub", .array [.object [("inner", .ofInt 123)]])]).Ordered := by
    refine .object (by simp) fun entry inEntries => ?_
    cases List.mem_singleton.mp inEntries
    refine .array fun element inElements => ?_
    cases List.mem_singleton.mp inElements
    refine .object (by simp) fun entry inEntries => ?_
    cases List.mem_singleton.mp inEntries
    exact .number _
  exact (diagnostics_are_true {} _ {} fun json present => Option.some.inj present ▸ ordered).1
    ⟨[.field "sub", .index 0, .field "inner"], "string", "123"⟩ rfl

end Registry

end Assay
