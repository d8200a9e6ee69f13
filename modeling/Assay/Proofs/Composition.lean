import Assay.Proofs.Consultation
import Assay.Proofs.Location
import Assay.Proofs.Registry

/-!
# Diagnostics of composed schemas

The error of a composed schema is the error of one of its parts, asked alone about its own value,
with the step to that value put in front of the path.  Nothing that was expected before by a part
that accepted, or by a branch that was given up, shows in it.

The part may also be asked at another time, by another registry.  All that counts is that references
still lead where they led.
-/

namespace Assay

namespace Error

/-- The same error, seen from a place one step further up. -/
def below (segment : Segment) : Error → Error
  | .mismatch found => .mismatch { found with path := segment :: found.path }
  | .depthLimit limit path => .depthLimit limit (segment :: path)
  | error => error

/-- The same error of a run with another limit. -/
def withLimit (limit : Nat) : Error → Error
  | .depthLimit _ path => .depthLimit limit path
  | error => error

/-- Whether an error ends a whole run, so that no alternative is tried. -/
def isFault : Error → Bool
  | .depthLimit _ _ | .schema _ => true
  | .mismatch _ | .compile _ | .misfit => false

end Error

/-! ## Where resolvers agree -/

namespace Schema

/-- Where two resolvers agree, so do the descriptions. -/
theorem describe_congr {left right : Resolver} {schema : Schema}
    (agree : schema.AgreeFrom left right) : schema.describe right = schema.describe left :=
  describeWithin_of_mentions descriptionDepth schema fun used mentioned =>
    agree used (reaches_of_mentionsWithin mentioned)

end Schema

/-! ## Assertions of outcomes -/

namespace Outcome

variable {resolve : Resolver} {limits : Limits}

theorem asserted_eq_ok_iff {outcome : Outcome} :
    outcome.asserted resolve limits = .ok () ↔ outcome = .accepted := by
  cases outcome <;> simp [asserted]

theorem asserted_below_eq_ok_iff {outcome : Outcome} {segment : Segment} :
    (outcome.below [segment]).asserted resolve limits = .ok () ↔
      outcome.asserted resolve limits = .ok () := by
  cases outcome <;> simp [below, asserted]

/-- Going up one step puts the step in front of the path of the error. -/
theorem asserted_below_eq_error_iff {outcome : Outcome} {segment : Segment} {error : Error} :
    (outcome.below [segment]).asserted resolve limits = .error error ↔
      ∃ own, outcome.asserted resolve limits = .error own ∧ error = own.below segment := by
  cases outcome <;>
    simp [below, asserted, Failure.below, Failure.path, Error.below, eq_comm]

/-- The first check that is not accepted gives the error of all checks. -/
theorem asserted_all_eq_error_iff {α : Type} {outcome : α → Outcome} {items : List α}
    {error : Error} :
    (all (items.map outcome)).asserted resolve limits = .error error ↔
      ∃ before item after, items = before ++ item :: after ∧
        (∀ earlier ∈ before, (outcome earlier).asserted resolve limits = .ok ()) ∧
        (outcome item).asserted resolve limits = .error error := by
  induction items with
  | nil => simp [asserted]
  | cons first rest ih =>
      rw [List.map_cons, all_cons]
      cases equal : (outcome first).asserted resolve limits with
      | ok accepted =>
          rw [asserted_eq_ok_iff.mp equal, both, ih]
          constructor
          · rintro ⟨before, item, after, rfl, passed, failed⟩
            refine ⟨first :: before, item, after, rfl, ?_, failed⟩
            exact List.forall_mem_cons.mpr ⟨equal, passed⟩
          · rintro ⟨before, item, after, split, passed, failed⟩
            cases before with
            | nil =>
                cases split
                cases equal.symm.trans failed
            | cons earlier before =>
                cases split
                exact ⟨before, item, after, rfl, (List.forall_mem_cons.mp passed).2, failed⟩
      | error own =>
          have notAccepted : outcome first ≠ .accepted := by
            intro accepted
            cases equal.symm.trans (asserted_eq_ok_iff.mpr accepted)
          rw [both_of_ne_accepted notAccepted, equal]
          constructor
          · rintro ⟨⟩
            exact ⟨[], first, rest, rfl, by simp, equal⟩
          · rintro ⟨before, item, after, split, passed, failed⟩
            cases before with
            | nil =>
                cases split
                exact equal.symm.trans failed
            | cons earlier before =>
                cases split
                cases equal.symm.trans (List.forall_mem_cons.mp passed).1

theorem asserted_both (first second : Outcome) :
    (first.both second).asserted resolve limits =
      (first.asserted resolve limits).bind fun _ => second.asserted resolve limits := by
  cases first <;> rfl

theorem asserted_either (first second : Outcome) :
    (first.either second).asserted resolve limits =
      (first.asserted resolve limits).tryCatch fun error =>
        if error.isFault then .error error else second.asserted resolve limits := by
  cases first <;> rfl

/-- Where resolvers agree on everything that can be reached from a schema, they word its errors
alike. -/
theorem asserted_congr {left right : Resolver} {budget : Nat} {schema : Schema}
    {value : Option Json} (agree : schema.AgreeFrom left right) :
    (schema.outcome left budget value).asserted right limits =
      (schema.outcome left budget value).asserted left limits := by
  have isTrue := schema.outcome_trueOf left budget value
  cases equal : schema.outcome left budget value with
  | rejected failure =>
      rw [equal] at isTrue
      simp only [asserted]
      rw [Schema.describe_congr (agree.of_reaches isTrue.1)]
  | accepted | unresolved cause | tooDeep trail => rfl

end Outcome

/-- An assertion accepts exactly if a check answers yes. -/
theorem Schema.assert_eq_ok_iff {resolve : Resolver} {schema : Schema} {limits : Limits}
    {value : Option Json} :
    (schema.assert resolve limits value).answer = .ok () ↔
      (schema.check resolve limits value).answer = true := by
  rw [assert_answer, Outcome.asserted_eq_ok_iff, check_answer, ← verdict_outcome,
    Outcome.verdict_eq_accept_iff]

namespace Registry

variable {registry other : Registry} {schema : Schema} {limits : Limits} {value : Option Json}

/-- A check answers yes exactly if an assertion accepts. -/
theorem check_iff_assert : (registry.check schema limits value).1 = true ↔
    (registry.assert schema limits value).1 = .ok () :=
  Schema.assert_eq_ok_iff.symm

/-- An assertion answers the same in every registry in which references lead to the same. -/
theorem assert_congr (agree : schema.AgreeFrom registry.target other.target) :
    (other.assert schema limits value).1 = (registry.assert schema limits value).1 := by
  rw [assert_answer, assert_answer, Schema.outcome_congr _ _ agree, Outcome.asserted_congr agree]

/-- The assertion of a container makes those of its parts. -/
theorem assert_eq_error_iff_of_parts? {parts : List Schema.Part}
    (found : schema.parts? value = some parts) {error : Error} :
    (registry.assert schema limits value).1 = .error error ↔
      ∃ before part after own, parts = before ++ part :: after ∧
        (∀ earlier ∈ before, (registry.assert earlier.schema limits earlier.value).1 = .ok ()) ∧
        (registry.assert part.schema limits part.value).1 = .error own ∧
        error = own.below part.segment := by
  simp only [assert_answer]
  rw [Schema.outcome_of_parts? _ _ found, Outcome.asserted_all_eq_error_iff]
  simp only [Outcome.asserted_below_eq_ok_iff, Outcome.asserted_below_eq_error_iff]
  constructor
  · rintro ⟨before, part, after, split, passed, own, failed, same⟩
    exact ⟨before, part, after, own, split, passed, failed, same⟩
  · rintro ⟨before, part, after, own, split, passed, failed, same⟩
    exact ⟨before, part, after, split, passed, own, failed, same⟩

/-- Errors are composed of the errors of parts.  The parts may be asked by another registry, as long
as every reference that can be reached from the schema leads there to what it leads to here.

A container fails with the error of the first check that fails, seen from one step further up.  A
conjunction fails with the error of its first part, or else of its second.  An alternative fails
with the error of its first part if that ends the run, and otherwise of its second.  A reference
fails as what it leads to does under a limit that is smaller by one. -/
theorem errors_compose (agree : schema.AgreeFrom registry.target other.target) :
    (∀ parts, schema.parts? value = some parts → ∀ error,
      (registry.assert schema limits value).1 = .error error ↔
        ∃ before part after own, parts = before ++ part :: after ∧
          (∀ earlier ∈ before, (other.assert earlier.schema limits earlier.value).1 = .ok ()) ∧
          (other.assert part.schema limits part.value).1 = .error own ∧
          error = own.below part.segment) ∧
      (∀ id first second, schema = .both id first second →
        (registry.assert schema limits value).1 =
          (other.assert first limits value).1.bind fun _ => (other.assert second limits value).1) ∧
      (∀ id first second, schema = .either id first second →
        (registry.assert schema limits value).1 =
          (other.assert first limits value).1.tryCatch fun error =>
            if error.isFault then .error error else (other.assert second limits value).1) ∧
      ∀ id target depth, schema = .reference id → registry.target id = .ok target →
        limits.maxDepth = depth + 1 →
        (registry.assert schema limits value).1 =
          (other.assert target { limits with maxDepth := depth } value).1.mapError
            (.withLimit (depth + 1)) := by
  refine ⟨?_, ?_, ?_, ?_⟩
  · intro parts found error
    rw [assert_eq_error_iff_of_parts? found]
    have same : ∀ part ∈ parts, (other.assert part.schema limits part.value).1 =
        (registry.assert part.schema limits part.value).1 := fun part member =>
      assert_congr (agree.child (Schema.mem_children_of_mem_parts? found member))
    constructor
    · rintro ⟨before, part, after, own, rfl, passed, failed, rfl⟩
      refine ⟨before, part, after, own, rfl, ?_, (same part (by simp)).trans failed, rfl⟩
      intro earlier member
      exact (same earlier (by simp [member])).trans (passed earlier member)
    · rintro ⟨before, part, after, own, rfl, passed, failed, rfl⟩
      refine ⟨before, part, after, own, rfl, ?_, (same part (by simp)).symm.trans failed, rfl⟩
      intro earlier member
      exact (same earlier (by simp [member])).symm.trans (passed earlier member)
  · rintro id first second rfl
    rw [assert_congr (agree.child (by simp [Schema.children])),
      assert_congr (agree.child (by simp [Schema.children]))]
    simp only [assert_answer, Schema.outcome_both, Outcome.asserted_both]
  · rintro id first second rfl
    rw [assert_congr (agree.child (by simp [Schema.children])),
      assert_congr (agree.child (by simp [Schema.children]))]
    simp only [assert_answer, Schema.outcome_either, Outcome.asserted_either]
  · rintro id target depth rfl leads room
    rw [assert_congr (agree.next (.target leads))]
    simp only [assert_answer, room, Schema.outcome_reference_succ _ leads]
    cases target.outcome registry.target depth value <;>
      simp [Outcome.asserted, Except.mapError, Error.withLimit, room]

/-- The error of an array, composed of what its elements get from a registry in which the reference
has been used before. -/
theorem errors_compose_of_elements :
    let schema : Schema := .array 2 (.reference 1)
    let registry : Registry :=
      { references := { bindings := [("node", schema)], factories := [(1, .named "node")] } }
    let other := (registry.check schema {} (some (.array [.array []]))).2
    let parts : List Schema.Part :=
      [⟨.index 0, .reference 1, some (.array [])⟩, ⟨.index 1, .reference 1, some (.ofInt 5)⟩]
    ∃ before part after own, parts = before ++ part :: after ∧
      (∀ earlier ∈ before, (other.assert earlier.schema {} earlier.value).1 = .ok ()) ∧
      (other.assert part.schema {} part.value).1 = .error own ∧
      Error.mismatch ⟨[.index 1], "array<array<...>>", "5"⟩ = own.below part.segment := by
  intro schema registry other parts
  have settles : registry.Settles other := registry.carryOut_settles _
  have agree : schema.AgreeFrom registry.target other.target :=
    fun id _ => congrFun settles.target id
  have found : schema.parts? (some (.array [.array [], .ofInt 5])) = some parts := rfl
  exact ((errors_compose agree).1 parts found _).mp rfl

end Registry

end Assay
