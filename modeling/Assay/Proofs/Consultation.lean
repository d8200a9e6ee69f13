import Assay.Proofs.Changes

/-!
# References that a run consults

A run asks what a reference leads to only when it comes to the reference, and it may end before.
`Schema.Consults` tells, with no run in mind, which references are asked for: what comes after a
part that decides is not looked at, and below the last reference of the budget nothing is.

An outcome depends on these references alone, and a run enters each of them into its journal.  So
whoever knows the journal of a run knows enough to foresee the outcome of the same schema on the
same value, whichever context it is tested in.
-/

namespace Assay

/-! ## Outcomes of lists -/

namespace Outcome

theorem verdict_eq_accept_iff {outcome : Outcome} :
    outcome.verdict = .accept ↔ outcome = .accepted := by
  cases outcome <;> simp [verdict]

theorem verdict_eq_reject_iff {outcome : Outcome} :
    outcome.verdict = .reject ↔ ∃ failure, outcome = .rejected failure := by
  cases outcome <;> simp [verdict]

variable {α : Type} {outcome other : α → Outcome} {items : List α}

/-- The outcome of several checks depends on each check that comes after accepted ones only. -/
theorem all_congr
    (same : ∀ before item after, items = before ++ item :: after →
      (∀ earlier ∈ before, (outcome earlier).verdict = .accept) → other item = outcome item) :
    all (items.map other) = all (items.map outcome) := by
  induction items with
  | nil => rfl
  | cons first rest ih =>
      have head : other first = outcome first := same [] first rest rfl (by simp)
      rw [List.map_cons, List.map_cons, all_cons, all_cons, head]
      cases equal : outcome first with
      | accepted =>
          have accepts : (outcome first).verdict = .accept := verdict_eq_accept_iff.mpr equal
          rw [both, both]
          apply ih
          rintro before item after rfl passed
          exact same (first :: before) item after rfl (List.forall_mem_cons.mpr ⟨accepts, passed⟩)
      | rejected failure | unresolved cause | tooDeep trail => rfl

/-- The outcome of alternatives depends on each alternative that comes after rejected ones only. -/
theorem choose_congr (schema : Schema) (value : Option Json) (best : Option Failure)
    (same : ∀ before item after, items = before ++ item :: after →
      (∀ earlier ∈ before, (outcome earlier).verdict = .reject) → other item = outcome item) :
    choose schema value (items.map other) best = choose schema value (items.map outcome) best := by
  induction items generalizing best with
  | nil => rfl
  | cons first rest ih =>
      have head : other first = outcome first := same [] first rest rfl (by simp)
      rw [List.map_cons, List.map_cons, head]
      cases equal : outcome first with
      | rejected failure =>
          have rejects : (outcome first).verdict = .reject :=
            verdict_eq_reject_iff.mpr ⟨failure, equal⟩
          rw [choose, choose]
          apply ih
          rintro before item after rfl passed
          exact same (first :: before) item after rfl (List.forall_mem_cons.mpr ⟨rejects, passed⟩)
      | accepted | unresolved cause | tooDeep trail => rfl

end Outcome

namespace Schema

/-! ## What is consulted -/

/-- Testing a value against a schema within a budget asks what a reference leads to. -/
inductive Consults (resolve : Resolver) : Nat → Schema → Option Json → NodeId → Prop where
  | reference {budget : Nat} {id : NodeId} {value : Option Json} :
      Consults resolve budget (.reference id) value id
  | target {budget : Nat} {id used : NodeId} {target : Schema} {value : Option Json} :
      resolve id = .ok target → Consults resolve budget target value used →
      Consults resolve (budget + 1) (.reference id) value used
  | bothFirst {budget : Nat} {id used : NodeId} {first second : Schema} {value : Option Json} :
      Consults resolve budget first value used →
      Consults resolve budget (.both id first second) value used
  | bothSecond {budget : Nat} {id used : NodeId} {first second : Schema} {value : Option Json} :
      first.meaning resolve budget value = .accept → Consults resolve budget second value used →
      Consults resolve budget (.both id first second) value used
  | eitherFirst {budget : Nat} {id used : NodeId} {first second : Schema} {value : Option Json} :
      Consults resolve budget first value used →
      Consults resolve budget (.either id first second) value used
  | eitherSecond {budget : Nat} {id used : NodeId} {first second : Schema} {value : Option Json} :
      first.meaning resolve budget value = .reject → Consults resolve budget second value used →
      Consults resolve budget (.either id first second) value used
  | part {budget : Nat} {schema : Schema} {value : Option Json} {used : NodeId}
      {before after : List Part} {part : Part} :
      schema.parts? value = some (before ++ part :: after) →
      (∀ earlier ∈ before, earlier.schema.meaning resolve budget earlier.value = .accept) →
      Consults resolve budget part.schema part.value used →
      Consults resolve budget schema value used
  | alternative {budget : Nat} {id used : NodeId} {value : Option Json}
      {before after : List Schema} {alternative : Schema} :
      (∀ earlier ∈ before, earlier.meaning resolve budget value = .reject) →
      Consults resolve budget alternative value used →
      Consults resolve budget (.union id (before ++ alternative :: after)) value used

/-- Only references are consulted that can be reached. -/
theorem Consults.reaches {resolve : Resolver} {budget : Nat} {schema : Schema}
    {value : Option Json} {used : NodeId} (consults : schema.Consults resolve budget value used) :
    schema.Reaches resolve (.reference used) := by
  induction consults with
  | reference => exact .refl
  | target leads _ ih => exact .head (.target leads) ih
  | bothFirst _ ih | eitherFirst _ ih => exact .head (.child (by simp [children])) ih
  | bothSecond _ _ ih | eitherSecond _ _ ih => exact .head (.child (by simp [children])) ih
  | part found _ _ ih => exact .head (.child (mem_children_of_mem_parts? found (by simp))) ih
  | alternative _ _ ih => exact .head (.child (by simp [children])) ih

/-- An outcome depends on the references alone that are consulted. -/
theorem outcome_of_consults {left right : Resolver} (budget : Nat) (schema : Schema)
    (value : Option Json)
    (agree : ∀ used, schema.Consults left budget value used → right used = left used) :
    outcome right budget schema value = outcome left budget schema value := by
  induction budget, schema using inductionOnBudget generalizing value with
  | leaf budget schema accepts found =>
      rw [outcome_of_leafTest? right budget found, outcome_of_leafTest? left budget found]
  | both budget id first second firstIH secondIH =>
      rw [outcome_both, outcome_both, firstIH value fun used consults =>
        agree used (.bothFirst consults)]
      cases equal : outcome left budget first value with
      | accepted =>
          have accepts : first.meaning left budget value = .accept := by
            rw [← verdict_outcome, equal, Outcome.verdict]
          exact secondIH value fun used consults => agree used (.bothSecond accepts consults)
      | rejected failure | unresolved cause | tooDeep trail => rfl
  | either budget id first second firstIH secondIH =>
      rw [outcome_either, outcome_either, firstIH value fun used consults =>
        agree used (.eitherFirst consults)]
      cases equal : outcome left budget first value with
      | rejected failure =>
          have rejects : first.meaning left budget value = .reject := by
            rw [← verdict_outcome, equal, Outcome.verdict]
          exact secondIH value fun used consults => agree used (.eitherSecond rejects consults)
      | accepted | unresolved cause | tooDeep trail => rfl
  | inside budget schema inside ih =>
      cases found : schema.parts? value with
      | none =>
          rw [outcome_of_no_parts right _ inside found, outcome_of_no_parts left _ inside found]
      | some parts =>
          rw [outcome_of_parts? right _ found, outcome_of_parts? left _ found]
          apply Outcome.all_congr
          rintro before part after rfl passed
          have accepted : ∀ earlier ∈ before,
              earlier.schema.meaning left budget earlier.value = .accept := by
            simpa using passed
          have child : part.schema ∈ schema.children := mem_children_of_mem_parts? found (by simp)
          rw [ih part.schema child part.value fun used consults =>
            agree used (.part found accepted consults)]
  | union budget id alternatives ih =>
      rw [outcome_union, outcome_union]
      apply Outcome.choose_congr
      rintro before alternative after rfl passed
      have rejected : ∀ earlier ∈ before, earlier.meaning left budget value = .reject := by
        simpa using passed
      exact ih alternative (by simp) value fun used consults =>
        agree used (.alternative rejected consults)
  | reference budget id ih =>
      have same := agree id .reference
      cases leads : left id with
      | error cause =>
          rw [outcome_reference_of_error _ leads, outcome_reference_of_error _ (same.trans leads)]
      | ok target =>
          cases budget with
          | zero =>
              rw [outcome_reference_zero leads, outcome_reference_zero (same.trans leads)]
          | succ budget =>
              rw [outcome_reference_succ _ leads, outcome_reference_succ _ (same.trans leads)]
              exact ih budget (by omega) target value fun used consults =>
                agree used (.target leads consults)

/-- Where two resolvers agree, so do the outcomes. -/
theorem outcome_congr {left right : Resolver} (budget : Nat) (schema : Schema)
    (agree : schema.AgreeFrom left right) (value : Option Json) :
    outcome right budget schema value = outcome left budget schema value :=
  outcome_of_consults budget schema value fun used consults => agree used consults.reaches

theorem meaning_congr {left right : Resolver} (budget : Nat) (schema : Schema)
    (agree : schema.AgreeFrom left right) (value : Option Json) :
    meaning right budget schema value = meaning left budget schema value := by
  rw [← verdict_outcome, ← verdict_outcome, outcome_congr budget schema agree]

/-! ## What is mentioned -/

/-- Only references are mentioned in a description that can be reached. -/
theorem reaches_of_mentionsWithin {resolve : Resolver} {levels : Nat} {schema : Schema}
    {used : NodeId} (mentioned : used ∈ schema.mentionsWithin resolve levels) :
    schema.Reaches resolve (.reference used) := by
  induction levels generalizing schema with
  | zero => simp [mentionsWithin] at mentioned
  | succ levels ih =>
      have ofChild : ∀ child ∈ schema.children, used ∈ child.mentionsWithin resolve levels →
          schema.Reaches resolve (.reference used) :=
        fun child member inChild => .head (.child member) (ih inChild)
      cases schema with
      | primitive | literal | container | object | oneOf | custom =>
          simp [mentionsWithin] at mentioned
      | both id first second | either id first second =>
          rw [mentionsWithin, List.mem_append] at mentioned
          rcases mentioned with inFirst | inSecond
          · exact ofChild first (by simp [children]) inFirst
          · exact ofChild second (by simp [children]) inSecond
      | array id item | record id item => exact ofChild item (by simp [children]) mentioned
      | tuple id parts | union id parts =>
          rw [mentionsWithin, List.mem_flatMap] at mentioned
          obtain ⟨part, member, inPart⟩ := mentioned
          exact ofChild part member inPart
      | reference id =>
          rw [mentionsWithin, List.mem_cons] at mentioned
          rcases mentioned with rfl | inTarget
          · exact .refl
          · cases leads : resolve id with
            | error cause => simp [leads] at inTarget
            | ok target =>
                rw [leads] at inTarget
                exact .head (.target leads) (ih inTarget)

/-- Which references are mentioned depends on these references alone. -/
theorem mentionsWithin_of_mentions {left right : Resolver} (levels : Nat) (schema : Schema)
    (agree : ∀ used ∈ schema.mentionsWithin left levels, right used = left used) :
    schema.mentionsWithin right levels = schema.mentionsWithin left levels := by
  induction levels generalizing schema with
  | zero => rfl
  | succ levels ih =>
      cases schema with
      | primitive | literal | container | object | oneOf | custom => rfl
      | both id first second | either id first second =>
          rw [mentionsWithin] at agree
          have firstSame := ih first fun used mentioned => agree used (by simp [mentioned])
          have secondSame := ih second fun used mentioned => agree used (by simp [mentioned])
          rw [mentionsWithin, mentionsWithin, firstSame, secondSame]
      | array id item | record id item =>
          rw [mentionsWithin, mentionsWithin, ih item agree]
      | tuple id parts | union id parts =>
          rw [mentionsWithin, mentionsWithin]
          apply List.flatMap_congr
          intro part member
          exact ih part fun used mentioned =>
            agree used (List.mem_flatMap.mpr ⟨part, member, mentioned⟩)
      | reference id =>
          rw [mentionsWithin] at agree
          have same : right id = left id := agree id (by simp)
          cases leads : left id with
          | error cause => simp [mentionsWithin, leads, same.trans leads]
          | ok target =>
              simp only [mentionsWithin, leads, same.trans leads]
              rw [ih target fun used mentioned => agree used (by simp [leads, mentioned])]

/-- A description depends on the references alone that it mentions. -/
theorem describeWithin_of_mentions {left right : Resolver} (levels : Nat) (schema : Schema)
    (agree : ∀ used ∈ schema.mentionsWithin left levels, right used = left used) :
    schema.describeWithin right levels = schema.describeWithin left levels := by
  induction levels generalizing schema with
  | zero => rfl
  | succ levels ih =>
      cases schema with
      | primitive | literal | container | object | oneOf | custom => rfl
      | both id first second | either id first second =>
          rw [mentionsWithin] at agree
          have firstSame := ih first fun used mentioned => agree used (by simp [mentioned])
          have secondSame := ih second fun used mentioned => agree used (by simp [mentioned])
          rw [describeWithin, describeWithin, firstSame, secondSame]
      | array id item | record id item =>
          rw [describeWithin, describeWithin, ih item agree]
      | tuple id parts | union id parts =>
          have same : parts.map (describeWithin right levels) =
              parts.map (describeWithin left levels) := by
            apply List.map_congr_left
            intro part member
            exact ih part fun used mentioned =>
              agree used (List.mem_flatMap.mpr ⟨part, member, mentioned⟩)
          rw [describeWithin, describeWithin, same]
      | reference id =>
          rw [mentionsWithin] at agree
          have same : right id = left id := agree id (by simp)
          cases leads : left id with
          | error cause => simp [describeWithin, leads, same.trans leads]
          | ok target =>
              simp only [describeWithin, leads, same.trans leads]
              exact ih target fun used mentioned => agree used (by simp [leads, mentioned])

end Schema

/-! ## What is consulted is told -/

/-- A run tells that it has used a reference. -/
def Run.Tells (run : Run) (budget : Nat) (used : NodeId) : Prop :=
  ∀ context : Context, context.isFaulted = false → context.remaining = budget →
    Notice.used used ∈ (run context).2.journal

theorem Run.all_tells {α : Type} {run : α → Run} {outcome : α → Outcome} {budget : Nat}
    {used : NodeId} {before after : List α} {item : α}
    (computes : ∀ earlier ∈ before, (run earlier).Computes budget (outcome earlier))
    (accepts : ∀ earlier ∈ before, (outcome earlier).verdict = .accept)
    (tells : (run item).Tells budget used) (evolves : ∀ later ∈ after, (run later).Evolves) :
    (Run.all ((before ++ item :: after).map run)).Tells budget used := by
  induction before with
  | nil =>
      intro context clear enough
      have told := tells context clear enough
      simp only [List.nil_append, List.map_cons, Run.all]
      generalize run item context = result at told ⊢
      obtain ⟨accepted, middle⟩ := result
      cases accepted with
      | true => exact (Run.all_evolves evolves middle).journal_subset told
      | false => exact told
  | cons first before ih =>
      intro context clear enough
      have describes := computes first (by simp) context clear enough
      have isAccepted := Outcome.verdict_eq_accept_iff.mp (accepts first (by simp))
      rw [isAccepted] at describes
      simp only [List.cons_append, List.map_cons, Run.all]
      generalize run first context = result at describes ⊢
      obtain ⟨accepted, middle⟩ := result
      cases accepted with
      | true =>
          exact ih (fun earlier member => computes earlier (by simp [member]))
            (fun earlier member => accepts earlier (by simp [member])) middle describes.isFaulted
            (describes.place.remaining.trans enough)
      | false => exact (describes.ne_accepted rfl).elim

namespace Test

variable {budget : Nat} {used : NodeId} {value : Option Json}

theorem under_tells {test : Test} (tells : (test value).Tells budget used) (segment : Segment) :
    Run.Tells (test.under segment value) budget used := by
  intro context clear enough
  have told := tells (context.enter segment) (by rw [Context.enter_eq]; exact clear)
    (by rw [Context.enter_eq]; exact enough)
  simp only [under, Context.back_eq]
  exact told

section Two

variable {first second : Test} {outcome : Option Json → Outcome}

theorem both_tells_first (tells : (first value).Tells budget used) (evolves : second.Evolves) :
    Run.Tells (Test.both first second value) budget used := by
  intro context clear enough
  have told := tells context clear enough
  rw [Test.both]
  generalize first value context = result at told ⊢
  obtain ⟨accepted, middle⟩ := result
  cases accepted with
  | true => exact (evolves value middle).journal_subset told
  | false => exact told

theorem both_tells_second (computes : first.Computes budget outcome)
    (accepts : (outcome value).verdict = .accept) (tells : (second value).Tells budget used) :
    Run.Tells (Test.both first second value) budget used := by
  intro context clear enough
  have describes := computes.runs value context clear enough
  rw [Outcome.verdict_eq_accept_iff.mp accepts] at describes
  rw [Test.both]
  generalize first value context = result at describes ⊢
  obtain ⟨accepted, middle⟩ := result
  cases accepted with
  | true => exact tells middle describes.isFaulted (describes.place.remaining.trans enough)
  | false => exact (describes.ne_accepted rfl).elim

theorem either_tells_first (tells : (first value).Tells budget used) (evolves : second.Evolves) :
    Run.Tells (Test.either first second value) budget used := by
  intro context clear enough
  have told := tells context clear enough
  rw [Test.either]
  generalize first value context = result at told ⊢
  obtain ⟨accepted, middle⟩ := result
  cases accepted with
  | true => exact told
  | false => exact (evolves value middle).journal_subset told

theorem either_tells_second (computes : first.Computes budget outcome)
    (rejects : (outcome value).verdict = .reject) (tells : (second value).Tells budget used) :
    Run.Tells (Test.either first second value) budget used := by
  intro context clear enough
  have describes := computes.runs value context clear enough
  obtain ⟨failure, isRejected⟩ := Outcome.verdict_eq_reject_iff.mp rejects
  rw [isRejected] at describes
  rw [Test.either]
  generalize first value context = result at describes ⊢
  obtain ⟨accepted, middle⟩ := result
  cases accepted with
  | true => cases describes.eq_accepted
  | false => exact tells middle describes.isFaulted (describes.place.remaining.trans enough)

end Two

theorem tryEach_tells {test : Schema → Test} {outcome : Schema → Option Json → Outcome}
    {before after : List Schema} {alternative : Schema}
    (computes : ∀ earlier ∈ before, (test earlier).Computes budget (outcome earlier))
    (rejects : ∀ earlier ∈ before, (outcome earlier value).verdict = .reject)
    (tells : (test alternative value).Tells budget used)
    (evolves : ∀ later ∈ after, (test later).Evolves)
    (schema : Schema) (start : Nat) (prior best : Option Failure) :
    Run.Tells (tryEach schema value start prior ((before ++ alternative :: after).map test) best)
      budget used := by
  induction before generalizing best with
  | nil =>
      intro context clear enough
      have told := tells context clear enough
      simp only [List.nil_append, List.map_cons, tryEach]
      generalize test alternative value context = result at told ⊢
      obtain ⟨accepted, middle⟩ := result
      cases accepted with
      | true => exact told
      | false =>
          simp only
          split
          · exact told
          · exact (tryEach_evolves evolves schema value _ _ _ _).journal_subset told
  | cons first before ih =>
      intro context clear enough
      have describes := (computes first (by simp)).runs value context clear enough
      obtain ⟨failure, isRejected⟩ :=
        Outcome.verdict_eq_reject_iff.mp (rejects first (by simp))
      rw [isRejected] at describes
      simp only [List.cons_append, List.map_cons, tryEach]
      generalize test first value context = result at describes ⊢
      obtain ⟨accepted, middle⟩ := result
      cases accepted with
      | true => cases describes.eq_accepted
      | false =>
          have stillClear : middle.isFaulted = false := describes.isFaulted
          simp only
          rw [if_neg (by rw [Bool.not_eq_true]; exact stillClear)]
          exact ih (fun earlier member => computes earlier (by simp [member]))
            (fun earlier member => rejects earlier (by simp [member])) _ _ stillClear
            (describes.place.remaining.trans enough)

theorem union_tells {test : Schema → Test} {outcome : Schema → Option Json → Outcome}
    {before after : List Schema} {alternative : Schema}
    (computes : ∀ earlier ∈ before, (test earlier).Computes budget (outcome earlier))
    (rejects : ∀ earlier ∈ before, (outcome earlier value).verdict = .reject)
    (tells : (test alternative value).Tells budget used)
    (evolves : ∀ later ∈ after, (test later).Evolves) (schema : Schema) :
    Run.Tells (Test.union schema ((before ++ alternative :: after).map test) value)
      budget used := by
  intro context clear enough
  exact tryEach_tells computes rejects tells evolves schema _ _ _ (context.withFailure none) clear
    enough

theorem reference_tells {descend : Schema → Test} (evolves : ∀ target, (descend target).Evolves)
    (resolve : Resolver) (id : NodeId) (value : Option Json) (budget : Nat) :
    Run.Tells (reference resolve descend id value) budget id := by
  intro context clear _
  apply (reference_evolves evolves resolve id value clear).journal_subset
  exact List.mem_cons_self

theorem reference_tells_target {resolve : Resolver} {id : NodeId} {target : Schema}
    (leads : resolve id = .ok target) {descend : Schema → Test}
    (tells : (descend target value).Tells budget used) :
    Run.Tells (reference resolve descend id value) (budget + 1) used := by
  intro context clear enough
  simp only [Context.remaining] at enough
  have room : ¬ context.limits.maxDepth ≤ context.frames := by omega
  have entered := (context.note (.used id)).enterReference_of_room room
  simp only [reference, leads, entered]
  apply tells
  · exact clear
  · simp only [Context.remaining, Context.note]
    omega

end Test

namespace Schema

section Budget

variable {resolve : Resolver} {budget : Nat} {value : Option Json} {context : Context}

theorem testWithin_both (id : NodeId) (first second : Schema)
    (clear : context.isFaulted = false) :
    testWithin resolve budget (.both id first second) value context =
      Test.both (testWithin resolve budget first) (testWithin resolve budget second) value
        context := by
  cases budget <;> simp [testWithin, testBy, clear]

theorem testWithin_either (id : NodeId) (first second : Schema)
    (clear : context.isFaulted = false) :
    testWithin resolve budget (.either id first second) value context =
      Test.either (testWithin resolve budget first) (testWithin resolve budget second) value
        context := by
  cases budget <;> simp [testWithin, testBy, clear]

theorem testWithin_of_parts? {schema : Schema} {parts : List Part}
    (found : schema.parts? value = some parts) (clear : context.isFaulted = false) :
    testWithin resolve budget schema value context =
      Run.all (parts.map fun part =>
        (testWithin resolve budget part.schema).under part.segment part.value) context := by
  cases budget <;> rw [testWithin, testBy_eq_testOnce, testOnce_of_parts? found clear]

theorem testWithin_union (id : NodeId) (alternatives : List Schema)
    (clear : context.isFaulted = false) :
    testWithin resolve budget (.union id alternatives) value context =
      Test.union (.union id alternatives) (alternatives.map (testWithin resolve budget)) value
        context := by
  cases budget <;> simp [testWithin, testBy, clear, testsBy_eq_map]

end Budget

/-- A run tells every reference that it consults. -/
theorem Consults.tells {resolve : Resolver} {budget : Nat} {schema : Schema}
    {value : Option Json} {used : NodeId} (consults : schema.Consults resolve budget value used) :
    Run.Tells (schema.testWithin resolve budget value) budget used := by
  intro context clear enough
  induction consults generalizing context with
  | @reference budget id value =>
      cases budget with
      | zero =>
          rw [testWithin, testBy, if_neg (by simp [clear])]
          exact Test.reference_tells (fun _ _ _ => .refl) resolve id value 0 context
            clear enough
      | succ budget =>
          rw [testWithin, testBy, if_neg (by simp [clear])]
          exact Test.reference_tells (testWithin_evolves resolve budget) resolve id value _ context
            clear enough
  | target leads _ ih =>
      rw [testWithin, testBy, if_neg (by simp [clear])]
      exact Test.reference_tells_target leads ih context clear enough
  | bothFirst _ ih =>
      rw [testWithin_both _ _ _ clear]
      exact Test.both_tells_first ih (testWithin_evolves _ _ _) context clear enough
  | bothSecond accepts _ ih =>
      rw [testWithin_both _ _ _ clear]
      rw [← verdict_outcome] at accepts
      exact Test.both_tells_second (testWithin_computes _ _ _) accepts ih context clear enough
  | eitherFirst _ ih =>
      rw [testWithin_either _ _ _ clear]
      exact Test.either_tells_first ih (testWithin_evolves _ _ _) context clear enough
  | eitherSecond rejects _ ih =>
      rw [testWithin_either _ _ _ clear]
      rw [← verdict_outcome] at rejects
      exact Test.either_tells_second (testWithin_computes _ _ _) rejects ih context clear enough
  | @part budget schema value used before after part found accepts _ ih =>
      have passed : ∀ earlier ∈ before, ((outcome resolve budget earlier.schema
          earlier.value).below [earlier.segment]).verdict = .accept := by
        intro earlier member
        rw [Outcome.verdict_below, verdict_outcome]
        exact accepts earlier member
      rw [testWithin_of_parts? found clear]
      apply Run.all_tells _ passed (Test.under_tells ih part.segment) _ context clear enough
      · intro earlier _
        exact Test.under_computes ((testWithin_computes resolve budget _).runs earlier.value)
      · intro later _
        exact Test.under_evolves (testWithin_evolves resolve budget _) later.segment later.value
  | @alternative budget id used value before after alternative rejects _ ih =>
      have passed : ∀ earlier ∈ before,
          (outcome resolve budget earlier value).verdict = .reject := by
        intro earlier member
        rw [verdict_outcome]
        exact rejects earlier member
      rw [testWithin_union _ _ clear]
      exact Test.union_tells (fun earlier _ => testWithin_computes resolve budget earlier) passed ih
        (fun later _ => testWithin_evolves resolve budget later) _ context clear enough

section Journals

variable {resolve : Resolver} {schema : Schema} {limits : Limits} {value : Option Json}
  {used : NodeId}

/-- The journal of a check tells every reference that the run consults. -/
theorem Consults.mem_check (consults : schema.Consults resolve limits.maxDepth value used) :
    Notice.used used ∈ (schema.check resolve limits value).journal :=
  List.mem_reverse.mpr (consults.tells (.untracked limits) rfl rfl)

/-- The journal of an assertion tells every reference that the run consults. -/
theorem Consults.mem_assert (consults : schema.Consults resolve limits.maxDepth value used) :
    Notice.used used ∈ (schema.assert resolve limits value).journal := by
  have told := List.mem_reverse.mpr (consults.tells (.tracked limits) rfl rfl)
  change Notice.used used ∈ (schema.test resolve value (.tracked limits)).2.journal.reverse at told
  rw [Schema.assert]
  generalize schema.test resolve value (.tracked limits) = result at told ⊢
  obtain ⟨accepted, context⟩ := result
  cases accepted with
  | true => exact told
  | false => exact List.mem_append_left _ told

/-- The journal of an assertion also tells every reference that wording the error mentions. -/
theorem mem_assert_of_mentions {failure : Failure}
    (rejected : schema.outcome resolve limits.maxDepth value = .rejected failure)
    (mentioned : used ∈ failure.expected.mentions resolve) :
    Notice.used used ∈ (schema.assert resolve limits value).journal := by
  have clear : (Context.tracked limits).isFaulted = false := rfl
  have describes := test_describes resolve schema value clear
  change (schema.outcome resolve limits.maxDepth value).Describes _ _ at describes
  rw [rejected] at describes
  rw [Schema.assert]
  generalize schema.test resolve value (.tracked limits) = result at describes ⊢
  obtain ⟨accepted, context⟩ := result
  cases accepted with
  | true => cases describes.eq_accepted
  | false =>
      have stillClear : context.isFaulted = false := describes.isFaulted
      have left : context.failure = some (failure.below []) := describes.failure rfl failure rfl
      have mentions : used ∈ context.errorMentions resolve schema value := by
        simpa [Context.errorMentions, stillClear, Context.explanation, left, Failure.below]
          using mentioned
      exact List.mem_append_right _ (List.mem_map_of_mem mentions)

end Journals

end Schema

end Assay
