import Assay.Proofs.Lowering
import Assay.Proofs.Validation
import Assay.Routine.Run

/-!
# Runs of routine code

The code that a schema is lowered to answers by the meaning of the schema.  This holds whatever
references lead to when the code is run, as long as those that can be reached from the schema lead
where they led when it was lowered.

A run of code carries a guard instead of a context.  Both count the active references in the same
way, so a handover continues within the budget that is left, and a fault that the interpreter raises
there ends the whole run of the code. -/

namespace Assay

/-- The number of references that may still become active. -/
def Guard.remaining (guard : Guard) : Nat := guard.limits.maxDepth - guard.frames

/-- Whether a verdict ends a whole run. -/
def Verdict.isFault : Verdict → Bool
  | .fault _ => true
  | .accept | .reject => false

/-- A verdict describes what a probe that starts with a guard answers and leaves. -/
structure Verdict.Describes (verdict : Verdict) (before : Guard) (result : Bool × Guard) :
    Prop where
  answer : result.1 = true ↔ verdict = .accept
  limits : result.2.limits = before.limits
  frames : result.2.frames = before.frames
  faulted : result.2.faulted = verdict.isFault

namespace Verdict.Describes

variable {verdict : Verdict} {before middle : Guard} {result : Bool × Guard}

/-- A probe that starts where another one came back to answers as if it had started there. -/
theorem of_same (limits : middle.limits = before.limits) (frames : middle.frames = before.frames)
    (describes : verdict.Describes middle result) : verdict.Describes before result :=
  ⟨describes.answer, describes.limits.trans limits, describes.frames.trans frames,
    describes.faulted⟩

theorem eq_accept (describes : verdict.Describes before (true, middle)) : verdict = .accept :=
  describes.answer.mp rfl

theorem ne_accept (describes : verdict.Describes before (false, middle)) : verdict ≠ .accept :=
  fun accepts => by cases describes.answer.mpr accepts

theorem remaining (describes : verdict.Describes before result) :
    result.2.remaining = before.remaining := by
  rw [Guard.remaining, Guard.remaining, describes.limits, describes.frames]

end Verdict.Describes

namespace Code

/-- A probe computes a verdict: it answers by it under every guard of the budget that has not ended
the run. -/
def Probe.Computes (probe : Probe) (budget : Nat) (verdict : Verdict) : Prop :=
  ∀ guard : Guard, guard.faulted = false → guard.remaining = budget →
    verdict.Describes guard (probe guard)

namespace Probe

variable {budget : Nat}

theorem ofBool_computes (accepted : Bool) :
    Computes (fun guard => (accepted, guard)) budget (.ofBool accepted) := by
  intro guard clear _
  cases accepted <;> exact ⟨by simp [Verdict.ofBool], rfl, rfl, clear⟩

section List

variable {α : Type} {probe : α → Probe} {verdict : α → Verdict} {items : List α}

theorem all_computes (each : ∀ item ∈ items, (probe item).Computes budget (verdict item)) :
    (Probe.all (items.map probe)).Computes budget (.all (items.map verdict)) := by
  induction items with
  | nil => exact ofBool_computes true
  | cons item rest ih =>
      intro guard clear enough
      have describes := each item (by simp) guard clear enough
      simp only [List.map_cons, Probe.all, Verdict.all_cons]
      generalize probe item guard = result at describes ⊢
      obtain ⟨accepted, middle⟩ := result
      cases accepted with
      | true =>
          have accepts := describes.eq_accept
          rw [accepts] at describes ⊢
          exact .of_same describes.limits describes.frames
            (ih (fun other member => each other (by simp [member])) middle describes.faulted
              (describes.remaining.trans enough))
      | false =>
          rw [Verdict.both_of_ne_accept describes.ne_accept]
          exact describes

theorem any_computes (each : ∀ item ∈ items, (probe item).Computes budget (verdict item)) :
    (Probe.any (items.map probe)).Computes budget (.any (items.map verdict)) := by
  induction items with
  | nil => exact ofBool_computes false
  | cons item rest ih =>
      intro guard clear enough
      have describes := each item (by simp) guard clear enough
      simp only [List.map_cons, Probe.any, Verdict.any_cons]
      generalize probe item guard = result at describes ⊢
      obtain ⟨accepted, middle⟩ := result
      cases accepted with
      | true =>
          have accepts := describes.eq_accept
          rw [accepts] at describes ⊢
          exact describes
      | false =>
          have faulted := describes.faulted
          simp only at faulted ⊢
          cases equal : verdict item with
          | accept => exact (describes.ne_accept equal).elim
          | reject =>
              rw [equal] at describes faulted
              rw [if_neg (by simp [faulted, Verdict.isFault])]
              exact .of_same describes.limits describes.frames
                (ih (fun other member => each other (by simp [member])) middle faulted
                  (describes.remaining.trans enough))
          | fault halt =>
              rw [equal] at describes faulted
              rw [if_pos (by simp [faulted, Verdict.isFault])]
              exact describes

end List

theorem framed_computes_zero (probe : Probe) : probe.framed.Computes 0 (.fault .tooDeep) := by
  intro guard _ enough
  have full : guard.limits.maxDepth ≤ guard.frames := by
    simpa [Guard.remaining, Nat.sub_eq_zero_iff_le] using enough
  simp only [framed, Guard.enter, if_pos full]
  exact ⟨by simp, rfl, rfl, rfl⟩

theorem framed_computes_succ {probe : Probe} {verdict : Verdict}
    (computes : probe.Computes budget verdict) : probe.framed.Computes (budget + 1) verdict := by
  intro guard clear enough
  have room : ¬ guard.limits.maxDepth ≤ guard.frames := by
    simp only [Guard.remaining] at enough
    omega
  have describes := computes { guard with frames := guard.frames + 1 } clear (by
    simp only [Guard.remaining] at enough ⊢
    omega)
  simp only [framed, Guard.enter, if_neg room]
  refine ⟨describes.answer, describes.limits, ?_, describes.faulted⟩
  rw [Guard.leave, describes.frames]
  rfl

/-- The interpreter computes the meaning of the schema that a value is handed over to. -/
theorem interpret_computes (resolve : Resolver) (target : Schema) (value : Option Json) :
    Computes (interpret resolve target value) budget (target.meaning resolve budget value) := by
  intro guard clear enough
  have resumed : (Context.resumed guard.limits guard.frames).isFaulted = false := rfl
  have describes := target.test_describes resolve value resumed
  have sameBudget : (Context.resumed guard.limits guard.frames).remaining = budget := enough
  rw [sameBudget] at describes
  have answer := describes.answer
  have faulted := describes.isFaulted
  rw [Schema.verdict_outcome] at answer
  refine ⟨answer, rfl, rfl, ?_⟩
  simp only [interpret, clear, Bool.false_or, faulted]
  rw [← Schema.verdict_outcome]
  cases target.outcome resolve budget value <;> rfl

end Probe

/-! ## Runs of lowered code -/

section Run

variable {resolve : Resolver} {budget : Nat}

theorem run_of_leafTest? {code : Code} {accepts : Option Json → Bool}
    (found : code.leafTest? = some accepts) (value : Option Json) :
    run resolve code value = fun guard => (accepts value, guard) := by
  cases code <;> cases found <;> rfl

theorem runPositions_eq_map (codes : List Code) (elements : List Json) :
    runPositions resolve codes elements =
      (codes.zip elements).map fun pair => run resolve pair.1 (some pair.2) := by
  induction codes generalizing elements with
  | nil => rfl
  | cons code rest ih =>
      cases elements with
      | nil => rfl
      | cons element elements => rw [runPositions, ih, List.zip_cons_cons, List.map_cons]

theorem runFields_eq_map (fields : List (String × Code)) (entries : List (String × Json)) :
    runFields resolve fields entries =
      fields.map fun field => run resolve field.2 (entries.lookup field.1) := by
  induction fields with
  | nil => rfl
  | cons field rest ih => rw [runFields, ih, List.map_cons]

theorem runAlternatives_eq_map (alternatives : List Code) (value : Option Json) :
    runAlternatives resolve alternatives value =
      alternatives.map fun code => run resolve code value := by
  induction alternatives with
  | nil => rfl
  | cons code rest ih => rw [runAlternatives, ih, List.map_cons]

theorem run_tuple {codes : List Code} {elements : List Json}
    (sameLength : elements.length = codes.length) :
    run resolve (.tuple codes) (some (.array elements)) =
      Probe.all ((codes.zip elements).map fun pair => run resolve pair.1 (some pair.2)) := by
  funext guard
  simp [run, sameLength, runPositions_eq_map]

theorem run_tuple_of_ne {codes : List Code} {elements : List Json}
    (differs : elements.length ≠ codes.length) :
    run resolve (.tuple codes) (some (.array elements)) = fun guard => (false, guard) := by
  funext guard
  simp [run, differs]

theorem run_object (fields : List (String × Code)) (entries : List (String × Json)) :
    run resolve (.object fields) (some (.object entries)) =
      Probe.all (fields.map fun field => run resolve field.2 (entries.lookup field.1)) := by
  funext guard
  simp [run, runFields_eq_map]

theorem run_union (alternatives : List Code) (value : Option Json) :
    run resolve (.union alternatives) value =
      Probe.any (alternatives.map fun code => run resolve code value) := by
  funext guard
  simp [run, runAlternatives_eq_map]

variable {item : Schema} {code : Code}

theorem run_array_computes (id : NodeId)
    (computes : ∀ value,
      (run resolve code value).Computes budget (item.meaning resolve budget value))
    (value : Option Json) :
    (run resolve (.array code) value).Computes budget
      (Schema.meaning resolve budget (.array id item) value) := by
  rcases value with _ | (_ | _ | _ | _ | elements | _)
  case some.array =>
      rw [Schema.meaning_array]
      exact Probe.all_computes fun element _ => computes (some element)
  all_goals
    rw [Schema.meaning_of_no_parts resolve budget rfl rfl]
    exact Probe.ofBool_computes false

theorem run_record_computes (id : NodeId)
    (computes : ∀ value,
      (run resolve code value).Computes budget (item.meaning resolve budget value))
    (value : Option Json) :
    (run resolve (.record code) value).Computes budget
      (Schema.meaning resolve budget (.record id item) value) := by
  rcases value with _ | (_ | _ | _ | _ | _ | entries)
  case some.object =>
      rw [Schema.meaning_record]
      exact Probe.all_computes fun entry _ => computes (some entry.2)
  all_goals
    rw [Schema.meaning_of_no_parts resolve budget rfl rfl]
    exact Probe.ofBool_computes false

theorem run_tuple_computes (id : NodeId) {parts : List (Schema × Code)}
    (each : ∀ part ∈ parts, ∀ value,
      (run resolve part.2 value).Computes budget (part.1.meaning resolve budget value))
    (value : Option Json) :
    (run resolve (.tuple (parts.map (·.2))) value).Computes budget
      (Schema.meaning resolve budget (.tuple id (parts.map (·.1))) value) := by
  rcases value with _ | (_ | _ | _ | _ | elements | _)
  case some.array =>
      by_cases sameLength : elements.length = parts.length
      case pos =>
          rw [Schema.meaning_tuple resolve budget id (by simpa using sameLength),
            List.zip_map_left, List.map_map]
          rw [run_tuple (by simpa using sameLength), List.zip_map_left, List.map_map]
          exact Probe.all_computes fun pair member =>
            each pair.1 (List.of_mem_zip member).1 (some pair.2)
      case neg =>
          have noTuple : (Schema.tuple id (parts.map (·.1))).parts? (some (.array elements)) =
              none := by
            simp [Schema.parts?, sameLength]
          rw [Schema.meaning_of_no_parts resolve budget rfl noTuple,
            run_tuple_of_ne (by simpa using sameLength)]
          exact Probe.ofBool_computes false
  all_goals
    rw [Schema.meaning_of_no_parts resolve budget rfl rfl]
    exact Probe.ofBool_computes false

theorem run_object_computes (id : NodeId) {parts : List (String × Schema × Code)}
    (each : ∀ part ∈ parts, ∀ value,
      (run resolve part.2.2 value).Computes budget (part.2.1.meaning resolve budget value))
    (value : Option Json) :
    (run resolve (.object (parts.map fun part => (part.1, part.2.2))) value).Computes budget
      (Schema.meaning resolve budget (.object id (parts.map fun part => (part.1, part.2.1)))
        value) := by
  rcases value with _ | (_ | _ | _ | _ | _ | entries)
  case some.object =>
      rw [Schema.meaning_object, List.map_map, run_object, List.map_map]
      exact Probe.all_computes fun part member => each part member (entries.lookup part.1)
  all_goals
    rw [Schema.meaning_of_no_parts resolve budget rfl rfl]
    exact Probe.ofBool_computes false

theorem run_union_computes (id : NodeId) {parts : List (Schema × Code)}
    (each : ∀ part ∈ parts, ∀ value,
      (run resolve part.2 value).Computes budget (part.1.meaning resolve budget value))
    (value : Option Json) :
    (run resolve (.union (parts.map (·.2))) value).Computes budget
      (Schema.meaning resolve budget (.union id (parts.map (·.1))) value) := by
  rw [Schema.meaning_union, List.map_map, run_union, List.map_map]
  exact Probe.any_computes fun part member => each part member value

/-- A reference asks for what it leads to, under one more active reference. -/
theorem framed_computes {probe : Probe} {id : NodeId} {target : Schema} {value : Option Json}
    (leads : resolve id = .ok target)
    (computes : ∀ budget, probe.Computes budget (target.meaning resolve budget value))
    (budget : Nat) :
    probe.framed.Computes budget (Schema.meaning resolve budget (.reference id) value) := by
  cases budget with
  | zero =>
      rw [Schema.meaning_reference_zero leads]
      exact probe.framed_computes_zero
  | succ budget =>
      rw [Schema.meaning_reference_succ _ leads]
      exact Probe.framed_computes_succ (computes budget)

end Run

/-- The code that a schema is lowered to computes the meaning of the schema, wherever references
lead by then, as long as those that can be reached from the schema lead where they led. -/
theorem run_computes {resolve later : Resolver} {used expanding : List NodeId} {schema : Schema}
    {code : Code} (lowers : Schema.LowersTo resolve used expanding schema code)
    (agree : schema.AgreeFrom resolve later) (budget : Nat) (value : Option Json) :
    (run later code value).Computes budget (schema.meaning later budget value) := by
  induction lowers generalizing budget value with
  | leaf isLeaf isLeafCode =>
      rw [Schema.meaning_of_leafTest? later budget isLeaf, run_of_leafTest? isLeafCode]
      exact Probe.ofBool_computes _
  | @both _ id first second left right _ _ firstIH secondIH =>
      have firstComputes := firstIH (agree.child (by simp [Schema.children])) budget value
      have secondComputes := secondIH (agree.child (by simp [Schema.children])) budget value
      have each : ∀ pair ∈ [(left, first), (right, second)],
          (run later pair.1 value).Computes budget (pair.2.meaning later budget value) := by
        simpa using ⟨firstComputes, secondComputes⟩
      have computes := Probe.all_computes each
      simp only [List.map_cons, List.map_nil, Verdict.all_cons, Verdict.all_nil,
        Verdict.both_accept] at computes
      rw [Schema.meaning_both]
      exact computes
  | @either _ id first second left right _ _ firstIH secondIH =>
      have firstComputes := firstIH (agree.child (by simp [Schema.children])) budget value
      have secondComputes := secondIH (agree.child (by simp [Schema.children])) budget value
      have each : ∀ pair ∈ [(left, first), (right, second)],
          (run later pair.1 value).Computes budget (pair.2.meaning later budget value) := by
        simpa using ⟨firstComputes, secondComputes⟩
      have computes := Probe.any_computes each
      simp only [List.map_cons, List.map_nil, Verdict.any_cons, Verdict.any_nil,
        Verdict.either_reject] at computes
      rw [Schema.meaning_either]
      exact computes
  | array id _ ih =>
      exact run_array_computes id (ih (agree.child (by simp [Schema.children])) budget) value
  | record id _ ih =>
      exact run_record_computes id (ih (agree.child (by simp [Schema.children])) budget) value
  | tuple id parts _ ih =>
      apply run_tuple_computes id
      intro part member
      exact ih part member (agree.child (List.mem_map_of_mem member)) budget
  | object id parts _ ih =>
      apply run_object_computes id
      intro part member
      exact ih part member (agree.child (Schema.mem_children_object member id)) budget
  | union id parts _ ih =>
      apply run_union_computes id
      intro part member
      exact ih part member (agree.child (List.mem_map_of_mem member)) budget
  | expanded _ leads _ ih =>
      have next := agree.next (.target leads)
      have sameTarget := (agree _ .refl).trans leads
      exact framed_computes sameTarget (fun budget => ih next budget value) budget
  | handover label _ leads _ =>
      exact framed_computes ((agree _ .refl).trans leads)
        (fun _ => Probe.interpret_computes later _ value) budget

/-- A check by code answers yes exactly if the schema accepts within the limit. -/
theorem check_answer {resolve later : Resolver} {used expanding : List NodeId} {schema : Schema}
    {code : Code} (lowers : Schema.LowersTo resolve used expanding schema code)
    (agree : schema.AgreeFrom resolve later) (limits : Limits) (value : Option Json) :
    (code.check later limits value).answer = true ↔
      schema.meaning later limits.maxDepth value = .accept :=
  (run_computes lowers agree limits.maxDepth value { limits } rfl rfl).answer

end Code

end Assay
