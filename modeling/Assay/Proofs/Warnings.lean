import Assay.Proofs.Contract
import Assay.Proofs.Flaws
import Assay.Proofs.Threshold

/-!
# Warnings of the depth limit

A run that meets the depth limit tells so once, because nothing is tested after that.  What it tells
is the limit and the place, which are also those of the fault with which it ends.

A routine meets the limit either in its own code, which does not know places, or in the interpreter
that a value was handed over to, which does not track them there.  Either way the run of the routine
ends.  An assertion by a routine then asks the schema for a reason, and the schema meets the limit
once more. -/

namespace Assay

/-- The report of an entry of a journal about the depth limit. -/
def Notice.warning? : Notice → Option Event
  | .depthExceeded limit path => some (.depthExceeded limit path)
  | .used _ => none

/-- The reports about the depth limit that a journal asks for. -/
def Journal.warnings (journal : Journal) : List Event := journal.filterMap Notice.warning?

/-- Whether an event reports that a run met the depth limit. -/
def Event.isWarning : Event → Bool
  | .depthExceeded _ _ => true
  | _ => false

/-- The reports about the depth limit, latest first. -/
def Registry.warnings (registry : Registry) : List Event := registry.events.filter Event.isWarning

/-- Whether a run has ended by the depth limit. -/
def Context.hasMetLimit (context : Context) : Bool :=
  match context.fault with
  | some (.depthLimit _ _) => true
  | some (.schema _) | none => false

/-- The report that belongs to the fault with which a run ended, if that is the depth limit. -/
def Context.fatalWarnings (context : Context) : List Event :=
  match context.fault with
  | some (.depthLimit limit path) => [.depthExceeded limit (some path)]
  | some (.schema _) | none => []

/-! ## Runs of the interpreter -/

/-- A run has told of the depth limit exactly if it has ended with that fault since a context, and
nothing else has been told. -/
structure Context.Warned (before after : Context) : Prop where
  told : Journal.warnings after.journal =
    (if before.isFaulted then [] else after.fatalWarnings) ++ Journal.warnings before.journal
  ended : before.isFaulted = true → after.fault = before.fault

namespace Context

variable {before middle after : Context}

theorem fatalWarnings_of_clear (clear : after.isFaulted = false) : after.fatalWarnings = [] := by
  rw [isFaulted_eq_false_iff] at clear
  rw [fatalWarnings, clear]

theorem Warned.refl (context : Context) : context.Warned context := by
  constructor
  case told =>
      split
      · rfl
      · next clear => rw [fatalWarnings_of_clear (Bool.not_eq_true _ ▸ clear), List.nil_append]
  case ended => exact fun _ => rfl

/-- As long as no fault has ended a run, nothing has been told. -/
theorem Warned.of_clear (warned : before.Warned middle) (clear : middle.isFaulted = false) :
    before.isFaulted = false ∧
      Journal.warnings middle.journal = Journal.warnings before.journal := by
  have started : before.isFaulted = false := by
    rw [← Bool.not_eq_true]
    intro faulted
    have same := warned.ended faulted
    rw [isFaulted, same] at clear
    exact Bool.false_ne_true (clear.symm.trans faulted)
  have told := warned.told
  rw [started, fatalWarnings_of_clear clear] at told
  exact ⟨started, told⟩

theorem Evolves.warned (evolves : before.Evolves after) : before.Warned after := by
  induction evolves with
  | refl => exact .refl before
  | @tail middle after _ change ih =>
      cases change with
      | move | remember | use | activate | release => exact ⟨ih.told, ih.ended⟩
      | unresolved cause clear =>
          obtain ⟨started, silent⟩ := ih.of_clear clear
          rw [isFaulted_eq_false_iff] at clear
          constructor
          case told =>
              rw [started]
              simpa [raise, clear, fatalWarnings] using silent
          case ended => simp [started]
      | exceed clear full =>
          obtain ⟨started, silent⟩ := ih.of_clear clear
          rw [isFaulted_eq_false_iff] at clear
          constructor
          case told =>
              rw [started]
              simpa [raise, note, clear, fatalWarnings, Journal.warnings, Notice.warning?] using silent
          case ended => simp [started]

end Context

/-- The depth limit that ends a run is the one of its context, and a run that does not track places
names the place at which it started. -/
theorem Schema.eq_of_depthLimit {resolve : Resolver} {schema : Schema} {value : Option Json}
    {context : Context} (clear : context.isFaulted = false) {limit : Nat} {path : Path}
    (ended : (schema.test resolve value context).2.fault = some (.depthLimit limit path)) :
    limit = context.limits.maxDepth ∧ (context.tracking = false → path = context.path) := by
  rw [(schema.test_describes resolve value clear).fault] at ended
  cases outcome : schema.outcome resolve context.remaining value with
  | tooDeep trail =>
      rw [outcome] at ended
      cases ended
      refine ⟨rfl, fun untracked => ?_⟩
      rw [Context.trailTo, untracked]
      rfl
  | accepted | rejected | unresolved => simp [outcome, Outcome.fault?] at ended

/-- No reference that can be reached from a schema leads nowhere. -/
def Schema.IsResolved (resolve : Resolver) (schema : Schema) : Prop :=
  ∀ id cause, schema.Reaches resolve (.reference id) → resolve id ≠ .error cause

theorem Schema.IsResolved.next {resolve : Resolver} {schema following : Schema}
    (resolved : schema.IsResolved resolve) (next : Next resolve schema following) :
    following.IsResolved resolve :=
  fun id cause reaches => resolved id cause (.head next reaches)

/-- Where resolvers agree on everything that can be reached, no reference comes to lead nowhere. -/
theorem Schema.IsResolved.of_agree {left right : Resolver} {schema : Schema}
    (resolved : schema.IsResolved left) (agree : schema.AgreeFrom left right) :
    schema.IsResolved right := by
  intro id cause reaches leads
  have reachesToo := agree.reaches_iff.mp reaches
  rw [agree id reachesToo] at leads
  exact resolved id cause reachesToo leads

/-- If no reference leads nowhere, then only the depth limit ends a run. -/
theorem Schema.IsResolved.fault_ne {resolve : Resolver} {schema : Schema}
    (resolved : schema.IsResolved resolve) (value : Option Json) {context : Context}
    (clear : context.isFaulted = false) (cause : SchemaError) :
    (schema.test resolve value context).2.fault ≠ some (.schema cause) := by
  have isTrue := schema.outcome_trueOf resolve context.remaining value
  rw [(schema.test_describes resolve value clear).fault]
  cases outcome : schema.outcome resolve context.remaining value with
  | unresolved cause =>
      rw [outcome] at isTrue
      obtain ⟨id, reaches, leads⟩ := isTrue
      exact (resolved id cause reaches leads).elim
  | accepted | rejected | tooDeep => simp [Outcome.fault?]

/-! ## Runs of routine code -/

/-- A run of code has told of the depth limit exactly if it has been ended since a guard.  It does
not name a place. -/
structure Guard.Warned (before after : Guard) : Prop where
  limits : after.limits = before.limits
  told : ∃ place : Option Path, place.getD [] = [] ∧ Journal.warnings after.journal =
    (if after.faulted then [.depthExceeded before.limits.maxDepth place] else []) ++
      Journal.warnings before.journal

namespace Guard.Warned

variable {before middle after : Guard}

theorem refl {guard : Guard} (clear : guard.faulted = false) : guard.Warned guard where
  limits := rfl
  told := ⟨none, rfl, by rw [clear]; rfl⟩

theorem trans (first : before.Warned middle) (clear : middle.faulted = false)
    (second : middle.Warned after) : before.Warned after where
  limits := second.limits.trans first.limits
  told := by
    obtain ⟨_, _, silent⟩ := first.told
    obtain ⟨place, isRoot, told⟩ := second.told
    rw [clear] at silent
    rw [first.limits, silent] at told
    exact ⟨place, isRoot, told⟩

end Guard.Warned

namespace Code

/-- A probe tells of the depth limit exactly if it ends the run, and then it answers no. -/
structure Probe.Warns (probe : Probe) : Prop where
  warned : ∀ guard : Guard, guard.faulted = false → guard.Warned (probe guard).2
  answer : ∀ guard : Guard, guard.faulted = false → (probe guard).2.faulted = true →
    (probe guard).1 = false

namespace Probe

theorem ofBool_warns (accepted : Bool) : Warns fun guard => (accepted, guard) where
  warned _ clear := .refl clear
  answer _ clear faulted := (Bool.false_ne_true (clear.symm.trans faulted)).elim

section List

variable {α : Type} {probe : α → Probe} {items : List α}

theorem all_warns (each : ∀ item ∈ items, (probe item).Warns) :
    (Probe.all (items.map probe)).Warns := by
  induction items with
  | nil => exact ofBool_warns true
  | cons item rest ih =>
      have further := ih fun other member => each other (by simp [member])
      have warns := each item (by simp)
      -- After an answer yes the run has not been ended, so the rest may go on.
      constructor
      case warned =>
          intro guard clear
          have first := warns.warned guard clear
          have answer := warns.answer guard clear
          simp only [List.map_cons, Probe.all]
          generalize probe item guard = result at first answer ⊢
          obtain ⟨accepted, middle⟩ := result
          cases accepted with
          | true =>
              have stillClear : middle.faulted = false := by simpa using answer
              exact first.trans stillClear (further.warned middle stillClear)
          | false => exact first
      case answer =>
          intro guard clear
          have answer := warns.answer guard clear
          simp only [List.map_cons, Probe.all]
          generalize probe item guard = result at answer ⊢
          obtain ⟨accepted, middle⟩ := result
          cases accepted with
          | true => exact further.answer middle (by simpa using answer)
          | false => exact fun _ => rfl

theorem any_warns (each : ∀ item ∈ items, (probe item).Warns) :
    (Probe.any (items.map probe)).Warns := by
  induction items with
  | nil => exact ofBool_warns false
  | cons item rest ih =>
      have further := ih fun other member => each other (by simp [member])
      have warns := each item (by simp)
      constructor
      case warned =>
          intro guard clear
          have first := warns.warned guard clear
          simp only [List.map_cons, Probe.any]
          generalize probe item guard = result at first ⊢
          obtain ⟨accepted, middle⟩ := result
          cases accepted with
          | true => exact first
          | false =>
              simp only
              split
              · exact first
              · next stillClear =>
                rw [Bool.not_eq_true] at stillClear
                exact first.trans stillClear (further.warned middle stillClear)
      case answer =>
          intro guard clear
          have answer := warns.answer guard clear
          simp only [List.map_cons, Probe.any]
          generalize probe item guard = result at answer ⊢
          obtain ⟨accepted, middle⟩ := result
          cases accepted with
          | true => exact answer
          | false =>
              simp only
              split
              · exact fun _ => rfl
              · next stillClear => exact further.answer middle (Bool.not_eq_true _ ▸ stillClear)

end List

/-- A probe under one more active reference meets the limit itself, or it tells what is told
inside. -/
theorem framed_warns {probe : Probe} (warns : probe.Warns) : probe.framed.Warns := by
  constructor
  case warned =>
      intro guard clear
      rw [framed, Guard.enter]
      by_cases full : guard.limits.maxDepth ≤ guard.frames
      · simp only [if_pos full]
        exact ⟨rfl, none, rfl, rfl⟩
      · simp only [if_neg full]
        have inside := warns.warned { guard with frames := guard.frames + 1 } clear
        exact ⟨inside.limits, inside.told⟩
  case answer =>
      intro guard clear
      rw [framed, Guard.enter]
      by_cases full : guard.limits.maxDepth ≤ guard.frames
      · simp only [if_pos full]
        exact fun _ => trivial
      · simp only [if_neg full]
        exact warns.answer { guard with frames := guard.frames + 1 } clear

/-- Where no reference leads nowhere, the interpreter ends the run of a routine only by the depth
limit. -/
theorem interpret_warns {resolve : Resolver} {target : Schema}
    (resolved : target.IsResolved resolve) (value : Option Json) :
    (interpret resolve target value).Warns := by
  have started : ∀ guard : Guard, (Context.resumed guard.limits guard.frames).isFaulted = false :=
    fun _ => rfl
  constructor
  case warned =>
      intro guard clear
      have told := (target.test_evolves resolve value (.resumed guard.limits guard.frames)).warned.told
      have noCause := resolved.fault_ne value (started guard)
      have place : ∀ limit path,
          (target.test resolve value (.resumed guard.limits guard.frames)).2.fault =
            some (.depthLimit limit path) → limit = guard.limits.maxDepth ∧ path = [] := by
        intro limit path ended
        obtain ⟨isLimit, isPath⟩ := Schema.eq_of_depthLimit (started guard) ended
        exact ⟨isLimit, isPath rfl⟩
      rw [interpret, clear]
      generalize target.test resolve value (.resumed guard.limits guard.frames) = result
        at told noCause place ⊢
      obtain ⟨accepted, after⟩ := result
      have joined : Journal.warnings (after.journal ++ guard.journal) =
          after.fatalWarnings ++ Journal.warnings guard.journal := by
        rw [Journal.warnings, List.filterMap_append]
        exact congrArg (· ++ Journal.warnings guard.journal) (told.trans (List.append_nil _))
      refine ⟨rfl, some [], rfl, joined.trans ?_⟩
      simp only [Bool.false_or, Context.isFaulted, Context.fatalWarnings]
      cases ended : after.fault with
      | none => rfl
      | some fault =>
          cases fault with
          | depthLimit limit path =>
              obtain ⟨rfl, rfl⟩ := place limit path ended
              rfl
          | schema cause => exact (noCause cause ended).elim
  case answer =>
      intro guard clear
      have describes := target.test_describes resolve value (started guard)
      simp only [interpret, clear, Bool.false_or]
      intro ended
      rw [← Bool.not_eq_true]
      intro accepted
      rw [describes.isFaulted_eq, describes.answer.mp accepted] at ended
      cases ended

end Probe

/-! ## The parts of code -/

/-- The parts of code that it runs itself. -/
def children : Code → List Code
  | .both first second | .either first second => [first, second]
  | .array item | .record item => [item]
  | .tuple positions => positions
  | .object fields => fields.map (·.2)
  | .union alternatives => alternatives
  | _ => []

/-- Code runs its parts: it answers at once, or it runs parts until one answers no, or until one
answers yes. -/
inductive RunsParts (resolve : Resolver) (code : Code) : Probe → Prop where
  | answer (accepted : Bool) : RunsParts resolve code fun guard => (accepted, guard)
  | all {α : Type} (items : List α) (part : α → Code) (value : α → Option Json) :
      (∀ item ∈ items, part item ∈ code.children) →
      RunsParts resolve code (Probe.all (items.map fun item => run resolve (part item) (value item)))
  | any {α : Type} (items : List α) (part : α → Code) (value : α → Option Json) :
      (∀ item ∈ items, part item ∈ code.children) →
      RunsParts resolve code (Probe.any (items.map fun item => run resolve (part item) (value item)))

/-- Whether code stands in the place of a reference. -/
def isReference : Code → Bool
  | .expanded _ | .handover _ _ => true
  | _ => false

/-- Code that does not stand in the place of a reference runs its parts. -/
theorem runsParts (resolve : Resolver) {code : Code} (noReference : code.isReference = false)
    (value : Option Json) : RunsParts resolve code (run resolve code value) := by
  have no : RunsParts resolve code fun guard => (false, guard) := .answer false
  cases code with
  | primitive | literal | container | oneOf | custom => exact .answer _
  | both first second => exact .all [first, second] id (fun _ => value) fun _ member => member
  | either first second => exact .any [first, second] id (fun _ => value) fun _ member => member
  | array item =>
      rcases value with _ | (_ | _ | _ | _ | elements | _)
      case some.array =>
          exact .all elements (fun _ => item) some fun _ _ => List.mem_singleton_self item
      all_goals exact no
  | record item =>
      rcases value with _ | (_ | _ | _ | _ | _ | entries)
      case some.object =>
          exact .all entries (fun _ => item) (fun entry => some entry.2) fun _ _ =>
            List.mem_singleton_self item
      all_goals exact no
  | tuple positions =>
      rcases value with _ | (_ | _ | _ | _ | elements | _)
      case some.array =>
          by_cases sameLength : elements.length = positions.length
          · rw [run_tuple sameLength]
            exact .all _ Prod.fst (fun pair => some pair.2) fun _ member =>
              (List.of_mem_zip member).1
          · rw [run_tuple_of_ne sameLength]
            exact no
      all_goals exact no
  | object fields =>
      rcases value with _ | (_ | _ | _ | _ | _ | entries)
      case some.object =>
          rw [run_object]
          exact .all fields Prod.snd (fun field => entries.lookup field.1) fun _ member =>
            List.mem_map_of_mem member
      all_goals exact no
  | union alternatives =>
      rw [run_union]
      exact .any alternatives id (fun _ => value) fun _ member => member
  | expanded | handover => cases noReference

theorem RunsParts.warns {resolve : Resolver} {code : Code} {probe : Probe}
    (runs : RunsParts resolve code probe)
    (each : ∀ part ∈ code.children, ∀ value, (run resolve part value).Warns) : probe.Warns := by
  cases runs with
  | answer accepted => exact Probe.ofBool_warns accepted
  | all items part value isPart =>
      exact Probe.all_warns fun item member => each _ (isPart item member) (value item)
  | any items part value isPart =>
      exact Probe.any_warns fun item member => each _ (isPart item member) (value item)

/-- The code that a schema is lowered to tells of the depth limit exactly if its run is ended. -/
theorem run_warns {resolve later : Resolver} {used expanding : List NodeId} {schema : Schema}
    {code : Code} (lowers : Schema.LowersTo resolve used expanding schema code)
    (agree : schema.AgreeFrom resolve later) (resolved : schema.IsResolved later)
    (value : Option Json) : (run later code value).Warns := by
  induction lowers generalizing value with
  | leaf isLeaf isLeafCode =>
      rw [run_of_leafTest? isLeafCode]
      exact Probe.ofBool_warns _
  | @both _ id first second left right _ _ firstIH secondIH
  | @either _ id first second left right _ _ firstIH secondIH =>
      apply (runsParts later rfl value).warns
      intro part member value
      simp only [children, List.mem_cons, List.not_mem_nil, or_false] at member
      rcases member with rfl | rfl
      · exact firstIH (agree.child (by simp [Schema.children]))
          (resolved.next (.child (by simp [Schema.children]))) value
      · exact secondIH (agree.child (by simp [Schema.children]))
          (resolved.next (.child (by simp [Schema.children]))) value
  | @array _ id item code _ ih | @record _ id item code _ ih =>
      apply (runsParts later rfl value).warns
      intro part member value
      rw [children, List.mem_singleton] at member
      subst member
      exact ih (agree.child (by simp [Schema.children]))
        (resolved.next (.child (by simp [Schema.children]))) value
  | tuple id parts _ ih | union id parts _ ih =>
      apply (runsParts later rfl value).warns
      intro code member value
      obtain ⟨part, inParts, rfl⟩ := List.mem_map.mp member
      have isChild : part.1 ∈ parts.map (·.1) := List.mem_map_of_mem inParts
      exact ih part inParts (agree.child isChild) (resolved.next (.child isChild)) value
  | object id parts _ ih =>
      apply (runsParts later rfl value).warns
      intro code member value
      simp only [children, List.map_map] at member
      obtain ⟨part, inParts, rfl⟩ := List.mem_map.mp member
      have isChild : part.2.1 ∈
          (Schema.object id (parts.map fun part => (part.1, part.2.1))).children := by
        simp only [Schema.children, List.map_map]
        exact List.mem_map.mpr ⟨part, inParts, rfl⟩
      exact ih part inParts (agree.child isChild) (resolved.next (.child isChild)) value
  | @expanded _ id target body _ leads _ ih =>
      have leadsLater := (agree id .refl).trans leads
      have inside := ih (agree.next (.target leads)) (resolved.next (.target leadsLater)) value
      exact Probe.framed_warns inside
  | @handover _ id target label _ leads _ =>
      have leadsLater := (agree id .refl).trans leads
      exact Probe.framed_warns (Probe.interpret_warns (resolved.next (.target leadsLater)) value)

end Code

/-! ## Answers and reports -/

/-- The report that belongs to the answer of an assertion, if that is the depth limit. -/
def limitReports : Except Error Unit → List Event
  | .error (.depthLimit limit path) => [.depthExceeded limit (some path)]
  | _ => []

theorem reverse_limitReports (answer : Except Error Unit) :
    (limitReports answer).reverse = limitReports answer := by
  rw [limitReports.eq_def]
  split <;> rfl

theorem Journal.warnings_append_ofMentions (journal : Journal) (mentioned : List NodeId) :
    Journal.warnings (journal ++ .ofMentions mentioned) = Journal.warnings journal := by
  have none : ∀ id, Notice.warning? (.used id) = none := fun _ => rfl
  simp [Journal.warnings, Journal.ofMentions, List.filterMap_append, none]

theorem Journal.warnings_reverse (journal : Journal) :
    Journal.warnings journal.reverse = (Journal.warnings journal).reverse :=
  List.filterMap_reverse

theorem Context.reverse_fatalWarnings (context : Context) :
    context.fatalWarnings.reverse = context.fatalWarnings := by
  rw [fatalWarnings]
  split <;> rfl

theorem Context.fatalWarnings_eq {context : Context} {fixed : Nat} {place : Path}
    (known : ∀ limit path, context.fault = some (.depthLimit limit path) →
      limit = fixed ∧ path = place) :
    context.fatalWarnings =
      if context.hasMetLimit then [.depthExceeded fixed (some place)] else [] := by
  rw [fatalWarnings]
  split
  · next limit path ended =>
    obtain ⟨rfl, rfl⟩ := known limit path ended
    simp [hasMetLimit, ended]
  · next cause ended => simp [hasMetLimit, ended]
  · next ended => simp [hasMetLimit, ended]

namespace Schema

variable (resolve : Resolver) (schema : Schema) (limits : Limits) (value : Option Json)

/-- A run that starts anew tells what it ends by. -/
theorem warnings_test {context : Context} (clear : context.isFaulted = false)
    (untold : context.journal = []) :
    Journal.warnings (schema.test resolve value context).2.journal.reverse =
      (schema.test resolve value context).2.fatalWarnings := by
  have told := (schema.test_evolves resolve value context).warned.told
  rw [clear, untold] at told
  rw [Journal.warnings_reverse, told.trans (List.append_nil _)]
  exact Context.reverse_fatalWarnings _

/-- A check tells of the depth limit exactly if its run ends by it, and names no place. -/
theorem warnings_check : Journal.warnings (schema.check resolve limits value).journal =
    if (schema.test resolve value (.untracked limits)).2.hasMetLimit then
      [.depthExceeded limits.maxDepth (some [])]
    else [] := by
  have clear : (Context.untracked limits).isFaulted = false := rfl
  have told := schema.warnings_test resolve value clear rfl
  have place : ∀ limit path, (schema.test resolve value (.untracked limits)).2.fault =
      some (.depthLimit limit path) → limit = limits.maxDepth ∧ path = [] := by
    intro limit path ended
    obtain ⟨isLimit, isPath⟩ := eq_of_depthLimit clear ended
    exact ⟨isLimit, isPath rfl⟩
  rw [Schema.check]
  generalize schema.test resolve value (.untracked limits) = result at told place ⊢
  exact told.trans (Context.fatalWarnings_eq place)

/-- An assertion tells of the depth limit exactly if it answers by it, with the place of the
answer. -/
theorem warnings_assert : Journal.warnings (schema.assert resolve limits value).journal =
    limitReports (schema.assert resolve limits value).answer := by
  have clear : (Context.tracked limits).isFaulted = false := rfl
  have told := schema.warnings_test resolve value clear rfl
  have describes := schema.test_describes resolve value clear
  rw [Schema.assert]
  generalize schema.test resolve value (.tracked limits) = result at told describes ⊢
  obtain ⟨accepted, after⟩ := result
  cases accepted with
  | true =>
      have noFault := describes.fault
      rw [describes.eq_accepted] at noFault
      refine told.trans ?_
      simp only [Outcome.fault?] at noFault
      simp [Context.fatalWarnings, noFault, limitReports]
  | false =>
      refine (Journal.warnings_append_ofMentions _ _).trans (told.trans ?_)
      simp only [Bool.false_eq_true, if_false, Context.fatalWarnings, Context.error]
      cases after.fault with
      | none => rfl
      | some fault => cases fault <;> rfl

end Schema

namespace Registry

variable {registry : Registry} {compiled : Compiled} {limits : Limits} {value : Option Json}

/-- Taking in a journal reports what it tells of the depth limit, to whoever listens. -/
theorem warnings_absorb (registry : Registry) (journal : Journal) :
    (registry.absorb journal).warnings =
      (if registry.isSeen .warn then (Journal.warnings journal).reverse else []) ++
        registry.warnings := by
  induction journal generalizing registry with
  | nil => simp [Journal.warnings, absorb]
  | cons notice rest ih =>
      refine (ih _).trans ?_
      cases notice with
      | used id =>
          have same : (registry.settle id).warnings = registry.warnings := by
            apply filter_events_settle
            intro event ends
            cases event with
            | resolved | cycleDetected => rfl
            | depthExceeded | compiled | notCompilable => cases ends
          have seen : (registry.settle id).isSeen .warn = registry.isSeen .warn :=
            Uses.isSeen (.single (.settle id)) .warn
          rw [absorbNotice, same, seen]
          rfl
      | depthExceeded limit path =>
          have seen := (registry.uses_report (.depthExceeded limit path)).isSeen .warn
          rw [absorbNotice, seen]
          cases listening : registry.isSeen .warn with
          | true =>
              have reported : (registry.report (.depthExceeded limit path)).warnings =
                  .depthExceeded limit path :: registry.warnings := by
                have isSeen : registry.isSeen (Event.depthExceeded limit path).level = true :=
                  listening
                rw [report, if_pos isSeen]
                exact List.filter_cons_of_pos rfl
              simp [reported, Journal.warnings, Notice.warning?]
          | false => simp [report, Event.level, listening]

theorem warnings_check (registry : Registry) (schema : Schema) (limits : Limits)
    (value : Option Json) :
    (registry.check schema limits value).2.warnings =
      (if registry.isSeen .warn then
        if (schema.test registry.target value (.untracked limits)).2.hasMetLimit then
          [.depthExceeded limits.maxDepth (some [])]
        else []
      else []) ++ registry.warnings := by
  refine (registry.warnings_absorb _).trans ?_
  rw [Schema.warnings_check]
  cases registry.isSeen .warn with
  | true => cases (schema.test registry.target value (.untracked limits)).2.hasMetLimit <;> rfl
  | false => rfl

theorem warnings_assert (registry : Registry) (schema : Schema) (limits : Limits)
    (value : Option Json) :
    (registry.assert schema limits value).2.warnings =
      (if registry.isSeen .warn then limitReports (registry.assert schema limits value).1
      else []) ++ registry.warnings := by
  refine (registry.warnings_absorb _).trans ?_
  rw [Schema.warnings_assert, reverse_limitReports]
  rfl

section Compiled

/-- The run of a routine tells of the depth limit exactly if it is ended. -/
theorem Backs.warnings_run (backs : registry.Backs compiled.schema compiled.routine.code)
    (resolved : compiled.schema.IsResolved registry.target) (limits : Limits)
    (value : Option Json) :
    ∃ place : Option Path, place.getD [] = [] ∧
      Journal.warnings (compiled.routine.code.run registry.target value { limits }).2.journal =
        if (compiled.routine.code.run registry.target value { limits }).2.faulted then
          [.depthExceeded limits.maxDepth place]
        else [] := by
  obtain ⟨resolve, used, expanding, lowers, agree⟩ := backs.lowers
  have warns := Code.run_warns lowers agree resolved value
  obtain ⟨place, isRoot, told⟩ := (warns.warned { limits } rfl).told
  exact ⟨place, isRoot, told.trans (List.append_nil _)⟩

/-- The run of a routine is ended exactly if an assertion by the routine answers by the depth
limit. -/
theorem Backs.faulted_cases (backs : registry.Backs compiled.schema compiled.routine.code)
    (resolved : compiled.schema.IsResolved registry.target) (limits : Limits)
    (value : Option Json) :
    let run := compiled.routine.code.run registry.target value { limits }
    let answer := (registry.assertCompiled compiled limits value).1
    run.2.faulted = true ∧ (∃ path, answer = .error (.depthLimit limits.maxDepth path)) ∨
      run.2.faulted = false ∧ ∀ limit path, answer ≠ .error (.depthLimit limit path) := by
  intro run answer
  have isTrue := compiled.schema.outcome_trueOf registry.target limits.maxDepth value
  simp only [run, answer, (backs.run_describes limits value).faulted, backs.assertCompiled_eq,
    assert_answer, ← Schema.verdict_outcome]
  cases outcome : compiled.schema.outcome registry.target limits.maxDepth value with
  | unresolved cause =>
      rw [outcome] at isTrue
      obtain ⟨id, reaches, leads⟩ := isTrue
      exact (resolved id cause reaches leads).elim
  | accepted | rejected | tooDeep => simp [Outcome.verdict, Verdict.isFault, Outcome.asserted]

theorem warnings_checkCompiled {reports : List Event}
    (told : Journal.warnings (compiled.routine.code.run registry.target value { limits }).2.journal =
      reports) :
    (registry.checkCompiled compiled limits value).2.warnings =
      (if registry.isSeen .warn then reports else []) ++ registry.warnings := by
  refine (registry.warnings_absorb _).trans ?_
  rw [Code.check, Journal.warnings_reverse, List.reverse_reverse, told]

theorem warnings_assertCompiled {reports : List Event}
    (told : Journal.warnings (compiled.routine.code.run registry.target value { limits }).2.journal =
      reports) (accepts : (compiled.routine.code.run registry.target value { limits }).1 = true →
        reports = []) :
    (registry.assertCompiled compiled limits value).2.warnings =
      (if registry.isSeen .warn then
        limitReports (registry.assertCompiled compiled limits value).1 ++ reports else []) ++
          registry.warnings := by
  have checked := warnings_checkCompiled told
  have seen : (registry.checkCompiled compiled limits value).2.isSeen .warn =
      registry.isSeen .warn := (registry.uses_absorb _).isSeen .warn
  change (registry.checkCompiled compiled limits value).1 = true → _ at accepts
  rw [assertCompiled]
  generalize registry.checkCompiled compiled limits value = result at checked seen accepts ⊢
  obtain ⟨accepted, middle⟩ := result
  cases accepted with
  | true =>
      rw [accepts rfl] at checked ⊢
      exact checked
  | false =>
      have asserted := middle.warnings_assert compiled.schema limits value
      refine asserted.trans ?_
      rw [checked, seen]
      cases registry.isSeen .warn with
      | true => exact (List.append_assoc ..).symm
      | false => rfl

end Compiled

end Registry

/-- Compiling a schema settles references, which changes nothing about where they lead. -/
theorem Registry.target_compile (registry : Registry) (schema : Schema) :
    (registry.compile schema).2.target = registry.target := by
  rcases registry.compile_cases schema with ⟨kept, _, compiled⟩ | ⟨_, reported, uses, compiled⟩
  · rw [compiled]
  · rw [compiled]
    exact ((registry.absorb_settles _).trans uses.settles).target

namespace Session

open Registry Schema

/-- A schema that was compiled has no reference that leads nowhere. -/
theorem isResolved_after_compile (listening : Option Level) (before : List Step)
    (name routineName : String) {schema : Schema} {compiled : Compiled}
    (bound :
      ((start listening).run before).2.registry.references.bindings.lookup name = some schema)
    (result : (((start listening).run before).2.registry.compile schema).1 = .ok compiled) :
    schema.IsResolved
      (((start listening).run before).2.reply (.compile name routineName)).2.registry.target := by
  obtain ⟨nodes, recollects⟩ := recollects_of_run listening before
  have filed := recollects.consistent.bindings name schema bound
  obtain ⟨visited, expands⟩ := Expands.exists_of_acc
    (Visit.acc_further (fits_factories recollects.consistent [schema.id] schema))
  have noFlaw := (recollects.exists_compile_eq_ok_iff filed).mp ⟨compiled, result⟩
  rw [failure?_lower recollects.consistent expands,
    findSome?_flaw?_eq_none_iff recollects.consistent (.inl filed) expands] at noFlaw
  rw [(settles_reply_compile _ name routineName bound).target, target_compile]
  intro id cause reaches leads
  have noFlawHere := noFlaw _ reaches
  simp [flaw?, leads] at noFlawHere

/-- Meeting the depth limit is reported once.  A run of the interpreter tells of the depth limit
exactly if it ends by it, with the place at which it met the limit, which is also the place of the
error.  A run that does not track places names none.  So a check or an assertion makes one such
report to whoever listens, or none.

A run of a compiled routine makes one report exactly if it is ended, wherever the limit was met,
and names no place.  So an assertion by the routine makes two reports if it answers by the depth
limit, and none otherwise. -/
theorem depth_limit_is_reported_once :
    (∀ (resolve : Resolver) (schema : Schema) (value : Option Json) (context : Context),
      let after := (schema.test resolve value context).2
      Journal.warnings after.journal =
          (if context.isFaulted then [] else after.fatalWarnings) ++
            Journal.warnings context.journal ∧
        ∀ limit path, context.isFaulted = false → after.fault = some (.depthLimit limit path) →
          limit = context.limits.maxDepth ∧ (context.tracking = false → path = context.path) ∧
            ∀ root whole, after.error resolve root whole = .depthLimit limit path) ∧
      (∀ (registry : Registry) (schema : Schema) (limits : Limits) (value : Option Json),
        let seen (reports : List Event) := if registry.isSeen .warn then reports else []
        let run := schema.test registry.target value (.untracked limits)
        (registry.check schema limits value).2.warnings =
            seen (if run.2.hasMetLimit then [.depthExceeded limits.maxDepth (some [])] else []) ++
              registry.warnings ∧
          (registry.assert schema limits value).2.warnings =
            seen (limitReports (registry.assert schema limits value).1) ++ registry.warnings) ∧
      ∀ (listening : Option Level) (before : List Step) (name routineName : String)
        (schema : Schema) (compiled : Compiled),
        ((start listening).run before).2.registry.references.bindings.lookup name = some schema →
        (((start listening).run before).2.registry.compile schema).1 = .ok compiled →
        ∀ (after : List Step) (limits : Limits) (value : Option Json),
          let session := (((start listening).run before).2.reply (.compile name routineName)).2
          let registry := (session.run after).2.registry
          let seen (reports : List Event) := if registry.isSeen .warn then reports else []
          let run := compiled.routine.code.run registry.target value { limits }
          let asserted := registry.assertCompiled compiled limits value
          ∃ place : Option Path, place.getD [] = [] ∧
            (registry.checkCompiled compiled limits value).2.warnings =
              seen (if run.2.faulted then [.depthExceeded limits.maxDepth place] else []) ++
                registry.warnings ∧
            asserted.2.warnings =
              seen (match asserted.1 with
                | .error (.depthLimit limit path) =>
                    [.depthExceeded limit (some path), .depthExceeded limit place]
                | _ => []) ++ registry.warnings ∧
            (run.2.faulted = true ↔
              ∃ path, asserted.1 = .error (.depthLimit limits.maxDepth path)) := by
  refine ⟨?_, fun registry schema limits value => ⟨registry.warnings_check schema limits value,
    registry.warnings_assert schema limits value⟩, ?_⟩
  · intro resolve schema value context after
    refine ⟨(schema.test_evolves resolve value context).warned.told, ?_⟩
    intro limit path clear ended
    obtain ⟨isLimit, isPath⟩ := Schema.eq_of_depthLimit clear ended
    exact ⟨isLimit, isPath, fun root whole => by rw [Context.error, ended]⟩
  · intro listening before name routineName schema compiled bound result after limits value session
      registry seen run asserted
    obtain ⟨nodes, sound⟩ := sound_of_run listening before
    obtain ⟨rfl, backsThen⟩ := backs_after_compile _ sound name routineName bound result
    have kept : session.registry.Kept registry :=
      kept_after_reply listening before (.compile name routineName) after
    have backs := backsThen.of_kept kept
    have resolved : compiled.schema.IsResolved registry.target :=
      (isResolved_after_compile listening before name routineName bound result).of_agree
        (backsThen.settled.agreeFrom kept)
    obtain ⟨place, isRoot, told⟩ := backs.warnings_run resolved limits value
    have accepts : run.1 = true → run.2.faulted = false := by
      intro accepted
      have describes := backs.run_describes limits value
      rw [describes.faulted, describes.answer.mp accepted]
      rfl
    have checked := warnings_checkCompiled told
    have twice := warnings_assertCompiled told fun accepted =>
      if_neg (Bool.eq_false_iff.mp (accepts accepted))
    rcases backs.faulted_cases resolved limits value with ⟨ended, path, answer⟩ | ⟨notEnded, others⟩
    · -- The routine has met the limit, and then so does the schema.
      refine ⟨place, isRoot, checked, twice.trans ?_, fun _ => ⟨path, answer⟩, fun _ => ended⟩
      simp only [answer, ended, limitReports, asserted, if_true, List.singleton_append, seen]
    · refine ⟨place, isRoot, checked, twice.trans ?_, ?_⟩
      · change ∀ limit path, asserted.1 ≠ .error (.depthLimit limit path) at others
        change (if registry.isSeen .warn then limitReports asserted.1 ++ _ else []) ++ _ = _
        rw [notEnded]
        simp only [seen]
        generalize asserted.1 = answer at others
        rcases answer with error | accepted
        · cases error with
          | depthLimit limit path => exact (others limit path rfl).elim
          | mismatch | schema | compile | misfit => rfl
        · rfl
      · constructor
        · exact fun ended => (Bool.false_ne_true (notEnded.symm.trans ended)).elim
        · rintro ⟨path, answer⟩
          exact (others _ path answer).elim

/-- Lists in lists in a list are too deep for a limit of one active reference.  The routine expands
the schema once and hands over inside, so it is the interpreter that meets the limit both times. -/
theorem depth_limit_is_reported_once_of_nested :
    let schema : Schema := .array 2 (.reference 1)
    let session := ((start (some .warn)).run [.define "list" (.array (.named "list"))]).2
    let registry := ((session.reply (.compile "list" "routine")).2.run []).2.registry
    let value : Option Json := some (.array [.array [.array []]])
    let limits : Limits := { maxDepth := 1 }
    (registry.check schema limits value).2.warnings = [.depthExceeded 1 (some [])] ∧
      ∃ compiled, (session.registry.compile schema).1 = .ok compiled ∧
        ∃ place : Option Path, place.getD [] = [] ∧
          (registry.assertCompiled compiled limits value).2.warnings =
            [.depthExceeded 1 (some [.index 0, .index 0]), .depthExceeded 1 place] := by
  intro schema session registry value limits
  obtain ⟨_, interpreted, routines⟩ := depth_limit_is_reported_once
  have seen : registry.isSeen .warn = true := by decide +kernel
  have untold : registry.warnings = [] := by decide +kernel
  constructor
  case left =>
      have checked := (interpreted registry schema limits value).1
      have met : (schema.test registry.target value (.untracked limits)).2.hasMetLimit = true := by
        decide +kernel
      simpa only [met, seen, untold, if_true, List.append_nil] using checked
  case right =>
      have answers : (session.registry.compile schema).1.toOption.map (fun compiled =>
          (registry.assertCompiled compiled limits value).1) =
            some (.error (.depthLimit 1 [.index 0, .index 0])) := by decide +kernel
      cases result : (session.registry.compile schema).1 with
      | error cause =>
          rw [result] at answers
          cases answers
      | ok compiled =>
          rw [result] at answers
          have answer : (registry.assertCompiled compiled limits value).1 =
              .error (.depthLimit 1 [.index 0, .index 0]) := Option.some.inj answers
          obtain ⟨place, isRoot, _, twice, _⟩ := routines (some .warn)
            [.define "list" (.array (.named "list"))] "list" "routine" schema compiled rfl result
            [] limits value
          refine ⟨compiled, rfl, place, isRoot, ?_⟩
          change (registry.assertCompiled compiled limits value).2.warnings =
            (if registry.isSeen .warn then _ else []) ++ registry.warnings at twice
          rw [answer] at twice
          simpa only [seen, untold, if_true, List.append_nil] using twice

end Session

end Assay
