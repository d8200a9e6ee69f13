import Assay.Proofs.References
import Assay.Registry
import Mathlib.Logic.Relation

/-!
# Settled references

Answering a request may settle references, but changes nothing about what references lead to.  Each
operation that takes in a journal leads from one registry to another which has settled more, and
what has been settled stays as it is. -/

namespace Assay

/-- Whether an event tells how the chain of a reference ended. -/
def Event.endsChain : Event → Bool
  | .resolved _ | .cycleDetected => true
  | _ => false

/-- What is told about a walk that has ended. -/
def References.Ending.event? (resolve : Resolver) : References.Ending → Option Event
  | .reached schema => some (.resolved (schema.describe resolve))
  | .inherited _ => none
  | .cycle => some .cycleDetected

theorem References.Ending.endsChain_of_event? {resolve : Resolver} {ending : References.Ending}
    {event : Event} (told : ending.event? resolve = some event) : event.endsChain = true := by
  cases ending <;> cases told <;> rfl

namespace Registry

open References

/-- One registry has settled at least what another has settled, and is otherwise the same as far as
schemas, references and routines are concerned. -/
structure Settles (before after : Registry) : Prop where
  bindings : after.references.bindings = before.references.bindings
  factories : after.references.factories = before.references.factories
  nextId : after.nextId = before.nextId
  routines : after.routines = before.routines
  target : after.target = before.target
  kept : ∀ id result, before.references.resolved.lookup id = some result →
    after.references.resolved.lookup id = some result

namespace Settles

variable {before middle after : Registry}

theorem refl (registry : Registry) : registry.Settles registry :=
  ⟨rfl, rfl, rfl, rfl, rfl, fun _ _ found => found⟩

theorem trans (first : before.Settles middle) (second : middle.Settles after) :
    before.Settles after where
  bindings := second.bindings.trans first.bindings
  factories := second.factories.trans first.factories
  nextId := second.nextId.trans first.nextId
  routines := second.routines.trans first.routines
  target := second.target.trans first.target
  kept := fun id result found => second.kept id result (first.kept id result found)

/-- What is settled together with other bookkeeping is settled. -/
theorem of_same (references : after.references = before.references)
    (nextId : after.nextId = before.nextId) (routines : after.routines = before.routines) :
    before.Settles after := by
  refine ⟨?_, ?_, nextId, routines, ?_, ?_⟩ <;> simp [Registry.target, references]

theorem heard (registry : Registry) (events : List Event) :
    registry.Settles { registry with events } :=
  of_same rfl rfl rfl

theorem noteCalls (registry : Registry) (called : List NodeId) :
    registry.Settles (registry.noteCalls called) :=
  of_same rfl rfl rfl

theorem foldl {α : Type} {step : Registry → α → Registry}
    (each : ∀ (registry : Registry) (item : α), registry.Settles (step registry item))
    (items : List α) (registry : Registry) : registry.Settles (items.foldl step registry) := by
  induction items generalizing registry with
  | nil => exact refl registry
  | cons item rest ih => exact (each registry item).trans (ih (step registry item))

/-- Recording for a reference what it leads to settles it. -/
theorem record (settles : before.Settles after) (id : NodeId) :
    before.Settles (after.record id (before.target id)) := by
  apply settles.trans
  rw [← settles.target]
  refine ⟨rfl, rfl, rfl, rfl, References.target_record after.references id, ?_⟩
  intro other result found
  by_cases same : other = id
  case pos =>
      subst same
      rw [Registry.target, References.target_of_recorded found]
      exact References.lookup_record_self
  case neg =>
      rw [Registry.record, References.lookup_record_of_ne same]
      exact found

end Settles

/-- What is recorded for a reference is what it leads to. -/
theorem target_of_recorded {registry : Registry} {id : NodeId} {result : Except SchemaError Schema}
    (found : registry.references.resolved.lookup id = some result) : registry.target id = result :=
  References.target_of_recorded found

theorem target_of_fresh {registry : Registry} {id : NodeId}
    (fresh : registry.references.resolved.lookup id = none) :
    registry.target id = (registry.references.walk id).ending.result := by
  simp [Registry.target, References.target, fresh]

theorem report_eq (registry : Registry) (event : Event) :
    ∃ events, registry.report event = { registry with events } := by
  rw [report]
  split
  · exact ⟨_, rfl⟩
  · exact ⟨registry.events, rfl⟩

section IsSettled

variable {registry : Registry} {id : NodeId}

/-- Whether a reference has been settled. -/
def isSettled (registry : Registry) (id : NodeId) : Bool :=
  (registry.references.resolved.lookup id).isSome

theorem isSettled_noteCalls (called : List NodeId) :
    (registry.noteCalls called).isSettled id = registry.isSettled id := rfl

theorem isSettled_record (other : NodeId) (result : Except SchemaError Schema) :
    (registry.record other result).isSettled id = (registry.isSettled id || id == other) := by
  by_cases same : id = other
  · subst same
    rw [isSettled, record, References.lookup_record_self]
    simp
  · have differs : (id == other) = false := by simpa using same
    rw [isSettled, record, References.lookup_record_of_ne same, differs, Bool.or_false, isSettled]

theorem isSettled_of_lookup {result : Except SchemaError Schema}
    (found : registry.references.resolved.lookup id = some result) :
    registry.isSettled id = true := by
  rw [isSettled, found, Option.isSome_some]

/-- What is recorded for a settled reference is what it leads to. -/
theorem lookup_of_isSettled (settled : registry.isSettled id = true) :
    registry.references.resolved.lookup id = some (registry.target id) := by
  obtain ⟨result, found⟩ := Option.isSome_iff_exists.mp settled
  rw [found, target_of_recorded found]

theorem Settles.isSettled {after : Registry} (settles : registry.Settles after)
    (settled : registry.isSettled id = true) : after.isSettled id = true :=
  isSettled_of_lookup (settles.kept id _ (lookup_of_isSettled settled))

end IsSettled

theorem filter_events_report {counted : Event → Bool} {event : Event}
    (ignored : counted event = false) (registry : Registry) :
    (registry.report event).events.filter counted = registry.events.filter counted := by
  rw [report]
  split
  · rw [List.filter_cons_of_neg (by simp [ignored])]
  · rfl

/-! ## Settling for an event -/

section SettleUnheard

variable {registry : Registry} {telling : Option NodeId} {id : NodeId}

theorem settleUnheard_of_settled (telling : Option NodeId)
    (settled : registry.isSettled id = true) : registry.settleUnheard telling id = registry :=
  if_pos settled

/-- Settling a reference for an event can go three ways: it has been settled, it is being settled
already, or its chain is walked and the result recorded. -/
theorem settleUnheard_cases {motive : Registry → Prop}
    (settled : registry.isSettled id = true → motive registry)
    (reentered : registry.references.resolved.lookup id = none → telling = some id →
      motive { registry with reentered := id :: registry.reentered })
    (walked : registry.references.resolved.lookup id = none → telling ≠ some id →
      motive ((registry.noteCalls (registry.references.walk id).called).record id
        (registry.target id))) :
    motive (registry.settleUnheard telling id) := by
  cases found : registry.references.resolved.lookup id with
  | some result =>
      have isSettled := isSettled_of_lookup found
      rw [settleUnheard_of_settled telling isSettled]
      exact settled isSettled
  | none =>
      rw [settleUnheard, if_neg (by simp [found])]
      split
      · next same => exact reentered found same
      · next differs =>
        dsimp only
        rw [← target_of_fresh found]
        exact walked found differs

theorem settleUnheard_settles (telling : Option NodeId) (registry : Registry) (id : NodeId) :
    registry.Settles (registry.settleUnheard telling id) := by
  apply settleUnheard_cases (motive := registry.Settles)
  case settled => exact fun _ => .refl registry
  case reentered => exact fun _ _ => .of_same rfl rfl rfl
  case walked =>
      intro _ _
      exact (Settles.noteCalls registry _).record id

/-- Nothing is reported while an event is put together, and whoever listens goes on listening. -/
theorem foldl_settleUnheard_frame (telling : Option NodeId) (mentions : List NodeId)
    (registry : Registry) :
    (mentions.foldl (settleUnheard telling) registry).events = registry.events ∧
      (mentions.foldl (settleUnheard telling) registry).isSeen = registry.isSeen := by
  induction mentions generalizing registry with
  | nil => exact ⟨rfl, rfl⟩
  | cons mention rest ih =>
      obtain ⟨sameEvents, sameSight⟩ := ih (registry.settleUnheard telling mention)
      rw [List.foldl_cons, sameEvents, sameSight]
      apply settleUnheard_cases (motive := fun after =>
        after.events = registry.events ∧ after.isSeen = registry.isSeen) <;>
        intros <;> exact ⟨rfl, rfl⟩

@[simp] theorem events_prepare (telling : Option NodeId) (schema : Schema) :
    (registry.prepare telling schema).events = registry.events :=
  (foldl_settleUnheard_frame _ _ _).1

@[simp] theorem isSeen_prepare (telling : Option NodeId) (schema : Schema) :
    (registry.prepare telling schema).isSeen = registry.isSeen :=
  (foldl_settleUnheard_frame _ _ _).2

theorem foldl_settleUnheard_of_settled {mentions : List NodeId} (telling : Option NodeId)
    (settled : ∀ mention ∈ mentions, registry.isSettled mention = true) :
    mentions.foldl (settleUnheard telling) registry = registry := by
  induction mentions with
  | nil => rfl
  | cons mention rest ih =>
      rw [List.forall_mem_cons] at settled
      rw [List.foldl_cons, settleUnheard_of_settled telling settled.1]
      exact ih settled.2

/-- An event that describes a schema is reported to whoever listens closely enough, and nothing else
is. -/
theorem events_reportDescribed (telling : Option NodeId) (schema : Schema) {event : String → Event}
    (isDebug : ∀ description, (event description).level = .debug) :
    (registry.reportDescribed telling schema event).events =
      (if registry.isSeen .debug then [event (schema.describe registry.target)] else []) ++
        registry.events := by
  rw [reportDescribed]
  split
  · next seen => rw [report, isDebug, isSeen_prepare, if_pos seen, events_prepare]; rfl
  · rfl

end SettleUnheard

/-! ## Settling a reference -/

section Settle

variable {registry : Registry} {id : NodeId}

/-- The references that are asked for while a reference is being settled: those that the description
in the report mentions, if there is a report and somebody sees it. -/
def asked (registry : Registry) (id : NodeId) : List NodeId :=
  match registry.target id with
  | .ok schema => if registry.isSeen .debug then schema.mentions registry.target else []
  | .error _ => []

theorem mem_asked_iff {mention : NodeId} :
    mention ∈ registry.asked id ↔ registry.isSeen .debug = true ∧
      ∃ schema, registry.target id = .ok schema ∧ mention ∈ schema.mentions registry.target := by
  rw [asked]
  cases registry.target id with
  | ok schema => cases registry.isSeen .debug <;> simp
  | error cause => simp

/-- If nobody sees descriptions, no report asks for anything. -/
theorem asked_of_unseen (unseen : registry.isSeen .debug = false) (id : NodeId) :
    registry.asked id = [] := by
  rw [asked, unseen]
  cases registry.target id <;> rfl

/-- The registry in which the end of a chain is reported: the chain has been walked, and whatever the
report asks for has been settled. -/
def walked (registry : Registry) (id : NodeId) : Registry :=
  (registry.asked id).foldl (settleUnheard (some id))
    (registry.noteCalls (registry.references.walk id).called)

@[simp] theorem events_walked (registry : Registry) (id : NodeId) :
    (registry.walked id).events = registry.events :=
  (foldl_settleUnheard_frame _ _ _).1

@[simp] theorem isSeen_walked (registry : Registry) (id : NodeId) :
    (registry.walked id).isSeen = registry.isSeen :=
  (foldl_settleUnheard_frame _ _ _).2

theorem settle_of_settled (settled : registry.isSettled id = true) : registry.settle id = registry :=
  if_pos settled

/-- A reference that has not been settled is settled in three steps: the chain is walked, its end is
reported, unless it is inherited, and the result is recorded. -/
theorem settle_of_fresh (fresh : registry.references.resolved.lookup id = none) :
    registry.settle id =
      Registry.record
        (((registry.references.walk id).ending.event? registry.target).elim (registry.walked id)
          (registry.walked id).report)
        id (registry.target id) := by
  have leads := target_of_fresh fresh
  rw [settle, if_neg (by simp [fresh])]
  dsimp only
  rw [walked, asked, leads]
  cases ending : (registry.references.walk id).ending with
  | inherited cause | cycle => rfl
  | reached schema =>
      simp only [Ending.result, Ending.event?, Option.elim_some, reportDescribed, prepare]
      have sameSight : (registry.noteCalls (registry.references.walk id).called).isSeen .debug =
          registry.isSeen .debug := rfl
      rw [sameSight]
      cases seen : registry.isSeen .debug with
      | true => rfl
      | false =>
          have unseen : (registry.noteCalls (registry.references.walk id).called).isSeen
              (Event.resolved (schema.describe registry.target)).level = false := seen
          simp only [Bool.false_eq_true, if_false, List.foldl_nil]
          rw [report, unseen, if_neg Bool.false_ne_true]

theorem walked_settles (registry : Registry) (id : NodeId) :
    registry.Settles (registry.walked id) :=
  (Settles.noteCalls registry _).trans (.foldl (settleUnheard_settles (some id)) _ _)

/-- Apart from the events, the report makes no difference. -/
theorem exists_settle_eq (fresh : registry.references.resolved.lookup id = none) :
    ∃ events, registry.settle id =
      ({ registry.walked id with events }).record id (registry.target id) := by
  rw [settle_of_fresh fresh]
  cases (registry.references.walk id).ending.event? registry.target with
  | none => exact ⟨(registry.walked id).events, rfl⟩
  | some event =>
      obtain ⟨events, reported⟩ := (registry.walked id).report_eq event
      exact ⟨events, congrArg (Registry.record · id _) reported⟩

theorem settle_settles (registry : Registry) (id : NodeId) :
    registry.Settles (registry.settle id) := by
  cases fresh : registry.references.resolved.lookup id with
  | some result =>
      rw [settle_of_settled (isSettled_of_lookup fresh)]
      exact .refl registry
  | none =>
      obtain ⟨events, settled⟩ := exists_settle_eq fresh
      rw [settled]
      exact ((registry.walked_settles id).trans (.heard _ events)).record id

/-- A settled reference has a record of what it leads to. -/
theorem lookup_settle (registry : Registry) (id : NodeId) :
    (registry.settle id).references.resolved.lookup id = some (registry.target id) := by
  cases found : registry.references.resolved.lookup id with
  | some result =>
      rw [target_of_recorded found]
      exact (registry.settle_settles id).kept id result found
  | none =>
      obtain ⟨events, settled⟩ := exists_settle_eq found
      rw [settled]
      exact References.lookup_record_self

/-- Of all events, settling a reference reports only ends of chains. -/
theorem filter_events_settle {counted : Event → Bool}
    (ignored : ∀ event : Event, event.endsChain = true → counted event = false)
    (registry : Registry) (id : NodeId) :
    (registry.settle id).events.filter counted = registry.events.filter counted := by
  cases fresh : registry.references.resolved.lookup id with
  | some result => rw [settle_of_settled (isSettled_of_lookup fresh)]
  | none =>
      rw [settle_of_fresh fresh, ← registry.events_walked id]
      cases told : (registry.references.walk id).ending.event? registry.target with
      | none => rfl
      | some event =>
          exact filter_events_report (ignored event (Ending.endsChain_of_event? told)) _

/-- If the report asks only for references that have been settled, then a reference is settled by its
walk alone. -/
theorem settle_of_known (fresh : registry.references.resolved.lookup id = none)
    (known : ∀ mention ∈ registry.asked id, registry.isSettled mention = true) :
    ∃ events, registry.settle id =
      ({ registry.noteCalls (registry.references.walk id).called with events }).record id
        (registry.target id) := by
  have same : registry.walked id = registry.noteCalls (registry.references.walk id).called :=
    foldl_settleUnheard_of_settled (some id) known
  rw [← same]
  exact exists_settle_eq fresh

/-- If nobody sees descriptions, a reference is settled by its walk alone. -/
theorem settle_of_unseen (unseen : registry.isSeen .debug = false)
    (fresh : registry.references.resolved.lookup id = none) :
    ∃ events, registry.settle id =
      ({ registry.noteCalls (registry.references.walk id).called with events }).record id
        (registry.target id) := by
  apply settle_of_known fresh
  rw [asked_of_unseen unseen]
  exact fun _ => nofun

end Settle

/-! ### Asking for what is being settled -/

section Asked

variable {registry : Registry} {id : NodeId}

/-- While a reference is being settled it is not recorded, and every time it is asked for is
noted. -/
theorem reentered_foldl_settleUnheard (fresh : registry.references.resolved.lookup id = none)
    (mentions : List NodeId) :
    (mentions.foldl (settleUnheard (some id)) registry).reentered =
      List.replicate (mentions.count id) id ++ registry.reentered := by
  induction mentions generalizing registry with
  | nil => rfl
  | cons mention rest ih =>
      rw [List.foldl_cons]
      by_cases same : mention = id
      case pos =>
          subst same
          let noted : Registry := { registry with reentered := mention :: registry.reentered }
          have asksAgain : registry.settleUnheard (some mention) mention = noted := by
            rw [settleUnheard, if_neg (by simp [fresh]), if_pos rfl]
          have stillFresh : noted.references.resolved.lookup mention = none := fresh
          rw [asksAgain, ih stillFresh, List.count_cons_self, List.replicate_succ',
            List.append_assoc]
          rfl
      case neg =>
          obtain ⟨stillFresh, sameNoted⟩ :
              (registry.settleUnheard (some id) mention).references.resolved.lookup id = none ∧
                (registry.settleUnheard (some id) mention).reentered = registry.reentered := by
            apply settleUnheard_cases (motive := fun after =>
              after.references.resolved.lookup id = none ∧ after.reentered = registry.reentered)
            case settled => exact fun _ => ⟨fresh, rfl⟩
            case reentered => exact fun _ isId => (same (Option.some.inj isId).symm).elim
            case walked =>
                intro _ _
                refine ⟨?_, rfl⟩
                rw [record, References.lookup_record_of_ne (Ne.symm same)]
                exact fresh
          rw [ih stillFresh, sameNoted, List.count_cons_of_ne same]

/-- What is asked for while it is being settled, as often as the report asks for it. -/
theorem reentered_settle_of_fresh (fresh : registry.references.resolved.lookup id = none) :
    (registry.settle id).reentered =
      List.replicate ((registry.asked id).count id) id ++ registry.reentered := by
  obtain ⟨events, settled⟩ := exists_settle_eq fresh
  let called := registry.noteCalls (registry.references.walk id).called
  have stillFresh : called.references.resolved.lookup id = none := fresh
  rw [settled]
  exact reentered_foldl_settleUnheard stillFresh (registry.asked id)

/-- A reference is asked for while it is being settled exactly if the report on it asks for it. -/
theorem reentered_settle_iff (registry : Registry) (id : NodeId) :
    (registry.settle id).reentered = registry.reentered ↔
      (registry.isSettled id = false → id ∉ registry.asked id) := by
  cases fresh : registry.references.resolved.lookup id with
  | some result =>
      have settled := isSettled_of_lookup fresh
      simp [settle_of_settled settled, settled]
  | none =>
      have unsettled : registry.isSettled id = false := by simp [isSettled, fresh]
      rw [reentered_settle_of_fresh fresh]
      simp [unsettled, List.count_eq_zero]

end Asked

/-! ## Using references -/

/-- A reference is settled, because it is used or for an event, or the reported events change. -/
inductive Use (before : Registry) : Registry → Prop where
  | settle (id : NodeId) : Use before (before.settle id)
  | settleUnheard (id : NodeId) : Use before (before.settleUnheard none id)
  | hear (events : List Event) : Use before { before with events }

/-- References are used one after another. -/
abbrev Uses : Registry → Registry → Prop := Relation.ReflTransGen Use

theorem uses_report (registry : Registry) (event : Event) :
    registry.Uses (registry.report event) := by
  obtain ⟨events, equal⟩ := registry.report_eq event
  rw [equal]
  exact .single (.hear events)

theorem uses_absorb (registry : Registry) (journal : Journal) :
    registry.Uses (registry.absorb journal) := by
  induction journal generalizing registry with
  | nil => exact .refl
  | cons notice rest ih =>
      cases notice with
      | used id => exact .head (.settle id) (ih (registry.settle id))
      | depthExceeded limit path => exact (registry.uses_report _).trans (ih _)

theorem uses_foldl_settle (ids : List NodeId) (registry : Registry) :
    registry.Uses (ids.foldl settle registry) := by
  induction ids generalizing registry with
  | nil => exact .refl
  | cons id rest ih => exact .head (.settle id) (ih _)

theorem uses_prepare (registry : Registry) (schema : Schema) :
    registry.Uses (registry.prepare none schema) := by
  rw [prepare]
  generalize schema.mentions registry.target = mentions
  induction mentions generalizing registry with
  | nil => exact .refl
  | cons mention rest ih => exact .head (.settleUnheard mention) (ih _)

/-- A report on an assembly uses the references in the description, if it is seen. -/
theorem uses_reportDescribed (registry : Registry) (schema : Schema) (event : String → Event) :
    registry.Uses (registry.reportDescribed none schema event) := by
  rw [reportDescribed]
  split
  · exact (registry.uses_prepare schema).trans (uses_report _ _)
  · exact .refl

theorem Uses.settles {before after : Registry} (uses : before.Uses after) :
    before.Settles after := by
  induction uses with
  | refl => exact .refl before
  | tail _ use ih =>
      cases use with
      | settle id => exact ih.trans (settle_settles _ id)
      | settleUnheard id => exact ih.trans (settleUnheard_settles none _ id)
      | hear events => exact ih.trans (.heard _ events)

/-- A property of registries, and of the references that are being settled there, is kept by
everything that happens while references are used: by reports, by the walk with which the settling
of a reference begins, and by the record with which it ends. -/
structure Invariant (holds : (opening : List NodeId) → Registry → Prop) : Prop where
  reports : ∀ opening registry events reentered, holds opening registry →
    holds opening { registry with events, reentered }
  opens : ∀ opening registry id, registry.references.resolved.lookup id = none → id ∉ opening →
    holds opening registry →
    holds (id :: opening) (registry.noteCalls (registry.references.walk id).called)
  closes : ∀ opening registry id, id ∉ opening → holds (id :: opening) registry →
    holds opening (registry.record id (registry.target id))

namespace Invariant

variable {holds : (opening : List NodeId) → Registry → Prop}

theorem settleUnheard (invariant : Invariant holds) (telling : Option NodeId) {registry : Registry}
    (start : holds telling.toList registry) (id : NodeId) :
    holds telling.toList (registry.settleUnheard telling id) := by
  apply settleUnheard_cases (motive := holds telling.toList)
  case settled => exact fun _ => start
  case reentered => exact fun _ _ => invariant.reports _ registry registry.events _ start
  case walked =>
      intro fresh differs
      have isNew : id ∉ telling.toList := by simpa using differs
      exact invariant.closes _ _ id isNew (invariant.opens _ _ id fresh isNew start)

theorem settle (invariant : Invariant holds) {registry : Registry} (start : holds [] registry)
    (id : NodeId) : holds [] (registry.settle id) := by
  cases fresh : registry.references.resolved.lookup id with
  | some result =>
      rw [settle_of_settled (isSettled_of_lookup fresh)]
      exact start
  | none =>
      have walked : holds [id] (registry.walked id) := by
        rw [Registry.walked]
        generalize registry.asked id = mentions
        have opened := invariant.opens [] registry id fresh List.not_mem_nil start
        generalize registry.noteCalls _ = current at opened
        induction mentions generalizing current with
        | nil => exact opened
        | cons mention rest ih =>
            exact ih _ (invariant.settleUnheard (some id) opened mention)
      obtain ⟨events, settled⟩ := exists_settle_eq fresh
      have sameTarget : ({ registry.walked id with events } : Registry).target = registry.target :=
        ((registry.walked_settles id).trans (.heard _ events)).target
      rw [settled, ← sameTarget]
      exact invariant.closes [] _ id List.not_mem_nil (invariant.reports _ _ events _ walked)

/-- Whoever uses references keeps every such property. -/
theorem uses (invariant : Invariant holds) {before after : Registry} (uses : before.Uses after)
    (start : holds [] before) : holds [] after := by
  induction uses with
  | refl => exact start
  | tail _ use ih =>
      cases use with
      | settle id => exact invariant.settle ih id
      | settleUnheard id => exact invariant.settleUnheard none ih id
      | hear events => exact invariant.reports _ _ events _ ih

end Invariant

section Uses

variable {before after : Registry}

/-- Using references changes neither who listens nor the count of assemblies. -/
theorem Uses.frame (uses : before.Uses after) :
    after.listening = before.listening ∧ after.assembled = before.assembled := by
  have same : Invariant fun _ registry =>
      registry.listening = before.listening ∧ registry.assembled = before.assembled :=
    ⟨fun _ _ _ _ same => same, fun _ _ _ _ _ same => same, fun _ _ _ _ same => same⟩
  exact same.uses uses ⟨rfl, rfl⟩

theorem Uses.isSeen (uses : before.Uses after) (level : Level) :
    after.isSeen level = before.isSeen level := by
  rw [Registry.isSeen, Registry.isSeen, uses.frame.1]

/-- Whatever has been used, the reports on references ask for the same. -/
theorem Uses.asked (uses : before.Uses after) : after.asked = before.asked := by
  funext id
  rw [Registry.asked, Registry.asked, uses.settles.target, uses.isSeen]

/-- References that are settled one after another are not asked for in the middle of it, if the report
on none of them asks for itself. -/
theorem reentered_foldl_settle {registry : Registry} {ids : List NodeId}
    (others : ∀ id ∈ ids, id ∉ registry.asked id) :
    (ids.foldl settle registry).reentered = registry.reentered := by
  induction ids generalizing registry with
  | nil => rfl
  | cons first rest ih =>
      obtain ⟨ofFirst, ofRest⟩ := List.forall_mem_cons.mp others
      have sameAsked : (registry.settle first).asked = registry.asked :=
        Uses.asked (.single (.settle first))
      have same := (registry.reentered_settle_iff first).mpr fun _ => ofFirst
      exact (ih (sameAsked ▸ ofRest)).trans same

/-- For an event that is about no reference, none is asked for at a wrong time. -/
theorem reentered_prepare (registry : Registry) (schema : Schema) :
    (registry.prepare none schema).reentered = registry.reentered := by
  rw [prepare]
  generalize schema.mentions registry.target = mentions
  induction mentions generalizing registry with
  | nil => rfl
  | cons mention rest ih =>
      refine (ih _).trans ?_
      apply settleUnheard_cases (motive := fun after => after.reentered = registry.reentered)
      case settled | walked => intros; rfl
      case reentered => exact fun _ same => nomatch same

theorem reentered_reportDescribed (registry : Registry) (schema : Schema)
    (event : String → Event) :
    (registry.reportDescribed none schema event).reentered = registry.reentered := by
  rw [reportDescribed]
  split
  · obtain ⟨events, reported⟩ := (registry.prepare none schema).report_eq
      (event (schema.describe registry.target))
    rw [reported]
    exact registry.reentered_prepare schema
  · rfl

end Uses

/-! ## Keeping routines -/

/-- The routine that is assembled next from the outcome of a lowering. -/
def assembling (registry : Registry) (result : Except CompileError Code) :
    Except CompileError Routine :=
  result.map fun code => { serial := registry.assembled, code }

/-- Keeps for a node the routine that is assembled next. -/
def keeping (registry : Registry) (id : NodeId) (result : Except CompileError Code) : Registry :=
  { registry with
    routines := (id, registry.assembling result) :: registry.routines
    assembled := registry.assembled + 1 }

theorem lookup_keeping {registry : Registry} {id other : NodeId}
    {result : Except CompileError Code} {kept : Except CompileError Routine}
    (found : (registry.keeping id result).routines.lookup other = some kept) :
    other = id ∧ kept = registry.assembling result ∨
      registry.routines.lookup other = some kept := by
  simp only [keeping, List.lookup_cons] at found
  split at found
  · next same => exact .inl ⟨eq_of_beq same, (Option.some.inj found).symm⟩
  · exact .inr found

/-- An assembly uses the references of the lowering, then those that its report mentions if it is
seen, and keeps the result for the node. -/
theorem assemble_eq (registry : Registry) (schema : Schema) :
    let lowering := schema.lower registry.references
    ∃ reported : Registry, (registry.absorb (.ofMentions lowering.used)).Uses reported ∧
      registry.assemble schema =
        (reported.assembling lowering.result, reported.keeping schema.id lowering.result) := by
  intro lowering
  exact ⟨_, uses_reportDescribed _ schema (assemblyEvent lowering.result), rfl⟩

/-- Compiling a schema gives what is kept for its node, or it uses the references of the lowering
and maybe others, and then keeps a result where there was none. -/
theorem compile_cases (registry : Registry) (schema : Schema) :
    (∃ kept, registry.routines.lookup schema.id = some kept ∧
      registry.compile schema = (kept.map fun routine => { routine, schema }, registry)) ∨
    registry.routines.lookup schema.id = none ∧
      let lowering := schema.lower registry.references
      ∃ reported, (registry.absorb (.ofMentions lowering.used)).Uses reported ∧
        registry.compile schema =
          ((reported.assembling lowering.result).map fun routine => { routine, schema },
            reported.keeping schema.id lowering.result) := by
  rw [compile]
  cases found : registry.routines.lookup schema.id with
  | some kept => exact .inl ⟨kept, rfl, rfl⟩
  | none =>
      obtain ⟨reported, further, assembled⟩ := registry.assemble_eq schema
      refine .inr ⟨rfl, reported, further, ?_⟩
      simp only [assembled]

/-- Compiling a schema asks for no reference while it is being settled, if the report on none of those
that the lowering uses asks for itself. -/
theorem reentered_compile {registry : Registry} {schema : Schema}
    (others : ∀ id ∈ (schema.lower registry.references).used, id ∉ registry.asked id) :
    (registry.compile schema).2.reentered = registry.reentered := by
  rw [compile]
  cases registry.routines.lookup schema.id with
  | some kept => rfl
  | none =>
      let lowering := schema.lower registry.references
      let lowered := registry.absorb (.ofMentions lowering.used)
      have absorbed : lowered = lowering.used.foldl settle registry := List.foldl_map ..
      have same := lowered.reentered_reportDescribed schema (assemblyEvent lowering.result)
      change (lowered.reportDescribed none schema _).reentered = _
      rw [same, absorbed]
      exact reentered_foldl_settle others

/-! ## Taking in journals -/

theorem absorb_settles (registry : Registry) (journal : Journal) :
    registry.Settles (registry.absorb journal) :=
  (registry.uses_absorb journal).settles

/-- After a journal has been taken in, every reference it uses is settled. -/
theorem lookup_absorb {registry : Registry} {journal : Journal} {id : NodeId}
    (used : Notice.used id ∈ journal) :
    (registry.absorb journal).references.resolved.lookup id = some (registry.target id) := by
  induction journal generalizing registry with
  | nil => cases used
  | cons notice rest ih =>
      rcases List.mem_cons.mp used with rfl | inRest
      · exact ((registry.settle id).absorb_settles rest).kept id _ (registry.lookup_settle id)
      · have first := registry.absorb_settles [notice]
        rw [← first.target]
        exact ih inRest

theorem carryOut_settles {α : Type} (registry : Registry) (run : Recorded α) :
    registry.Settles (registry.carryOut run).2 :=
  registry.absorb_settles run.journal

end Registry

end Assay
