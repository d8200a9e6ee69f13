import Assay.Proofs.Calls
import Assay.Proofs.Steps

/-!
# What is told about references

When a reference is settled because it is used, whoever listens is told how its chain ended, and is
told so at that time only.  There is one exception.  If the chain comes to a reference that has been
found to lead nowhere, then nothing is told, although a schema that such a reference leads to would
be reported again.  So of all references that lead into the same cycle only the first one is
reported, and which one that is depends on the order in which they are used.

A report describes a schema, and a description asks for the references that it mentions.  Those that
have not been settled are settled aside: nothing is told about them, then or later.  This happens
to the references that are mentioned in the description of what a reference leads to, and to those
that are mentioned in the description of a schema that is compiled. -/

namespace Assay

namespace References

variable {references : References}

/-- The references that have been settled, latest first. -/
def recorded (references : References) : List NodeId := references.resolved.map Prod.fst

theorem not_mem_recorded_iff {id : NodeId} :
    id ∉ references.recorded ↔ references.resolved.lookup id = none := by
  simp only [recorded, List.lookup_eq_none_iff, List.mem_map, bne_iff_ne, ne_eq, not_exists,
    not_and]
  exact ⟨fun apart entry member same => apart entry member same.symm,
    fun apart entry member same => apart entry member same.symm⟩

namespace Follows

variable {passed : List NodeId} {id : NodeId} {walk : Walk}

/-- A walk that comes back to itself calls or has passed all that comes on the chain. -/
theorem next_of_cycle (follows : references.Follows passed id walk) (ends : walk.ending = .cycle)
    {source next : NodeId} (member : source ∈ walk.called)
    (gives : references.produce? source = some (.reference next)) :
    next ∈ walk.called ∨ next ∈ passed := by
  induction follows with
  | lost given =>
      cases List.mem_singleton.mp member
      cases given.symm.trans gives
  | reached => cases ends
  | again given isPassed =>
      cases List.mem_singleton.mp member
      cases given.symm.trans gives
      rcases List.mem_cons.mp isPassed with rfl | further
      · exact .inl member
      · exact .inr further
  | @settled _ _ _ result => cases result <;> cases ends
  | onward given _ _ rest ih =>
      rcases List.mem_cons.mp member with rfl | isRest
      · cases given.symm.trans gives
        exact .inl (List.mem_cons_of_mem _ rest.mem_called)
      · rcases ih ends isRest with isCalled | isPassed
        · exact .inl (List.mem_cons_of_mem _ isCalled)
        · rcases List.mem_cons.mp isPassed with rfl | further
          · exact .inl (by simp)
          · exact .inr further

/-- A walk inherits from a settled reference on the chain. -/
theorem exists_recorded (follows : references.Follows passed id walk) {cause : SchemaError}
    (ends : walk.ending = .inherited cause) :
    ∃ next, references.OnChain id next ∧ next ∈ references.recorded := by
  induction follows with
  | lost | reached | again => cases ends
  | settled given _ found =>
      refine ⟨_, .single given, ?_⟩
      by_contra isFresh
      cases found.symm.trans (not_mem_recorded_iff.mp isFresh)
  | onward given _ _ _ ih =>
      obtain ⟨next, onChain, isRecorded⟩ := ih ends
      exact ⟨next, .head given onChain, isRecorded⟩

end Follows

/-- Nothing on a chain that comes back to itself has been settled. -/
theorem not_mem_recorded_of_cycle {id next : NodeId} (fresh : id ∉ references.recorded)
    (ends : (references.walk id).ending = .cycle) (onChain : references.OnChain id next) :
    next ∉ references.recorded := by
  have follows := follows_walk references id
  have isCalled : next ∈ (references.walk id).called := by
    induction onChain with
    | refl => exact follows.mem_called
    | tail _ gives ih => exact (follows.next_of_cycle ends ih gives).resolve_right (by simp)
  rcases follows.fresh_of_called isCalled with rfl | isFresh
  · exact fresh
  · exact not_mem_recorded_iff.mpr isFresh

end References

namespace Registry

open References

/-- What is told when references are settled together. -/
structure Telling where
  /-- The reference that is settled because it is used. -/
  subject : Option NodeId
  /-- The references that are settled because the description in an event mentions them, latest
  first. -/
  aside : List NodeId
  /-- What is told about the subject. -/
  event? : Option Event

namespace Telling

/-- The references that are settled together, latest first. -/
def settled (telling : Telling) : List NodeId := telling.subject.toList ++ telling.aside

/-- Each time that the subject is asked for while it is being settled. -/
def reentries (registry : Registry) (telling : Telling) : List NodeId :=
  telling.subject.toList.flatMap fun id => List.replicate ((registry.asked id).count id) id

end Telling

/-- What is told when those in `earlier` have been settled, in a step that assembles a routine for a
schema, if there is one. -/
inductive IsTold (registry : Registry) (assembled : Option Schema) (earlier : List NodeId) :
    Telling → Prop where
  /-- A schema that is reached is described, and what the description mentions is settled aside. -/
  | reached {id : NodeId} {schema : Schema} {aside : List NodeId} : registry.target id = .ok schema →
      (∀ other, other ∈ aside ↔ other ∈ registry.asked id ∧ other ≠ id ∧ other ∉ earlier) →
      IsTold registry assembled earlier
        ⟨some id, aside, some (.resolved (schema.describe registry.target))⟩
  /-- A chain that reaches no schema is reported, if nothing on it has been settled. -/
  | cycle {id : NodeId} {cause : SchemaError} : registry.target id = .error cause →
      (∀ next, registry.references.OnChain id next → next ∉ earlier) →
      IsTold registry assembled earlier ⟨some id, [], some .cycleDetected⟩
  /-- If something on it has been settled, nothing is told. -/
  | inherited {id next : NodeId} {cause : SchemaError} : registry.target id = .error cause →
      registry.references.OnChain id next → next ∈ earlier →
      IsTold registry assembled earlier ⟨some id, [], none⟩
  /-- The report on an assembly describes the schema, and is about no reference. -/
  | assembly {schema : Schema} {aside : List NodeId} : assembled = some schema →
      registry.isSeen .debug = true →
      (∀ other, other ∈ aside ↔ other ∈ schema.mentions registry.target ∧ other ∉ earlier) →
      IsTold registry assembled earlier ⟨none, aside, none⟩

/-- What is told one after another in a registry, latest first. -/
inductive Tells (registry : Registry) (assembled : Option Schema) : List Telling → Prop where
  | nothing : Tells registry assembled []
  | further {told : List Telling} {telling : Telling} : Tells registry assembled told →
      IsTold registry assembled
        (told.flatMap Telling.settled ++ registry.references.recorded) telling →
      Tells registry assembled (telling :: told)

/-- What becomes of a registry when references are used in it and told about. -/
structure Accounts (before : Registry) (assembled : Option Schema) (told : List Telling)
    (after : Registry) : Prop where
  uses : before.Uses after
  tells : before.Tells assembled told
  recorded : after.references.recorded =
    told.flatMap Telling.settled ++ before.references.recorded
  events : after.events.filter Event.endsChain =
    (told.filterMap Telling.event?).filter (fun event => before.isSeen event.level) ++
      before.events.filter Event.endsChain
  reentered : after.reentered =
    told.flatMap (Telling.reentries before) ++ before.reentered

section Tells

variable {before middle after registry : Registry} {assembled : Option Schema}
  {told later : List Telling}

/-- What is told depends on what references lead to, on the chains and on who listens. -/
theorem IsTold.of_uses (uses : before.Uses after) {earlier : List NodeId} {telling : Telling}
    (isTold : after.IsTold assembled earlier telling) :
    before.IsTold assembled earlier telling := by
  have sameChains : after.references.produce? = before.references.produce? := by
    funext id
    rw [produce?, produce?, uses.settles.bindings, uses.settles.factories]
  cases isTold with
  | reached leads asides =>
      rw [uses.settles.target] at leads ⊢
      rw [uses.asked] at asides
      exact .reached leads asides
  | cycle leads nowhere =>
      rw [uses.settles.target] at leads
      rw [OnChain, sameChains] at nowhere
      exact .cycle leads nowhere
  | inherited leads onChain isEarlier =>
      rw [uses.settles.target] at leads
      rw [OnChain, sameChains] at onChain
      exact .inherited leads onChain isEarlier
  | assembly isAssembled seen asides =>
      rw [uses.isSeen] at seen
      rw [uses.settles.target] at asides
      exact .assembly isAssembled seen asides

theorem Tells.append (uses : before.Uses middle) (tells : before.Tells assembled told)
    (recorded : middle.references.recorded =
      told.flatMap Telling.settled ++ before.references.recorded)
    (further : middle.Tells assembled later) : before.Tells assembled (later ++ told) := by
  induction further with
  | nothing => exact tells
  | further _ isTold ih =>
      rw [recorded, ← List.append_assoc, ← List.flatMap_append] at isTold
      exact ih.further (isTold.of_uses uses)

theorem Accounts.refl (registry : Registry) (assembled : Option Schema) :
    registry.Accounts assembled [] registry :=
  ⟨.refl, .nothing, rfl, rfl, rfl⟩

theorem Accounts.trans (first : before.Accounts assembled told middle)
    (second : middle.Accounts assembled later after) :
    before.Accounts assembled (later ++ told) after where
  uses := first.uses.trans second.uses
  tells := first.tells.append first.uses first.recorded second.tells
  recorded := by
    rw [second.recorded, first.recorded, List.flatMap_append, List.append_assoc]
  events := by
    have sameSight : middle.isSeen = before.isSeen := funext first.uses.isSeen
    rw [second.events, first.events, sameSight, List.filterMap_append, List.filter_append,
      List.append_assoc]
  reentered := by
    have sameReentries : Telling.reentries middle = Telling.reentries before := by
      funext telling
      rw [Telling.reentries, Telling.reentries, first.uses.asked]
    rw [second.reentered, first.reentered, sameReentries, List.flatMap_append, List.append_assoc]

end Tells

/-! ## Settling references -/

section Settle

variable {registry : Registry} {id : NodeId}

theorem recorded_record (registry : Registry) (id : NodeId) (result : Except SchemaError Schema) :
    (registry.record id result).references.recorded = id :: registry.references.recorded := rfl

theorem not_mem_recorded_of_fresh (fresh : registry.references.resolved.lookup id = none) :
    id ∉ registry.references.recorded :=
  not_mem_recorded_iff.mpr fresh

theorem mem_recorded_of_isSettled (settled : registry.isSettled id = true) :
    id ∈ registry.references.recorded := by
  by_contra isNew
  simp [isSettled, not_mem_recorded_iff.mp isNew] at settled

/-- A reference is recorded for an event, unless it has been recorded or is being settled. -/
theorem exists_recorded_settleUnheard (telling : Option NodeId) (registry : Registry)
    (mention : NodeId) :
    ∃ aside, (registry.settleUnheard telling mention).references.recorded =
        aside ++ registry.references.recorded ∧
      ∀ other, other ∈ aside ↔
        other = mention ∧ telling ≠ some other ∧ other ∉ registry.references.recorded := by
  apply settleUnheard_cases (motive := fun after => ∃ aside,
    after.references.recorded = aside ++ registry.references.recorded ∧ ∀ other, other ∈ aside ↔
      other = mention ∧ telling ≠ some other ∧ other ∉ registry.references.recorded)
  case settled =>
      intro settled
      have isRecorded := mem_recorded_of_isSettled settled
      refine ⟨[], rfl, fun other => ⟨nofun, ?_⟩⟩
      rintro ⟨rfl, _, isNew⟩
      exact (isNew isRecorded).elim
  case reentered =>
      intro _ isTelling
      refine ⟨[], rfl, fun other => ⟨nofun, ?_⟩⟩
      rintro ⟨rfl, differs, _⟩
      exact (differs isTelling).elim
  case walked =>
      intro fresh differs
      refine ⟨[mention], rfl, fun other => ?_⟩
      rw [List.mem_singleton]
      refine ⟨?_, And.left⟩
      rintro rfl
      exact ⟨rfl, differs, not_mem_recorded_of_fresh fresh⟩

/-- What is settled for an event are the references that are mentioned and have not been settled,
except for the one that is being settled. -/
theorem exists_aside (telling : Option NodeId) (mentions : List NodeId) (registry : Registry) :
    ∃ aside, (mentions.foldl (settleUnheard telling) registry).references.recorded =
        aside ++ registry.references.recorded ∧
      ∀ other, other ∈ aside ↔
        other ∈ mentions ∧ telling ≠ some other ∧ other ∉ registry.references.recorded := by
  induction mentions generalizing registry with
  | nil => exact ⟨[], rfl, by simp⟩
  | cons mention rest ih =>
      obtain ⟨first, grownFirst, isFirst⟩ := exists_recorded_settleUnheard telling registry mention
      obtain ⟨further, grown, isFurther⟩ := ih (registry.settleUnheard telling mention)
      refine ⟨further ++ first, ?_, fun other => ?_⟩
      · rw [List.foldl_cons, grown, grownFirst, List.append_assoc]
      · rw [List.mem_append, isFurther, grownFirst, List.mem_append, List.mem_cons]
        have ofFirst := isFirst other
        tauto

/-- What is told about a reference is how its walk ended. -/
theorem isTold_of_walk (assembled : Option Schema)
    (fresh : registry.references.resolved.lookup id = none) {aside : List NodeId}
    (isAside : ∀ other, other ∈ aside ↔ other ∈ registry.asked id ∧ some id ≠ some other ∧
      other ∉ registry.references.recorded) :
    registry.IsTold assembled registry.references.recorded
      ⟨some id, aside, (registry.references.walk id).ending.event? registry.target⟩ := by
  have leads := target_of_fresh fresh
  have follows := follows_walk registry.references id
  -- A chain that reaches no schema is told of without a description.
  have isQuiet {cause : SchemaError} (nowhere : registry.target id = .error cause) :
      aside = [] := by
    apply List.eq_nil_iff_forall_not_mem.mpr
    intro other member
    have isAsked := ((isAside other).mp member).1
    rw [asked, nowhere] at isAsked
    cases isAsked
  cases ends : (registry.references.walk id).ending with
  | reached schema =>
      rw [ends] at leads
      refine .reached leads fun other => ?_
      rw [isAside, ne_eq, Option.some_inj, eq_comm]
  | inherited cause =>
      rw [ends] at leads
      obtain ⟨next, onChain, isRecorded⟩ := follows.exists_recorded ends
      rw [isQuiet leads]
      exact .inherited leads onChain isRecorded
  | cycle =>
      rw [ends] at leads
      have isNew := not_mem_recorded_of_fresh fresh
      rw [isQuiet leads]
      exact .cycle leads fun next onChain => not_mem_recorded_of_cycle isNew ends onChain

theorem filter_events_settle_of_fresh (fresh : registry.references.resolved.lookup id = none) :
    (registry.settle id).events.filter Event.endsChain =
      ((registry.references.walk id).ending.event? registry.target).toList.filter
          (fun event => registry.isSeen event.level) ++
        registry.events.filter Event.endsChain := by
  rw [settle_of_fresh fresh]
  change (Option.elim _ (registry.walked id) (registry.walked id).report).events.filter _ = _
  cases told : (registry.references.walk id).ending.event? registry.target with
  | none => rw [Option.elim_none, events_walked]; rfl
  | some event =>
      have ends := Ending.endsChain_of_event? told
      rw [Option.elim_some, report, isSeen_walked]
      cases seen : registry.isSeen event.level <;> simp [seen, ends]

/-- Settling a reference accounts for the reference and for all that are settled aside. -/
theorem settle_accounts (assembled : Option Schema) (registry : Registry) (id : NodeId) :
    ∃ told, registry.Accounts assembled told (registry.settle id) := by
  cases fresh : registry.references.resolved.lookup id with
  | some result =>
      rw [settle_of_settled (isSettled_of_lookup fresh)]
      exact ⟨[], .refl registry assembled⟩
  | none =>
      obtain ⟨aside, grown, isAside⟩ := exists_aside (some id) (registry.asked id)
        (registry.noteCalls (registry.references.walk id).called)
      have isTold := isTold_of_walk assembled fresh isAside
      refine ⟨[⟨some id, aside, _⟩], .single (.settle id), .further .nothing isTold, ?_, ?_, ?_⟩
      · obtain ⟨events, settled⟩ := exists_settle_eq fresh
        rw [settled, recorded_record, List.flatMap_singleton]
        exact congrArg (id :: ·) grown
      · rw [filter_events_settle_of_fresh fresh]
        cases Ending.event? registry.target _ <;> rfl
      · rw [reentered_settle_of_fresh fresh]
        simp [Telling.reentries]

end Settle

/-! ## Steps and sessions -/

section Steps

variable {before after : Registry}

/-- Reporting something else than how a chain ended accounts for nothing. -/
theorem accounts_report {event : Event} (other : event.endsChain = false) (registry : Registry)
    (assembled : Option Schema) : registry.Accounts assembled [] (registry.report event) := by
  have filtered := filter_events_report other registry
  obtain ⟨events, equal⟩ := registry.report_eq event
  rw [equal] at filtered ⊢
  exact ⟨.single (.hear events), .nothing, rfl, filtered, rfl⟩

/-- Taking in a journal accounts for the references that it uses for the first time. -/
theorem absorb_accounts (assembled : Option Schema) (registry : Registry) (journal : Journal) :
    ∃ told, registry.Accounts assembled told (registry.absorb journal) := by
  induction journal generalizing registry with
  | nil => exact ⟨[], .refl registry assembled⟩
  | cons notice rest ih =>
      obtain ⟨told, first⟩ : ∃ told,
          registry.Accounts assembled told (registry.absorbNotice notice) := by
        cases notice with
        | used id => exact settle_accounts assembled registry id
        | depthExceeded limit path => exact ⟨[], accounts_report rfl registry assembled⟩
      obtain ⟨later, second⟩ := ih (registry.absorbNotice notice)
      exact ⟨later ++ told, first.trans second⟩

/-- The report on an assembly accounts for the references that its description settles. -/
theorem reportDescribed_accounts (registry : Registry) (schema : Schema) {event : String → Event}
    (other : ∀ description, (event description).endsChain = false) :
    ∃ told, registry.Accounts (some schema) told (registry.reportDescribed none schema event) := by
  rw [reportDescribed]
  split
  · next seen =>
    obtain ⟨aside, grown, isAside⟩ :=
      exists_aside none (schema.mentions registry.target) registry
    have isTold : registry.IsTold (some schema) registry.references.recorded ⟨none, aside, none⟩ := by
      refine .assembly rfl seen fun other => ?_
      rw [isAside]
      simp
    have prepares : registry.Accounts (some schema) [⟨none, aside, none⟩]
        (registry.prepare none schema) := by
      refine ⟨registry.uses_prepare schema, .further .nothing isTold, ?_, ?_, ?_⟩
      · rw [List.flatMap_singleton]
        exact grown
      · rw [events_prepare]
        rfl
      · exact reentered_prepare registry schema
    exact ⟨_, prepares.trans (accounts_report (other _) _ (some schema))⟩
  · exact ⟨[], .refl registry (some schema)⟩

/-- The schema for which a step assembles a routine. -/
def assembles? (registry : Registry) : Step → Option Schema
  | .compile name _ => (registry.references.bindings.lookup name).filter fun schema =>
      (registry.routines.lookup schema.id).isNone
  | _ => none

/-- Every step accounts for the references that it settles. -/
theorem Effect.accounts {step : Step} (effect : before.Effect step after) :
    ∃ told reported, before.Accounts (before.assembles? step) told reported ∧
      after.references.recorded = reported.references.recorded ∧
      after.events = reported.events ∧ after.reentered = reported.reentered := by
  cases effect with
  | absorbs journal noDefinition =>
      obtain ⟨told, accounts⟩ := absorb_accounts (before.assembles? step) before journal
      exact ⟨told, _, accounts, rfl, rfl, rfl⟩
  | @compiles name routineName schema bound =>
      rw [compile]
      cases found : before.routines.lookup schema.id with
      | some kept => exact ⟨[], before, .refl before _, rfl, rfl, rfl⟩
      | none =>
          have isAssembled : before.assembles? (.compile name routineName) = some schema := by
            simp [assembles?, bound, found]
          let lowering := schema.lower before.references
          have isOther (description : String) :
              (assemblyEvent lowering.result description).endsChain = false := by
            cases lowering.result <;> rfl
          rw [isAssembled]
          obtain ⟨used, lowers⟩ :=
            absorb_accounts (some schema) before (.ofMentions lowering.used)
          obtain ⟨mentioned, reports⟩ := reportDescribed_accounts _ schema isOther
          exact ⟨_, _, lowers.trans reports, rfl, rfl, rfl⟩
  | defines name draft =>
      rw [before.define_eq name draft]
      exact ⟨[], before, .refl before _, rfl, rfl, rfl⟩

/-- A reference is recorded once. -/
theorem invariant_recorded_nodup :
    Invariant fun opening registry => registry.references.recorded.Nodup ∧
      ∀ id ∈ opening, id ∉ registry.references.recorded where
  reports := fun _ _ _ _ holds => holds
  opens := by
    rintro opening registry id fresh _ ⟨distinct, apart⟩
    exact ⟨distinct, List.forall_mem_cons.mpr ⟨not_mem_recorded_of_fresh fresh, apart⟩⟩
  closes := by
    rintro opening registry id isNew ⟨distinct, apart⟩
    obtain ⟨idApart, othersApart⟩ := List.forall_mem_cons.mp apart
    rw [recorded_record]
    refine ⟨List.nodup_cons.mpr ⟨idApart, distinct⟩, fun other isOpening member => ?_⟩
    rcases List.mem_cons.mp member with rfl | isRecorded
    · exact isNew isOpening
    · exact othersApart other isOpening isRecorded

end Steps

end Registry

namespace Session

open Registry

/-- What a step tells about references, when no events are left from before, and which references
it asks for while they are being settled. -/
theorem reply_tells {session : Session} (silent : session.registry.events = []) (step : Step) :
    ∃ told, session.registry.Tells (session.registry.assembles? step) told ∧
      (session.reply step).2.registry.references.recorded =
        told.flatMap Telling.settled ++ session.registry.references.recorded ∧
      (session.reply step).1.events.filter Event.endsChain =
        ((told.filterMap Telling.event?).filter
          fun event => session.registry.isSeen event.level).reverse ∧
      (session.reply step).2.registry.reentered =
        told.flatMap (Telling.reentries session.registry) ++ session.registry.reentered := by
  obtain ⟨told, reported, accounts, recorded, events, reentered⟩ :=
    (session.take_effect step).accounts
  refine ⟨told, accounts.tells, recorded.trans accounts.recorded, ?_,
    reentered.trans accounts.reentered⟩
  change (session.take step).2.registry.events.reverse.filter Event.endsChain = _
  rw [List.filter_reverse, events, accounts.events, silent, List.filter_nil, List.append_nil]

/-- No reference is settled twice in a run, and after it no events are left. -/
theorem run_keeps_recorded (session : Session) (steps : List Step)
    (silent : session.registry.events = [])
    (distinct : session.registry.references.recorded.Nodup) :
    (session.run steps).2.registry.events = [] ∧
      (session.run steps).2.registry.references.recorded.Nodup := by
  induction steps generalizing session with
  | nil => exact ⟨silent, distinct⟩
  | cons step rest ih =>
      obtain ⟨used, uses, _, sameRecords, _⟩ := (session.reply_moves step).exists_uses
      have stillDistinct := (invariant_recorded_nodup.uses uses ⟨distinct, by simp⟩).1
      rw [References.recorded, ← sameRecords] at stillDistinct
      rw [run_cons]
      exact ih _ rfl stillDistinct

/-- A reference that is mentioned in the report on a compilation is settled by it, and is told about
neither then nor when it is used. -/
example :
    let positive : Draft :=
      .custom { description := "positive number", accepts := Predicate.holds .positive }
    ((start (some .debug)).run
      [.define "item" (.word "string"), .define "pair" (.tuple [positive, .named "item"]),
        .compile "pair" "routine",
        .check "pair" (some (.array [.ofInt 1, .string "a"])) none]).1.map Reply.events =
      [[], [], [.notCompilable "[positive number, string]" (.missingGenerator "positive number")],
        []] := by
  decide +kernel

end Session

end Assay
