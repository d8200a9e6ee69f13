import Assay.Proofs.Endings

/-!
# Asking for a reference that is being settled

To settle a reference is to follow its chain, which asks for no other reference.  But the report of
the schema at the end describes that schema, and a description asks for what the references in it
lead to.  If the reference itself is among them, it is asked for while it is being settled, and
whoever asks waits for what cannot come.

References that are settled for a report are not reported themselves.  So nothing is described for
them, and they ask for nothing: it does not matter what their own descriptions mention.
-/

namespace Assay

namespace Registry

variable {registry : Registry}

theorem reentries_eq_nil_iff {telling : Telling} :
    telling.reentries registry = [] ↔ ∀ id ∈ telling.subject, id ∉ registry.asked id := by
  obtain ⟨subject, aside, event?⟩ := telling
  cases subject with
  | none => simp [Telling.reentries]
  | some id => simp [Telling.reentries, List.count_eq_zero]

end Registry

namespace Session

open Registry

variable {session : Session} {step : Step}

/-- A step asks for no reference while it is being settled. -/
def AsksInTime (session : Session) (step : Step) : Prop :=
  (session.reply step).2.registry.reentered = session.registry.reentered

/-- What a step asks for at a wrong time, by what it tells about references. -/
theorem reply_reentered (session : Session) (step : Step) :
    ∃ told : List Telling, (session.reply step).2.registry.reentered =
      told.flatMap (Telling.reentries session.registry) ++ session.registry.reentered := by
  obtain ⟨told, _, accounts, _, _, reentered⟩ := (session.take_effect step).accounts
  exact ⟨told, reentered.trans accounts.reentered⟩

theorem reentered_suffix_run (session : Session) (steps : List Step) :
    session.registry.reentered <:+ (session.run steps).2.registry.reentered := by
  induction steps generalizing session with
  | nil => exact List.suffix_rfl
  | cons step rest ih =>
      obtain ⟨told, grown⟩ := session.reply_reentered step
      exact List.IsSuffix.trans ⟨_, grown.symm⟩ (ih _)

/-- A run asks for no reference while it is being settled exactly if none of its steps does. -/
theorem reentered_run_iff (session : Session) (steps : List Step) :
    (session.run steps).2.registry.reentered = session.registry.reentered ↔
      Throughout AsksInTime session steps := by
  induction steps generalizing session with
  | nil => exact ⟨fun _ => trivial, fun _ => rfl⟩
  | cons step rest ih =>
      rw [run_cons, Throughout, ← ih]
      constructor
      · intro same
        obtain ⟨told, grown⟩ := session.reply_reentered step
        have first : session.registry.reentered <:+ (session.reply step).2.registry.reentered :=
          ⟨_, grown.symm⟩
        have further := reentered_suffix_run (session.reply step).2 rest
        have inTime := (first.eq_of_length_le (same ▸ further.length_le)).symm
        exact ⟨inTime, same.trans inTime.symm⟩
      · rintro ⟨inTime, same⟩
        exact same.trans inTime

theorem asksInTime_of_unseen (unseen : session.registry.isSeen .debug = false) (step : Step) :
    session.AsksInTime step := by
  obtain ⟨told, grown⟩ := session.reply_reentered step
  have none : told.flatMap (Telling.reentries session.registry) = [] := by
    rw [List.flatMap_eq_nil_iff]
    intro telling _
    rw [reentries_eq_nil_iff]
    intro id _
    rw [asked_of_unseen unseen]
    exact List.not_mem_nil
  rw [AsksInTime, grown, none, List.nil_append]

theorem throughout_asksInTime (unseen : session.registry.isSeen .debug = false)
    (steps : List Step) : Throughout AsksInTime session steps := by
  induction steps generalizing session with
  | nil => trivial
  | cons step rest ih =>
      have stillUnseen := ((session.reply_moves step).isSeen .debug).trans unseen
      exact ⟨asksInTime_of_unseen unseen step, ih stillUnseen⟩

/-- The steps of a new session are replied to exactly if none asks for a reference while it is being
settled. -/
theorem replies?_eq_some_iff (listening : Option Level) (steps : List Step) :
    replies? listening steps = some ((start listening).run steps).1 ↔
      Throughout AsksInTime (start listening) steps := by
  rw [← reentered_run_iff]
  change _ ↔ _ = ([] : List NodeId)
  rw [replies?, ← List.isEmpty_iff]
  simp only
  split
  · next isEmpty => exact ⟨fun _ => isEmpty, fun _ => rfl⟩
  · next isNot => exact ⟨nofun, fun isEmpty => (isNot isEmpty).elim⟩

/-- A reference is asked for while it is being settled only by the report on itself.  Settling a
reference that has not been settled asks for it again exactly if somebody sees descriptions and it
leads to a schema whose description mentions it.

So a step of a session, whatever came before it, asks for a reference at the wrong time exactly if it
uses one, for the first time and not in a report, which the report on it mentions.  A session has
replies exactly if none of its steps does, and always has where nobody sees descriptions. -/
theorem asked_while_settled_iff (listening : Option Level) (steps : List Step) :
    (∀ (registry : Registry) (id : NodeId),
      (registry.settle id).reentered = registry.reentered ↔
        (registry.isSeen .debug = true → registry.isSettled id = false →
          ∀ schema, registry.target id = .ok schema → id ∉ schema.mentions registry.target)) ∧
      (∀ step : Step,
        let session := ((start listening).run steps).2
        ∃ told : List Telling, session.registry.Tells (session.registry.assembles? step) told ∧
          (session.reply step).2.registry.references.recorded =
            told.flatMap Telling.settled ++ session.registry.references.recorded ∧
          (session.reply step).1.events.filter Event.endsChain =
            ((told.filterMap Telling.event?).filter
              fun event => session.registry.isSeen event.level).reverse ∧
          (session.AsksInTime step ↔
            ∀ telling ∈ told, ∀ id ∈ telling.subject, id ∉ session.registry.asked id)) ∧
      (replies? listening steps = some ((start listening).run steps).1 ↔
        Throughout AsksInTime (start listening) steps) ∧
      ((start listening).registry.isSeen .debug = false →
        replies? listening steps = some ((start listening).run steps).1) := by
  refine ⟨?_, ?_, replies?_eq_some_iff listening steps, ?_⟩
  · intro registry id
    rw [reentered_settle_iff]
    simp only [mem_asked_iff, not_and, not_exists]
    tauto
  · intro step session
    obtain ⟨silent, _⟩ := run_keeps_recorded (start listening) steps rfl List.nodup_nil
    obtain ⟨told, tells, recorded, reports, reentered⟩ := reply_tells silent step
    refine ⟨told, tells, recorded, reports, ?_⟩
    rw [AsksInTime, reentered, List.append_left_eq_self, List.flatMap_eq_nil_iff]
    exact forall₂_congr fun _ _ => reentries_eq_nil_iff
  · intro unseen
    exact (replies?_eq_some_iff listening steps).mpr (throughout_asksInTime unseen steps)

/-- The reference of the first name mentions the second name, whose reference mentions the first one
again.  But while the first one is reported, the second one is settled without a report. -/
example :
    let steps : List Step :=
      [.define "a" (.array (.array (.array (.named "b")))), .define "b" (.array (.named "a")),
        .check "b" (some (.array [.array []])) none]
    (replies? (some .debug) steps).map (List.map Reply.answer) =
      some [.defined, .defined, .verdict true] := by
  decide +kernel

/-- A list of such lists is mentioned in its own description.  To settle its reference is to ask for
it again, twice as a description has four levels, so there are no replies if somebody sees
descriptions. -/
theorem asked_while_settled_of_lists :
    let define : Step := .define "list" (.array (.named "list"))
    let registry := ((start (some .debug)).run [define]).2.registry
    let steps : List Step := [define, .check "list" (some (.array [.array []])) none]
    registry.reentered = [] ∧ (registry.settle 1).reentered = [1, 1] ∧
      replies? (some .debug) steps = none ∧
      replies? (some .warn) steps = some [⟨.defined, []⟩, ⟨.verdict true, []⟩] := by
  decide +kernel

end Session

end Assay
