import Assay.Proofs.Building
import Assay.Proofs.Chain
import Assay.Proofs.Session
import Mathlib.Data.List.Nodup

/-!
# Calls of factories

How often the factory of a reference is called.  A reference calls it when it is settled, and never
again.  But a walk calls the factories of all references on its way and records a result for the
first of them only, so a reference may have been called for others several times before it is
settled itself.  Its factory then gives what is bound at that time and not what it gave before.

So every settled reference accounts for one call, which bounds the calls of each factory, and a
reference that no other factory gives is called for itself only.
-/

namespace Assay

/-- No other factory gives the reference now. -/
def References.Unshared (references : References) (id : NodeId) : Prop :=
  ∀ source, source ≠ id → references.produce? source ≠ some (.reference id)

namespace Registry

variable {registry before after : Registry} {id : NodeId}

theorem count_noteCalls (called : List NodeId) :
    (registry.noteCalls called).calls.count id = called.count id + registry.calls.count id := by
  rw [noteCalls, List.count_append, List.count_reverse]

/-- A walk calls a factory once at most. -/
theorem count_walk_le (registry : Registry) (other : NodeId) :
    (registry.references.walk other).called.count id ≤ 1 :=
  List.nodup_iff_count_le_one.mp
    ((References.follows_walk registry.references other).called_nodup (by simp)).1 id

/-- The factory of a settled reference is not called. -/
theorem count_walk_of_settled {other : NodeId} (settled : registry.isSettled id = true)
    (fresh : registry.references.resolved.lookup other = none) :
    (registry.references.walk other).called.count id = 0 := by
  apply List.count_eq_zero_of_not_mem
  intro isCalled
  rcases (References.follows_walk registry.references other).fresh_of_called isCalled with
    rfl | alsoFresh
  · simp [isSettled, fresh] at settled
  · simp [isSettled, alsoFresh] at settled

/-- A reference that no other factory gives is only called for itself. -/
theorem count_walk_of_unshared (unshared : registry.references.Unshared id) (other : NodeId) :
    (registry.references.walk other).called.count id = if id = other then 1 else 0 := by
  have follows := References.follows_walk registry.references other
  split
  · next same =>
    subst same
    exact List.count_eq_one_of_mem (follows.called_nodup (by simp)).1 follows.mem_called
  · next different =>
    apply List.count_eq_zero_of_not_mem
    intro isCalled
    rcases follows.given_of_called isCalled with same | ⟨source, other, gives⟩
    · exact different same
    · exact unshared source other gives

/-! ## What is kept while references are used -/

theorem invariant_count_of_settled (id : NodeId) (count : Nat) :
    Invariant fun _ registry => registry.isSettled id = true ∧ registry.calls.count id = count where
  reports := fun _ _ _ _ holds => holds
  opens := by
    rintro _ registry other fresh _ ⟨settled, rfl⟩
    refine ⟨settled, ?_⟩
    rw [count_noteCalls, count_walk_of_settled settled fresh, Nat.zero_add]
  closes := by
    rintro _ registry other _ ⟨settled, same⟩
    exact ⟨by rw [isSettled_record, settled, Bool.true_or], same⟩

theorem invariant_count_le (id : NodeId) :
    Invariant fun opening registry =>
      registry.calls.count id ≤ registry.references.resolved.length + opening.length where
  reports := fun _ _ _ _ holds => holds
  opens := by
    intro opening registry other _ _ holds
    have once : (registry.references.walk other).called.count id ≤ 1 := registry.count_walk_le other
    rw [count_noteCalls, List.length_cons]
    change _ ≤ registry.references.resolved.length + (opening.length + 1)
    omega
  closes := by
    intro opening registry other _ holds
    rw [List.length_cons] at holds
    change registry.calls.count id ≤ registry.references.resolved.length + 1 + opening.length
    omega

theorem invariant_count_of_unshared (id : NodeId) :
    Invariant fun opening registry => registry.references.Unshared id ∧
      registry.calls.count id = if registry.isSettled id = true ∨ id ∈ opening then 1 else 0 where
  reports := fun _ _ _ _ holds => holds
  opens := by
    rintro opening registry other fresh isNew ⟨unshared, counts⟩
    refine ⟨unshared, ?_⟩
    rw [count_noteCalls, count_walk_of_unshared unshared, counts, isSettled_noteCalls]
    by_cases same : id = other
    · subst same
      simp [isSettled, fresh, isNew]
    · simp [same]
  closes := by
    rintro opening registry other _ ⟨unshared, counts⟩
    refine ⟨unshared, ?_⟩
    change registry.calls.count id = _
    rw [counts, isSettled_record]
    by_cases same : id = other <;> simp [same]

/-- As far as calls and records are concerned, every step uses references. -/
theorem Moves.exists_uses {step : Step} (moves : before.Moves step after) :
    ∃ used : Registry, before.Uses used ∧ after.calls = used.calls ∧
      after.references.resolved = used.references.resolved ∧
      after.reentered = used.reentered := by
  cases moves with
  | uses _ uses => exact ⟨after, uses, rfl, rfl, rfl⟩
  | @compiles _ _ schema events _ =>
      obtain ⟨_, _, compiled⟩ | ⟨_, reported, further, compiled⟩ := before.compile_cases schema
      · rw [compiled]
        exact ⟨before, .refl, rfl, rfl, rfl⟩
      · rw [compiled]
        exact ⟨reported, (before.uses_absorb _).trans further, rfl, rfl, rfl⟩
  | defines name draft events =>
      rw [before.define_eq name draft]
      exact ⟨before, .refl, rfl, rfl, rfl⟩

end Registry

namespace Session

open Registry

variable {session : Session} {id : NodeId}

/-- A step calls the factory of a settled reference no more. -/
theorem count_reply_of_settled (settled : session.registry.isSettled id = true) (step : Step) :
    (session.reply step).2.registry.isSettled id = true ∧
      (session.reply step).2.registry.calls.count id = session.registry.calls.count id := by
  obtain ⟨used, uses, sameCalls, sameRecords, _⟩ := (session.reply_moves step).exists_uses
  rw [isSettled, sameCalls, sameRecords]
  exact (invariant_count_of_settled id _).uses uses ⟨settled, rfl⟩

theorem count_run_of_settled (settled : session.registry.isSettled id = true) (steps : List Step) :
    (session.run steps).2.registry.calls.count id = session.registry.calls.count id := by
  induction steps generalizing session with
  | nil => rfl
  | cons step rest ih =>
      obtain ⟨stillSettled, same⟩ := count_reply_of_settled settled step
      rw [run_cons]
      exact (ih stillSettled).trans same

theorem count_run_le (steps : List Step)
    (start : session.registry.calls.count id ≤ session.registry.references.resolved.length) :
    (session.run steps).2.registry.calls.count id ≤
      (session.run steps).2.registry.references.resolved.length := by
  induction steps generalizing session with
  | nil => exact start
  | cons step rest ih =>
      obtain ⟨used, uses, sameCalls, sameRecords, _⟩ := (session.reply_moves step).exists_uses
      have next := (invariant_count_le id).uses uses start
      rw [← sameCalls, ← sameRecords] at next
      rw [run_cons]
      exact ih next

theorem count_run_of_unshared (steps : List Step)
    (unshared : Throughout (fun session _ => session.registry.references.Unshared id) session steps)
    (start : session.registry.calls.count id = if session.registry.isSettled id then 1 else 0) :
    (session.run steps).2.registry.calls.count id =
      if (session.run steps).2.registry.isSettled id then 1 else 0 := by
  induction steps generalizing session with
  | nil => exact start
  | cons step rest ih =>
      obtain ⟨now, later⟩ := unshared
      obtain ⟨used, uses, sameCalls, sameRecords, _⟩ := (session.reply_moves step).exists_uses
      have next := ((invariant_count_of_unshared id).uses uses ⟨now, by simpa using start⟩).2
      simp only [List.not_mem_nil, or_false, isSettled, ← sameCalls, ← sameRecords] at next
      rw [run_cons]
      exact ih later next

/-- How often a factory is called.  Once a reference has been settled, its factory is not called
again, and the result that was recorded stays for ever.  Before that it is called for no more
references than have been settled.  It is called once at most if no other factory gives the
reference, and then exactly if the reference has been settled. -/
theorem calls_of_run (listening : Option Level) (before after : List Step) (id : NodeId) :
    let session := ((start listening).run before).2
    let later := (session.run after).2
    (session.registry.isSettled id = true →
      later.registry.calls.count id = session.registry.calls.count id ∧
        later.registry.references.resolved.lookup id =
          session.registry.references.resolved.lookup id) ∧
      session.registry.calls.count id ≤ session.registry.references.resolved.length ∧
      (Throughout (fun session _ => session.registry.references.Unshared id) (start listening)
          before →
        session.registry.calls.count id = if session.registry.isSettled id then 1 else 0) := by
  intro session later
  refine ⟨fun settled => ⟨count_run_of_settled settled after, ?_⟩,
    count_run_le before (Nat.zero_le _), fun unshared => count_run_of_unshared before unshared rfl⟩
  obtain ⟨result, found⟩ := Option.isSome_iff_exists.mp settled
  obtain ⟨nodes, sound⟩ := sound_of_run listening before
  rw [found]
  exact (session.run_preserves after nodes sound).2 id result found

/-- The factory of one reference is called twice and gives something else the second time: first for
a reference that leads through it, and again when it is settled itself. -/
theorem calls_twice :
    let before : List Step :=
      [.define "text" (.word "string"), .define "inner" (.named "text"),
        .define "outer" (.named "inner"), .check "outer" (some (.string "a")) none, .calls]
    let after : List Step :=
      [.define "text" (.word "number"), .check "inner" (some (.string "a")) none, .calls]
    ((start none).run before).2.registry.calls.count 2 = 1 ∧
      ((start none).run (before ++ after)).2.registry.calls.count 2 = 2 ∧
      ((start none).run (before ++ after)).1.map Reply.answer =
        [.defined, .defined, .defined, .verdict true, .calls [("text", 1), ("inner", 1)],
          .defined, .verdict false, .calls [("text", 2), ("inner", 1)]] := by
  decide +kernel

end Session

end Assay
