import Assay.Proofs.Session
import Mathlib.Data.List.Nodup

/-!
# Routines that are assembled once

A registry keeps one result for every node that was compiled, an error included, and never replaces
it.  The results are kept in the order of their assembly, so a routine bears the number of results
that had been kept before it.  That tells the routines of different nodes apart, and it ties the
reports on assemblies to the nodes: whoever listens is told of every node once, when the step is
taken that compiles it first.

It does not matter for this how the compiled schemas overlap.  Lowering goes through the parts of a
schema and through what its references lead to, but it keeps a routine for the node only with which
it began.
-/

namespace Assay

/-- Whether an event reports an assembly. -/
def Event.isAssembly : Event → Bool
  | .compiled _ _ | .notCompilable _ _ => true
  | _ => false

namespace Registry

variable {registry before after : Registry} {schema : Schema} {id other : NodeId}
  {result : Except CompileError Routine}

/-! ## The kept results -/

/-- Every node has one result, and a routine is numbered by the results that were kept before it.
The results are given latest first. -/
inductive Numbered : List (NodeId × Except CompileError Routine) → Prop where
  | nil : Numbered []
  | cons {earlier : List (NodeId × Except CompileError Routine)} {id : NodeId}
      {result : Except CompileError Routine} :
      earlier.lookup id = none →
      (∀ routine, result = .ok routine → routine.serial = earlier.length) →
      Numbered earlier → Numbered ((id, result) :: earlier)

namespace Numbered

variable {routines : List (NodeId × Except CompileError Routine)} {routine another : Routine}

theorem nodup (numbered : Numbered routines) : (routines.map (·.1)).Nodup := by
  induction numbered with
  | nil => exact List.nodup_nil
  | cons fresh _ _ ih =>
      rw [List.map_cons, List.nodup_cons]
      refine ⟨fun member => ?_, ih⟩
      obtain ⟨entry, inEarlier, same⟩ := List.mem_map.mp member
      simpa [same] using List.lookup_eq_none_iff.mp fresh entry inEarlier

theorem serial_lt (numbered : Numbered routines) (found : routines.lookup id = some (.ok routine)) :
    routine.serial < routines.length := by
  induction numbered with
  | nil => cases found
  | cons fresh isNumber _ ih =>
      rw [List.lookup_cons] at found
      rw [List.length_cons]
      split at found
      · rw [isNumber routine (Option.some.inj found)]
        exact Nat.lt_succ_self _
      · exact Nat.lt_succ_of_lt (ih found)

/-- Routines of the same number are kept for the same node. -/
theorem eq_of_serial_eq (numbered : Numbered routines)
    (found : routines.lookup id = some (.ok routine))
    (alsoFound : routines.lookup other = some (.ok another))
    (same : routine.serial = another.serial) : id = other := by
  induction numbered with
  | nil => cases found
  | cons fresh isNumber further ih =>
      rw [List.lookup_cons] at found alsoFound
      split at found
      · next isFirst =>
        split at alsoFound
        · next alsoFirst => exact (eq_of_beq isFirst).trans (eq_of_beq alsoFirst).symm
        · have number := isNumber routine (Option.some.inj found)
          have smaller := further.serial_lt alsoFound
          omega
      · split at alsoFound
        · have number := isNumber another (Option.some.inj alsoFound)
          have smaller := further.serial_lt found
          omega
        · exact ih found alsoFound

end Numbered

/-- The results that are kept are numbered, and all assemblies have been counted. -/
structure Catalogued (registry : Registry) : Prop where
  numbered : Numbered registry.routines
  counted : registry.assembled = registry.routines.length

theorem Catalogued.initial (listening : Option Level) :
    ({ listening } : Registry).Catalogued :=
  ⟨.nil, rfl⟩

theorem Catalogued.uses (catalogued : before.Catalogued) (uses : before.Uses after) :
    after.Catalogued := by
  refine ⟨?_, ?_⟩
  · rw [uses.settles.routines]
    exact catalogued.numbered
  · rw [uses.frame.2, uses.settles.routines]
    exact catalogued.counted

/-- A result for a node that has none is numbered in its turn. -/
theorem Catalogued.keeping (catalogued : registry.Catalogued)
    (fresh : registry.routines.lookup id = none) (lowered : Except CompileError Code) :
    (registry.keeping id lowered).Catalogued := by
  refine ⟨.cons fresh ?_ catalogued.numbered, ?_⟩
  · intro routine assembled
    cases lowered with
    | error cause => cases assembled
    | ok code =>
        cases assembled
        exact catalogued.counted
  · exact congrArg (· + 1) catalogued.counted

/-- The schema has been compiled with a result, and the result is kept for its node. -/
def Remembers (registry : Registry) (schema : Schema) (result : Except CompileError Compiled) :
    Prop :=
  ∃ kept, registry.routines.lookup schema.id = some kept ∧
    result = kept.map fun routine => { routine, schema }

theorem Remembers.of_ok {compiled : Compiled}
    (remembers : registry.Remembers schema (.ok compiled)) :
    compiled.schema = schema ∧
      registry.routines.lookup schema.id = some (.ok compiled.routine) := by
  obtain ⟨_ | routine, found, result⟩ := remembers
  · cases result
  · cases result
    exact ⟨rfl, found⟩

theorem remembers_compile (registry : Registry) (schema : Schema) :
    (registry.compile schema).2.Remembers schema (registry.compile schema).1 := by
  obtain ⟨kept, found, compiled⟩ | ⟨_, _, _, compiled⟩ := registry.compile_cases schema
  · rw [compiled]
    exact ⟨kept, found, rfl⟩
  · rw [compiled]
    exact ⟨_, List.lookup_cons_self, rfl⟩

/-- What was compiled from the same node has the same result. -/
theorem Remembers.result_eq {nodes : Nodes} {first second : Schema × Except CompileError Compiled}
    (remembers : registry.Remembers first.1 first.2)
    (alsoRemembers : registry.Remembers second.1 second.2)
    (filed : first.1.Filed nodes registry.nextId) (alsoFiled : second.1.Filed nodes registry.nextId)
    (same : first.1.isSameNode second.1 = true) : second = first := by
  obtain ⟨kept, found, result⟩ := remembers
  obtain ⟨alsoKept, alsoFound, alsoResult⟩ := alsoRemembers
  have sameId : first.1.id = second.1.id := eq_of_beq same
  have sameSchema : second.1 = first.1 := by rw [← filed.same, sameId, alsoFiled.same]
  have sameKept : alsoKept = kept := Option.some.inj (by rw [← alsoFound, ← sameId, found])
  apply Prod.ext sameSchema
  rw [alsoResult, result, sameKept, sameSchema]

/-- Routines are the same exactly if they were compiled from the same node. -/
theorem Catalogued.isSameRoutine_eq (catalogued : registry.Catalogued) {another : Schema}
    {left right : Compiled} (remembers : registry.Remembers schema (.ok left))
    (alsoRemembers : registry.Remembers another (.ok right)) :
    left.isSameRoutine right = left.schema.isSameNode right.schema := by
  obtain ⟨rfl, leftFound⟩ := remembers.of_ok
  obtain ⟨rfl, rightFound⟩ := alsoRemembers.of_ok
  rw [Bool.eq_iff_iff, Compiled.isSameRoutine, Schema.isSameNode, beq_iff_eq, beq_iff_eq]
  constructor
  · exact catalogued.numbered.eq_of_serial_eq leftFound rightFound
  · intro sameId
    rw [sameId, rightFound] at leftFound
    exact congrArg Routine.serial (Except.ok.inj (Option.some.inj leftFound)).symm

/-- What is known about nodes, by identity and by routine, is known ever after. -/
structure Retains (nodes : Nodes) (before : Registry) (later : Nodes) (after : Registry) :
    Prop where
  consistent : after.Consistent later
  catalogued : after.Catalogued
  filed : ∀ schema : Schema, schema.Filed nodes before.nextId → schema.Filed later after.nextId
  kept : ∀ id result, before.routines.lookup id = some result →
    after.routines.lookup id = some result

theorem Retains.trans {nodes between later : Nodes} {middle : Registry}
    (first : before.Retains nodes between middle) (second : middle.Retains between later after) :
    before.Retains nodes later after where
  consistent := second.consistent
  catalogued := second.catalogued
  filed := fun schema filed => second.filed schema (first.filed schema filed)
  kept := fun id result found => second.kept id result (first.kept id result found)

/-- A step retains what is known about nodes. -/
theorem Moves.retains {step : Step} {nodes : Nodes} (moves : before.Moves step after)
    (consistent : before.Consistent nodes) (catalogued : before.Catalogued) :
    ∃ later, before.Retains nodes later after := by
  cases moves with
  | uses _ uses =>
      refine ⟨nodes, consistent.settles uses.settles, catalogued.uses uses, ?_, ?_⟩
      · rw [uses.settles.nextId]
        exact fun _ filed => filed
      · rw [uses.settles.routines]
        exact fun _ _ found => found
  | @compiles _ _ schema events _ =>
      obtain ⟨_, _, compiled⟩ | ⟨fresh, reported, further, compiled⟩ := before.compile_cases schema
      · rw [compiled]
        exact ⟨nodes, consistent.settles (.heard before events),
          catalogued.uses (.single (.hear events)), fun _ filed => filed, fun _ _ found => found⟩
      · rw [compiled]
        have uses : before.Uses reported := (before.uses_absorb _).trans further
        have stays := consistent.settles uses.settles
        rw [← uses.settles.routines] at fresh
        have keeps := (catalogued.uses uses).keeping fresh (schema.lower before.references).result
        refine ⟨nodes, (stays.keeping schema.id _).settles (.heard _ events),
          ⟨keeps.numbered, keeps.counted⟩, fun _ filed => uses.settles.nextId ▸ filed, ?_⟩
        intro id result found
        have different : (id == schema.id) = false := by
          rw [beq_eq_false_iff_ne]
          rintro rfl
          rw [uses.settles.routines, found] at fresh
          cases fresh
        rw [← uses.settles.routines] at found
        simpa only [keeping, List.lookup_cons, different] using found
  | defines name draft events =>
      obtain ⟨later, grows, stays⟩ := consistent.define name draft
      refine ⟨later, stays.settles (.heard _ events), ?_, fun _ filed => grows.filed filed, ?_⟩
      · rw [before.define_eq name draft]
        exact ⟨catalogued.numbered, catalogued.counted⟩
      · intro id result found
        rw [← grows.routines] at found
        exact found

/-! ## Reports on assemblies -/

theorem filter_events_absorb (registry : Registry) (journal : Journal) :
    (registry.absorb journal).events.filter Event.isAssembly =
      registry.events.filter Event.isAssembly := by
  induction journal generalizing registry with
  | nil => rfl
  | cons notice rest ih =>
      refine (ih _).trans ?_
      cases notice with
      | used id =>
          apply filter_events_settle
          intro event ends
          cases event with
          | resolved | cycleDetected => rfl
          | depthExceeded | compiled | notCompilable => cases ends
      | depthExceeded limit path => exact filter_events_report rfl registry

/-- An assembly is reported once, to whoever listens closely enough. -/
theorem exists_filter_events_assemble (registry : Registry) (schema : Schema) :
    ∃ event, (registry.assemble schema).2.events.filter Event.isAssembly =
      (if registry.isSeen .debug then [event] else []) ++
        registry.events.filter Event.isAssembly := by
  let lowering := schema.lower registry.references
  let lowered := registry.absorb (.ofMentions lowering.used)
  let event := assemblyEvent lowering.result (schema.describe lowered.target)
  have isReport (description : String) :
      (assemblyEvent lowering.result description).level = .debug ∧
        (assemblyEvent lowering.result description).isAssembly = true := by
    cases lowering.result <;> exact ⟨rfl, rfl⟩
  have absorbed : lowered.events.filter Event.isAssembly =
      registry.events.filter Event.isAssembly := registry.filter_events_absorb _
  have sameSight : lowered.isSeen .debug = registry.isSeen .debug := (registry.uses_absorb _).isSeen _
  have reports : (registry.assemble schema).2.events =
      (if lowered.isSeen .debug then [event] else []) ++ lowered.events :=
    events_reportDescribed none schema fun description => (isReport description).1
  refine ⟨event, ?_⟩
  rw [reports, List.filter_append, absorbed, sameSight]
  split
  · rw [List.filter_cons_of_pos (isReport _).2, List.filter_nil]
  · rfl

/-- The nodes are assembled, in order, for which a result is kept that was not kept before. -/
def Assembles (before after : Registry) (nodes : List NodeId) : Prop :=
  after.routines.map (·.1) = nodes.reverse ++ before.routines.map (·.1)

theorem Assembles.trans {middle : Registry} {first second : List NodeId}
    (assembles : before.Assembles middle first) (further : middle.Assembles after second) :
    before.Assembles after (first ++ second) := by
  rw [Assembles] at assembles further ⊢
  rw [further, assembles, List.reverse_append, List.append_assoc]

/-- Compiling a schema assembles its node at most, and reports that if it does. -/
theorem compile_assembles (silent : registry.events = []) (schema : Schema) :
    ∃ nodes, registry.Assembles (registry.compile schema).2 nodes ∧
      ((registry.compile schema).2.events.filter Event.isAssembly).map (fun _ => some schema.id) =
        if registry.isSeen .debug then nodes.map some else [] := by
  rw [compile]
  cases registry.routines.lookup schema.id with
  | some kept =>
      refine ⟨[], rfl, ?_⟩
      simp [silent]
  | none =>
      obtain ⟨reported, further, assembled⟩ := registry.assemble_eq schema
      have routines := ((registry.absorb_settles _).trans further.settles).routines
      obtain ⟨event, reports⟩ := registry.exists_filter_events_assemble schema
      refine ⟨[schema.id], ?_, ?_⟩
      · simp only [assembled, Assembles, keeping, List.map_cons, routines]
        rfl
      · simp only [reports, silent, List.filter_nil, List.append_nil]
        split <;> rfl

end Registry

namespace Session

open Registry

/-- The schema that a step compiles, and the result. -/
def compilation? (session : Session) : Step → Option (Schema × Except CompileError Compiled)
  | .compile name _ =>
      (session.registry.references.bindings.lookup name).map fun schema =>
        (schema, (session.registry.compile schema).1)
  | _ => none

/-- The schemas that are compiled in a run, each with its result. -/
def compilations : Session → List Step → List (Schema × Except CompileError Compiled)
  | _, [] => []
  | session, step :: rest =>
      (session.compilation? step).toList ++ compilations (session.reply step).2 rest

/-- The reports on assemblies in a run, each with the node that is compiled in the step. -/
def assemblies : Session → List Step → List (Option NodeId × Event)
  | _, [] => []
  | session, step :: rest =>
      ((session.reply step).1.events.filter Event.isAssembly).map
          (((session.compilation? step).map (·.1.id)), ·) ++
        assemblies (session.reply step).2 rest

/-- What is compiled is remembered. -/
theorem remembers_of_compilation? {session : Session} {step : Step} {nodes : Nodes}
    (consistent : session.registry.Consistent nodes)
    {entry : Schema × Except CompileError Compiled}
    (compiled : session.compilation? step = some entry) :
    entry.1.Filed nodes session.registry.nextId ∧
      (session.reply step).2.registry.Remembers entry.1 entry.2 := by
  cases step with
  | compile name routineName =>
      obtain ⟨schema, bound, rfl⟩ := Option.map_eq_some_iff.mp compiled
      refine ⟨consistent.bindings name schema bound, ?_⟩
      have remembers := session.registry.remembers_compile schema
      simp only [reply, take, withSchema, bound]
      generalize session.registry.compile schema = outcome at remembers ⊢
      obtain ⟨_ | _, after⟩ := outcome <;> exact remembers
  | _ => cases compiled

/-- A run retains what is known about nodes, and remembers all that is compiled. -/
theorem run_retains {session : Session} {nodes : Nodes} (steps : List Step)
    (consistent : session.registry.Consistent nodes) (catalogued : session.registry.Catalogued) :
    ∃ later, session.registry.Retains nodes later (session.run steps).2.registry ∧
      ∀ entry ∈ session.compilations steps,
        entry.1.Filed later (session.run steps).2.registry.nextId ∧
          (session.run steps).2.registry.Remembers entry.1 entry.2 := by
  induction steps generalizing session nodes with
  | nil =>
      refine ⟨nodes, ⟨consistent, catalogued, fun _ filed => filed, fun _ _ found => found⟩, ?_⟩
      intro entry impossible
      cases impossible
  | cons step rest ih =>
      obtain ⟨between, first⟩ := (session.reply_moves step).retains consistent catalogued
      obtain ⟨later, further, remembered⟩ := ih first.consistent first.catalogued
      rw [run_cons]
      refine ⟨later, first.trans further, ?_⟩
      intro entry member
      rcases List.mem_append.mp member with now | afterwards
      · obtain ⟨filed, kept, found, result⟩ :=
          remembers_of_compilation? consistent (Option.mem_toList.mp now)
        exact ⟨further.filed _ (first.filed _ filed), kept, further.kept _ _ found, result⟩
      · exact remembered entry afterwards

/-- A step reports the nodes that are assembled in it, to whoever listens closely enough. -/
theorem reply_assembles {session : Session} (silent : session.registry.events = []) (step : Step) :
    ∃ nodes, session.registry.Assembles (session.reply step).2.registry nodes ∧
      ((session.reply step).1.events.filter Event.isAssembly).map
          (fun _ => (session.compilation? step).map (·.1.id)) =
        if session.registry.isSeen .debug then nodes.map some else [] := by
  have effect := session.take_effect step
  -- All reports of a step are about one node, so their order does not matter.
  simp only [reply, withRegistry, List.filter_reverse, List.map_const', List.length_reverse]
  generalize (session.take step).2.registry = after at effect ⊢
  cases effect with
  | absorbs journal noDefinition =>
      refine ⟨[], congrArg _ (session.registry.absorb_settles journal).routines, ?_⟩
      rw [session.registry.filter_events_absorb, silent]
      simp
  | @compiles name _ schema bound =>
      obtain ⟨nodes, assembles, reports⟩ := compile_assembles silent schema
      refine ⟨nodes, assembles, ?_⟩
      simpa only [compilation?, bound, Option.map_some, List.map_const'] using reports
  | defines name draft =>
      rw [session.registry.define_eq name draft]
      refine ⟨[], rfl, ?_⟩
      simp [grounded, silent]

/-- A run reports the nodes that are assembled in it, to whoever listens closely enough. -/
theorem run_assembles {session : Session} (silent : session.registry.events = [])
    (steps : List Step) :
    ∃ nodes, session.registry.Assembles (session.run steps).2.registry nodes ∧
      (session.assemblies steps).map (·.1) =
        if session.registry.isSeen .debug then nodes.map some else [] := by
  induction steps generalizing session with
  | nil => exact ⟨[], rfl, by simp [assemblies]⟩
  | cons step rest ih =>
      obtain ⟨now, assembles, reports⟩ := reply_assembles silent step
      have silentAfter : (session.reply step).2.registry.events = [] := rfl
      obtain ⟨afterwards, further, reportsFurther⟩ := ih silentAfter
      rw [run_cons]
      refine ⟨now ++ afterwards, assembles.trans further, ?_⟩
      rw [(session.reply_moves step).isSeen] at reportsFurther
      have both : (session.assemblies (step :: rest)).map (·.1) =
          ((session.reply step).1.events.filter Event.isAssembly).map
              (fun _ => (session.compilation? step).map (·.1.id)) ++
            (assemblies (session.reply step).2 rest).map (·.1) := by
        rw [assemblies, List.map_append, List.map_map]
        rfl
      rw [both, reports, reportsFurther]
      split
      · exact List.map_append.symm
      · rfl

/-- Compilation is cached for each node.  Of all schemas that are compiled in a session, whichever
way they overlap and whatever is bound, asked or compiled in between, two that are the same node
have the same result, be it a routine or an error, and two routines are the same exactly if they
were compiled from the same node.  Each node is assembled once, and whoever listens is told so at
most once, in a step that compiles it. -/
theorem compiled_once_per_node (listening : Option Level) (steps : List Step) :
    let session := ((start listening).run steps).2
    let results := (start listening).compilations steps
    let reported := (start listening).assemblies steps
    (∀ first ∈ results, ∀ second ∈ results,
      (first.1.isSameNode second.1 = true → second = first) ∧
      ∀ left right, first.2 = .ok left → second.2 = .ok right →
        left.schema = first.1 ∧ left.isSameRoutine right = left.schema.isSameNode right.schema) ∧
    ((session.registry.routines.map (·.1)).Nodup ∧
      session.registry.assembled = session.registry.routines.length) ∧
    (reported.map (·.1)).Nodup ∧ ∀ report ∈ reported, report.1.isSome := by
  intro session results reported
  have silent : (start listening).registry.events = [] := rfl
  have consistent : (start listening).registry.Consistent fun _ => .literal 0 .null :=
    .initial _ listening
  obtain ⟨nodes, retains, remembered⟩ := run_retains steps consistent (.initial listening)
  obtain ⟨assembled, assembles, reports⟩ := run_assembles silent steps
  have numbered := retains.catalogued.numbered
  have once : assembled.Nodup := by
    have nodup := numbered.nodup
    rw [assembles] at nodup
    simpa [start] using nodup
  refine ⟨?_, ⟨numbered.nodup, retains.catalogued.counted⟩, ?_, ?_⟩
  · intro first isFirst second isSecond
    obtain ⟨filed, remembersFirst⟩ := remembered first isFirst
    obtain ⟨alsoFiled, remembersSecond⟩ := remembered second isSecond
    refine ⟨remembersFirst.result_eq remembersSecond filed alsoFiled, ?_⟩
    intro left right leftDone rightDone
    rw [leftDone] at remembersFirst
    rw [rightDone] at remembersSecond
    exact ⟨remembersFirst.of_ok.1,
      retains.catalogued.isSameRoutine_eq remembersFirst remembersSecond⟩
  · rw [reports]
    split
    · exact once.map fun _ _ => Option.some.inj
    · exact List.nodup_nil
  · intro report member
    have isReported : report.1 ∈ reported.map (·.1) := List.mem_map_of_mem member
    rw [reports] at isReported
    split at isReported
    · obtain ⟨node, _, same⟩ := List.mem_map.mp isReported
      rw [← same, Option.isSome_some]
    · cases isReported

/-- Two linked lists that look alike are compiled, and the first one again by another name, after its
own name has been bound to something else. -/
theorem compiled_once_per_node_of_lists :
    let steps : List Step :=
      [.define "list" (.object [("rest", .named "list")]),
        .define "twin" (.object [("rest", .named "twin")]),
        .define "other" (.bound "list"), .compile "list" "first", .compile "twin" "second",
        .define "list" (.word "string"), .compile "other" "third"]
    let results := (start (some .debug)).compilations steps
    let reported := (start (some .debug)).assemblies steps
    (replies? (some .debug) steps).isSome = true ∧
    ∃ list twin again left right, results = [list, twin, again] ∧
      list.2 = .ok left ∧ twin.2 = .ok right ∧
      again = list ∧ left.isSameRoutine right = false ∧
      reported.map (·.1) = [some 2, some 4] ∧ (reported.map (·.1)).Nodup := by
  intro steps results reported
  obtain ⟨cached, _, once, _⟩ := compiled_once_per_node (some .debug) steps
  have done : ∀ entry ∈ results, ∃ compiled, entry.2 = .ok compiled := by
    have allDone : results.all (·.2.isOk) = true := by decide +kernel
    intro entry member
    have isDone := List.all_eq_true.mp allDone entry member
    generalize entry.2 = result at isDone ⊢
    cases result with
    | ok compiled => exact ⟨compiled, rfl⟩
    | error cause => cases isDone
  have ids : results.map (·.1.id) = [2, 4, 2] := by decide +kernel
  have nodes : reported.map (·.1) = [some 2, some 4] := by decide +kernel
  obtain ⟨list, twin, again, equal⟩ : ∃ list twin again, results = [list, twin, again] :=
    List.length_eq_three.mp (by rw [← List.length_map, ids]; rfl)
  have members : list ∈ results ∧ twin ∈ results ∧ again ∈ results := by simp [equal]
  obtain ⟨isList, isTwin, isAgain⟩ := members
  obtain ⟨left, leftDone⟩ := done list isList
  obtain ⟨right, rightDone⟩ := done twin isTwin
  rw [equal, List.map_cons, List.map_cons, List.map_singleton] at ids
  injection ids with listId rest
  injection rest with twinId rest
  injection rest with againId _
  refine ⟨by decide +kernel, list, twin, again, left, right, equal, leftDone, rightDone, ?_, ?_, nodes, once⟩
  · exact (cached list isList again isAgain).1 (beq_iff_eq.mpr (listId.trans againId.symm))
  · obtain ⟨leftFrom, same⟩ := (cached list isList twin isTwin).2 left right leftDone rightDone
    obtain ⟨rightFrom, _⟩ := (cached twin isTwin twin isTwin).2 right right rightDone rightDone
    rw [same, leftFrom, rightFrom, Schema.isSameNode, listId, twinId]
    rfl

end Session

end Assay
