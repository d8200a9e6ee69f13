import Assay.Json.Reader

/-!
# Ordered values

The entries of an object are looked up by their key and also visited one after the other.  The two
agree because no key occurs twice, and the order of visits is that of the keys.  Both hold of every
value that is read from a text.
-/

namespace Assay

namespace Json

/-- The keys of every object inside a value are in ascending order, and none occurs twice. -/
inductive Ordered : Json → Prop where
  | null : Ordered .null
  | bool (value : Bool) : Ordered (.bool value)
  | number (value : Number) : Ordered (.number value)
  | string (value : String) : Ordered (.string value)
  | array {elements : List Json} : (∀ element ∈ elements, Ordered element) →
      Ordered (.array elements)
  | object {entries : List (String × Json)} : (entries.map (·.1)).Pairwise (· < ·) →
      (∀ entry ∈ entries, Ordered entry.2) → Ordered (.object entries)

/-- Every entry of an ordered object is found under its key. -/
theorem lookup_of_mem {entries : List (String × Json)}
    (ascending : (entries.map (·.1)).Pairwise (· < ·)) {entry : String × Json}
    (member : entry ∈ entries) : entries.lookup entry.1 = some entry.2 := by
  induction entries with
  | nil => cases member
  | cons first rest ih =>
      obtain ⟨least, restAscending⟩ := List.pairwise_cons.mp ascending
      rcases List.mem_cons.mp member with rfl | inRest
      · exact List.lookup_cons_self
      · have greater : first.1 < entry.1 := least entry.1 (List.mem_map_of_mem inRest)
        have different : entry.1 ≠ first.1 := fun same =>
          String.lt_irrefl first.1 (same ▸ greater)
        rw [List.lookup_cons, beq_eq_false_iff_ne.mpr different]
        exact ih restAscending inRest

theorem mem_insertEntry {key : String} {value : Json} {entries : List (String × Json)}
    {entry : String × Json} (member : entry ∈ insertEntry key value entries) :
    entry = (key, value) ∨ entry ∈ entries := by
  induction entries with
  | nil => simpa [insertEntry] using member
  | cons first rest ih =>
      rw [insertEntry] at member
      split at member
      · simpa using member
      · split at member
        · rcases List.mem_cons.mp member with same | inRest
          · exact .inl same
          · exact .inr (List.mem_cons_of_mem _ inRest)
        · rcases List.mem_cons.mp member with same | inserted
          · exact .inr (same ▸ List.mem_cons_self)
          · exact (ih inserted).imp_right (List.mem_cons_of_mem _)

theorem insertEntry_ascending {key : String} {value : Json} {entries : List (String × Json)}
    (ascending : (entries.map (·.1)).Pairwise (· < ·)) :
    ((insertEntry key value entries).map (·.1)).Pairwise (· < ·) := by
  induction entries with
  | nil => simp [insertEntry]
  | cons first rest ih =>
      obtain ⟨least, restAscending⟩ := List.pairwise_cons.mp ascending
      rw [insertEntry]
      split
      · next less =>
        refine List.pairwise_cons.mpr ⟨fun other member => ?_, ascending⟩
        rcases List.mem_cons.mp member with rfl | inRest
        · exact less
        · exact String.lt_trans less (least other inRest)
      · next notLess =>
        split
        · next same =>
          subst same
          exact List.pairwise_cons.mpr ⟨least, restAscending⟩
        · next different =>
          refine List.pairwise_cons.mpr ⟨fun other member => ?_, ih restAscending⟩
          obtain ⟨entry, inserted, rfl⟩ := List.mem_map.mp member
          rcases mem_insertEntry inserted with rfl | inRest
          · apply String.not_le.mp
            exact fun le => different (String.le_antisymm le (String.not_lt.mp notLess))
          · exact least _ (List.mem_map_of_mem inRest)

theorem ofEntries_ordered {entries : List (String × Json)}
    (each : ∀ entry ∈ entries, Ordered entry.2) : (ofEntries entries).Ordered := by
  have inserted : ∀ sorted : List (String × Json), (sorted.map (·.1)).Pairwise (· < ·) →
      (∀ entry ∈ sorted, Ordered entry.2) →
      Ordered (.object (entries.foldl
        (fun sorted entry => insertEntry entry.1 entry.2 sorted) sorted)) := by
    induction entries with
    | nil => exact fun sorted ascending parts => .object ascending parts
    | cons first rest ih =>
        intro sorted ascending parts
        apply ih (fun entry member => each entry (List.mem_cons_of_mem _ member))
        · exact insertEntry_ascending ascending
        · intro entry member
          rcases mem_insertEntry member with rfl | old
          · exact each first List.mem_cons_self
          · exact parts entry old
  exact inserted [] .nil (by simp)

/-! ## Values that are read -/

/-- The finished parts of an open container are ordered. -/
def Open.Ordered : Open → Prop
  | .array elements => ∀ element ∈ elements, Json.Ordered element
  | .object entries _ => ∀ entry ∈ entries, Json.Ordered entry.2

/-- What may come next holds ordered parts. -/
def Expected.Ordered : Expected → Prop
  | .key entries | .colon entries _ | .afterEntry entries => ∀ entry ∈ entries, Json.Ordered entry.2
  | .afterElement elements => ∀ element ∈ elements, Json.Ordered element
  | .nothing result => Json.Ordered result
  | .value | .firstElement | .firstKey => True

/-- Everything the reader has finished is ordered. -/
structure Reading.Ordered (reading : Reading) : Prop where
  stack : ∀ container ∈ reading.stack, container.Ordered
  expected : reading.expected.Ordered

theorem complete_ordered {stack : List Open} {value : Json}
    (containers : ∀ container ∈ stack, container.Ordered) (ordered : value.Ordered) :
    (Reading.complete stack value).Ordered := by
  rcases stack with _ | ⟨elements | ⟨entries, key⟩, rest⟩
  · exact ⟨by simp [Reading.complete], ordered⟩
  · have inner := containers _ List.mem_cons_self
    refine ⟨fun container member => containers container (List.mem_cons_of_mem _ member), ?_⟩
    intro element member
    rcases List.mem_cons.mp member with rfl | old
    · exact ordered
    · exact inner element old
  · have inner := containers _ List.mem_cons_self
    refine ⟨fun container member => containers container (List.mem_cons_of_mem _ member), ?_⟩
    intro entry member
    rcases List.mem_cons.mp member with rfl | old
    · exact ordered
    · exact inner entry old

theorem startValue?_ordered {stack : List Open} {token : Token} {reading : Reading}
    (containers : ∀ container ∈ stack, container.Ordered)
    (started : Reading.startValue? stack token = some reading) : reading.Ordered := by
  simp only [Reading.startValue?] at started
  split at started <;> cases started
  · exact complete_ordered containers .null
  · exact complete_ordered containers (.bool _)
  · exact complete_ordered containers (.number _)
  · exact complete_ordered containers (.string _)
  · exact ⟨containers, trivial⟩
  · exact ⟨containers, trivial⟩

theorem step?_ordered {before after : Reading} {token : Token} (ordered : before.Ordered)
    (stepped : before.step? token = some after) : after.Ordered := by
  obtain ⟨stack, expected⟩ := before
  obtain ⟨containers, parts⟩ := ordered
  have opened : ∀ container : Open, container.Ordered →
      ∀ other ∈ container :: stack, other.Ordered := by
    intro container inner other member
    rcases List.mem_cons.mp member with rfl | old
    · exact inner
    · exact containers other old
  simp only [Reading.step?] at stepped
  split at stepped
  · exact startValue?_ordered containers stepped
  · cases stepped
    exact complete_ordered containers (.array (by simp))
  · exact startValue?_ordered (opened (.array []) (by simp [Open.Ordered])) stepped
  · cases stepped
    exact complete_ordered containers (.object .nil (by simp))
  · cases stepped
    exact ⟨containers, by simp [Expected.Ordered]⟩
  · cases stepped
    exact ⟨containers, parts⟩
  · cases stepped
    exact ⟨opened (.object _ _) parts, trivial⟩
  · cases stepped
    exact ⟨opened (.array _) parts, trivial⟩
  · cases stepped
    refine complete_ordered containers (.array fun element member => ?_)
    exact parts element (List.mem_reverse.mp member)
  · cases stepped
    exact ⟨containers, parts⟩
  · cases stepped
    refine complete_ordered containers (ofEntries_ordered fun entry member => ?_)
    exact parts entry (List.mem_reverse.mp member)
  · cases stepped

/-- A value that is read from a text is ordered. -/
theorem parse?_ordered {text : String} {value : Json} (read : parse? text = some value) :
    value.Ordered := by
  simp only [parse?, Option.bind_eq_bind, Option.bind_eq_some_iff] at read
  obtain ⟨tokens, _, reading, steps, finished⟩ := read
  have kept : ∀ (tokens : List Token) (before after : Reading), before.Ordered →
      tokens.foldlM Reading.step? before = some after → after.Ordered := by
    intro tokens
    induction tokens with
    | nil =>
        intro before after ordered done
        cases done
        exact ordered
    | cons token rest ih =>
        intro before after ordered steps
        simp only [List.foldlM_cons, Option.bind_eq_bind, Option.bind_eq_some_iff] at steps
        obtain ⟨middle, stepped, steps⟩ := steps
        exact ih middle after (step?_ordered ordered stepped) steps
  have ordered := (kept tokens ⟨[], .value⟩ reading ⟨by simp, trivial⟩ steps).expected
  split at finished
  · next result same =>
    cases finished
    rw [same] at ordered
    exact ordered
  · cases finished

end Json

end Assay
