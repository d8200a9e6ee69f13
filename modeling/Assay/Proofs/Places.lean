import Assay.Routine.Expression
import Mathlib.Data.List.TakeDrop

/-!
# Texts of places

The text of a place can be read in one way only.  The base ends where the first step begins, a key
behind a dot ends at the first character that no identifier contains, and a position ends at its
bracket.  Any other key is quoted, and a quoted string says by itself where it ends: a quote inside
it is escaped, and no escape is the beginning of another one. -/

namespace Assay

/-! ## Quoted strings -/

namespace Json

/-- The characters that a quoted string escapes. -/
def escaped : List Char := '"' :: '\\' :: (List.range 32).map Char.ofNat

section Escapes

variable {char left right : Char} {leftRest rightRest : List Char}

theorem escapeChar_of_not_mem (plain : char ∉ escaped) : escapeChar char = [char] := by
  have printable : ¬ char.toNat < 32 := by
    intro control
    apply plain
    have isControl : char ∈ (List.range 32).map Char.ofNat :=
      List.mem_map.mpr ⟨char.toNat, List.mem_range.mpr control, Char.ofNat_toNat char⟩
    simp [escaped, isControl]
  unfold escapeChar
  split
  case h_8 => rw [if_neg printable]
  all_goals exact (plain (by decide)).elim

/-- An escape begins with a backslash, and nothing else does. -/
theorem head?_escapeChar_append (char : Char) (rest : List Char) :
    (escapeChar char ++ rest).head? = some (if char ∈ escaped then '\\' else char) := by
  have all : (escaped.all fun char => (escapeChar char).head? == some '\\') = true := by
    decide +kernel
  simp only [List.all_eq_true, beq_iff_eq] at all
  rw [List.head?_append]
  split
  · next special => rw [all char special, Option.some_or]
  · next plain => rw [escapeChar_of_not_mem plain, List.head?_cons, Option.some_or]

/-- No escape is the beginning of another one. -/
theorem eq_of_escapeChar_begins (isLeft : left ∈ escaped) (isRight : right ∈ escaped)
    (begins : escapeChar left <+: escapeChar right) : left = right := by
  have all : (escaped.all fun left => escaped.all fun right =>
      decide (escapeChar left <+: escapeChar right → left = right)) = true := by decide +kernel
  simp only [List.all_eq_true, decide_eq_true_eq] at all
  exact all left isLeft right isRight begins

/-- A character inside a quoted string says by itself where it ends. -/
theorem escapeChar_append_inj
    (same : escapeChar left ++ leftRest = escapeChar right ++ rightRest) :
    left = right ∧ leftRest = rightRest := by
  suffices equal : left = right by
    subst equal
    exact ⟨rfl, List.append_cancel_left same⟩
  have heads := congrArg List.head? same
  rw [head?_escapeChar_append, head?_escapeChar_append] at heads
  have backslash : '\\' ∈ escaped := by decide
  by_cases isLeft : left ∈ escaped <;> by_cases isRight : right ∈ escaped
  · have toLeft : escapeChar left <+: escapeChar left ++ leftRest := List.prefix_append _ _
    have toRight : escapeChar right <+: escapeChar left ++ leftRest :=
      same ▸ List.prefix_append _ _
    rcases List.prefix_or_prefix_of_prefix toLeft toRight with begins | begins
    · exact eq_of_escapeChar_begins isLeft isRight begins
    · exact (eq_of_escapeChar_begins isRight isLeft begins).symm
  · rw [if_pos isLeft, if_neg isRight, Option.some_inj] at heads
    exact (isRight (heads ▸ backslash)).elim
  · rw [if_neg isLeft, if_pos isRight, Option.some_inj] at heads
    exact (isLeft (heads ▸ backslash)).elim
  · rw [if_neg isLeft, if_neg isRight] at heads
    exact Option.some.inj heads

/-- No character inside a quoted string looks like the quote at its end. -/
theorem escapeChar_append_ne : escapeChar char ++ leftRest ≠ '"' :: rightRest := by
  intro same
  have heads := congrArg List.head? same
  rw [head?_escapeChar_append, List.head?_cons, Option.some_inj] at heads
  split at heads
  · cases heads
  · next plain => exact plain (heads ▸ by decide)

/-- A quoted string says by itself where it ends. -/
theorem quotedChars_append_inj {left right : List Char}
    (same : quotedChars left ++ leftRest = quotedChars right ++ rightRest) :
    left = right ∧ leftRest = rightRest := by
  simp only [quotedChars, List.cons_append, List.append_assoc, List.cons.injEq, true_and,
    List.nil_append] at same
  induction left generalizing right with
  | nil =>
      cases right with
      | nil => exact ⟨rfl, (List.cons.inj same).2⟩
      | cons char right =>
          rw [List.flatMap_cons, List.append_assoc] at same
          exact (escapeChar_append_ne same.symm).elim
  | cons char left ih =>
      cases right with
      | nil =>
          rw [List.flatMap_cons, List.append_assoc] at same
          exact (escapeChar_append_ne same).elim
      | cons other right =>
          rw [List.flatMap_cons, List.flatMap_cons, List.append_assoc, List.append_assoc] at same
          obtain ⟨rfl, further⟩ := escapeChar_append_inj same
          obtain ⟨rfl, ends⟩ := ih further
          exact ⟨rfl, ends⟩

end Escapes

end Json

/-! ## Places -/

/-- What stands before the first character that fails a test can be read off. -/
theorem append_inj_of_all {accepts : Char → Bool} {left right leftRest rightRest : List Char}
    (leftAll : ∀ char ∈ left, accepts char = true)
    (rightAll : ∀ char ∈ right, accepts char = true)
    (leftStops : ∀ char ∈ leftRest.head?, accepts char = false)
    (rightStops : ∀ char ∈ rightRest.head?, accepts char = false)
    (same : left ++ leftRest = right ++ rightRest) : left = right ∧ leftRest = rightRest := by
  have front {chars rest : List Char} (all : ∀ char ∈ chars, accepts char = true)
      (stops : ∀ char ∈ rest.head?, accepts char = false) :
      (chars ++ rest).takeWhile accepts = chars := by
    rw [List.takeWhile_append_of_pos all]
    cases rest with
    | nil => rw [List.takeWhile_nil, List.append_nil]
    | cons char rest =>
        rw [List.takeWhile_cons_of_neg (by simp [stops char rfl]), List.append_nil]
  have equal : left = right := by
    rw [← front leftAll leftStops, same, front rightAll rightStops]
  subst equal
  exact ⟨rfl, List.append_cancel_left same⟩

namespace Place

/-- Whether a character may stand in a base or behind a dot. -/
def isNameChar (char : Char) : Bool := char == '_' || char.isAlphanum

theorem isNameChar_of_mem_toDigits {number : Nat} {char : Char}
    (member : char ∈ Nat.toDigits 10 number) : isNameChar char = true := by
  have isDigit := Nat.isDigit_of_mem_toDigits (by decide) (by decide) member
  simp [isNameChar, Char.isAlphanum, isDigit]

theorem isNameChar_of_isIdentifier {key : List Char} (identifier : isIdentifier key = true) :
    ∀ char ∈ key, isNameChar char = true := by
  cases key with
  | nil => exact fun _ member => nomatch member
  | cons first rest =>
      rw [isIdentifier, Bool.and_eq_true, List.all_eq_true] at identifier
      obtain ⟨begins, goesOn⟩ := identifier
      refine List.forall_mem_cons.mpr ⟨?_, goesOn⟩
      rcases Bool.or_eq_true_iff.mp begins with underscore | letter
      · rw [isNameChar, underscore, Bool.true_or]
      · rw [isNameChar, Char.isAlphanum, letter, Bool.true_or, Bool.or_true]

theorem toDigits_inj {left right : Nat} (same : Nat.toDigits 10 left = Nat.toDigits 10 right) :
    left = right := by
  rw [← @Nat.ofDigitChars_ten_toDigits left, same, Nat.ofDigitChars_ten_toDigits]

/-- A position in brackets says by itself where it ends. -/
theorem toDigits_append_inj {left right : Nat} {leftRest rightRest : List Char}
    (same : Nat.toDigits 10 left ++ ']' :: leftRest = Nat.toDigits 10 right ++ ']' :: rightRest) :
    left = right ∧ leftRest = rightRest := by
  have stops {rest : List Char} : ∀ char ∈ (']' :: rest).head?, isNameChar char = false := by
    intro char isHead
    cases isHead
    decide
  obtain ⟨sameDigits, sameRest⟩ := append_inj_of_all (fun _ => isNameChar_of_mem_toDigits)
    (fun _ => isNameChar_of_mem_toDigits) stops stops same
  exact ⟨toDigits_inj sameDigits, (List.cons.inj sameRest).2⟩

/-- The three forms of a step in the text of a place. -/
inductive StepForm : Segment → List Char → Prop where
  | dotted (key : String) : isIdentifier key.toList = true →
      StepForm (.field key) ('.' :: key.toList)
  | quoted (key : String) : isIdentifier key.toList = false →
      StepForm (.field key) ('[' :: (Json.quotedChars key.toList ++ [']']))
  | indexed (position : Nat) :
      StepForm (.index position) ('[' :: (Nat.toDigits 10 position ++ [']']))

theorem stepForm (segment : Segment) : StepForm segment (stepText segment).toList := by
  cases segment with
  | field key =>
      cases identifier : isIdentifier key.toList with
      | true =>
          have form := StepForm.dotted key identifier
          simpa [stepText, identifier] using form
      | false =>
          have form := StepForm.quoted key identifier
          simpa [stepText, identifier, Json.quoted] using form
  | index position =>
      have form := StepForm.indexed position
      simpa [stepText, Nat.toString_eq_ofList_toDigits] using form

/-- What comes behind a base or a step: another step, or nothing. -/
def Opens (rest : List Char) : Prop := ∀ char ∈ rest.head?, char = '.' ∨ char = '['

theorem Opens.stops {rest : List Char} (opens : Opens rest) :
    ∀ char ∈ rest.head?, isNameChar char = false := by
  intro char isHead
  rcases opens char isHead with rfl | rfl <;> decide

section Sequences

variable {text : Segment → List Char} {left right : List Segment}

/-- The texts of steps open another step, whether or not there is one. -/
theorem opens_flatMap (begins : ∀ segment rest, Opens (text segment ++ rest))
    (steps : List Segment) : Opens (steps.flatMap text) := by
  cases steps with
  | nil => simp [Opens]
  | cons segment rest => exact begins segment _

/-- The texts of steps, one after another, can be read in one way only, if each of them says by
itself where it ends. -/
theorem eq_of_flatMap_eq (begins : ∀ segment rest, Opens (text segment ++ rest))
    (written : ∀ segment, text segment ≠ [])
    (ends : ∀ one ∈ left, ∀ other ∈ right, ∀ oneRest otherRest, Opens oneRest → Opens otherRest →
      text one ++ oneRest = text other ++ otherRest → one = other ∧ oneRest = otherRest)
    (same : left.flatMap text = right.flatMap text) : left = right := by
  have flatMap_cons_ne_nil (segment : Segment) (rest : List Segment) :
      (segment :: rest).flatMap text ≠ [] :=
    fun empty => written segment (List.append_eq_nil_iff.mp empty).1
  induction left generalizing right with
  | nil =>
      cases right with
      | nil => rfl
      | cons segment rest => exact (flatMap_cons_ne_nil segment rest same.symm).elim
  | cons segment rest ih =>
      cases right with
      | nil => exact (flatMap_cons_ne_nil segment rest same).elim
      | cons other others =>
          obtain ⟨sameStep, sameRest⟩ := ends segment List.mem_cons_self other List.mem_cons_self
            _ _ (opens_flatMap begins rest) (opens_flatMap begins others) same
          have sameSteps := ih (fun one inRest two inOthers =>
            ends one (List.mem_cons_of_mem _ inRest) two (List.mem_cons_of_mem _ inOthers)) sameRest
          rw [sameStep, sameSteps]

end Sequences

theorem StepForm.opens {segment : Segment} {chars : List Char} (form : StepForm segment chars)
    (rest : List Char) : Opens (chars ++ rest) := by
  cases form <;> simp [Opens]

theorem StepForm.ne_nil {segment : Segment} {chars : List Char} (form : StepForm segment chars) :
    chars ≠ [] := by
  cases form <;> simp

/-- A quoted key is not mistaken for a position. -/
theorem quotedChars_append_ne {key rest after : List Char} {position : Nat} :
    Json.quotedChars key ++ rest ≠ Nat.toDigits 10 position ++ after := by
  intro same
  cases digits : Nat.toDigits 10 position with
  | nil => exact Nat.toDigits_ne_nil digits
  | cons digit others =>
      rw [digits, Json.quotedChars, List.cons_append, List.cons_append] at same
      obtain ⟨rfl, _⟩ := List.cons.inj same
      have isName : isNameChar '"' = true :=
        isNameChar_of_mem_toDigits (digits ▸ List.mem_cons_self)
      exact absurd isName (by decide)

/-- A step says by itself where it ends, if another step or nothing comes behind it. -/
theorem StepForm.append_inj {left right : Segment} {leftChars rightChars : List Char}
    (leftForm : StepForm left leftChars) (rightForm : StepForm right rightChars)
    {leftRest rightRest : List Char} (leftOpens : Opens leftRest) (rightOpens : Opens rightRest)
    (same : leftChars ++ leftRest = rightChars ++ rightRest) :
    left = right ∧ leftRest = rightRest := by
  have bracketed (inside rest : List Char) :
      '[' :: (inside ++ [']']) ++ rest = '[' :: (inside ++ ']' :: rest) := by simp
  cases leftForm with
  | dotted key identifier =>
      cases rightForm with
      | dotted other otherIdentifier =>
          obtain ⟨sameKey, sameRest⟩ := append_inj_of_all (isNameChar_of_isIdentifier identifier)
            (isNameChar_of_isIdentifier otherIdentifier) leftOpens.stops rightOpens.stops
            (List.cons.inj same).2
          exact ⟨congrArg Segment.field (String.toList_injective sameKey), sameRest⟩
      | quoted | indexed => exact absurd (List.cons.inj same).1 (by decide)
  | quoted key =>
      cases rightForm with
      | dotted => exact absurd (List.cons.inj same).1 (by decide)
      | quoted other =>
          rw [bracketed, bracketed] at same
          obtain ⟨sameKey, sameRest⟩ := Json.quotedChars_append_inj (List.cons.inj same).2
          exact ⟨congrArg Segment.field (String.toList_injective sameKey),
            (List.cons.inj sameRest).2⟩
      | indexed position =>
          rw [bracketed, bracketed] at same
          exact (quotedChars_append_ne (List.cons.inj same).2).elim
  | indexed position =>
      cases rightForm with
      | dotted => exact absurd (List.cons.inj same).1 (by decide)
      | quoted other =>
          rw [bracketed, bracketed] at same
          exact (quotedChars_append_ne (List.cons.inj same).2.symm).elim
      | indexed other =>
          rw [bracketed, bracketed] at same
          obtain ⟨samePosition, sameRest⟩ := toDigits_append_inj (List.cons.inj same).2
          exact ⟨congrArg Segment.index samePosition, sameRest⟩

/-- The texts of steps, one after another. -/
def stepsChars (steps : List Segment) : List Char :=
  steps.flatMap fun segment => (stepText segment).toList

theorem opens_stepsChars (steps : List Segment) : Opens (stepsChars steps) :=
  opens_flatMap (fun segment => (stepForm segment).opens) steps

theorem stepsChars_injective : Function.Injective stepsChars := by
  intro left right same
  refine eq_of_flatMap_eq (fun segment => (stepForm segment).opens)
    (fun segment => (stepForm segment).ne_nil) ?_ same
  intro one _ other _ oneRest otherRest oneOpens otherOpens sameText
  exact (stepForm one).append_inj (stepForm other) oneOpens otherOpens sameText

/-- Writing steps behind a text one after another. -/
theorem toList_foldl_append (write : Segment → String) (steps : List Segment) (front : String) :
    (steps.foldl (fun text segment => text ++ write segment) front).toList =
      front.toList ++ steps.flatMap fun segment => (write segment).toList := by
  induction steps generalizing front with
  | nil => simp
  | cons segment rest ih => simp [ih]

theorem toList_text (place : Place) :
    place.text.toList = place.base.text.toList ++ stepsChars place.steps :=
  toList_foldl_append stepText place.steps place.base.text

theorem isNameChar_of_mem_text {base : Base} {char : Char} (member : char ∈ base.text.toList) :
    isNameChar char = true := by
  rcases base with _ | index
  · have all : Base.root.text.toList.all isNameChar = true := by decide
    exact List.all_eq_true.mp all char member
  · simp only [Base.text, Nat.toString_eq_ofList_toDigits, String.toList_append,
      String.toList_ofList] at member
    rcases List.mem_append.mp member with isLetter | inDigits
    · cases List.mem_singleton.mp isLetter
      decide
    · exact isNameChar_of_mem_toDigits inDigits

theorem base_text_injective : Function.Injective Base.text := by
  intro left right same
  have chars := congrArg String.toList same
  have isVariable (index : Nat) :
      (Base.variable index).text.toList = 'v' :: Nat.toDigits 10 index := by
    simp [Base.text]
  -- No variable is called `value`, since a digit follows the letter of a variable.
  have differs (index : Nat) : Base.root.text.toList ≠ (Base.variable index).text.toList := by
    intro same
    rw [isVariable] at same
    have inDigits : 'a' ∈ Nat.toDigits 10 index := (List.cons.inj same).2 ▸ (by decide)
    exact absurd (Nat.isDigit_of_mem_toDigits (by decide) (by decide) inDigits) (by decide)
  rcases left with _ | index <;> rcases right with _ | other
  · rfl
  · exact (differs other chars).elim
  · exact (differs index chars.symm).elim
  · rw [isVariable, isVariable] at chars
    exact congrArg Base.variable (toDigits_inj (List.cons.inj chars).2)

/-- The text of a place tells the base, and the keys and positions behind it. -/
theorem text_injective : Function.Injective Place.text := by
  intro left right same
  have chars := congrArg String.toList same
  rw [toList_text, toList_text] at chars
  obtain ⟨sameBase, sameSteps⟩ := append_inj_of_all (fun _ => isNameChar_of_mem_text)
    (fun _ => isNameChar_of_mem_text) (opens_stepsChars _).stops (opens_stepsChars _).stops chars
  obtain ⟨base, steps⟩ := left
  obtain ⟨otherBase, otherSteps⟩ := right
  congr
  · exact base_text_injective (String.toList_injective sameBase)
  · exact stepsChars_injective sameSteps

/-- A key that looks like two steps is quoted, and a key of digits is no position. -/
example : (Place.mk (.variable 3) [.field "a.b", .field "a", .field "0", .index 0]).text =
    "v3[\"a.b\"].a[\"0\"][0]" := by decide +kernel

end Place
end Assay
