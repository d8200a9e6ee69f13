import Assay.Proofs.Entries
import Assay.Storage

/-!
# Stored limits come back

Limits are written as a document with an entry on each line, so what is read are the fields that
were written, and no field is left to its default.  Every number of 64 bits is read back from its
decimal digits, and no other number is ever read.

A file therefore works as a register of limits: what is loaded are the limits that were saved last,
whatever the file held before and whatever was loaded or set in the meantime. -/

namespace Assay

namespace Digits

theorem value?_of_isDigit {digit : Char} (isDigit : digit.isDigit = true) :
    value? 10 digit = some (digit.toNat - 48) := by
  have small : digit.toNat - 48 < 10 := by
    simp only [Char.isDigit, Bool.and_eq_true, decide_eq_true_eq, UInt32.le_iff_toNat_le] at isDigit
    have most : digit.toNat ≤ 57 := isDigit.2
    omega
  simp only [value?, isDigit, if_true]
  rw [if_pos small]

theorem foldlM_of_isDigit {digits : List Char} (areDigits : ∀ digit ∈ digits, digit.isDigit = true)
    (number : Nat) :
    digits.foldlM (fun number digit => do return number * 10 + (← value? 10 digit)) number =
      some (Nat.ofDigitChars 10 digits number) := by
  induction digits generalizing number with
  | nil => rfl
  | cons digit rest ih =>
      obtain ⟨isDigit, areRest⟩ := List.forall_mem_cons.mp areDigits
      rw [List.foldlM_cons, value?_of_isDigit isDigit, Nat.ofDigitChars_cons, Nat.mul_comm 10]
      exact ih areRest _

theorem isDigit_of_mem {number : Nat} {digit : Char} (member : digit ∈ Nat.toDigits 10 number) :
    digit.isDigit = true :=
  Nat.isDigit_of_mem_toDigits (by decide) (by decide) member

/-- A number is read back from its decimal digits. -/
theorem read?_toDigits (number : Nat) : read? 10 (Nat.toDigits 10 number) = some number := by
  have nonempty : (Nat.toDigits 10 number).isEmpty = false :=
    List.isEmpty_eq_false_iff.mpr Nat.toDigits_ne_nil
  rw [read?, nonempty, if_neg Bool.false_ne_true, foldlM_of_isDigit fun _ => isDigit_of_mem,
    Nat.ofDigitChars_ten_toDigits]

/-- The digits of a number do not begin with a zero, unless the number is zero. -/
theorem head?_toDigits_ne {number : Nat} (positive : 0 < number) :
    (Nat.toDigits 10 number).head? ≠ some '0' := by
  induction number using Nat.strongRecOn with
  | ind number ih =>
      rcases Nat.lt_or_ge number 10 with small | large
      · have all : ∀ number < 10, 0 < number →
            (Nat.toDigits 10 number).head? ≠ some '0' := by decide
        exact all number small positive
      · have front := ih (number / 10) (by omega) (by omega)
        obtain ⟨first, others, digits⟩ :=
          List.exists_cons_of_ne_nil (Nat.toDigits_ne_nil (n := number / 10) (b := 10))
        rw [digits] at front
        rwa [Nat.toDigits_of_base_le (by decide) large, digits]

theorem isWord_toString (number : Nat) : Yaml.IsWord (toString number).toList := by
  rw [Nat.toString_eq_ofList_toDigits, String.toList_ofList]
  refine ⟨Nat.toDigits_ne_nil, fun digit member => ?_⟩
  rw [Yaml.isWordChar, Char.isAlphanum, isDigit_of_mem member, Bool.or_true, Bool.true_or]

end Digits

namespace Limits

/-- Whether limits consist of numbers of 64 bits. -/
structure Fits (limits : Limits) : Prop where
  maxDepth : limits.maxDepth < fieldBound
  previewLength : limits.previewLength < fieldBound

/-! ## Reading what was written -/

theorem integer?_toDigits {number : Nat} (fits : number < fieldBound) :
    integer? (Nat.toDigits 10 number) = some number := by
  rcases Nat.eq_zero_or_pos number with rfl | positive
  · rfl
  · have read := Digits.read?_toDigits number
    have noZero := Digits.head?_toDigits_ne positive
    have areDigits : ∀ digit ∈ Nat.toDigits 10 number, digit.isDigit = true :=
      fun _ => Digits.isDigit_of_mem
    generalize Nat.toDigits 10 number = digits at read noZero areDigits
    unfold integer?
    split
    · next rest => exact absurd (areDigits '+' List.mem_cons_self) (by decide)
    · dsimp only
      split
      case h_6 =>
        rw [read]
        exact if_pos fits
      all_goals exact (noZero rfl).elim

/-- The entry of a field. -/
def entry (key : String) (isKey : Yaml.IsWord key.toList) (short : key.length ≤ 1024)
    (number : Nat) : Yaml.Entry :=
  ⟨key, toString number, isKey, Digits.isWord_toString number, short⟩

/-- The entry of the depth that is allowed. -/
def depthEntry (limits : Limits) : Yaml.Entry :=
  entry "max_depth" ⟨by decide, List.all_eq_true.mp (by decide)⟩ (by decide) limits.maxDepth

/-- The entry of the length of previews. -/
def previewEntry (limits : Limits) : Yaml.Entry :=
  entry "preview_len" ⟨by decide, List.all_eq_true.mp (by decide)⟩ (by decide) limits.previewLength

theorem toList_render (limits : Limits) :
    limits.render.toList = [limits.depthEntry, limits.previewEntry].flatMap Yaml.Entry.chars := by
  simp [render, depthEntry, previewEntry, entry, Yaml.Entry.chars]

theorem field?_scalar {number : Nat} (fits : number < fieldBound) :
    field? (.scalar none .plain none (toString number)) = some number := by
  rw [field?, Nat.toString_eq_ofList_toDigits, String.toList_ofList, integer?_toDigits fits]

section Fields

variable {root : Yaml.Node} {limits : Limits} {fields : Fields}

theorem Fields.read?_depthEntry (fits : limits.Fits) (absent : fields.maxDepth = none) :
    fields.read? root limits.depthEntry.nodes =
      some { fields with maxDepth := some limits.maxDepth } := by
  have read := field?_scalar fits.maxDepth
  simp only [Fields.read?, Yaml.Entry.nodes, depthEntry, entry, Yaml.Node.target?, absent, read,
    Option.bind_eq_bind, Option.bind_some, Option.isNone_none, (Option.guard_eq_some' ()).mpr]
  rfl

theorem Fields.read?_previewEntry (fits : limits.Fits) (absent : fields.previewLength = none) :
    fields.read? root limits.previewEntry.nodes =
      some { fields with previewLength := some limits.previewLength } := by
  have read := field?_scalar fits.previewLength
  simp only [Fields.read?, Yaml.Entry.nodes, previewEntry, entry, Yaml.Node.target?, absent, read,
    Option.bind_eq_bind, Option.bind_some, Option.isNone_none, (Option.guard_eq_some' ()).mpr]
  rfl

end Fields

/-- Limits are read from the text that they are written as. -/
theorem parse?_render {limits : Limits} (fits : limits.Fits) :
    parse? limits.render = some limits := by
  have document := Yaml.document?_of_entries limits.depthEntry [limits.previewEntry]
    limits.toList_render
  rw [parse?, document]
  simp only [Option.bind_eq_bind, Option.bind_some, ofNode?, List.map_cons, List.map_nil,
    List.foldlM_cons, List.foldlM_nil, Fields.read?_depthEntry fits, Fields.read?_previewEntry fits]
  rfl

/-! ## Only numbers that fit are read -/

theorem lt_of_integer? {text : List Char} {number : Nat} (read : integer? text = some number) :
    number < fieldBound := by
  have bounded {spelled : Option Nat}
      (read : (do
        let number ← spelled
        if number < fieldBound then some number else none) = some number) :
      number < fieldBound := by
    obtain ⟨value, -, checked⟩ := Option.bind_eq_some_iff.mp read
    split at checked
    · next fits => exact Option.some.inj checked ▸ fits
    · cases checked
  unfold integer? at read
  dsimp only at read
  split at read <;> exact bounded read

theorem lt_of_field? {node : Yaml.Node} {number : Nat} (read : field? node = some number) :
    number < fieldBound := by
  unfold field? at read
  split at read
  · exact lt_of_integer? read
  · exact lt_of_integer? read
  · cases read

/-- Whether the fields that have been found are numbers of 64 bits. -/
structure Fields.Fit (fields : Fields) : Prop where
  maxDepth : ∀ number ∈ fields.maxDepth, number < fieldBound
  previewLength : ∀ number ∈ fields.previewLength, number < fieldBound

theorem Fields.Fit.read? {root : Yaml.Node} {fields found : Fields}
    {entry : Yaml.Node × Yaml.Node} (fit : fields.Fit)
    (read : fields.read? root entry = some found) : found.Fit := by
  obtain ⟨key, -, read⟩ := Option.bind_eq_some_iff.mp read
  split at read
  · obtain ⟨-, -, read⟩ := Option.bind_eq_some_iff.mp read
    obtain ⟨node, -, read⟩ := Option.bind_eq_some_iff.mp read
    obtain ⟨number, isNumber, read⟩ := Option.bind_eq_some_iff.mp read
    cases read
    exact ⟨fun _ isField => Option.some.inj isField ▸ lt_of_field? isNumber, fit.previewLength⟩
  · obtain ⟨-, -, read⟩ := Option.bind_eq_some_iff.mp read
    obtain ⟨node, -, read⟩ := Option.bind_eq_some_iff.mp read
    obtain ⟨number, isNumber, read⟩ := Option.bind_eq_some_iff.mp read
    cases read
    exact ⟨fit.maxDepth, fun _ isField => Option.some.inj isField ▸ lt_of_field? isNumber⟩
  · cases read
    exact fit
  · cases read

theorem Fields.Fit.foldlM {root : Yaml.Node} {entries : List (Yaml.Node × Yaml.Node)}
    {fields found : Fields} (fit : fields.Fit)
    (read : entries.foldlM (Fields.read? root) fields = some found) : found.Fit := by
  induction entries generalizing fields with
  | nil =>
      cases read
      exact fit
  | cons entry rest ih =>
      rw [List.foldlM_cons] at read
      obtain ⟨next, isNext, read⟩ := Option.bind_eq_some_iff.mp read
      exact ih (fit.read? isNext) read

theorem fits_default : Fits {} := ⟨by decide, by decide⟩

/-- No limits are read but those that consist of numbers of 64 bits. -/
theorem fits_of_parse? {text : String} {limits : Limits} (read : parse? text = some limits) :
    limits.Fits := by
  obtain ⟨document, -, read⟩ := Option.bind_eq_some_iff.mp read
  unfold ofNode? at read
  split at read
  · exact Option.some.inj read ▸ fits_default
  · exact Option.some.inj read ▸ fits_default
  · obtain ⟨fields, isRead, read⟩ := Option.bind_eq_some_iff.mp read
    have fitAtFirst : Fields.Fit {} := ⟨by simp, by simp⟩
    have fit := fitAtFirst.foldlM isRead
    have getD_lt {field : Option Nat} {otherwise : Nat}
        (fits : ∀ number ∈ field, number < fieldBound) (fallback : otherwise < fieldBound) :
        field.getD otherwise < fieldBound := by
      cases field with
      | none => exact fallback
      | some number => exact fits number rfl
    cases read
    exact ⟨getD_lt fit.maxDepth fits_default.maxDepth,
      getD_lt fit.previewLength fits_default.previewLength⟩
  · cases read

end Limits

/-! ## Files as registers -/

/-- Whether a step sets a field to a number of 64 bits, if it sets one. -/
def StorageStep.Fits : StorageStep → Prop
  | .setMaxDepth value | .setPreviewLength value => value < Limits.fieldBound
  | _ => True

/-- Whether a step leaves the file as it is. -/
def StorageStep.keepsFile : StorageStep → Bool
  | .write _ | .save => false
  | _ => true

namespace Storage

variable {storage : Storage} {limits : Limits}

/-- Loading from a file that limits were written to. -/
theorem load_of_render (fits : limits.Fits) (written : storage.file = some limits.render) :
    storage.load = .ok { storage with current := limits } := by
  rw [load, written]
  simp only [Limits.parse?_render fits]

/-- What a load that succeeds has found and done. -/
theorem exists_of_load {loaded : Storage} (isLoaded : storage.load = .ok loaded) :
    ∃ text limits, storage.file = some text ∧ Limits.parse? text = some limits ∧
      loaded = { storage with current := limits } := by
  unfold load at isLoaded
  split at isLoaded
  · cases isLoaded
  · next text holds =>
      split at isLoaded
      · next limits read =>
          cases isLoaded
          exact ⟨text, limits, holds, read, rfl⟩
      · cases isLoaded

/-- No step brings limits into use that do not fit. -/
theorem fits_take {step : StorageStep} (fits : storage.current.Fits) (stepFits : step.Fits) :
    (storage.take step).2.current.Fits := by
  cases step with
  | useDefaults => exact Limits.fits_default
  | setMaxDepth value => exact ⟨stepFits, fits.previewLength⟩
  | setPreviewLength value => exact ⟨fits.maxDepth, stepFits⟩
  | load =>
      rw [take]
      split
      · next isLoaded =>
          obtain ⟨text, limits, -, read, rfl⟩ := exists_of_load isLoaded
          exact Limits.fits_of_parse? read
      · exact fits
  | write | read | save | loadElsewhere | saveElsewhere => exact fits

theorem fits_run {steps : List StorageStep} (fits : storage.current.Fits)
    (stepsFit : ∀ step ∈ steps, step.Fits) : (storage.run steps).2.current.Fits := by
  induction steps generalizing storage with
  | nil => exact fits
  | cons step rest ih =>
      obtain ⟨stepFits, restFits⟩ := List.forall_mem_cons.mp stepsFit
      exact ih (fits_take fits stepFits) restFits

theorem file_take {step : StorageStep} (keeps : step.keepsFile = true) :
    (storage.take step).2.file = storage.file := by
  cases step with
  | write | save => cases keeps
  | load =>
      rw [take]
      split
      · next isLoaded =>
          obtain ⟨text, limits, -, -, rfl⟩ := exists_of_load isLoaded
          rfl
      · rfl
  | useDefaults | setMaxDepth | setPreviewLength | read | loadElsewhere | saveElsewhere => rfl

theorem file_run {steps : List StorageStep} (keep : ∀ step ∈ steps, step.keepsFile = true) :
    (storage.run steps).2.file = storage.file := by
  induction steps generalizing storage with
  | nil => rfl
  | cons step rest ih =>
      obtain ⟨keeps, restKeep⟩ := List.forall_mem_cons.mp keep
      exact (ih restKeep).trans (file_take keeps)

theorem run_cons (step : StorageStep) (rest : List StorageStep) :
    storage.run (step :: rest) =
      ((storage.take step).1 :: ((storage.take step).2.run rest).1,
        ((storage.take step).2.run rest).2) := rfl

theorem run_append (first second : List StorageStep) :
    storage.run (first ++ second) =
      ((storage.run first).1 ++ ((storage.run first).2.run second).1,
        ((storage.run first).2.run second).2) := by
  induction first generalizing storage with
  | nil => rfl
  | cons step rest ih => rw [List.cons_append, run_cons, ih, run_cons, List.cons_append]

theorem take_save : storage.take .save = (.limits storage.current, storage.save) := rfl

theorem take_load_of_render (fits : limits.Fits) (written : storage.file = some limits.render) :
    storage.take .load = (.limits limits, { storage with current := limits }) := by
  rw [take, load_of_render fits written]
  rfl

/-- Limits that are saved are loaded again, whatever the file held before and however the limits in
use have changed.

Saving and loading at once gives the limits that were in use, be the file absent, longer or no
document at all.  And after any steps the limits that a load gives are those of the last save,
however often they have been loaded and whatever limits have been set since then, as long as the
file is not written by other means. -/
theorem load_gives_last_saved (storage : Storage) (before between : List StorageStep)
    (fits : storage.current.Fits) (stepsFit : ∀ step ∈ before, step.Fits)
    (kept : ∀ step ∈ between, step.keepsFile = true) :
    storage.save.load =
        .ok { current := storage.current, file := some storage.current.render } ∧
      let saved := (storage.run before).2.current
      let last := storage.run (before ++ .save :: (between ++ [.load]))
      last.1.getLast? = some (.limits saved) ∧ last.2.current = saved := by
  constructor
  · exact load_of_render fits rfl
  · intro saved last
    have written : ((storage.run before).2.save.run between).2.file = some saved.render :=
      file_run kept
    have loaded := take_load_of_render (fits_run fits stepsFit) written
    have steps : last = ((storage.run before).1 ++ .limits saved ::
        (((storage.run before).2.save.run between).1 ++ [.limits saved]),
        { ((storage.run before).2.save.run between).2 with current := saved }) := by
      simp only [last, run_append, run_cons, take_save, loaded]
      rfl
    rw [steps]
    constructor
    · rw [← List.cons_append, ← List.append_assoc, List.getLast?_append, List.getLast?_singleton]
      rfl
    · rfl

/-- The greatest limits that there are come back from a file that held no limits, although others
have been used and loaded since they were saved. -/
theorem load_gives_last_saved_of_greatest :
    let storage : Storage := { file := some "max_depth: [1, 2" }
    let greatest := 18446744073709551615
    let before := [StorageStep.load, .setMaxDepth 7, .save, .setMaxDepth greatest,
      .setPreviewLength greatest, .write "preview_len: -1\n# no limits, but a longer document\n"]
    let between := [StorageStep.load, .useDefaults, .setPreviewLength 0]
    (storage.run (before ++ .save :: (between ++ [.load]))).1.getLast? =
      some (.limits { maxDepth := greatest, previewLength := greatest }) := by
  intro storage greatest before between
  have fits : storage.current.Fits := ⟨by decide, by decide⟩
  have stepsFit : ∀ step ∈ before, step.Fits := by
    simp [before, greatest, StorageStep.Fits, Limits.fieldBound]
  have kept : ∀ step ∈ between, step.keepsFile = true := by decide
  have saved : (storage.run before).2.current =
      { maxDepth := greatest, previewLength := greatest } := by decide +kernel
  rw [← saved]
  exact (load_gives_last_saved storage before between fits stepsFit kept).2.1

end Storage
end Assay
