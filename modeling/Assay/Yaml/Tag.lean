import Assay.Digits
import Assay.Yaml.Text

/-!
# Tags and directives of YAML text

A tag is an address, written in full between angle brackets or as a handle with a suffix.  What a
handle stands for is declared by directives in front of the document, apart from two handles that
every document has.

In an address an octet may be given by its number behind a percent sign.  Such octets are kept one by
one, as the characters with their numbers, and a zero octet ends the address.
-/

namespace Assay.Yaml

/-- The characters of an address, the percent sign apart. -/
def isAddressChar (char : Char) : Bool :=
  isNameChar char || ";/?:@&=+$.!~*\x27()".toList.contains char

/-- The characters of an address where it cannot be taken for a part of a flow collection. -/
def isFullAddressChar (char : Char) : Bool := isAddressChar char || ",[]".toList.contains char

/-- The number of octets that come after one, if `missing` octets of a character were still to come
in front of it. -/
def missingAfter? (missing octet : Nat) : Option Nat :=
  match missing with
  | rest + 1 => if 0x80 ≤ octet ∧ octet < 0xC0 then some rest else none
  | 0 =>
      if octet < 0x80 then some 0
      else if octet < 0xC0 then none
      else if octet < 0xE0 then some 1
      else if octet < 0xF0 then some 2
      else if octet < 0xF8 then some 3
      else none

/-- Reads an address as far as it goes, with what follows it.  The octets of a character are given
together, and `missing` ones are still to come. -/
def addressFrom? (isPart : Char → Bool) :
    List Char → (missing : Nat) → Option (List Char × List Char)
  | '%' :: high :: low :: rest, missing => do
      let octet ← Digits.read? 16 [high, low]
      let (address, following) ← addressFrom? isPart rest (← missingAfter? missing octet)
      return (Char.ofNat octet :: address, following)
  | char :: rest, 0 =>
      if char == '%' then none
      else if isPart char then do
        let (address, following) ← addressFrom? isPart rest 0
        return (char :: address, following)
      else some ([], char :: rest)
  | [], 0 => some ([], [])
  | _, _ + 1 => none

/-- An address as far as it counts: up to a zero octet. -/
def upToZero (address : List Char) : String := String.ofList (address.takeWhile (· != '\x00'))

/-- Reads an address that is not empty. -/
def address? (isPart : Char → Bool) (chars : List Char) : Option (String × List Char) := do
  let (address, following) ← addressFrom? isPart chars 0
  guard (!address.isEmpty)
  return (upToZero address, following)

/-- Reads a handle with a name after its first exclamation mark. -/
def namedHandle? (chars : List Char) : Option (String × List Char) :=
  let name := chars.takeWhile isNameChar
  match chars.drop name.length with
  | '!' :: following => some (String.ofList ('!' :: (name ++ ['!'])), following)
  | _ => none

/-- A tag as it is written.  A tag in full has an empty handle. -/
structure Tag where
  handle : String
  suffix : String
  deriving DecidableEq, Repr

/-- Reads a tag after its exclamation mark.  The mark alone is a tag in full. -/
def Tag.read? : List Char → Option (Tag × List Char)
  | '<' :: chars => do
      let (suffix, following) ← address? isFullAddressChar chars
      match following with
      | '>' :: following => return ({ handle := "", suffix }, following)
      | _ => none
  | chars =>
      match namedHandle? chars with
      | some (handle, chars) => do
          let (suffix, following) ← address? isAddressChar chars
          return ({ handle, suffix }, following)
      | none => do
          let (address, following) ← addressFrom? isAddressChar chars 0
          let suffix := upToZero address
          return (if suffix == "" then { handle := "", suffix := "!" } else { handle := "!", suffix },
            following)

/-- A directive in front of a document. -/
inductive Directive where
  /-- The version of YAML. -/
  | version (major minor : Nat)
  /-- What a handle stands for. -/
  | handle (name address : String)
  deriving DecidableEq, Repr

namespace Directive

/-- Reads a number of at most nine digits. -/
def number? (chars : List Char) : Option (Nat × List Char) := do
  let digits := chars.takeWhile Char.isDigit
  guard (decide (digits.length ≤ 9))
  return (← Digits.read? 10 digits, chars.drop digits.length)

/-- Reads the parameter of a version. -/
def version? (chars : List Char) : Option (Directive × List Char) := do
  let (major, following) ← number? chars
  match following with
  | '.' :: following => do
      let (minor, following) ← number? following
      return (version major minor, following)
  | _ => none

/-- Reads the handle that is declared, after its first exclamation mark. -/
def declaredHandle? (chars : List Char) : Option (String × List Char) :=
  match namedHandle? chars with
  | some named => some named
  | none => if chars.head?.any isNameChar then none else some ("!", chars)

/-- Reads the parameters of a handle: its name and its address, with blanks in between. -/
def handle? : List Char → Option (Directive × List Char)
  | '!' :: chars => do
      let (name, following) ← declaredHandle? chars
      guard (following.head?.any isBlank)
      let (address, following) ← address? isFullAddressChar (following.dropWhile isBlank)
      guard (atGap following)
      return (handle name address, following)
  | _ => none

/-- Reads a directive from its line after the percent sign. -/
def ofLine? (line : List Char) : Option Directive := do
  let name := line.takeWhile isNameChar
  let parameters := line.drop name.length
  guard (atGap parameters)
  let (directive, following) ←
    match String.ofList name with
    | "YAML" => version? (parameters.dropWhile isBlank)
    | "TAG" => handle? (parameters.dropWhile isBlank)
    | _ => none
  guard (endsLine following)
  return directive

end Directive

/-- What the directives in front of a document have declared. -/
structure Prolog where
  hasVersion : Bool := false
  handles : List (String × String) := []

namespace Prolog

/-- Takes a directive into account.  There is at most one version, and no handle is declared
twice. -/
def add? (prolog : Prolog) : Directive → Option Prolog
  | .version major minor =>
      if prolog.hasVersion || major != 1 || !(minor == 1 || minor == 2) then none
      else some { prolog with hasVersion := true }
  | .handle name address =>
      if (prolog.handles.lookup name).isSome then none
      else some { prolog with handles := (name, address) :: prolog.handles }

/-- The handles that every document has.  A declaration overrides them. -/
def commonHandles : List (String × String) := [("!", "!"), ("!!", "tag:yaml.org,2002:")]

/-- The address of a tag, if its handle is known. -/
def address? (prolog : Prolog) (tag : Tag) : Option String :=
  if tag.handle == "" then some tag.suffix
  else ((prolog.handles ++ commonHandles).lookup tag.handle).map (· ++ tag.suffix)

end Prolog

end Assay.Yaml
