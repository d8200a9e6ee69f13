import Assay.Json.Numeral

/-!
# Tokens of JSON text

Splits a text into tokens in one pass over its characters.  The pass is an automaton: its state says
what the characters read so far have begun, and a word or a string becomes a token when the
character that ends it has been seen.
-/

namespace Assay.Json

/-- The tokens of JSON text.  Words and strings are already decoded. -/
inductive Token where
  | openArray
  | closeArray
  | openObject
  | closeObject
  | comma
  | colon
  | null
  | bool (value : Bool)
  | number (value : Number)
  | string (value : String)

/-- What the characters since the last token have begun.  Collected characters are reversed.  A
first half of a surrogate pair that still waits for its second half is kept in `pending`. -/
inductive Scan where
  | idle
  | word (collected : List Char)
  | inString (collected : List Char) (pending : Option Nat)
  | afterBackslash (collected : List Char) (pending : Option Nat)
  | inCode (collected : List Char) (pending : Option Nat) (digitsLeft : Nat) (code : Nat)

/-- The token that a word stands for. -/
def Token.ofWord? (word : List Char) : Option Token :=
  match word with
  | ['n', 'u', 'l', 'l'] => some .null
  | ['t', 'r', 'u', 'e'] => some (.bool true)
  | ['f', 'a', 'l', 's', 'e'] => some (.bool false)
  | _ => do return .number (← (← Numeral.ofChars? word).toNumber?)

/-- The token that a single character stands for. -/
def Token.ofMark? (mark : Char) : Option Token :=
  match mark with
  | '[' => some .openArray
  | ']' => some .closeArray
  | '\x7b' => some .openObject
  | '\x7d' => some .closeObject
  | ',' => some .comma
  | ':' => some .colon
  | _ => none

/-- The characters that may stand between tokens. -/
def isBlank (char : Char) : Bool :=
  char == ' ' || char == '\t' || char == '\n' || char == '\r'

/-- The character of a one-letter escape. -/
def simpleEscape? (letter : Char) : Option Char :=
  match letter with
  | '"' => some '"'
  | '\\' => some '\\'
  | '/' => some '/'
  | 'b' => some '\x08'
  | 'f' => some '\x0c'
  | 'n' => some '\n'
  | 'r' => some '\r'
  | 't' => some '\t'
  | _ => none

/-- Ends a four-digit escape.  A code is a character of its own, or one half of a surrogate pair; a
half without its partner is refused. -/
def endCode? (collected : List Char) (pending : Option Nat) (code : Nat) : Option Scan :=
  match pending with
  | some high =>
      if 0xDC00 ≤ code ∧ code < 0xE000 then
        let combined := 0x10000 + (high - 0xD800) * 0x400 + (code - 0xDC00)
        some (.inString (Char.ofNat combined :: collected) none)
      else none
  | none =>
      if 0xD800 ≤ code ∧ code < 0xDC00 then some (.inString collected (some code))
      else if 0xDC00 ≤ code ∧ code < 0xE000 then none
      else some (.inString (Char.ofNat code :: collected) none)

/-- Reads a character between tokens. -/
def startToken? (char : Char) (tokens : List Token) : Option (Scan × List Token) :=
  if isBlank char then some (.idle, tokens)
  else if char = '"' then some (.inString [] none, tokens)
  else match Token.ofMark? char with
    | some token => some (.idle, token :: tokens)
    | none => some (.word [char], tokens)

/-- Reads one character.  The tokens found so far are reversed. -/
def scanChar? (state : Scan × List Token) (char : Char) : Option (Scan × List Token) :=
  let (scan, tokens) := state
  match scan with
  | .idle => startToken? char tokens
  | .word collected =>
      if isBlank char || char == '"' || (Token.ofMark? char).isSome then do
        let token ← Token.ofWord? collected.reverse
        startToken? char (token :: tokens)
      else some (.word (char :: collected), tokens)
  | .inString collected pending =>
      if char = '\\' then some (.afterBackslash collected pending, tokens)
      else if pending.isSome then none
      else if char = '"' then some (.idle, .string (String.ofList collected.reverse) :: tokens)
      else if char.toNat < 32 then none
      else some (.inString (char :: collected) none, tokens)
  | .afterBackslash collected pending =>
      if char = 'u' then some (.inCode collected pending 4 0, tokens)
      else if pending.isSome then none
      else do
        let decoded ← simpleEscape? char
        return (.inString (decoded :: collected) none, tokens)
  | .inCode collected pending digitsLeft code => do
      let digit ← Digits.value? 16 char
      let next := code * 16 + digit
      if digitsLeft ≤ 1 then return (← endCode? collected pending next, tokens)
      else return (.inCode collected pending (digitsLeft - 1) next, tokens)

/-- The tokens of a text, or nothing if it contains something that is not a token. -/
def tokens? (chars : List Char) : Option (List Token) := do
  let (scan, tokens) ← chars.foldlM scanChar? (.idle, [])
  match scan with
  | .idle => return tokens.reverse
  | .word collected => return (← Token.ofWord? collected.reverse) :: tokens |>.reverse
  | _ => none

end Assay.Json
