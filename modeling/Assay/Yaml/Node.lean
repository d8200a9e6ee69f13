import Assay.Yaml.Token

/-!
# YAML documents

Builds the nodes of a document from its tokens.  Text with more than one document is refused.

Anchors mark nodes for aliases.  A marked node goes to a slot, and the slot is the number of
different names that have been marked before it.  So when a name is marked again, its node shares a
slot with the node of the next new name.  An alias points to the slot that its name has at that
place, and stands for the last node of the document that goes there, be it before the alias or behind
it.
-/

namespace Assay.Yaml

/-- A node of a document.  Nodes that are marked have a slot.  The tag of a scalar is kept, and the
tags of collections are not. -/
inductive Node where
  | alias (slot : Nat)
  | scalar (slot : Option Nat) (style : Style) (tag : Option String) (content : String)
  | sequence (slot : Option Nat) (elements : List Node)
  | mapping (slot : Option Nat) (entries : List (Node × Node))
  deriving Inhabited

namespace Node

/-- The slot that a node goes to. -/
def slot? : Node → Option Nat
  | .alias _ => none
  | .scalar slot .. | .sequence slot _ | .mapping slot _ => slot

mutual

/-- A node and the nodes inside it, in the order in which they begin. -/
def inOrder : Node → List Node
  | .alias slot => [.alias slot]
  | .scalar slot style tag content => [.scalar slot style tag content]
  | .sequence slot elements => .sequence slot elements :: elementsInOrder elements
  | .mapping slot entries => .mapping slot entries :: entriesInOrder entries

/-- The nodes of the elements of a sequence. -/
def elementsInOrder : List Node → List Node
  | [] => []
  | element :: rest => element.inOrder ++ elementsInOrder rest

/-- The nodes of the entries of a mapping. -/
def entriesInOrder : List (Node × Node) → List Node
  | [] => []
  | (key, value) :: rest => key.inOrder ++ (value.inOrder ++ entriesInOrder rest)

end

/-- What a node of a document stands for, which for an alias is the last node in its slot. -/
def target? (root : Node) : Node → Option Node
  | .alias slot => (root.inOrder.filter (·.slot? == some slot)).getLast?
  | node => some node

/-- The node that stands where nothing is written. -/
def empty (slot : Option Nat) (tag : Option String) : Node := .scalar slot .plain tag ""

/-- The slots of names, with one entry for each name. -/
abbrev Slots := List (String × Nat)

/-- Marks a node with a name.  Gives the slot of the node. -/
def Slots.mark (slots : Slots) (name : String) : Nat × Slots :=
  (slots.length, (name, slots.length) :: slots.filter (·.1 != name))

/-- The tokens that are left, the slots of names so far, and what the directives of the document have
declared. -/
structure Reading where
  tokens : List Token
  slots : Slots := []
  prolog : Prolog := {}

/-- A node together with what is left. -/
abbrev Parsed := Option (Node × Reading)

/-- The properties in front of a node: the slot that its anchor gives it, and its tag. -/
structure Properties where
  slot : Option Nat := none
  tag : Option String := none

/-- Reads the properties in front of a node: an anchor and a tag, in either order and each at most
once.  Two rounds are enough. -/
def properties? : (rounds : Nat) → Properties → Reading → Option (Properties × Reading)
  | 0, found, reading => some (found, reading)
  | rounds + 1, found, reading =>
      match reading.tokens with
      | .anchor name :: rest =>
          if found.slot.isSome then some (found, reading)
          else
            let (slot, slots) := reading.slots.mark name
            properties? rounds { found with slot := some slot } { reading with tokens := rest, slots }
      | .tag tag :: rest =>
          if found.tag.isSome then some (found, reading)
          else do
            let address ← reading.prolog.address? tag
            properties? rounds { found with tag := some address } { reading with tokens := rest }
      | _ => some (found, reading)

/-- Where a node stands, which decides what may be left out. -/
inductive Place where
  | bareDocument
  | document
  | blockEntry
  | indentlessEntry
  | blockKey
  | blockValue
  | flowEntry
  | flowKey
  | flowValue
  deriving DecidableEq

namespace Place

/-- Whether a block may begin at a place. -/
def allowsBlock : Place → Bool
  | .bareDocument | .document | .blockEntry | .indentlessEntry | .blockKey | .blockValue => true
  | _ => false

/-- Whether the dashes of a sequence may stand at the indentation of the mapping around them. -/
def allowsIndentless : Place → Bool
  | .blockKey | .blockValue => true
  | _ => false

/-- Whether nothing is written at a place, because of the token that comes there. -/
def isOmitted : Place → Option Token → Bool
  | .document, none => true
  | .document, some token => token.isBetweenDocuments
  | .blockEntry, some token => token == .blockEntry || token == .blockEnd
  | .indentlessEntry, some token =>
      token == .blockEntry || token == .key || token == .value || token == .blockEnd
  | .blockKey, some token | .blockValue, some token =>
      token == .key || token == .value || token == .blockEnd
  | .flowKey, some token =>
      token == .value || token == .flowEntry || token == .flowMappingEnd ||
        token == .flowSequenceEnd
  | .flowValue, some token =>
      token == .flowEntry || token == .flowMappingEnd || token == .flowSequenceEnd
  | _, _ => false

end Place

mutual

/-- Reads the node at a place, or the empty node if nothing is written there. -/
def parse? : (rounds : Nat) → Place → Reading → Parsed
  | 0, _, _ => none
  | rounds + 1, place, reading =>
      if place.isOmitted reading.tokens.head? then some (empty none none, reading)
      else match reading.tokens with
        | .alias name :: rest => do
            return (.alias (← reading.slots.lookup name), { reading with tokens := rest })
        | _ => do
            let (properties, reading) ← properties? 2 {} reading
            content? rounds place properties reading

/-- Reads the content of a node after its properties. -/
def content? : (rounds : Nat) → Place → Properties → Reading → Parsed
  | 0, _, _, _ => none
  | rounds + 1, place, properties, reading =>
      match reading.tokens with
      | .scalar style content :: rest =>
          some (.scalar properties.slot style properties.tag content, { reading with tokens := rest })
      | .flowSequenceStart :: rest =>
          flowSequence? rounds properties.slot true [] { reading with tokens := rest }
      | .flowMappingStart :: rest =>
          flowMapping? rounds properties.slot true [] { reading with tokens := rest }
      | .blockSequenceStart :: rest =>
          if place.allowsBlock then
            blockSequence? rounds properties.slot false [] { reading with tokens := rest }
          else none
      | .blockMappingStart :: rest =>
          if place.allowsBlock then
            blockMapping? rounds properties.slot [] { reading with tokens := rest }
          else none
      | tokens =>
          if place.allowsIndentless && tokens.head? == some .blockEntry then
            blockSequence? rounds properties.slot true [] reading
          else if properties.slot.isSome || properties.tag.isSome then
            some (empty properties.slot properties.tag, reading)
          else none

/-- Reads the entries of a block sequence.  One that is not indented ends without a mark. -/
def blockSequence? : (rounds : Nat) → (slot : Option Nat) → (indentless : Bool) → List Node →
    Reading → Parsed
  | 0, _, _, _, _ => none
  | rounds + 1, slot, indentless, elements, reading =>
      match reading.tokens with
      | .blockEntry :: rest => do
          let place := if indentless then Place.indentlessEntry else Place.blockEntry
          let (element, reading) ← parse? rounds place { reading with tokens := rest }
          blockSequence? rounds slot indentless (element :: elements) reading
      | .blockEnd :: rest =>
          if indentless then some (.sequence slot elements.reverse, reading)
          else some (.sequence slot elements.reverse, { reading with tokens := rest })
      | _ => if indentless then some (.sequence slot elements.reverse, reading) else none

/-- Reads the entries of a block mapping. -/
def blockMapping? : (rounds : Nat) → (slot : Option Nat) → List (Node × Node) → Reading → Parsed
  | 0, _, _, _ => none
  | rounds + 1, slot, entries, reading =>
      match reading.tokens with
      | .key :: rest => do
          let (key, reading) ← parse? rounds .blockKey { reading with tokens := rest }
          let (value, reading) ← value? rounds .blockValue reading
          blockMapping? rounds slot ((key, value) :: entries) reading
      | .blockEnd :: rest => some (.mapping slot entries.reverse, { reading with tokens := rest })
      | _ => none

/-- Reads the value behind a key, which is empty if there is no colon. -/
def value? : (rounds : Nat) → Place → Reading → Parsed
  | 0, _, _ => none
  | rounds + 1, place, reading =>
      match reading.tokens with
      | .value :: rest => parse? rounds place { reading with tokens := rest }
      | _ => some (empty none none, reading)

/-- Reads the elements of a flow sequence.  An element may be a mapping with a single entry.  A
question mark without a key in it takes the mark behind it away, whichever that is. -/
def flowSequence? : (rounds : Nat) → (slot : Option Nat) → (first : Bool) → List Node → Reading →
    Parsed
  | 0, _, _, _, _ => none
  | rounds + 1, slot, first, elements, reading =>
      match reading.tokens with
      | .flowSequenceEnd :: rest =>
          some (.sequence slot elements.reverse, { reading with tokens := rest })
      | tokens => do
          let tokens ← if first then some tokens else match tokens with
            | .flowEntry :: rest => some rest
            | _ => none
          match tokens with
          | .flowSequenceEnd :: rest =>
              return (.sequence slot elements.reverse, { reading with tokens := rest })
          | .key :: rest =>
              let (key, reading) ← match rest with
                | .value :: rest | .flowEntry :: rest | .flowSequenceEnd :: rest =>
                    some (empty none none, { reading with tokens := rest })
                | _ => parse? rounds .flowKey { reading with tokens := rest }
              let (value, reading) ← value? rounds .flowValue reading
              flowSequence? rounds slot false (.mapping none [(key, value)] :: elements) reading
          | tokens =>
              let (element, reading) ← parse? rounds .flowEntry { reading with tokens }
              flowSequence? rounds slot false (element :: elements) reading

/-- Reads the entries of a flow mapping.  An entry may be a key alone. -/
def flowMapping? : (rounds : Nat) → (slot : Option Nat) → (first : Bool) → List (Node × Node) →
    Reading → Parsed
  | 0, _, _, _, _ => none
  | rounds + 1, slot, first, entries, reading =>
      match reading.tokens with
      | .flowMappingEnd :: rest =>
          some (.mapping slot entries.reverse, { reading with tokens := rest })
      | tokens => do
          let tokens ← if first then some tokens else match tokens with
            | .flowEntry :: rest => some rest
            | _ => none
          match tokens with
          | .flowMappingEnd :: rest =>
              return (.mapping slot entries.reverse, { reading with tokens := rest })
          | .key :: rest =>
              let (key, reading) ← parse? rounds .flowKey { reading with tokens := rest }
              let (value, reading) ← value? rounds .flowValue reading
              flowMapping? rounds slot false ((key, value) :: entries) reading
          | tokens =>
              let (key, reading) ← parse? rounds .flowEntry { reading with tokens }
              flowMapping? rounds slot false ((key, empty none none) :: entries) reading

end

/-- Drops the markers at the end of a document. -/
def dropDocumentEnds (tokens : List Token) : List Token :=
  tokens.dropWhile (· == .documentEnd)

/-- Takes the directives in front of a document into account. -/
def directives? : (tokens : List Token) → Prolog → Option (Prolog × List Token)
  | .directive directive :: rest, prolog => do directives? rest (← prolog.add? directive)
  | tokens, prolog => some (prolog, tokens)

/-- Reads what stands in front of the content of a document.  Directives need a marker behind them,
and only behind a marker the content may be left out. -/
def documentStart? (tokens : List Token) : Option (Place × Reading) := do
  let (prolog, following) ← directives? tokens {}
  match following with
  | .documentStart :: rest => return (.document, { tokens := rest, prolog })
  | _ =>
      guard (following.length == tokens.length)
      return (.bareDocument, { tokens, prolog })

end Node

/-- The document of a text: `none` inside if the text is empty, and nothing at all if the text is not
YAML or has several documents. -/
def document? (text : String) : Option (Option Node) := do
  let tokens ← tokens? text
  if tokens.isEmpty then return none
  else
    let (place, reading) ← Node.documentStart? tokens
    let rounds := 4 * (tokens.length + 2)
    let (node, reading) ← Node.parse? rounds place reading
    guard (Node.dropDocumentEnds reading.tokens).isEmpty
    return some node

end Assay.Yaml
