import ShareBroker.Yaml.Token.Lexer

/-! # From tokens to events

The parser turns the tokens of a text into events: the start and end of the stream, of each
document and of each sequence and mapping, scalars and aliases. It is a state machine with a
stack of states to return to, one state per place in the grammar; each step looks at the next
token, and a node that is missing (a key with no value, an empty document) becomes the empty
scalar `~`.

An anchor `&name` numbers its node, counting from 1; an alias `*name` refers to the latest node
with that name, and an unknown name is an error. A tag is kept with its scalar.

`Yaml.events` reads the whole text and keeps the events of the nodes, in order, or fails with
the first error of the scanner or of the parser.
-/

namespace ShareBroker

namespace Yaml

/-- An event of the parser. -/
inductive Event where
  | streamStart
  | streamEnd
  | documentStart
  | documentEnd
  /-- A node seen before, by its anchor number. -/
  | alias (anchor : Nat)
  /-- A scalar, its style, its anchor number (`0` for none) and its tag. -/
  | scalar (text : String) (style : ScalarStyle) (anchor : Nat) (tag : Option (String × String))
  | sequenceStart (anchor : Nat)
  | sequenceEnd
  | mappingStart (anchor : Nat)
  | mappingEnd
  deriving Inhabited

/-- The places in the grammar. -/
inductive ParseState where
  | streamStart
  | implicitDocumentStart
  | documentStart
  | documentContent
  | documentEnd
  | blockNode
  | blockNodeOrIndentlessSequence
  | flowNode
  | blockSequenceFirstEntry
  | blockSequenceEntry
  | indentlessSequenceEntry
  | blockMappingFirstKey
  | blockMappingKey
  | blockMappingValue
  | flowSequenceFirstEntry
  | flowSequenceEntry
  | flowSequenceEntryMappingKey
  | flowSequenceEntryMappingValue
  | flowSequenceEntryMappingEnd
  | flowMappingFirstKey
  | flowMappingKey
  | flowMappingValue
  | flowMappingEmptyValue
  | finished
  deriving Inhabited, DecidableEq

/-- The state of the parser. -/
structure Parser where
  scanner : Scanner
  /-- The token looked at and not consumed yet. -/
  current : Option Token := none
  /-- The states to return to, the next first. -/
  states : List ParseState := []
  state : ParseState := .streamStart
  /-- The anchor names and their numbers, the latest first. -/
  anchors : List (String × Nat) := []
  nextAnchor : Nat := 1
  deriving Inhabited

/-- Parsing: fails with the first error. -/
abbrev ParseM := StateT Parser (Except ScanError)

namespace Parser

/-- Stops with an error. -/
def fail {α : Type} (m : Mark) (info : String) : ParseM α := throw ⟨m, info⟩

/-- The next token, read from the scanner when needed. -/
def peek : ParseM Token := do
  let p ← get
  match p.current with
  | some t => pure t
  | none =>
    match Scanner.next.run p.scanner with
    | .ok (some t, sc) =>
      set { p with scanner := sc, current := some t }
      pure t
    | .ok (none, sc) => fail sc.mark "unexpected eof"
    | .error e => throw e

/-- Consumes the token looked at. -/
def consume : ParseM Unit := modify fun p => { p with current := none }

/-- Goes to a state. -/
def goTo (s : ParseState) : ParseM Unit := modify fun p => { p with state := s }

/-- Remembers a state to return to. -/
def pushState (s : ParseState) : ParseM Unit := modify fun p => { p with states := s :: p.states }

/-- Returns to the last remembered state. -/
def popState : ParseM Unit := modify fun p =>
  { p with state := p.states.headD .finished, states := p.states.tail }

/-- Numbers an anchor. -/
def register (name : String) : ParseM Nat := do
  let p ← get
  set { p with anchors := (name, p.nextAnchor) :: p.anchors, nextAnchor := p.nextAnchor + 1 }
  pure p.nextAnchor

/-- The empty scalar. -/
def emptyScalar : Event := .scalar "~" .plain 0 none

/-- Skips directives. -/
def skipDirectives : Nat → ParseM Unit
  | 0 => pure ()
  | n + 1 => do
    match (← peek).kind with
    | .directive =>
      consume
      skipDirectives n
    | _ => pure ()

/-- Skips document end markers. -/
def skipDocumentEnds : Nat → ParseM Unit
  | 0 => pure ()
  | n + 1 => do
    match (← peek).kind with
    | .documentEnd =>
      consume
      skipDocumentEnds n
    | _ => pure ()

/-- The start of the stream. -/
def streamStart : ParseM (Event × Mark) := do
  let t ← peek
  match t.kind with
  | .streamStart =>
    goTo .implicitDocumentStart
    consume
    pure (.streamStart, t.mark)
  | _ => fail t.mark "did not find expected <stream-start>"

/-- A document that starts with `---`, after its directives. -/
def explicitDocumentStart (fuel : Nat) : ParseM (Event × Mark) := do
  skipDirectives fuel
  let t ← peek
  match t.kind with
  | .documentStart =>
    pushState .documentEnd
    goTo .documentContent
    consume
    pure (.documentStart, t.mark)
  | _ => fail t.mark "did not find expected <document start>"

/-- The start of a document, or the end of the stream. The first document may start without
`---`. -/
def documentStart (fuel : Nat) (implicit : Bool) : ParseM (Event × Mark) := do
  if !implicit then skipDocumentEnds fuel
  let t ← peek
  match t.kind with
  | .streamEnd =>
    goTo .finished
    consume
    pure (.streamEnd, t.mark)
  | .directive | .documentStart => explicitDocumentStart fuel
  | _ =>
    if implicit then
      skipDirectives fuel
      pushState .documentEnd
      goTo .blockNode
      pure (.documentStart, t.mark)
    else explicitDocumentStart fuel

/-- The end of a document, with or without `...`. Anchors do not reach past it: an alias in a
later document cannot name them. -/
def documentEnd : ParseM (Event × Mark) := do
  let t ← peek
  match t.kind with
  | .documentEnd => consume
  | _ => pure ()
  modify fun p => { p with anchors := [] }
  goTo .documentStart
  pure (.documentEnd, t.mark)

/-- A node: an alias, or a scalar or collection with an optional anchor and tag. -/
def parseNode (block indentless : Bool) : ParseM (Event × Mark) := do
  let t ← peek
  match t.kind with
  | .alias name =>
    popState
    consume
    match (← get).anchors.lookup name with
    | some id => pure (.alias id, t.mark)
    | none => fail t.mark "while parsing node, found unknown anchor"
  | _ =>
    let (anchor, tag) ← do
      match t.kind with
      | .anchor name =>
        consume
        let id ← register name
        match (← peek).kind with
        | .tag h s =>
          consume
          pure (id, some (h, s))
        | _ => pure (id, none)
      | .tag h s =>
        consume
        match (← peek).kind with
        | .anchor name =>
          consume
          pure (← register name, some (h, s))
        | _ => pure (0, some (h, s))
      | _ => pure (0, none)
    let t ← peek
    let other : ParseM (Event × Mark) :=
      if tag.isSome || anchor > 0 then do
        popState
        pure (.scalar "" .plain anchor tag, t.mark)
      else fail t.mark "while parsing a node, did not find expected node content"
    match t.kind with
    | .blockEntry =>
      if indentless then
        goTo .indentlessSequenceEntry
        pure (.sequenceStart anchor, t.mark)
      else other
    | .scalar style v =>
      popState
      consume
      pure (.scalar v style anchor tag, t.mark)
    | .flowSequenceStart =>
      goTo .flowSequenceFirstEntry
      pure (.sequenceStart anchor, t.mark)
    | .flowMappingStart =>
      goTo .flowMappingFirstKey
      pure (.mappingStart anchor, t.mark)
    | .blockSequenceStart =>
      if block then
        goTo .blockSequenceFirstEntry
        pure (.sequenceStart anchor, t.mark)
      else other
    | .blockMappingStart =>
      if block then
        goTo .blockMappingFirstKey
        pure (.mappingStart anchor, t.mark)
      else other
    | _ => other

/-- The content of a document that started with `---`; it may be empty. -/
def documentContent : ParseM (Event × Mark) := do
  let t ← peek
  match t.kind with
  | .directive | .documentStart | .documentEnd | .streamEnd =>
    popState
    pure (emptyScalar, t.mark)
  | _ => parseNode true false

/-- A key of a block mapping, or its end. -/
def blockMappingKey (first : Bool) : ParseM (Event × Mark) := do
  if first then
    let _ ← peek
    consume
  let t ← peek
  match t.kind with
  | .key =>
    consume
    let t ← peek
    match t.kind with
    | .key | .value | .blockEnd =>
      goTo .blockMappingValue
      pure (emptyScalar, t.mark)
    | _ =>
      pushState .blockMappingValue
      parseNode true true
  | .value =>
    goTo .blockMappingValue
    pure (emptyScalar, t.mark)
  | .blockEnd =>
    popState
    consume
    pure (.mappingEnd, t.mark)
  | _ => fail t.mark "while parsing a block mapping, did not find expected key"

/-- A value of a block mapping; empty when the `:` is missing. -/
def blockMappingValue : ParseM (Event × Mark) := do
  let t ← peek
  match t.kind with
  | .value =>
    consume
    let t ← peek
    match t.kind with
    | .key | .value | .blockEnd =>
      goTo .blockMappingKey
      pure (emptyScalar, t.mark)
    | _ =>
      pushState .blockMappingKey
      parseNode true true
  | _ =>
    goTo .blockMappingKey
    pure (emptyScalar, t.mark)

/-- An entry of a block sequence, or its end. -/
def blockSequenceEntry (first : Bool) : ParseM (Event × Mark) := do
  if first then
    let _ ← peek
    consume
  let t ← peek
  match t.kind with
  | .blockEnd =>
    popState
    consume
    pure (.sequenceEnd, t.mark)
  | .blockEntry =>
    consume
    let t ← peek
    match t.kind with
    | .blockEntry | .blockEnd =>
      goTo .blockSequenceEntry
      pure (emptyScalar, t.mark)
    | _ =>
      pushState .blockSequenceEntry
      parseNode true false
  | _ => fail t.mark "while parsing a block collection, did not find expected '-' indicator"

/-- An entry of a sequence written at the indentation of its key, or its end. -/
def indentlessSequenceEntry : ParseM (Event × Mark) := do
  let t ← peek
  match t.kind with
  | .blockEntry =>
    consume
    let t ← peek
    match t.kind with
    | .blockEntry | .key | .value | .blockEnd =>
      goTo .indentlessSequenceEntry
      pure (emptyScalar, t.mark)
    | _ =>
      pushState .indentlessSequenceEntry
      parseNode true false
  | _ =>
    popState
    pure (.sequenceEnd, t.mark)

/-- An entry of a flow sequence, or its end. -/
def flowSequenceEntry (first : Bool) : ParseM (Event × Mark) := do
  if first then
    let _ ← peek
    consume
  let t ← peek
  let ended ← do
    match t.kind with
    | .flowSequenceEnd =>
      popState
      consume
      pure (some (Event.sequenceEnd, t.mark))
    | .flowEntry =>
      if !first then consume
      pure none
    | _ =>
      if !first then fail t.mark "while parsing a flow sequence, expected ',' or ']'"
      pure none
  match ended with
  | some e => pure e
  | none =>
    let t ← peek
    match t.kind with
    | .flowSequenceEnd =>
      popState
      consume
      pure (.sequenceEnd, t.mark)
    | .key =>
      goTo .flowSequenceEntryMappingKey
      consume
      pure (.mappingStart 0, t.mark)
    | _ =>
      pushState .flowSequenceEntry
      parseNode false false

/-- The key of a one-pair mapping inside a flow sequence. -/
def flowSequenceEntryMappingKey : ParseM (Event × Mark) := do
  let t ← peek
  match t.kind with
  | .value | .flowEntry | .flowSequenceEnd =>
    consume
    goTo .flowSequenceEntryMappingValue
    pure (emptyScalar, t.mark)
  | _ =>
    pushState .flowSequenceEntryMappingValue
    parseNode false false

/-- The value of a one-pair mapping inside a flow sequence. -/
def flowSequenceEntryMappingValue : ParseM (Event × Mark) := do
  let t ← peek
  match t.kind with
  | .value =>
    consume
    goTo .flowSequenceEntryMappingValue
    let t ← peek
    match t.kind with
    | .flowEntry | .flowSequenceEnd =>
      goTo .flowSequenceEntryMappingEnd
      pure (emptyScalar, t.mark)
    | _ =>
      pushState .flowSequenceEntryMappingEnd
      parseNode false false
  | _ =>
    goTo .flowSequenceEntryMappingEnd
    pure (emptyScalar, t.mark)

/-- The end of a one-pair mapping inside a flow sequence. -/
def flowSequenceEntryMappingEnd : ParseM (Event × Mark) := do
  goTo .flowSequenceEntry
  pure (.mappingEnd, (← get).scanner.mark)

/-- A key of a flow mapping, or its end. -/
def flowMappingKey (first : Bool) : ParseM (Event × Mark) := do
  if first then
    let _ ← peek
    consume
  let t ← peek
  match t.kind with
  | .flowMappingEnd =>
    popState
    consume
    pure (.mappingEnd, t.mark)
  | _ =>
    if !first then
      match t.kind with
      | .flowEntry => consume
      | _ => fail t.mark "while parsing a flow mapping, did not find expected ',' or '\x7d'"
    let t2 ← peek
    match t2.kind with
    | .key =>
      consume
      let t3 ← peek
      match t3.kind with
      | .value | .flowEntry | .flowMappingEnd =>
        goTo .flowMappingValue
        pure (emptyScalar, t3.mark)
      | _ =>
        pushState .flowMappingValue
        parseNode false false
    | .value =>
      goTo .flowMappingValue
      pure (emptyScalar, t2.mark)
    | .flowMappingEnd =>
      popState
      consume
      pure (.mappingEnd, t.mark)
    | _ =>
      pushState .flowMappingEmptyValue
      parseNode false false

/-- A value of a flow mapping; empty when the `:` is missing. -/
def flowMappingValue (empty : Bool) : ParseM (Event × Mark) := do
  let t ← peek
  if empty then
    goTo .flowMappingKey
    return (emptyScalar, t.mark)
  match t.kind with
  | .value =>
    consume
    match (← peek).kind with
    | .flowEntry | .flowMappingEnd =>
      goTo .flowMappingKey
      pure (emptyScalar, t.mark)
    | _ =>
      pushState .flowMappingKey
      parseNode false false
  | _ =>
    goTo .flowMappingKey
    pure (emptyScalar, t.mark)

/-- One step of the machine: the next event. -/
def step (fuel : Nat) : ParseM (Event × Mark) := do
  match (← get).state with
  | .streamStart => streamStart
  | .implicitDocumentStart => documentStart fuel true
  | .documentStart => documentStart fuel false
  | .documentContent => documentContent
  | .documentEnd => documentEnd
  | .blockNode => parseNode true false
  | .blockNodeOrIndentlessSequence => parseNode true true
  | .flowNode => parseNode false false
  | .blockMappingFirstKey => blockMappingKey true
  | .blockMappingKey => blockMappingKey false
  | .blockMappingValue => blockMappingValue
  | .blockSequenceFirstEntry => blockSequenceEntry true
  | .blockSequenceEntry => blockSequenceEntry false
  | .flowSequenceFirstEntry => flowSequenceEntry true
  | .flowSequenceEntry => flowSequenceEntry false
  | .flowMappingFirstKey => flowMappingKey true
  | .flowMappingKey => flowMappingKey false
  | .flowMappingValue => flowMappingValue false
  | .indentlessSequenceEntry => indentlessSequenceEntry
  | .flowSequenceEntryMappingKey => flowSequenceEntryMappingKey
  | .flowSequenceEntryMappingValue => flowSequenceEntryMappingValue
  | .flowSequenceEntryMappingEnd => flowSequenceEntryMappingEnd
  | .flowMappingEmptyValue => flowMappingValue true
  | .finished => pure (.streamEnd, (← get).scanner.mark)

/-- Runs the machine to the end of the stream, keeping the events of nodes in order. -/
def run (fuel : Nat) : Nat → List (Event × Mark) → ParseM (List (Event × Mark))
  | 0, acc => pure acc.reverse
  | n + 1, acc => do
    let (e, m) ← step fuel
    match e with
    | .streamEnd => pure acc.reverse
    | .streamStart | .documentStart | .documentEnd => run fuel n acc
    | _ => run fuel n ((e, m) :: acc)

end Parser

/-- The events of the nodes of a text, in order, or the first error. -/
def events (s : String) : Except ScanError (List (Event × Mark)) :=
  let fuel := 4 * s.length + 16
  (Parser.run fuel fuel []).run' { scanner := Scanner.start s }

end Yaml

end ShareBroker
