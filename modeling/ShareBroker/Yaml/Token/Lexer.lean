import ShareBroker.Yaml.Token

/-! # Cutting YAML text into tokens

`Scanner` reads the text one character at a time and queues tokens. Block structure comes from
indentation: a `-` entry or a key at a deeper column opens a block collection, which closes
(`blockEnd`) when a later line starts left of it.

A key without `?` is only known to be a key when `:` follows it. So the scanner remembers, for
each flow level, where the last token that could start such a *simple key* was queued; when
`:` comes, it inserts `key` (and, if needed, `blockMappingStart`) before that token. A simple
key must end on its line and within 1024 characters; a possible key that becomes stale is
dropped, and an error is raised when it was required.

Tokens are handed out one at a time (`Scanner.next`). While a possible simple key points at
the next token to hand out, more tokens are read first, so that a later `:` can still insert
its `key` in front.

Every loop is bounded by `Scanner.fuel`, more than the number of characters in the text:
each turn of a loop reads at least one character.
-/

namespace ShareBroker

namespace Yaml

/-- A token that may turn out to be a key when `:` follows on its line. -/
structure SimpleKey where
  possible : Bool := false
  required : Bool := false
  /-- The number of the token, counting every token ever queued. -/
  tokenNumber : Nat := 0
  mark : Mark := { index := 0, line := 0, col := 0 }
  deriving Inhabited

/-- The state of the scanner. -/
structure Scanner where
  /-- The characters not read yet. -/
  rest : List Char
  /-- A bound on the turns of any loop. -/
  fuel : Nat
  mark : Mark := {}
  /-- Tokens read but not handed out, in order. -/
  tokens : List Token := []
  started : Bool := false
  ended : Bool := false
  simpleKeyAllowed : Bool := true
  /-- One possible simple key per flow level, the innermost first. -/
  simpleKeys : List SimpleKey := []
  /-- The column of the innermost block collection, `-1` outside any. -/
  indent : Int := -1
  /-- The columns of the enclosing block collections, the innermost first. -/
  indents : List Int := []
  flowLevel : Nat := 0
  /-- How many tokens were handed out. -/
  tokensParsed : Nat := 0
  tokenAvailable : Bool := false
  /-- The place just after the last quoted scalar, where a `:` in a flow collection is a
  value indicator even with no blank after it (a JSON-like key). -/
  adjacentValueAt : Option Nat := none
  deriving Inhabited

/-- Scanning: fails with the first error. -/
abbrev ScanM := StateT Scanner (Except ScanError)

namespace Scanner

/-- A scanner at the start of a text. -/
def start (s : String) : Scanner :=
  { rest := s.toList, fuel := s.length + 8 }

end Scanner

namespace Scanner

/-- The character `i` places ahead; the end of the text reads as `U+0000`. -/
def peekAt (i : Nat) : ScanM Char := do pure (((← get).rest.drop i).headD '\x00')

/-- The current character. -/
def cur : ScanM Char := peekAt 0

/-- The current place. -/
def here : ScanM Mark := do pure (← get).mark

/-- The loop bound. -/
def bound : ScanM Nat := do pure (← get).fuel

/-- Moves past the current character. -/
def skip : ScanM Unit := modify fun s =>
  match s.rest with
  | c :: rest => { s with rest := rest, mark := s.mark.advance c }
  | [] => { s with mark := s.mark.advance '\x00' }

/-- Stops with an error. -/
def fail {α : Type} (m : Mark) (info : String) : ScanM α := throw ⟨m, info⟩

/-- Moves past a line break, `\r\n` counting as one. -/
def skipLine : ScanM Unit := do
  let c ← cur
  if c = '\r' ∧ (← peekAt 1) = '\n' then
    skip
    skip
  else if isBreak c then skip

/-- Reads characters while they satisfy `p`, never past the end. -/
def takeWhile (p : Char → Bool) : Nat → String → ScanM String
  | 0, acc => pure acc
  | n + 1, acc => do
    let c ← cur
    if p c && !isEnd c then
      skip
      takeWhile p n (acc.push c)
    else pure acc

/-- Skips characters while they satisfy `p`. -/
def skipWhile (p : Char → Bool) : ScanM Unit := do
  let _ ← takeWhile p (← bound) ""

/-- Queues a token. -/
def push (t : Token) : ScanM Unit := modify fun s => { s with tokens := s.tokens ++ [t] }

/-- Allows a simple key to start here. -/
def allowSimpleKey : ScanM Unit := modify fun s => { s with simpleKeyAllowed := true }

/-- Forbids a simple key to start here. -/
def disallowSimpleKey : ScanM Unit := modify fun s => { s with simpleKeyAllowed := false }

/-- A possible key that no longer can be one: it is dropped, or refused when required. -/
def staleKey (m : Mark) (sk : SimpleKey) : Except ScanError SimpleKey :=
  if sk.possible && (decide (sk.mark.line < m.line) || decide (sk.mark.index + 1024 < m.index)) then
    if sk.required then .error ⟨m, "simple key expect ':'"⟩
    else .ok { sk with possible := false }
  else .ok sk

/-- Drops the possible keys that are on an earlier line or too far back. -/
def staleSimpleKeys : ScanM Unit := do
  let s ← get
  match s.simpleKeys.mapM (staleKey s.mark) with
  | .ok keys => set { s with simpleKeys := keys }
  | .error e => throw e

/-- Drops the possible key of the current flow level; refuses when it was required. -/
def removeSimpleKey : ScanM Unit := do
  let s ← get
  match s.simpleKeys with
  | sk :: rest =>
    if sk.possible && sk.required then fail s.mark "simple key expected"
    set { s with simpleKeys := { sk with possible := false } :: rest }
  | [] => pure ()

/-- Remembers that the next token may be a simple key. -/
def saveSimpleKey : ScanM Unit := do
  let s ← get
  if s.simpleKeyAllowed then
    let sk : SimpleKey :=
      { possible := true, required := s.flowLevel > 0 && s.indent == (s.mark.col : Int),
        tokenNumber := s.tokensParsed + s.tokens.length, mark := s.mark }
    removeSimpleKey
    modify fun s => { s with simpleKeys := sk :: s.simpleKeys.tail }

/-- Enters a flow collection. -/
def increaseFlowLevel : ScanM Unit := do
  let s ← get
  if s.flowLevel ≥ 255 then fail s.mark "recursion limit exceeded"
  set { s with simpleKeys := {} :: s.simpleKeys, flowLevel := s.flowLevel + 1 }

/-- Leaves a flow collection. -/
def decreaseFlowLevel : ScanM Unit := modify fun s =>
  if s.flowLevel > 0 then { s with flowLevel := s.flowLevel - 1, simpleKeys := s.simpleKeys.tail }
  else s

/-- Closes the block collections deeper than `col`. -/
def unrollIndent (col : Int) : ScanM Unit := do
  let rec go : Nat → ScanM Unit
    | 0 => pure ()
    | n + 1 => do
      let s ← get
      if s.indent > col then
        set { s with tokens := s.tokens ++ [({ mark := s.mark, kind := .blockEnd } : Token)],
                     indent := s.indents.headD (-1), indents := s.indents.tail }
        go n
  if (← get).flowLevel = 0 then go ((← get).indents.length + 1)

/-- Opens a block collection at `col` when it is deeper than the current one; its start token
goes at the end of the queue, or before the token numbered `number`. -/
def rollIndent (col : Nat) (number : Option Nat) (kind : TokenKind) (mark : Mark) : ScanM Unit := do
  let s ← get
  if s.flowLevel = 0 && s.indent < (col : Int) then
    let t : Token := ⟨mark, kind⟩
    let tokens := match number with
      | some n =>
        let pos := n - s.tokensParsed
        s.tokens.take pos ++ t :: s.tokens.drop pos
      | none => s.tokens ++ [t]
    set { s with indents := s.indent :: s.indents, indent := col, tokens := tokens }

/-- Whether a document marker `---` or `...` starts here. -/
def atDocumentIndicator : ScanM Bool := do
  let m ← here
  let c0 ← peekAt 0
  let c1 ← peekAt 1
  let c2 ← peekAt 2
  let c3 ← peekAt 3
  pure (m.col = 0 && ((c0 = '-' && c1 = '-' && c2 = '-') || (c0 = '.' && c1 = '.' && c2 = '.'))
    && isSpaceOrEnd c3)

/-- Skips blanks, line breaks and comments up to the next token. A tab is skipped only where
a simple key may not start, or inside a flow collection. -/
def skipToNextToken : Nat → ScanM Unit
  | 0 => pure ()
  | n + 1 => do
    let s ← get
    let c ← cur
    if c = ' ' || (c = '\t' && (s.flowLevel > 0 || !s.simpleKeyAllowed)) then
      skip
      skipToNextToken n
    else if isBreak c then
      skipLine
      if s.flowLevel = 0 then allowSimpleKey
      skipToNextToken n
    else if c = '#' then
      skipWhile (fun c => !isBreakOrEnd c)
      skipToNextToken n
    else pure ()

/-! ## Scalars -/

/-- What a flow or plain scalar has gathered while folding lines: the text so far, the first
line break of a run, the further breaks, the blanks after the last word, and whether the scan
stands after a line break. -/
structure Folding where
  text : String := ""
  leadingBreak : String := ""
  trailingBreaks : String := ""
  whitespaces : String := ""
  leadingBlanks : Bool := false

/-- Puts pending blanks or line breaks into the text: blanks stay as they are, a single line
break becomes a space, and a run of breaks keeps all but the first. -/
def Folding.join (f : Folding) : Folding :=
  if f.leadingBlanks then
    if f.leadingBreak.isEmpty then
      { f with text := f.text ++ f.leadingBreak ++ f.trailingBreaks, leadingBreak := "",
               trailingBreaks := "" }
    else if f.trailingBreaks.isEmpty then
      { f with text := f.text.push ' ', leadingBreak := "" }
    else
      { f with text := f.text ++ f.trailingBreaks, trailingBreaks := "", leadingBreak := "" }
  else { f with text := f.text ++ f.whitespaces, whitespaces := "" }

/-- Reads blanks and line breaks inside a scalar: blanks are kept only before the first break
of a run, and breaks are counted. `tabCheck` refuses a tab left of `indent` after a break. -/
def foldBlanks (tabCheck : Option (Mark × Int)) : Nat → Folding → ScanM Folding
  | 0, f => pure f
  | n + 1, f => do
    let c ← cur
    if isBlank c then
      match tabCheck with
      | some (start, indent) =>
        if f.leadingBlanks && ((← here).col : Int) < indent && c = '\t' then
          fail start "while scanning a plain scalar, found a tab"
      | none => pure ()
      skip
      foldBlanks tabCheck n (if f.leadingBlanks then f else { f with whitespaces := f.whitespaces.push c })
    else if isBreak c then
      skipLine
      if f.leadingBlanks then
        foldBlanks tabCheck n { f with trailingBreaks := f.trailingBreaks.push '\n' }
      else
        foldBlanks tabCheck n
          { f with whitespaces := "", leadingBreak := f.leadingBreak.push '\n', leadingBlanks := true }
    else pure f

/-- Reads the characters of a plain scalar up to a blank, `: `, or a flow indicator inside a
flow collection. -/
def plainWords (flow : Bool) : Nat → Folding → ScanM Folding
  | 0, f => pure f
  | n + 1, f => do
    let c ← cur
    let c1 ← peekAt 1
    if isSpaceOrEnd c then pure f
    else if c = ':' && (isSpaceOrEnd c1 || (flow && isFlowIndicator c1)) then pure f
    else if flow && isFlowIndicator c then pure f
    else
      let f := if f.leadingBlanks || !f.whitespaces.isEmpty then { f.join with leadingBlanks := false } else f
      skip
      plainWords flow n { f with text := f.text.push c }

/-- Reads the lines of a plain scalar; in block context it stops at a line less indented than
`indent`, and always at a document marker or a comment. -/
def plainLines (start : Mark) (indent : Int) : Nat → Folding → ScanM Folding
  | 0, f => pure f
  | n + 1, f => do
    if ← atDocumentIndicator then return f
    if (← cur) = '#' then return f
    let f ← plainWords ((← get).flowLevel > 0) (← bound) f
    let c ← cur
    if !(isBlank c || isBreak c) then return f
    let f ← foldBlanks (some (start, indent)) (← bound) f
    let s ← get
    if s.flowLevel = 0 && (s.mark.col : Int) < indent then return f
    plainLines start indent n f

/-- Reads a plain scalar. -/
def scanPlainScalar : ScanM Token := do
  let s ← get
  let f ← plainLines s.mark (s.indent + 1) s.fuel {}
  if f.leadingBlanks then allowSimpleKey
  pure ⟨s.mark, .scalar .plain f.text⟩

/-- The character of a one-letter escape in a double-quoted scalar. -/
def simpleEscape : Char → Option Char
  | '0' => some '\x00'
  | 'a' => some '\x07'
  | 'b' => some '\x08'
  | 't' => some '\t'
  | '\t' => some '\t'
  | 'n' => some '\n'
  | 'v' => some '\x0b'
  | 'f' => some '\x0c'
  | 'r' => some '\r'
  | 'e' => some '\x1b'
  | ' ' => some ' '
  | '"' => some '"'
  | '\'' => some '\''
  | '\\' => some '\\'
  | 'N' => some '\u0085'
  | '_' => some ' '
  | 'L' => some ' '
  | 'P' => some ' '
  | _ => none

/-- The number of hexadecimal digits after `\x`, `\u` and `\U`. -/
def escapeDigits : Char → Nat
  | 'x' => 2
  | 'u' => 4
  | 'U' => 8
  | _ => 0

/-- The value of the `k` hexadecimal digits ahead, from offset `i`, without reading them. -/
def hexAhead (start : Mark) : Nat → Nat → Nat → ScanM Nat
  | 0, _, acc => pure acc
  | k + 1, i, acc => do
    match hexDigitValue (← peekAt i) with
    | some d => hexAhead start k (i + 1) (16 * acc + d)
    | none => fail start "while parsing a quoted scalar, did not find expected hexadecimal number"

/-- Reads an escape sequence after a backslash and adds its character. -/
def readEscape (start : Mark) (f : Folding) : ScanM Folding := do
  let e ← peekAt 1
  match simpleEscape e with
  | some c =>
    skip
    skip
    pure { f with text := f.text.push c }
  | none =>
    let k := escapeDigits e
    if k = 0 then fail start "while parsing a quoted scalar, found unknown escape character"
    skip
    skip
    let v ← hexAhead start k 0 0
    if !v.isValidChar then
      fail start "while parsing a quoted scalar, found invalid Unicode character escape code"
    for _ in List.range k do skip
    pure { f with text := f.text.push (Char.ofNat v) }

/-- Reads the characters of a quoted scalar up to a blank or the closing quote. The flag says
that an escaped line break ended the run. -/
def quotedWords (single : Bool) (start : Mark) : Nat → Folding → ScanM (Folding × Bool)
  | 0, f => pure (f, false)
  | n + 1, f => do
    let c ← cur
    let c1 ← peekAt 1
    if isSpaceOrEnd c then pure (f, false)
    else if single && c = '\'' && c1 = '\'' then
      skip
      skip
      quotedWords single start n { f with text := f.text.push '\'' }
    else if single && c = '\'' then pure (f, false)
    else if !single && c = '"' then pure (f, false)
    else if !single && c = '\\' && isBreak c1 then
      skip
      skipLine
      pure (f, true)
    else if !single && c = '\\' then
      quotedWords single start n (← readEscape start f)
    else
      skip
      quotedWords single start n { f with text := f.text.push c }

/-- Reads the lines of a quoted scalar up to its closing quote. -/
def quotedLines (single : Bool) (start : Mark) : Nat → Folding → ScanM Folding
  | 0, f => pure f
  | n + 1, f => do
    if ← atDocumentIndicator then
      fail start "while scanning a quoted scalar, found unexpected document indicator"
    if isEnd (← cur) then
      fail start "while scanning a quoted scalar, found unexpected end of stream"
    let (f, escapedBreak) ← quotedWords single start (← bound) f
    let f := { f with leadingBlanks := escapedBreak }
    let c ← cur
    if (single && c = '\'') || (!single && c = '"') then return f
    let f ← foldBlanks none (← bound) f
    quotedLines single start n f.join

/-- Reads a single- or double-quoted scalar. -/
def scanFlowScalar (single : Bool) : ScanM Token := do
  let start ← here
  skip
  let f ← quotedLines single start (← bound) {}
  skip
  pure ⟨start, .scalar (if single then .singleQuoted else .doubleQuoted) f.text⟩

/-- Skips the indentation of a line of a block scalar: up to `indent`, or all spaces when the
indentation is not known yet. -/
def blockIndentSpaces (indent : Nat) : Nat → ScanM Unit
  | 0 => pure ()
  | n + 1 => do
    if (indent = 0 || (← here).col < indent) && (← cur) = ' ' then
      skip
      blockIndentSpaces indent n

/-- Reads the empty lines of a block scalar, counting their breaks and the deepest
indentation seen. -/
def blockBreaksLoop (indent : Nat) : Nat → Nat → String → ScanM (Nat × String)
  | 0, deepest, breaks => pure (deepest, breaks)
  | n + 1, deepest, breaks => do
    blockIndentSpaces indent (← bound)
    let m ← here
    let deepest := max deepest m.col
    let c ← cur
    if (indent = 0 || m.col < indent) && c = '\t' then
      fail m "while scanning a block scalar, found a tab character where an indentation space is expected"
    if !isBreak c then return (deepest, breaks)
    skipLine
    blockBreaksLoop indent n deepest (breaks.push '\n')

/-- Reads the empty lines of a block scalar; when the indentation is not known yet (`0`), it
becomes the deepest seen, at least one more than the enclosing block and at least 1. -/
def blockScalarBreaks (indent : Nat) (breaks : String) : ScanM (Nat × String) := do
  let (deepest, breaks) ← blockBreaksLoop indent (← bound) 0 breaks
  if indent = 0 then
    let floor := ((← get).indent + 1).toNat
    pure (max 1 (max deepest floor), breaks)
  else pure (indent, breaks)

/-- The lines of a block scalar read so far. -/
structure BlockText where
  text : String := ""
  leadingBreak : String := ""
  trailingBreaks : String := ""
  leadingBlank : Bool := false

/-- Reads the lines of a block scalar at its indentation. A folded scalar joins two lines
that do not start with a blank by a space. -/
def blockLines (literal : Bool) (indent : Nat) : Nat → BlockText → ScanM BlockText
  | 0, b => pure b
  | n + 1, b => do
    let c ← cur
    if (← here).col ≠ indent || isEnd c then return b
    let text :=
      if !literal && !b.leadingBreak.isEmpty && !b.leadingBlank && !isBlank c then
        if b.trailingBreaks.isEmpty then b.text.push ' ' else b.text
      else b.text ++ b.leadingBreak
    let text ← takeWhile (fun c => !isBreakOrEnd c) (← bound) (text ++ b.trailingBreaks)
    if isEnd (← cur) then
      return { text := text, leadingBlank := isBlank c }
    skipLine
    let (_, trailing) ← blockScalarBreaks indent ""
    blockLines literal indent n
      { text := text, leadingBreak := "\n", trailingBreaks := trailing, leadingBlank := isBlank c }

/-- Reads the chomping indicator `+` or `-`. -/
def chompingOf (c : Char) : Int := if c = '+' then 1 else -1

/-- Reads a literal (`|`) or folded (`>`) block scalar with its header. -/
def scanBlockScalar (literal : Bool) : ScanM Token := do
  let start ← here
  skip
  let c ← cur
  let zero := "while scanning a block scalar, found an indentation indicator equal to 0"
  let (chomping, increment) ← do
    if c = '+' || c = '-' then
      skip
      let d ← cur
      if d.isDigit then
        if d = '0' then fail start zero
        skip
        pure (chompingOf c, d.toNat - '0'.toNat)
      else pure (chompingOf c, 0)
    else if c.isDigit then
      if c = '0' then fail start zero
      skip
      let d ← cur
      if d = '+' || d = '-' then
        skip
        pure (chompingOf d, c.toNat - '0'.toNat)
      else pure (0, c.toNat - '0'.toNat)
    else pure (0, 0)
  skipWhile isBlank
  if (← cur) = '#' then skipWhile (fun c => !isBreakOrEnd c)
  if !isBreakOrEnd (← cur) then
    fail start "while scanning a block scalar, did not find expected comment or line break"
  if isBreak (← cur) then skipLine
  let outer := (← get).indent
  let indent := if increment > 0 then (if outer ≥ 0 then (outer + increment).toNat else increment) else 0
  let (indent, trailing) ← blockScalarBreaks indent ""
  let mark ← here
  let b ← blockLines literal indent (← bound) { trailingBreaks := trailing }
  let text := if chomping ≠ -1 then b.text ++ b.leadingBreak else b.text
  let text := if chomping = 1 then text ++ b.trailingBreaks else text
  pure ⟨mark, .scalar (if literal then .literal else .folded) text⟩

/-! ## Anchors, aliases and tags -/

/-- Reads an anchor `&name` or an alias `*name`. -/
def scanAnchor (isAlias : Bool) : ScanM Token := do
  let start ← here
  skip
  let name ← takeWhile isWordChar (← bound) ""
  let c ← cur
  let ends := isSpaceOrEnd c || c = '?' || c = ':' || c = ',' || c = ']' || c = '}' ||
    c = '%' || c = '@' || c = '\x60'
  if name.isEmpty || !ends then
    fail start "while scanning an anchor or alias, did not find expected alphabetic or numeric character"
  pure ⟨start, if isAlias then .alias name else .anchor name⟩

/-- A character allowed in a tag. -/
def isUriChar (c : Char) : Bool :=
  isWordChar c || match c with
    | ';' | '/' | '?' | ':' | '@' | '&' | '=' | '+' | '$' | ',' | '.' | '!' | '~' | '*' | '\''
    | '(' | ')' | '[' | ']' | '%' => true
    | _ => false

/-- The width of a UTF-8 sequence from its leading octet. -/
def utf8Width (octet : Nat) : Option Nat :=
  if octet &&& 0x80 = 0 then some 1
  else if octet &&& 0xE0 = 0xC0 then some 2
  else if octet &&& 0xF0 = 0xE0 then some 3
  else if octet &&& 0xF8 = 0xF0 then some 4
  else none

/-- Reads the octets of `%XX` escapes in a tag; the code is the octets put side by side. -/
def uriOctets (start : Mark) : Nat → Nat → ScanM Nat
  | 0, code => pure code
  | left + 1, code => do
    let ok : Bool := (← cur) == '%'
    match ok, hexDigitValue (← peekAt 1), hexDigitValue (← peekAt 2) with
    | true, some hi, some lo =>
      let octet := 16 * hi + lo
      if octet &&& 0xC0 ≠ 0x80 then
        fail start "while parsing a tag, found an incorrect trailing UTF-8 octet"
      skip
      skip
      skip
      uriOctets start left (code * 256 + octet)
    | _, _, _ => fail start "while parsing a tag, did not find URI escaped octet"

/-- Reads one `%XX` escape sequence in a tag. -/
def uriEscape (start : Mark) : ScanM Char := do
  let ok : Bool := (← cur) == '%'
  match ok, hexDigitValue (← peekAt 1), hexDigitValue (← peekAt 2) with
  | true, some hi, some lo =>
    let octet := 16 * hi + lo
    match utf8Width octet with
    | some w =>
      skip
      skip
      skip
      let code ← uriOctets start (w - 1) octet
      if code.isValidChar then pure (Char.ofNat code)
      else fail start "while parsing a tag, found an invalid UTF-8 codepoint"
    | none => fail start "while parsing a tag, found an incorrect leading UTF-8 octet"
  | _, _, _ => fail start "while parsing a tag, did not find URI escaped octet"

/-- Reads the characters of a tag after `head` (whose leading `!` is dropped). -/
def tagUri (head : String) (start : Mark) : ScanM String := do
  let rec go : Nat → String → Nat → ScanM (String × Nat)
    | 0, acc, len => pure (acc, len)
    | n + 1, acc, len => do
      let c ← cur
      if !isUriChar c then return (acc, len)
      if c = '%' then go n (acc.push (← uriEscape start)) (len + 1)
      else
        skip
        go n (acc.push c) (len + 1)
  let init := if head.length > 1 then String.ofList (head.toList.drop 1) else ""
  let (s, len) ← go (← bound) init head.length
  if len = 0 then fail start "while parsing a tag, did not find expected tag URI"
  pure s

/-- Reads a tag handle: `!`, then word characters, then `!` if present. In a `%TAG`
directive the handle must be `!` or end in `!`. -/
def tagHandle (directive : Bool) (start : Mark) : ScanM String := do
  if (← cur) ≠ '!' then fail start "while scanning a tag, did not find expected '!'"
  skip
  let s ← takeWhile isWordChar (← bound) "!"
  if (← cur) = '!' then
    skip
    pure (s.push '!')
  else if directive && s ≠ "!" then
    fail start "while parsing a tag directive, did not find expected '!'"
  else pure s

/-- Reads a tag: `!<uri>`, `!handle!suffix`, `!suffix` or `!` alone. -/
def scanTag : ScanM Token := do
  let start ← here
  let (handle, suffix) ← do
    if (← peekAt 1) = '<' then
      skip
      skip
      let suffix ← tagUri "" start
      if (← cur) ≠ '>' then fail start "while scanning a tag, did not find the expected '>'"
      skip
      pure ("", suffix)
    else
      let handle ← tagHandle false start
      if handle.length ≥ 2 && handle.startsWith "!" && handle.endsWith "!" then
        pure (handle, ← tagUri "" start)
      else
        let suffix ← tagUri handle start
        if suffix.isEmpty then pure ("", "!") else pure ("!", suffix)
  if isSpaceOrEnd (← cur) then pure ⟨start, .tag handle suffix⟩
  else fail start "while scanning a tag, did not find expected whitespace or line break"

/-! ## Fetching tokens -/

/-- Queues the start of the text. -/
def fetchStreamStart : ScanM Unit := modify fun s =>
  { s with indent := -1, started := true, simpleKeyAllowed := true,
           tokens := s.tokens ++ [⟨s.mark, .streamStart⟩], simpleKeys := {} :: s.simpleKeys }

/-- Queues the end of the text, on a fresh line. -/
def fetchStreamEnd : ScanM Unit := do
  modify fun s =>
    if s.mark.col ≠ 0 then { s with mark := { s.mark with col := 0, line := s.mark.line + 1 } }
    else s
  unrollIndent (-1)
  removeSimpleKey
  disallowSimpleKey
  push { mark := ← here, kind := .streamEnd }

/-- Reads one number of a `%YAML` version: one to nine digits. -/
def versionNumber (start : Mark) : ScanM Unit := do
  let ds ← takeWhile Char.isDigit (← bound) ""
  if ds.length > 9 then
    fail start "while scanning a YAML directive, found extremely long version number"
  if ds.isEmpty then
    fail start "while scanning a YAML directive, did not find expected version number"

/-- Queues a directive: `%YAML` with a version `major.minor`, `%TAG` with a handle and a prefix,
or another name, whose line is skipped. Only blanks and a comment may follow it on its line. -/
def fetchDirective : ScanM Unit := do
  unrollIndent (-1)
  removeSimpleKey
  disallowSimpleKey
  let start ← here
  skip
  let nameMark ← here
  let name ← takeWhile isWordChar (← bound) ""
  if name.isEmpty then
    fail nameMark "while scanning a directive, could not find expected directive name"
  if !isSpaceOrEnd (← cur) then
    fail nameMark "while scanning a directive, found unexpected non-alphabetical character"
  if name = "YAML" then
    skipWhile isBlank
    versionNumber start
    if (← cur) ≠ '.' then
      fail start "while scanning a YAML directive, did not find expected digit or '.' character"
    skip
    versionNumber start
  else if name = "TAG" then
    skipWhile isBlank
    let _ ← tagHandle true start
    skipWhile isBlank
    let _ ← tagUri "" start
    if !isSpaceOrEnd (← cur) then
      fail start "while scanning TAG, did not find expected whitespace or line break"
  else skipWhile (fun c => !isBreakOrEnd c)
  skipWhile isBlank
  if (← cur) = '#' then skipWhile (fun c => !isBreakOrEnd c)
  if !isBreakOrEnd (← cur) then
    fail start "while scanning a directive, did not find expected comment or line break"
  if isBreak (← cur) then skipLine
  push ⟨start, .directive⟩

/-- Queues `---` or `...`. -/
def fetchDocumentIndicator (kind : TokenKind) : ScanM Unit := do
  unrollIndent (-1)
  removeSimpleKey
  disallowSimpleKey
  let mark ← here
  skip
  skip
  skip
  push ⟨mark, kind⟩

/-- Queues `[` or `{`. -/
def fetchFlowCollectionStart (kind : TokenKind) : ScanM Unit := do
  saveSimpleKey
  increaseFlowLevel
  allowSimpleKey
  let mark ← here
  skip
  push ⟨mark, kind⟩

/-- Queues `]` or `}`. -/
def fetchFlowCollectionEnd (kind : TokenKind) : ScanM Unit := do
  removeSimpleKey
  decreaseFlowLevel
  disallowSimpleKey
  let mark ← here
  skip
  push ⟨mark, kind⟩

/-- Queues `,`. -/
def fetchFlowEntry : ScanM Unit := do
  removeSimpleKey
  allowSimpleKey
  let mark ← here
  skip
  push ⟨mark, .flowEntry⟩

/-- Queues a block entry `-`, opening a block sequence when deeper. -/
def fetchBlockEntry : ScanM Unit := do
  let s ← get
  if s.flowLevel = 0 then
    if !s.simpleKeyAllowed then
      fail s.mark "block sequence entries are not allowed in this context"
    rollIndent s.mark.col none .blockSequenceStart s.mark
  else fail s.mark "\"-\" is only valid inside a block"
  removeSimpleKey
  allowSimpleKey
  let mark ← here
  skip
  push ⟨mark, .blockEntry⟩

/-- Queues an explicit key `?`. -/
def fetchKey : ScanM Unit := do
  let s ← get
  let start := s.mark
  if s.flowLevel = 0 then
    if !s.simpleKeyAllowed then fail start "mapping keys are not allowed in this context"
    rollIndent start.col none .blockMappingStart start
  removeSimpleKey
  if (← get).flowLevel = 0 then allowSimpleKey else disallowSimpleKey
  skip
  push ⟨start, .key⟩

/-- Queues a value indicator `:`; when a simple key is possible, its `key` token (and the
start of a block mapping) goes in front of it. -/
def fetchValue : ScanM Unit := do
  let s ← get
  let start := s.mark
  match s.simpleKeys with
  | sk :: rest =>
    if sk.possible then
      let pos := sk.tokenNumber - s.tokensParsed
      set { s with tokens := s.tokens.take pos ++ ({ mark := sk.mark, kind := .key } : Token) :: s.tokens.drop pos,
                   simpleKeys := { sk with possible := false } :: rest }
      rollIndent sk.mark.col (some sk.tokenNumber) .blockMappingStart start
      disallowSimpleKey
    else
      if s.flowLevel = 0 then
        if !s.simpleKeyAllowed then
          fail start "mapping values are not allowed in this context"
        rollIndent start.col none .blockMappingStart start
      if (← get).flowLevel = 0 then allowSimpleKey else disallowSimpleKey
  | [] => pure ()
  skip
  push ⟨start, .value⟩

/-- Queues an anchor or an alias. -/
def fetchAnchor (isAlias : Bool) : ScanM Unit := do
  saveSimpleKey
  disallowSimpleKey
  push (← scanAnchor isAlias)

/-- Queues a tag. -/
def fetchTag : ScanM Unit := do
  saveSimpleKey
  disallowSimpleKey
  push (← scanTag)

/-- Queues a block scalar. -/
def fetchBlockScalar (literal : Bool) : ScanM Unit := do
  saveSimpleKey
  allowSimpleKey
  push (← scanBlockScalar literal)

/-- Queues a quoted scalar. -/
def fetchFlowScalar (single : Bool) : ScanM Unit := do
  saveSimpleKey
  disallowSimpleKey
  let t ← scanFlowScalar single
  modify fun s => { s with adjacentValueAt := some s.mark.index }
  push t

/-- Queues a plain scalar. -/
def fetchPlainScalar : ScanM Unit := do
  saveSimpleKey
  disallowSimpleKey
  push (← scanPlainScalar)

/-- Reads the next token, or the tokens that close block collections before it. `?` and `:`
are indicators when a blank follows them; in a flow collection `:` is one also before a flow
indicator and right after a quoted scalar. Otherwise they start a plain scalar. -/
def fetchNextToken : ScanM Unit := do
  if !(← get).started then
    fetchStreamStart
    return
  skipToNextToken (← bound)
  staleSimpleKeys
  let mark ← here
  unrollIndent mark.col
  let c ← cur
  if isEnd c then
    fetchStreamEnd
    return
  if mark.col = 0 && c = '%' then
    fetchDirective
    return
  let c1 ← peekAt 1
  let c2 ← peekAt 2
  let c3 ← peekAt 3
  if mark.col = 0 && c = '-' && c1 = '-' && c2 = '-' && isSpaceOrEnd c3 then
    fetchDocumentIndicator .documentStart
    return
  if mark.col = 0 && c = '.' && c1 = '.' && c2 = '.' && isSpaceOrEnd c3 then
    fetchDocumentIndicator .documentEnd
    return
  let flow := (← get).flowLevel > 0
  match c with
  | '[' => fetchFlowCollectionStart .flowSequenceStart
  | '{' => fetchFlowCollectionStart .flowMappingStart
  | ']' => fetchFlowCollectionEnd .flowSequenceEnd
  | '}' => fetchFlowCollectionEnd .flowMappingEnd
  | ',' => fetchFlowEntry
  | '-' => if isSpaceOrEnd c1 then fetchBlockEntry else fetchPlainScalar
  | '?' => if isSpaceOrEnd c1 then fetchKey else fetchPlainScalar
  | ':' =>
    let adjacent := (← get).adjacentValueAt == some mark.index
    if isSpaceOrEnd c1 || (flow && (isFlowIndicator c1 || adjacent)) then fetchValue
    else fetchPlainScalar
  | '*' => fetchAnchor true
  | '&' => fetchAnchor false
  | '!' => fetchTag
  | '|' => if flow then fetchPlainScalar else fetchBlockScalar true
  | '>' => if flow then fetchPlainScalar else fetchBlockScalar false
  | '\'' => fetchFlowScalar true
  | '"' => fetchFlowScalar false
  | '%' | '@' | '\x60' => fail mark ("unexpected character: `" ++ c.toString ++ "'")
  | _ => fetchPlainScalar

/-- Reads tokens until one can be handed out: the queue is not empty and no possible simple
key points at its head. -/
def fetchMoreTokens : Nat → ScanM Unit
  | 0 => pure ()
  | n + 1 => do
    let needMore ← do
      if (← get).tokens.isEmpty then pure true
      else
        staleSimpleKeys
        let s ← get
        pure (s.simpleKeys.any fun sk => sk.possible && sk.tokenNumber == s.tokensParsed)
    if needMore then
      fetchNextToken
      fetchMoreTokens n

end Scanner

namespace Scanner

/-- Hands out the next token; nothing after the end of the text. -/
def next : ScanM (Option Token) := do
  let s ← get
  if s.ended then return none
  if !s.tokenAvailable then fetchMoreTokens (s.fuel + 8)
  let s ← get
  match s.tokens with
  | t :: rest =>
    let ended := match t.kind with
      | .streamEnd => true
      | _ => false
    set { s with tokens := rest, tokenAvailable := false, tokensParsed := s.tokensParsed + 1,
                 ended := ended }
    pure (some t)
  | [] => pure none

end Scanner

end Yaml

end ShareBroker
