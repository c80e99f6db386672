/-! # Tokens of YAML text

A YAML text is first cut into tokens: indicators of structure (start and end of block and flow
collections, entries, keys and values, document markers), scalars with their style, anchors,
aliases and tags. Each token carries the place where it starts (`Mark`): the count of
characters before it, its line (from 1) and its column (from 0).

A malformed text stops with a `ScanError`, shown as `<what> at line <l> column <c>` with the
column counted from 1.
-/

namespace ShareBroker

namespace Yaml

/-- A place in the text. -/
structure Mark where
  index : Nat := 0
  line : Nat := 1
  col : Nat := 0
  deriving Inhabited, DecidableEq

/-- The place after a character. -/
def Mark.advance (m : Mark) (c : Char) : Mark :=
  if c = '\n' then { index := m.index + 1, line := m.line + 1, col := 0 }
  else { m with index := m.index + 1, col := m.col + 1 }

/-- Why a text could not be read, and where. -/
structure ScanError where
  mark : Mark
  info : String
  deriving Inhabited

/-- The message of a reading error. -/
def ScanError.message (e : ScanError) : String :=
  e.info ++ " at line " ++ toString e.mark.line ++ " column " ++ toString (e.mark.col + 1)

/-- How a scalar was written. -/
inductive ScalarStyle where
  | plain
  | singleQuoted
  | doubleQuoted
  | literal
  | folded
  deriving DecidableEq, Inhabited

/-- The kinds of tokens. -/
inductive TokenKind where
  | streamStart
  | streamEnd
  /-- A directive line (`%YAML`, `%TAG` or another). -/
  | directive
  | documentStart
  | documentEnd
  | blockSequenceStart
  | blockMappingStart
  | blockEnd
  | flowSequenceStart
  | flowSequenceEnd
  | flowMappingStart
  | flowMappingEnd
  | blockEntry
  | flowEntry
  | key
  | value
  | alias (name : String)
  | anchor (name : String)
  | tag (handle suffix : String)
  | scalar (style : ScalarStyle) (text : String)
  deriving Inhabited

/-- A token and where it starts. -/
structure Token where
  mark : Mark
  kind : TokenKind
  deriving Inhabited

/-! ## Classes of characters

The end of the text reads as the character `U+0000`. -/

/-- A line break. -/
def isBreak (c : Char) : Bool := c = '\n' || c = '\r'

/-- The end of the text. -/
def isEnd (c : Char) : Bool := c = '\x00'

/-- A line break or the end. -/
def isBreakOrEnd (c : Char) : Bool := isBreak c || isEnd c

/-- A space or a tab. -/
def isBlank (c : Char) : Bool := c = ' ' || c = '\t'

/-- A blank, a line break or the end. -/
def isSpaceOrEnd (c : Char) : Bool := isBlank c || isBreakOrEnd c

/-- An indicator of flow collections. -/
def isFlowIndicator (c : Char) : Bool :=
  c = ',' || c = '[' || c = ']' || c = '{' || c = '}'

/-- A character of anchor names and tag handles: ASCII letters and digits, `_` and `-`. -/
def isWordChar (c : Char) : Bool :=
  ('0' ≤ c && c ≤ '9') || ('a' ≤ c && c ≤ 'z') || ('A' ≤ c && c ≤ 'Z') || c = '_' || c = '-'

/-- The value of a hexadecimal digit. -/
def hexDigitValue (c : Char) : Option Nat :=
  if '0' ≤ c && c ≤ '9' then some (c.toNat - '0'.toNat)
  else if 'a' ≤ c && c ≤ 'f' then some (c.toNat - 'a'.toNat + 10)
  else if 'A' ≤ c && c ≤ 'F' then some (c.toNat - 'A'.toNat + 10)
  else none

end Yaml

end ShareBroker
