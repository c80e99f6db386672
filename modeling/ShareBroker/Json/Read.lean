import ShareBroker.Json.Basic
import ShareBroker.Decode.Error
import ShareBroker.Decimal.Nearest

/-! # Reading JSON text

`Json.read` reads one JSON value from a text, and `Json.readStringMap` reads an object whose
values are all strings (the text form of a databag). Both fail with a `ReadError` that names
the cause and the place: `expected value at line 1 column 1`.

The place is the line (from 1) and the column, counted in bytes of the UTF-8 text from the
start of that line. Most errors are reported at the byte where reading stopped; an error found
by looking at the next byte without taking it (a peek) is reported one byte further on, but
never past the end of the text. Reading goes byte by byte, so a character of several bytes
that stops it counts as one byte taken, and a `\u` escape takes its four bytes before they
are checked.

The rules of the grammar:

* blanks are space, tab, line feed and carriage return;
* a number is an optional `-`, then `0` or a digit run without leading zero, then an optional
  fraction and exponent; an integer that fits a 64-bit word stays an integer (`-0` and the
  rest become doubles); a double is its first digits, as many as fit a 64-bit word, scaled
  by a power of ten in double arithmetic, so the last bit may differ from the nearest double,
  and one that overflows is `number out of range`;
* a string takes the escapes `\" \\ \/ \b \f \n \r \t \uXXXX`, a surrogate pair for a
  character beyond the first plane, and no raw character below U+0020;
* objects and arrays nest at most 127 deep;
* after the value only blanks may follow.

An object read as a value keeps its keys sorted, a later duplicate replacing an earlier one.
`Json.readRecord` reads a record: it keeps the fields the record knows as written, for records
that must see duplicates, and only skips the others, checking their grammar and nothing more.
-/

namespace ShareBroker

namespace Json

/-- A place in a text: the line from 1 and the byte column from 0. -/
structure Position where
  line : Nat
  column : Nat

/-- Syntax errors of JSON text. -/
inductive SyntaxError where
  | eofValue
  | eofString
  | eofList
  | eofObject
  | expectedColon
  | expectedListCommaOrEnd
  | expectedObjectCommaOrEnd
  | expectedIdent
  | expectedValue
  | invalidEscape
  | invalidNumber
  | numberOutOfRange
  | controlCharacter
  | keyMustBeString
  | loneLeadingSurrogate
  | trailingComma
  | trailingCharacters
  | unexpectedEndOfHexEscape
  | recursionLimit

/-- The message of a syntax error. -/
def SyntaxError.message : SyntaxError → String
  | .eofValue => "EOF while parsing a value"
  | .eofString => "EOF while parsing a string"
  | .eofList => "EOF while parsing a list"
  | .eofObject => "EOF while parsing an object"
  | .expectedColon => "expected `:`"
  | .expectedListCommaOrEnd => "expected `,` or `]`"
  | .expectedObjectCommaOrEnd => "expected `,` or `\x7d`"
  | .expectedIdent => "expected ident"
  | .expectedValue => "expected value"
  | .invalidEscape => "invalid escape"
  | .invalidNumber => "invalid number"
  | .numberOutOfRange => "number out of range"
  | .controlCharacter => "control character (\\u0000-\\u001F) found while parsing a string"
  | .keyMustBeString => "key must be a string"
  | .loneLeadingSurrogate => "lone leading surrogate in hex escape"
  | .trailingComma => "trailing comma"
  | .trailingCharacters => "trailing characters"
  | .unexpectedEndOfHexEscape => "unexpected end of hex escape"
  | .recursionLimit => "recursion limit exceeded"

/-- Why reading failed: bad syntax, or a value of the wrong kind for the target. -/
inductive ReadCause where
  | malformed (e : SyntaxError)
  | decode (e : DecodeError)

/-- A reading error with its place. -/
structure ReadError where
  cause : ReadCause
  pos : Position

/-- The message of a reading error: the cause, then its place. -/
def ReadError.message (e : ReadError) : String :=
  let text := match e.cause with
    | .malformed s => s.message
    | .decode d => d.message
  text ++ " at line " ++ toString e.pos.line ++ " column " ++ toString e.pos.column

/-- The unread rest of a text and the place where it starts. -/
structure Cursor where
  rest : List Char
  line : Nat
  column : Nat

namespace Cursor

/-- A cursor at the start of a text. -/
def start (s : String) : Cursor := ⟨s.toList, 1, 0⟩

/-- Takes one character. -/
def advance (c : Cursor) : Cursor :=
  match c.rest with
  | [] => c
  | ch :: r => if ch = '\n' then ⟨r, c.line + 1, 0⟩ else ⟨r, c.line, c.column + ch.utf8Size⟩

/-- The place of the next unread byte. -/
def here (c : Cursor) : Position := ⟨c.line, c.column⟩

/-- The place one byte further on, never past the end. -/
def peekPos (c : Cursor) : Position :=
  match c.rest with
  | [] => c.here
  | '\n' :: _ => ⟨c.line + 1, 0⟩
  | _ :: _ => ⟨c.line, c.column + 1⟩

/-- The place `k` bytes further on along `rest`, from `p`. -/
def placeAhead : List Char → Position → Nat → Position
  | _, p, 0 => p
  | [], p, _ => p
  | ch :: r, p, k + 1 =>
    if ch.utf8Size ≤ k + 1 then
      placeAhead r (if ch = '\n' then ⟨p.line + 1, 0⟩ else ⟨p.line, p.column + ch.utf8Size⟩)
        (k + 1 - ch.utf8Size)
    else ⟨p.line, p.column + k + 1⟩

/-- The place `k` bytes further on, never past the end. -/
def bytesAhead (c : Cursor) (k : Nat) : Position := placeAhead c.rest c.here k

/-- The place of the end of the text. -/
def endPos (c : Cursor) : Position :=
  c.rest.foldl (fun p ch => if ch = '\n' then ⟨p.line + 1, 0⟩ else ⟨p.line, p.column + ch.utf8Size⟩)
    c.here

end Cursor

/-- A reader: a step over the cursor that may fail. -/
abbrev Reader := StateT Cursor (Except ReadError)

namespace Reader

/-- Fails with `e` at the place of the next unread byte. -/
def fail {α : Type} (e : SyntaxError) : Reader α := do
  let c ← get
  throw ⟨.malformed e, c.here⟩

/-- Fails with `e` one byte past the next unread byte. -/
def failPeek {α : Type} (e : SyntaxError) : Reader α := do
  let c ← get
  throw ⟨.malformed e, c.peekPos⟩

/-- Fails with `e` just after the first byte of a character already taken. -/
def failTaken {α : Type} (ch : Char) (e : SyntaxError) : Reader α := do
  let c ← get
  if ch = '\n' then throw ⟨.malformed e, c.here⟩
  else throw ⟨.malformed e, ⟨c.line, c.column + 1 - ch.utf8Size⟩⟩

/-- Fails with a decoding error at the place of the next unread byte. -/
def failDecode {α : Type} (e : DecodeError) : Reader α := do
  let c ← get
  throw ⟨.decode e, c.here⟩

/-- The next character, not taken. -/
def peek : Reader (Option Char) := do
  return (← get).rest.head?

/-- Takes one character. -/
def bump : Reader Unit := modify Cursor.advance

/-- Takes and returns the next character. -/
def next : Reader (Option Char) := do
  let c ← peek
  bump
  return c

/-- Skips blanks and returns the next character, not taken. -/
def skipBlanks : Reader (Option Char) := do
  let c ← get
  let blank (ch : Char) : Bool := ch = ' ' ∨ ch = '\n' ∨ ch = '\t' ∨ ch = '\r'
  let taken := c.rest.takeWhile blank
  set (taken.foldl (fun c' _ => c'.advance) c)
  peek

/-- Takes the letters of a keyword after its first letter. -/
def keyword (letters : List Char) : Reader Unit :=
  letters.forM fun ch => do
    match ← next with
    | none => fail .eofValue
    | some c => if c = ch then pure () else failTaken c .expectedIdent

/-- Takes a run of ASCII digits. -/
def digits : Reader (List Char) := do
  let c ← get
  let ds := c.rest.takeWhile Char.isDigit
  set (ds.foldl (fun c' _ => c'.advance) c)
  return ds

/-- The natural number of a digit list. -/
def digitsValue (ds : List Char) : Nat :=
  ds.foldl (fun n d => 10 * n + (d.toNat - '0'.toNat)) 0

/-- The largest 64-bit word, past which a significand stops growing. -/
def wordMax : Nat := Nat.pow 2 64 - 1

/-- The largest signed 32-bit word, past which an exponent stops growing. -/
def exponentMax : Nat := Nat.pow 2 31 - 1

/-- Whether `10 * n + d` passes `limit`. -/
def passes (n d limit : Nat) : Bool := n ≥ limit / 10 && (n > limit / 10 || d > limit % 10)

/-- Appends digits to `n` while the value stays within `limit`: the value, and how many
digits were taken before the first one that would pass it. -/
def gather (limit : Nat) : Nat → List Char → Nat × Nat
  | n, [] => (n, 0)
  | n, d :: ds =>
    let v := d.toNat - '0'.toNat
    if passes n v limit then (n, 0)
    else
      let (m, k) := gather limit (10 * n + v) ds
      (m, k + 1)

/-- An exponent held in a signed 32-bit word: sums saturate at its bounds. -/
def saturate (e : Int) : Int :=
  if e < -Int.pow 2 31 then -Int.pow 2 31 else if (exponentMax : Int) < e then exponentMax else e

/-- Scales a double by `10 ^ e` with one product or quotient by the double nearest to a power
of ten; below `10 ^ -308` it first divides by `1e308` as often as needed. `none` when the
product overflows, or when `e` passes `308` and the double is not zero. -/
def scale (f : Float) (e : Int) : Option Float :=
  if e.natAbs ≤ 308 then
    if 0 ≤ e then
      let g := f * Decimal.pow10 e.natAbs
      if g.isInf then none else some g
    else some (f / Decimal.pow10 e.natAbs)
  else if f == 0.0 then some f
  else if 0 ≤ e then none
  else scale (f / Decimal.pow10 308) (e + 308)
termination_by e.natAbs
decreasing_by omega

/-- Reads the digits of an exponent after its `e` and sign. `Sum.inl e` is its value;
`Sum.inr k` says that the digit at index `k` took it past a 32-bit word. -/
def exponentDigits : Reader (Sum Nat Nat) := do
  match ← next with
  | none => fail .eofValue
  | some d =>
    if d.isDigit then do
      let more ← digits
      let (v, k) := gather exponentMax (d.toNat - '0'.toNat) more
      pure (if k < more.length then .inr (k + 1) else .inl v)
    else failTaken d .invalidNumber

/-- Reads a number after its sign; `negative` tells whether a `-` was taken.

The digits build a significand while it fits a 64-bit word; integer digits past that count
into the decimal exponent, fraction digits past it are dropped. A number with neither
fraction nor exponent whose digits all fit is an integer (a negative one down to `-2 ^ 63`,
with `-0` a double); any other number is the significand, rounded to a double, scaled by its
decimal exponent (`scale`). An exponent past a 32-bit word is out of range when the number is
not zero and the exponent is positive, and zero otherwise. -/
def number (negative : Bool) : Reader JsonNumber := do
  let first ← next
  let intDigits ← match first with
    | none => fail .eofValue
    | some '0' =>
      match ← peek with
      | some d => if d.isDigit then failPeek .invalidNumber else pure ['0']
      | none => pure ['0']
    | some d =>
      if d.isDigit then do
        let more ← digits
        pure (d :: more)
      else failTaken d .invalidNumber
  let (sig, taken) := gather wordMax 0 intDigits
  let long := taken < intDigits.length
  let shift : Int := (intDigits.length - taken : Nat)
  let (sig, shift, hasFraction) ← match ← peek with
    | some '.' => do
      bump
      let fs ← digits
      if fs.isEmpty then
        match ← peek with
        | some _ => failPeek .invalidNumber
        | none => failPeek .eofValue
      else
        let (sig', taken') := gather wordMax sig fs
        pure (sig', shift - (taken' : Int), true)
    | _ => pure (sig, shift, false)
  let sign (f : Float) : Float := if negative then -f else f
  match ← peek with
  | some 'e' | some 'E' => do
    bump
    let expNegative ← match ← peek with
      | some '+' => do bump; pure false
      | some '-' => do bump; pure true
      | _ => pure false
    let start ← get
    match ← exponentDigits with
    | .inr k =>
      if sig ≠ 0 ∧ !expNegative then
        throw ⟨.malformed .numberOutOfRange, ⟨start.line, start.column + k + 1⟩⟩
      else pure (.float (sign 0.0))
    | .inl v =>
      let e := saturate (if expNegative then shift - v else shift + v)
      match scale (Decimal.toDouble sig) e with
      | some f => pure (.float (sign f))
      | none => fail .numberOutOfRange
  | _ =>
    if long ∨ hasFraction then
      match scale (Decimal.toDouble sig) shift with
      | some f => pure (.float (sign f))
      | none => fail .numberOutOfRange
    else if !negative then pure (.int sig)
    else if sig = 0 ∨ Nat.pow 2 63 < sig then pure (.float (-Decimal.toDouble sig))
    else pure (.int (-(sig : Int)))

/-- The value of a hex digit. -/
def hexValue (c : Char) : Option Nat :=
  if c.isDigit then some (c.toNat - '0'.toNat)
  else if 'a' ≤ c ∧ c ≤ 'f' then some (c.toNat - 'a'.toNat + 10)
  else if 'A' ≤ c ∧ c ≤ 'F' then some (c.toNat - 'A'.toNat + 10)
  else none

/-- Reads the four hex digits of a `\u` escape. The four bytes are taken before they are
checked, so a bad digit is reported after them; fewer than four bytes left is the end of the
text inside a string. -/
def hexEscape : Reader Nat := do
  let c ← get
  if c.rest.foldr (fun ch n => ch.utf8Size + n) 0 < 4 then
    throw ⟨.malformed .eofString, c.endPos⟩
  else
    let ds := c.rest.take 4
    match ds.mapM hexValue with
    | some [a, b, d, e] => do
      set (ds.foldl (fun c' _ => c'.advance) c)
      pure (((16 * a + b) * 16 + d) * 16 + e)
    | _ => throw ⟨.malformed .invalidEscape, c.bytesAhead 4⟩

/-- Reads a `\u` escape after the `u`, with the second half of a surrogate pair. -/
def unicodeEscape : Reader Char := do
  let n ← hexEscape
  if 0xDC00 ≤ n ∧ n ≤ 0xDFFF then fail .loneLeadingSurrogate
  else if n < 0xD800 ∨ 0xDBFF < n then pure (Char.ofNat n)
  else
    match ← peek with
    | none => fail .eofString
    | some '\\' => bump
    | some _ => failPeek .unexpectedEndOfHexEscape
    match ← peek with
    | none => fail .eofString
    | some 'u' => bump
    | some _ => failPeek .unexpectedEndOfHexEscape
    let n2 ← hexEscape
    if n2 < 0xDC00 ∨ 0xDFFF < n2 then fail .loneLeadingSurrogate
    else pure (Char.ofNat ((n - 0xD800) * 0x400 + (n2 - 0xDC00) + 0x10000))

/-- Reads the rest of a string after its opening quote. -/
def stringBody : Nat → List Char → Reader String
  | 0, _ => fail .eofString
  | fuel + 1, acc => do
    match ← next with
    | none => fail .eofString
    | some '"' => pure (String.ofList acc.reverse)
    | some '\\' =>
      match ← next with
      | none => fail .eofString
      | some '"' => stringBody fuel ('"' :: acc)
      | some '\\' => stringBody fuel ('\\' :: acc)
      | some '/' => stringBody fuel ('/' :: acc)
      | some 'b' => stringBody fuel ('\x08' :: acc)
      | some 'f' => stringBody fuel ('\x0c' :: acc)
      | some 'n' => stringBody fuel ('\n' :: acc)
      | some 'r' => stringBody fuel ('\r' :: acc)
      | some 't' => stringBody fuel ('\t' :: acc)
      | some 'u' => do
        let ch ← unicodeEscape
        stringBody fuel (ch :: acc)
      | some other => failTaken other .invalidEscape
    | some ch =>
      if ch.toNat < 0x20 then fail .controlCharacter
      else stringBody fuel (ch :: acc)

/-- Reads a string after its opening quote. -/
def string : Reader String := do
  let c ← get
  stringBody (c.rest.length + 1) []

/-! ### Skipping a value

A field that a record does not know is skipped, not read: only its grammar is checked, so a
number out of range, an escape naming half a surrogate pair and nesting of any depth are all
passed over. -/

/-- Skips a number after its sign, checking only its grammar. -/
def skipNumber : Reader Unit := do
  match ← next with
  | some '0' =>
    match ← peek with
    | some d => if d.isDigit then failPeek .invalidNumber else pure ()
    | none => pure ()
  | some d => if d.isDigit then do let _ ← digits; pure () else failTaken d .invalidNumber
  | none => fail .invalidNumber
  if (← peek) = some '.' then
    bump
    let fs ← digits
    if fs.isEmpty then failPeek .invalidNumber
  match ← peek with
  | some 'e' | some 'E' => do
    bump
    match ← peek with
    | some '+' | some '-' => bump
    | _ => pure ()
    match ← next with
    | some d => if d.isDigit then do let _ ← digits; pure () else failTaken d .invalidNumber
    | none => fail .invalidNumber
  | _ => pure ()

/-- Skips the rest of a string after its opening quote; a raw control character is reported
where it stands. -/
def skipStringBody : Nat → Reader Unit
  | 0 => fail .eofString
  | fuel + 1 => do
    match ← peek with
    | none => fail .eofString
    | some '"' => bump
    | some '\\' => do
      bump
      match ← next with
      | none => fail .eofString
      | some 'u' => do let _ ← hexEscape; skipStringBody fuel
      | some c =>
        if ['"', '\\', '/', 'b', 'f', 'n', 'r', 't'].contains c then skipStringBody fuel
        else failTaken c .invalidEscape
    | some ch => if ch.toNat < 0x20 then fail .controlCharacter else do bump; skipStringBody fuel

mutual

/-- Skips one value. -/
def skipValue : Nat → Reader Unit
  | 0 => fail .recursionLimit
  | fuel + 1 => do
    match ← skipBlanks with
    | none => failPeek .eofValue
    | some 'n' => do bump; keyword ['u', 'l', 'l']
    | some 't' => do bump; keyword ['r', 'u', 'e']
    | some 'f' => do bump; keyword ['a', 'l', 's', 'e']
    | some '-' => do bump; skipNumber
    | some '"' => do bump; skipStringBody fuel
    | some '[' => do bump; skipItems fuel true
    | some '{' => do bump; skipMembers fuel true
    | some d => if d.isDigit then skipNumber else failPeek .expectedValue

/-- Skips array items and the closing bracket. -/
def skipItems : Nat → Bool → Reader Unit
  | 0, _ => fail .recursionLimit
  | fuel + 1, first => do
    match ← skipBlanks with
    | some ']' => bump
    | none => failPeek .eofList
    | some c =>
      if first then do skipValue fuel; skipItems fuel false
      else if c = ',' then do bump; skipValue fuel; skipItems fuel false
      else failPeek .expectedListCommaOrEnd

/-- Skips object members and the closing brace. -/
def skipMembers : Nat → Bool → Reader Unit
  | 0, _ => fail .recursionLimit
  | fuel + 1, first => do
    match ← skipBlanks with
    | some '}' => bump
    | none => failPeek .eofObject
    | some c =>
      if first || c = ',' then do
        if !first then bump
        match ← skipBlanks with
        | some '"' => do bump; skipStringBody fuel
        | some _ => failPeek .keyMustBeString
        | none => failPeek .eofObject
        match ← skipBlanks with
        | some ':' => bump
        | some _ => failPeek .expectedColon
        | none => failPeek .eofObject
        skipValue fuel
        skipMembers fuel false
      else failPeek .expectedObjectCommaOrEnd

end

/-- Skips one value, with fuel enough for the rest of the text. -/
def skip : Reader Unit := do
  let c ← get
  skipValue (2 * c.rest.length + 4)

/-- What a value is expected to be. -/
inductive Shape where
  | any
  | string
  | stringMap
  /-- An object whose fields named in `known` are read and whose other fields are skipped;
  anything else is read as any value. -/
  | record (known : List String)

/-- Reads a value of the wrong kind only to name it in an error, at the place after it. -/
def wrongKind {α : Type} (expected : String) : Reader α := do
  match ← peek with
  | some 'n' => do bump; keyword ['u', 'l', 'l']; failDecode (.invalidType .null expected)
  | some 't' => do bump; keyword ['r', 'u', 'e']; failDecode (.invalidType (.bool true) expected)
  | some 'f' => do
    bump; keyword ['a', 'l', 's', 'e']; failDecode (.invalidType (.bool false) expected)
  | some '-' => do
    bump
    let n ← number true
    failDecode (.invalidType (Unexpected.ofJson (.num n)) expected)
  | some '"' => do
    bump
    let s ← string
    failDecode (.invalidType (.str s) expected)
  | some '[' => failDecode (.invalidType .seq expected)
  | some '{' => failDecode (.invalidType .map expected)
  | some d =>
    if d.isDigit then do
      let n ← number false
      failDecode (.invalidType (Unexpected.ofJson (.num n)) expected)
    else failPeek .expectedValue
  | none => failPeek .expectedValue

mutual

/-- Reads a value of the given shape. `depth` is how many more levels may open; `fuel`
bounds the recursion and is never the limit in practice. -/
def value : Nat → Nat → Shape → Reader Json
  | 0, _, _ => fail .recursionLimit
  | fuel + 1, depth, shape => do
    match ← skipBlanks with
    | none => failPeek .eofValue
    | some ch =>
      match shape with
      | .string =>
        if ch = '"' then do bump; return .str (← string) else wrongKind "a string"
      | .stringMap =>
        if ch = '{' then openObject fuel depth .string else wrongKind "a map"
      | .any | .record _ =>
        match ch with
        | 'n' => do bump; keyword ['u', 'l', 'l']; return .null
        | 't' => do bump; keyword ['r', 'u', 'e']; return .bool true
        | 'f' => do bump; keyword ['a', 'l', 's', 'e']; return .bool false
        | '-' => do bump; return .num (← number true)
        | '"' => do bump; return .str (← string)
        | '[' => openArray fuel depth
        | '{' => openObject fuel depth (match shape with | .record k => .record k | _ => .any)
        | d => if d.isDigit then return .num (← number false) else failPeek .expectedValue

/-- Reads an array at its opening bracket. -/
def openArray : Nat → Nat → Reader Json
  | 0, _ => fail .recursionLimit
  | fuel + 1, depth => do
    if depth ≤ 1 then failPeek .recursionLimit
    else
      bump
      let xs ← items fuel (depth - 1) true []
      match ← skipBlanks with
      | some ']' => do bump; return .arr xs
      | some ',' => do
        bump
        match ← skipBlanks with
        | some ']' => failPeek .trailingComma
        | _ => failPeek .trailingCharacters
      | some _ => failPeek .trailingCharacters
      | none => failPeek .eofList

/-- Reads array items up to, not including, the closing bracket. -/
def items : Nat → Nat → Bool → List Json → Reader (List Json)
  | 0, _, _, _ => fail .recursionLimit
  | fuel + 1, depth, first, acc => do
    let peeked : Option (Option Char) ← match ← skipBlanks with
      | some ']' => pure none
      | some ',' =>
        if first then pure (some (some ',')) else do bump; pure (some (← skipBlanks))
      | some ch => if first then pure (some (some ch)) else failPeek .expectedListCommaOrEnd
      | none => failPeek .eofList
    match peeked with
    | none => return acc.reverse
    | some none => failPeek .eofValue
    | some (some ']') => failPeek .trailingComma
    | some (some _) => do
      let v ← value fuel depth .any
      items fuel depth false (v :: acc)

/-- Reads an object at its opening brace; values have the given shape. -/
def openObject : Nat → Nat → Shape → Reader Json
  | 0, _, _ => fail .recursionLimit
  | fuel + 1, depth, shape => do
    if depth ≤ 1 then failPeek .recursionLimit
    else
      bump
      let fs ← members fuel (depth - 1) shape true []
      match ← skipBlanks with
      | some '}' => do bump; return .obj fs
      | some ',' => failPeek .trailingComma
      | some _ => failPeek .trailingCharacters
      | none => fail .eofObject

/-- Reads object members up to, not including, the closing brace, in written order. -/
def members : Nat → Nat → Shape → Bool → Fields → Reader Fields
  | 0, _, _, _, _ => fail .recursionLimit
  | fuel + 1, depth, shape, first, acc => do
    let peeked : Option (Option Char) ← match ← skipBlanks with
      | some '}' => pure none
      | some ',' =>
        if first then pure (some (some ',')) else do bump; pure (some (← skipBlanks))
      | some ch => if first then pure (some (some ch)) else failPeek .expectedObjectCommaOrEnd
      | none => failPeek .eofObject
    match peeked with
    | none => return acc.reverse
    | some none => failPeek .eofValue
    | some (some '"') => do
      bump
      let k ← string
      match ← skipBlanks with
      | some ':' => bump
      | some _ => failPeek .expectedColon
      | none => failPeek .eofObject
      match shape with
      | .record known =>
        if known.contains k then do
          let v ← value fuel depth .any
          members fuel depth shape false ((k, v) :: acc)
        else do
          skip
          members fuel depth shape false acc
      | _ => do
        let v ← value fuel depth shape
        members fuel depth shape false ((k, v) :: acc)
    | some (some '}') => failPeek .trailingComma
    | some (some _) => failPeek .keyMustBeString

end

/-- Reads a whole text as one value of the given shape, with only blanks after it. -/
def whole (shape : Shape) : Reader Json := do
  let c ← get
  let v ← value (2 * c.rest.length + 4) 128 shape
  match ← skipBlanks with
  | some _ => failPeek .trailingCharacters
  | none => return v

end Reader

mutual

/-- The sorted form of a value read from text: every object's keys sorted, the last of
duplicate keys kept. -/
def sorted : Json → Json
  | .arr xs => .arr (sortedItems xs)
  | .obj fs => .obj (Fields.normalize (sortedFields fs))
  | v => v

/-- `sorted` on each item. -/
def sortedItems : List Json → List Json
  | [] => []
  | x :: xs => sorted x :: sortedItems xs

/-- `sorted` on each field value. -/
def sortedFields : List (String × Json) → List (String × Json)
  | [] => []
  | (k, v) :: fs => (k, sorted v) :: sortedFields fs

end

/-- Reads a text as one JSON value, objects with sorted keys. -/
def read (s : String) : Except ReadError Json :=
  ((Reader.whole .any).run' (Cursor.start s)).map sorted

/-- Reads a text as a record with the fields `known`: those fields are kept as written,
duplicates included, and the other fields of an object are skipped. -/
def readRecord (known : List String) (s : String) : Except ReadError Json :=
  (Reader.whole (.record known)).run' (Cursor.start s)


/-- Reads a text as an object of strings, keys sorted and the last duplicate kept. -/
def readStringMap (s : String) : Except ReadError (List (String × String)) :=
  match (Reader.whole .stringMap).run' (Cursor.start s) with
  | .ok (.obj fs) =>
    .ok ((Fields.normalize fs).map fun kv => (kv.1, (kv.2.str?).getD ""))
  | .ok _ => .ok []
  | .error e => .error e

end Json

end ShareBroker
