import PacketFilter.Literal.Number
import PacketFilter.Unicode.Identifier

/-!
# Tokens of the literal notation

Rulesets and scenarios are RON files, files of literals: numbers, strings, names, lists in brackets,
and groups in parentheses. This module cuts a text into tokens. Blanks separate tokens; comments run
to the end of the line, or stand between `/*` and `*/`, which nest.

The scanner takes one character after another. Its mode says what it is in the middle of, and
keeps the characters read so far in reverse. An opening parenthesis comes with the text behind it,
for what a group is may depend on what a reader sees there.
-/

namespace PacketFilter.Literal

/-- A token. -/
inductive Token where
  /-- A name, which may be marked as one with `r#`. -/
  | name (s : String) (marked : Bool)
  | integer (n : Int) (type : Option IntType)
  | text (s : String)
  /-- A fraction, a character or a string of bytes. -/
  | scalar
  /-- An opening parenthesis and the text behind it. -/
  | openGroup (behind : List Char)
  | closeGroup
  | openList
  | closeList
  | openMap
  | closeMap
  | comma
  | colon
  | hash
  | bang
  deriving DecidableEq, Repr

/-! ## Characters -/

/-- The blanks of the notation. -/
def isSeparator (c : Char) : Bool :=
  let n := c.toNat
  (0x09 ≤ n && n ≤ 0x0d) || n == 0x20 || n == 0x85 || n == 0x200e || n == 0x200f || n == 0x2028 ||
    n == 0x2029

/-- A character that a name begins with. -/
def isNameStart (c : Char) : Bool := c == '_' || Unicode.isIdentifierStart c

/-- A character of a name that is marked as one, or of a number. -/
def isWordChar (c : Char) : Bool :=
  Unicode.isIdentifierPart c || c == '.' || c == '+' || c == '-'

/-- Is it a hexadecimal digit? -/
def isHexDigit (c : Char) : Bool := (digitValue? c).isSome

/-- The character that a simple escape stands for. -/
def simpleEscape? : Char → Option Char
  | 'n' => some '\n'
  | 'r' => some '\r'
  | 't' => some '\t'
  | '0' => some '\x00'
  | '\\' => some '\\'
  | '"' => some '"'
  | '\'' => some '\''
  | _ => none

/-- The most digits of a character code. -/
def maxCodeDigits : Nat := 6

/-- The character with a code of hexadecimal digits. -/
def charOfDigits? (digits : List Char) : Option Char :=
  match numeral? 16 digits with
  | some n => if n.isValidChar then some (Char.ofNat n) else none
  | none => none

/-- The character that is encoded by these bytes and no more. -/
def charOfBytes? (bytes : List UInt8) : Option Char :=
  match (String.fromUTF8? ⟨bytes.toArray⟩).map String.toList with
  | some [c] => some c
  | _ => none

/-! ## Names and numbers -/

/-- A name that is marked as one. -/
def markedName (acc : List Char) : Token := .name (String.ofList acc.reverse) true

/-- The token of a number. -/
def numberToken? (cs : List Char) : Option Token :=
  match Number.ofChars? cs with
  | some (.integer n type) => some (.integer n type)
  | some .fraction => some .scalar
  | none => none

/-- A word without mark is a name or a number. A number that begins with a sign or a point may
follow `Some` without a blank. -/
def wordTokens? (cs : List Char) : Option (List Token) :=
  if cs.head?.any isNameStart then
    let name := String.ofList (cs.takeWhile Unicode.isIdentifierPart)
    let rest := cs.dropWhile Unicode.isIdentifierPart
    if rest.isEmpty then some [.name name false]
    else if name = "Some" then (numberToken? rest).map ([.name name false, ·])
    else none
  else (numberToken? cs).map ([·])

/-! ## Modes -/

/-- What stands in quotes. -/
inductive Quote where
  | text
  | bytes
  | char
  | byte
  deriving DecidableEq, Repr

namespace Quote

/-- Is there one character between the quotes? -/
def isSingle (q : Quote) : Bool := q == .char || q == .byte

/-- Does it hold bytes? -/
def isBytes (q : Quote) : Bool := q == .bytes || q == .byte

/-- The token of what stood between the quotes, in reverse. -/
def token (q : Quote) (acc : List Char) : Token :=
  match q, acc with
  | .text, acc => .text (String.ofList acc.reverse)
  | .byte, [c] => .integer (Int.ofNat c.toNat) (some .u8)
  | _, _ => .scalar

end Quote

/-- What the scanner is in the middle of. -/
inductive Mode where
  | between
  /-- A name or a number. -/
  | word (acc : List Char)
  /-- A name behind `r#`. -/
  | marked (acc : List Char)
  | quoted (q : Quote) (acc : List Char)
  /-- Behind the character of a quote that holds one only. -/
  | closing (q : Quote) (acc : List Char)
  /-- Behind a backslash. -/
  | escape (q : Quote) (acc : List Char)
  /-- Behind the `x` of an escape, and behind its first digit if there is one. -/
  | byteCode (q : Quote) (acc : List Char) (digit : Option Char)
  /-- Behind the escapes of bytes that encode the beginning of a character. -/
  | partChar (acc : List Char) (bytes : List UInt8)
  /-- Behind one more backslash. -/
  | partEscape (acc : List Char) (bytes : List UInt8)
  /-- Behind one more `x`, and behind a digit if there is one. -/
  | partCode (acc : List Char) (bytes : List UInt8) (digit : Option Char)
  /-- Before the opening brace of an escape with a character code. -/
  | codeStart (q : Quote) (acc : List Char)
  /-- Within the braces, with the digits read so far. -/
  | code (q : Quote) (acc digits : List Char)
  /-- Behind so many `#` in front of a string without escapes. -/
  | rawStart (q : Quote) (hashes : Nat)
  | raw (q : Quote) (hashes : Nat) (acc : List Char)
  /-- Behind a quote in such a string and so many `#`. -/
  | rawEnd (q : Quote) (hashes seen : Nat) (acc : List Char)
  | slash
  | lineComment
  /-- Within so many comments more than one. -/
  | blockComment (depth : Nat)
  /-- Behind a slash in such a comment. -/
  | blockSlash (depth : Nat)
  /-- Behind a star in such a comment. -/
  | blockStar (depth : Nat)

/-- The tokens that a character completes, and the mode after it. -/
abbrev Taken := List Token × Mode

/-- What a character begins where nothing is under way; `behind` is the text behind it. -/
def begin? (c : Char) (behind : List Char) : Option Taken :=
  if isSeparator c then some ([], .between)
  else if isWordChar c then some ([], .word [c])
  else
    match c with
    | '"' => some ([], .quoted .text [])
    | '\'' => some ([], .quoted .char [])
    | '/' => some ([], .slash)
    | '(' => some ([.openGroup behind], .between)
    | ')' => some ([.closeGroup], .between)
    | '[' => some ([.openList], .between)
    | ']' => some ([.closeList], .between)
    | '{' => some ([.openMap], .between)
    | '}' => some ([.closeMap], .between)
    | ',' => some ([.comma], .between)
    | ':' => some ([.colon], .between)
    | '#' => some ([.hash], .between)
    | '!' => some ([.bang], .between)
    | _ => none

/-- What a character begins that ends other tokens. -/
def beginAfter? (before : List Token) (c : Char) (behind : List Char) : Option Taken :=
  (begin? c behind).map fun (ts, mode) => (before ++ ts, mode)

/-- What a character begins that ends a word. Some short words are marks in front of quotes. -/
def afterWord? (word : String) (c : Char) (behind : List Char) : Option Taken :=
  match word, c with
  | "b", '"' => some ([], .quoted .bytes [])
  | "b", '\'' => some ([], .quoted .byte [])
  | "r", '"' => some ([], .raw .text 0 [])
  | "r", '#' => some ([], .rawStart .text 1)
  | "br", '"' => some ([], .raw .bytes 0 [])
  | "br", '#' => some ([], .rawStart .bytes 1)
  | _, _ => (wordTokens? word.toList).bind fun ts => beginAfter? ts c behind

/-- The mode behind a character in quotes that stands for `x`. -/
def afterChar (q : Quote) (acc : List Char) (x : Char) : Mode :=
  if q.isSingle then .closing q (x :: acc) else .quoted q (x :: acc)

/-- The mode behind the escape of a byte. In a text, bytes above ASCII must encode a character
together; a single character cannot be put together from bytes. -/
def afterByte? (q : Quote) (acc : List Char) (n : Nat) : Option Mode :=
  if q.isBytes || n < 0x80 then some (afterChar q acc (Char.ofNat n))
  else if q.isSingle then none
  else some (.partChar acc [UInt8.ofNat n])

/-- The mode behind one more byte of a character, which may have four. -/
def afterPart? (acc : List Char) (bytes : List UInt8) : Option Mode :=
  match charOfBytes? bytes with
  | some x => some (.quoted .text (x :: acc))
  | none => if bytes.length < 4 then some (.partChar acc bytes) else none

/-- The mode behind a character in quotes. -/
def inQuotes? (q : Quote) (acc : List Char) (c : Char) : Option Taken :=
  if c = '\\' then some ([], .escape q acc)
  else if q.isSingle then
    if q.isBytes && 0x80 ≤ c.toNat then none else some ([], .closing q [c])
  else if c = '"' then some ([q.token acc], .between)
  else some ([], .quoted q (c :: acc))

/-- The mode behind the character that follows a backslash. -/
def inEscape? (q : Quote) (acc : List Char) (c : Char) : Option Mode :=
  match c with
  | 'x' => some (.byteCode q acc none)
  | 'u' => if q == .byte then none else some (.codeStart q acc)
  | c => (simpleEscape? c).map (afterChar q acc)

/-- The mode behind a character of a string without escapes. -/
def inRaw (q : Quote) (hashes : Nat) (acc : List Char) (c : Char) : Taken :=
  if c = '"' then
    if hashes = 0 then ([q.token acc], .between) else ([], .rawEnd q hashes 0 acc)
  else ([], .raw q hashes (c :: acc))

/-- The mode behind a character that follows a quote in such a string and so many `#`. -/
def inRawEnd (q : Quote) (hashes seen : Nat) (acc : List Char) (c : Char) : Taken :=
  if c = '#' then
    if seen + 1 = hashes then ([q.token acc], .between) else ([], .rawEnd q hashes (seen + 1) acc)
  else inRaw q hashes (List.replicate seen '#' ++ '"' :: acc) c

/-- The mode behind a character of a comment that may nest. -/
def inComment (depth : Nat) (c : Char) : Mode :=
  if c = '/' then .blockSlash depth else if c = '*' then .blockStar depth else .blockComment depth

/-! ## Scanning -/

/-- Take one character; `behind` is the text behind it. -/
def Mode.step (mode : Mode) (c : Char) (behind : List Char) : Option Taken :=
  match mode, c with
  | .between, c => begin? c behind
  | .word acc, c =>
    if isWordChar c then some ([], .word (c :: acc))
    else afterWord? (String.ofList acc.reverse) c behind
  | .marked acc, c =>
    if isWordChar c then some ([], .marked (c :: acc))
    else beginAfter? [markedName acc] c behind
  | .quoted q acc, c => inQuotes? q acc c
  | .closing q acc, c => if c = '\'' then some ([q.token acc], .between) else none
  | .escape q acc, c => (inEscape? q acc c).map ([], ·)
  | .byteCode q acc none, c =>
    if isHexDigit c then some ([], .byteCode q acc (some c)) else none
  | .byteCode q acc (some d), c =>
    ((numeral? 16 [d, c]).bind (afterByte? q acc)).map ([], ·)
  | .partChar acc bytes, c => if c = '\\' then some ([], .partEscape acc bytes) else none
  | .partEscape acc bytes, c =>
    if c = 'x' then some ([], .partCode acc bytes none) else none
  | .partCode acc bytes none, c =>
    if isHexDigit c then some ([], .partCode acc bytes (some c)) else none
  | .partCode acc bytes (some d), c =>
    ((numeral? 16 [d, c]).bind fun n => afterPart? acc (bytes ++ [UInt8.ofNat n])).map ([], ·)
  | .codeStart q acc, c => if c = '{' then some ([], .code q acc []) else none
  | .code q acc digits, c =>
    if c = '}' then (charOfDigits? digits.reverse).map fun x => ([], afterChar q acc x)
    else if isHexDigit c ∧ digits.length < maxCodeDigits then some ([], .code q acc (c :: digits))
    else none
  | .rawStart q hashes, c =>
    if c = '"' then some ([], .raw q hashes [])
    else if c = '#' then some ([], .rawStart q (hashes + 1))
    else if q == .text && hashes == 1 && isWordChar c then some ([], .marked [c])
    else none
  | .raw q hashes acc, c => some (inRaw q hashes acc c)
  | .rawEnd q hashes seen acc, c => some (inRawEnd q hashes seen acc c)
  | .slash, c =>
    if c = '/' then some ([], .lineComment)
    else if c = '*' then some ([], .blockComment 0)
    else none
  | .lineComment, c => some ([], if c = '\n' then .between else .lineComment)
  | .blockComment depth, c => some ([], inComment depth c)
  | .blockSlash depth, c =>
    some ([], if c = '*' then .blockComment (depth + 1) else inComment depth c)
  | .blockStar depth, c =>
    if c = '/' then some ([], if depth = 0 then .between else .blockComment (depth - 1))
    else some ([], inComment depth c)

/-- The tokens that the end of the text completes; none if it ends in the middle of something. -/
def Mode.finish? : Mode → Option (List Token)
  | .between | .lineComment => some []
  | .word acc => wordTokens? acc.reverse
  | .marked acc => some [markedName acc]
  | _ => none

/-- Cut the rest of a text into tokens. -/
def scan (mode : Mode) : List Char → Option (List Token)
  | [] => mode.finish?
  | c :: cs =>
    match mode.step c cs with
    | some (ts, mode) => (scan mode cs).map (ts ++ ·)
    | none => none

/-- Cut a text into tokens; none if it ends in the middle of one or has a stray character. -/
def tokens? (text : String) : Option (List Token) := scan .between text.toList

end PacketFilter.Literal
