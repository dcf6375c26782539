import PacketFilter.Numeral

/-!
# Tokens of configuration documents

Configuration documents are written in TOML. This module cuts a text into bare words, strings and
signs. Spaces and tabs separate tokens, and comments run to the end of the line.

Strings stand in double quotes, with escapes, or in single quotes, without. Three quotes instead of
one hold a text of several lines, without the line end right behind the opening quotes. There a
backslash at the end of a line joins it with the next one that is not blank.
-/

namespace PacketFilter.Document

/-- A token. -/
inductive Token where
  | word (s : String)
  | string (s : String) (multiline : Bool)
  | equals
  | dot
  | comma
  | openBracket
  | closeBracket
  | openBrace
  | closeBrace
  | newline
  deriving DecidableEq, Repr

/-! ## Characters -/

/-- A space or a tab. -/
def isSpace (c : Char) : Bool := c == ' ' || c == '\t'

/-- A control character, which may not stand in a comment or a string. Tabs may. -/
def isControl (c : Char) : Bool := c != '\t' && (c.toNat < 0x20 || c.toNat == 0x7f)

/-- The token that a sign is. -/
def sign? : Char → Option Token
  | '=' => some .equals
  | '.' => some .dot
  | ',' => some .comma
  | '[' => some .openBracket
  | ']' => some .closeBracket
  | '{' => some .openBrace
  | '}' => some .closeBrace
  | '\n' => some .newline
  | _ => none

/-- Does a word go on with this character? -/
def isWordChar (c : Char) : Bool :=
  (sign? c).isNone && !isSpace c && c != '\r' && c != '#' && c != '"' && c != '\''

/-- The character that a simple escape stands for. -/
def simpleEscape? : Char → Option Char
  | 'b' => some '\x08'
  | 't' => some '\t'
  | 'n' => some '\n'
  | 'f' => some '\x0c'
  | 'r' => some '\r'
  | 'e' => some '\x1b'
  | '"' => some '"'
  | '\\' => some '\\'
  | _ => none

/-- How many hexadecimal digits follow the letter of an escape. -/
def codeLength? : Char → Option Nat
  | 'x' => some 2
  | 'u' => some 4
  | 'U' => some 8
  | _ => none

/-- The character whose code these hexadecimal digits are. -/
def charOfDigits? (digits : List Char) : Option Char :=
  match numeral? 16 digits with
  | some n => if n.isValidChar then some (Char.ofNat n) else none
  | none => none

/-! ## Modes -/

/-- A kind of string: its quote, and whether there are three of them. -/
structure Quote where
  mark : Char
  multiline : Bool

/-- What the scanner is in the middle of. Characters read so far are kept in reverse. -/
inductive Mode where
  | between
  | word (acc : List Char)
  | comment
  /-- Behind the first half of a line end. -/
  | lineEnd (next : Mode)
  /-- Behind one or two quotes with which a string begins. -/
  | opening (mark : Char) (second : Bool)
  /-- Behind three. -/
  | opened (q : Quote)
  | string (q : Quote) (acc : List Char)
  /-- Behind so many quotes in a string of several lines. -/
  | quotes (q : Quote) (acc : List Char) (count : Nat)
  | escape (q : Quote) (acc : List Char)
  /-- Within an escape with a character code that has so many digits to come. -/
  | code (q : Quote) (acc : List Char) (missing : Nat) (digits : List Char)
  /-- Behind a backslash at the end of a line, and behind the line end if there was one. -/
  | joining (q : Quote) (acc : List Char) (ended : Bool)

/-- The tokens that a character completes, and the mode after it. -/
abbrev Taken := List Token × Mode

/-- The token of a word. -/
def wordToken (acc : List Char) : Token := .word (String.ofList acc.reverse)

/-- The token of a string. -/
def Quote.token (q : Quote) (acc : List Char) : Token :=
  .string (String.ofList acc.reverse) q.multiline

/-- What a character begins where nothing is under way. -/
def begin (c : Char) : Taken :=
  if isSpace c then ([], .between)
  else if c = '#' then ([], .comment)
  else if c = '"' ∨ c = '\'' then ([], .opening c false)
  else if c = '\r' then ([], .lineEnd .between)
  else
    match sign? c with
    | some t => ([t], .between)
    | none => ([], .word [c])

/-- What a character begins that ends a token. -/
def beginAfter (t : Token) (c : Char) : Taken :=
  let (ts, mode) := begin c
  (t :: ts, mode)

/-- The mode behind a character of a string. -/
def inString? (q : Quote) (acc : List Char) (c : Char) : Option Taken :=
  if c = q.mark then
    if q.multiline then some ([], .quotes q acc 1) else some ([q.token acc], .between)
  else if c = '\\' ∧ q.mark = '"' then some ([], .escape q acc)
  else if q.multiline ∧ c = '\n' then some ([], .string q (c :: acc))
  else if q.multiline ∧ c = '\r' then some ([], .lineEnd (.string q acc))
  else if isControl c then none
  else some ([], .string q (c :: acc))

/-- The mode behind a character that follows quotes in a string of several lines. Three of them end
the string; the first two of five still belong to it. -/
def inQuotes? (q : Quote) (acc : List Char) (count : Nat) (c : Char) : Option Taken :=
  if c = q.mark then
    if count = 4 then some ([q.token (List.replicate 2 q.mark ++ acc)], .between)
    else some ([], .quotes q acc (count + 1))
  else if 3 ≤ count then
    some (beginAfter (q.token (List.replicate (count - 3) q.mark ++ acc)) c)
  else inString? q (List.replicate count q.mark ++ acc) c

/-- The mode behind a character where one line is joined with the next. -/
def inJoin? (q : Quote) (acc : List Char) (ended : Bool) (c : Char) : Option Taken :=
  if isSpace c then some ([], .joining q acc ended)
  else if c = '\n' then some ([], .joining q acc true)
  else if c = '\r' then some ([], .lineEnd (.joining q acc ended))
  else if ended then inString? q acc c
  else none

/-- The mode behind the character that follows a backslash. -/
def inEscape? (q : Quote) (acc : List Char) (c : Char) : Option Taken :=
  match simpleEscape? c, codeLength? c with
  | some x, _ => some ([], .string q (x :: acc))
  | none, some length => some ([], .code q acc length [])
  | none, none => if q.multiline then inJoin? q acc false c else none

/-! ## Scanning -/

/-- Take one character. -/
def Mode.step : Mode → Char → Option Taken
  | .between, c => some (begin c)
  | .word acc, c =>
    some (if isWordChar c then ([], .word (c :: acc)) else beginAfter (wordToken acc) c)
  | .comment, c =>
    if c = '\n' then some ([.newline], .between)
    else if c = '\r' then some ([], .lineEnd .between)
    else if isControl c then none
    else some ([], .comment)
  | .lineEnd next, c => if c = '\n' then next.step c else none
  | .opening mark false, c =>
    if c = mark then some ([], .opening mark true) else inString? ⟨mark, false⟩ [] c
  | .opening mark true, c =>
    if c = mark then some ([], .opened ⟨mark, true⟩)
    else some (beginAfter (.string "" false) c)
  | .opened q, c =>
    if c = '\n' then some ([], .string q [])
    else if c = '\r' then some ([], .lineEnd (.opened q))
    else inString? q [] c
  | .string q acc, c => inString? q acc c
  | .quotes q acc count, c => inQuotes? q acc count c
  | .escape q acc, c => inEscape? q acc c
  | .code q acc missing digits, c =>
    if missing ≤ 1 then
      (charOfDigits? (c :: digits).reverse).map fun x => ([], .string q (x :: acc))
    else some ([], .code q acc (missing - 1) (c :: digits))
  | .joining q acc ended, c => inJoin? q acc ended c

/-- The tokens that the end of the document completes; none if it ends in the middle of
something. -/
def Mode.finish? : Mode → Option (List Token)
  | .between | .comment => some []
  | .word acc => some [wordToken acc]
  | .opening _ true => some [.string "" false]
  | .quotes q acc count =>
    if 3 ≤ count then some [q.token (List.replicate (count - 3) q.mark ++ acc)] else none
  | _ => none

/-- Cut the rest of a document into tokens. -/
def scan (mode : Mode) : List Char → Option (List Token)
  | [] => mode.finish?
  | c :: cs =>
    match mode.step c with
    | some (ts, mode) => (scan mode cs).map (ts ++ ·)
    | none => none

/-- Cut a document into tokens; a byte order mark in front is passed over. -/
def tokens? (text : String) : Option (List Token) :=
  match text.toList with
  | '\ufeff' :: cs => scan .between cs
  | cs => scan .between cs

end PacketFilter.Document
