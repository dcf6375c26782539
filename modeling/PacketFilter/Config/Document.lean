import PacketFilter.Config.Settings
import PacketFilter.Config.Token

/-!
# Configuration documents

A configuration document is a list of statements, each on its own line: a key, an equals sign and a
value, or the name of a table to which the statements below belong. Keys are bare or quoted.

The values of settings are integers, booleans and strings. The word of a choice may also be the
only key of a table that holds nothing under it, in any of the ways in which tables can be written.
Nothing else can be the value of a setting, so a document with a date or a fraction is refused as
one with an error is.
-/

namespace PacketFilter.Document

/-! ## Integers -/

/-- Take the underscores out of digits; each must stand between two digits. -/
def withoutUnderscores? : List Char → Option (List Char)
  | [] => some []
  | ['_'] => none
  | '_' :: _ => none
  | c :: '_' :: d :: cs =>
    if d = '_' then none else (withoutUnderscores? (d :: cs)).map (c :: ·)
  | c :: cs => (withoutUnderscores? cs).map (c :: ·)

/-- Digits of a base. -/
def digits? (base : Nat) (cs : List Char) : Option Nat :=
  (withoutUnderscores? cs).bind (numeral? base)

/-- Decimal digits without a superfluous zero in front. -/
def decimal? : List Char → Option Nat
  | ['0'] => some 0
  | '0' :: _ => none
  | cs => digits? 10 cs

/-- An integer: hexadecimal, octal and binary without a sign, decimal with or without one. -/
def integer? : List Char → Option Int
  | '0' :: 'x' :: cs => (digits? 16 cs).map Int.ofNat
  | '0' :: 'o' :: cs => (digits? 8 cs).map Int.ofNat
  | '0' :: 'b' :: cs => (digits? 2 cs).map Int.ofNat
  | '+' :: cs => (decimal? cs).map Int.ofNat
  | '-' :: cs => (decimal? cs).map fun n => -Int.ofNat n
  | cs => (decimal? cs).map Int.ofNat

/-! ## Values -/

/-- A value: of a setting, or a table or list with nothing in it. -/
inductive Value where
  | setting (s : Setting)
  | empty
  deriving DecidableEq, Repr

/-- A character of a bare key. -/
def isKeyChar (c : Char) : Bool := c.isAlphanum || c == '_' || c == '-'

/-- A key, bare or in quotes. -/
def key? : Token → Option String
  | .word s => if s.toList.all isKeyChar then some s else none
  | .string s false => some s
  | _ => none

/-- Keys with points between them, and what follows. -/
def path? : List Token → Option (List String × List Token)
  | t :: .dot :: ts =>
    match key? t, path? ts with
    | some k, some (ks, rest) => some (k :: ks, rest)
    | _, _ => none
  | t :: ts => (key? t).map fun k => ([k], ts)
  | [] => none

/-- Is it a table or a list with nothing in it? -/
def isEmptyValue (ts : List Token) : Bool :=
  ts == [.openBrace, .closeBrace] || ts == [.openBracket, .closeBracket]

/-- Leave out a comma at the end. -/
def dropComma (ts : List Token) : List Token :=
  if ts.getLast? = some .comma then ts.dropLast else ts

/-- The choice that stands between braces: a key of an empty value, and perhaps a comma. -/
def choice? (ts : List Token) : Option Setting :=
  match path? (dropComma ts) with
  | some ([name], .equals :: value) => if isEmptyValue value then some (.choice name) else none
  | _ => none

/-- A bare word as a value. -/
def bareValue? (s : String) : Option Setting :=
  match s with
  | "true" => some (.switch true)
  | "false" => some (.switch false)
  | s => (integer? s.toList).map .number

/-- Read a value from its tokens, less the line ends, which may stand anywhere between brackets. -/
def value? (ts : List Token) : Option Value :=
  if isEmptyValue ts then some .empty
  else
    match ts with
    | [.string s _] => some (.setting (.word s))
    | [.word s] => (bareValue? s).map .setting
    | .openBrace :: ts =>
      if ts.getLast? = some .closeBrace then (choice? ts.dropLast).map .setting else none
    | _ => none

/-! ## Statements -/

/-- A statement. -/
inductive Statement where
  | header (path : List String)
  | assignment (path : List String) (v : Value)
  deriving DecidableEq, Repr

/-- The tokens of each statement. A line end within the brackets of a value ends none. The tokens
of the statement under way are in `begun`, in reverse; so many brackets of its value are open. -/
def split (begun : List Token) (assigned : Bool) (depth : Nat) :
    List Token → List (List Token)
  | [] => [begun.reverse]
  | .newline :: ts =>
    if assigned ∧ 0 < depth then split (.newline :: begun) assigned depth ts
    else begun.reverse :: split [] false 0 ts
  | t :: ts =>
    let depth :=
      if t = .openBracket ∨ t = .openBrace then depth + 1
      else if t = .closeBracket ∨ t = .closeBrace then depth - 1
      else depth
    split (t :: begun) (assigned || t == .equals) depth ts

/-- Read a statement. -/
def statement? : List Token → Option Statement
  | .openBracket :: ts =>
    match path? ts with
    | some (path, [.closeBracket]) => some (.header path)
    | _ => none
  | ts =>
    match path? ts with
    | some (path, .equals :: ts) => (value? (ts.filter (· != .newline))).map (.assignment path)
    | _ => none

/-- Read the statements of a document. -/
def statements? (ts : List Token) : Option (List Statement) :=
  ((split [] false 0 ts).filter (!·.isEmpty)).mapM statement?

/-! ## Settings -/

/-- The settings and tables of the statements so far, the last first, and the table that the next
ones belong to. -/
structure Draft where
  settings : List (String × Setting) := []
  tables : List (List String) := []
  current : List String := []

namespace Draft

/-- Is the setting a table by its header? -/
def isHeaded (d : Draft) (key : String) : Bool :=
  d.tables.any fun path => path.length == 2 && path.head? == some key

/-- Go on with another table. A setting that is given otherwise is no table. -/
def enter? (d : Draft) (path : List String) : Option Draft :=
  if d.tables.contains path then none
  else
    match path with
    | [key] =>
      if (d.settings.map Prod.fst).contains key && !d.isHeaded key then none
      else some { d with tables := path :: d.tables, current := path }
    | [key, name] =>
      some ⟨(key, .choice name) :: d.settings, path :: d.tables, path⟩
    | _ => none

/-- Take a value at a path from the current table. -/
def assign? (d : Draft) (path : List String) (v : Value) : Option Draft :=
  match d.current ++ path, v with
  | [key], .setting s => some { d with settings := (key, s) :: d.settings }
  | [key, name], .empty => some { d with settings := (key, .choice name) :: d.settings }
  | _, _ => none

/-- Take one statement. -/
def take? (d : Draft) : Statement → Option Draft
  | .header path => d.enter? path
  | .assignment path v => d.assign? path v

/-- The settings, in order. No table may be left without any. -/
def finish? (d : Draft) : Option (List (String × Setting)) :=
  if d.tables.all fun path => path.head?.any (d.settings.map Prod.fst).contains then
    some d.settings.reverse
  else none

end Draft

/-- Read a whole document. -/
def settings? (text : String) : Option (List (String × Setting)) :=
  match (tokens? text).bind statements? with
  | some statements => (statements.foldlM Draft.take? {}).bind Draft.finish?
  | none => none

end PacketFilter.Document

namespace PacketFilter.Config

/-- Read a configuration and check it (`FwConfig::from_toml`). -/
def ofDocument (text : String) : Except ConfigError Config :=
  match (Document.settings? text).bind ofSettings? with
  | none => .error .unreadable
  | some c =>
    match c.check with
    | .ok () => .ok c
    | .error e => .error e

end PacketFilter.Config
