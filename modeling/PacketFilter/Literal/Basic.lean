import PacketFilter.Literal.Extent

/-!
# Literals

A literal is a number, a string, a name, a list, a group in parentheses, with or without a name in
front, or a map in braces. The items of a group either all have a key, which makes it a record, or
none has one, which makes it a tuple. `Some` in front of a value is no name but says that the value
is there.
-/

namespace PacketFilter

/-- A value in the notation of rulesets and scenarios. -/
inductive Literal where
  /-- An integer, perhaps with the type that is written behind it. -/
  | integer (n : Int) (type : Option IntType)
  | text (s : String)
  | name (s : String)
  /-- A fraction, a character or a string of bytes. -/
  | scalar
  | list (items : List Literal)
  /-- A pair of parentheses with nothing between, not even a blank. -/
  | unit
  /-- A group without keys. -/
  | tuple (name : Option String) (items : List Literal)
  /-- A group with keys. -/
  | record (name : Option String) (fields : List (String × Literal))
  | map (pairs : List (Literal × Literal))
  /-- `Some` and a group without keys, and the text behind the opening parenthesis. -/
  | given (behind : List Char) (items : List Literal)
  /-- `Some` and a value without parentheses. -/
  | givenBare (l : Literal)
  deriving Repr, Inhabited

/-- What a file may switch on in front of its value. -/
structure Conventions where
  /-- A value that may be missing may stand without `Some`. -/
  bareOptions : Bool := false
  /-- A wrapped value stands without the parentheses of its wrapper. -/
  bareWrappers : Bool := false
  /-- The fields of a record stand right in the parentheses of the case that holds it. -/
  bareContents : Bool := false
  /-- A record must have the name of its type in front. -/
  explicitNames : Bool := false
  deriving DecidableEq, Repr

/-- Where in a file a value stands. -/
structure Place where
  conventions : Conventions := {}
  /-- The levels of nesting around it. -/
  depth : Nat := 0
  deriving DecidableEq, Repr

namespace Place

/-- The most levels of nesting. -/
def maxDepth : Nat := 128

/-- So many levels further inside. -/
def deeper (p : Place) (levels : Nat) : Place := { p with depth := p.depth + levels }

end Place

namespace Literal

/-! ## Names -/

/-- Names that stand for values of their own, and `Some`, which marks one. -/
def isReserved (s : String) : Bool :=
  ["true", "false", "None", "Some"].contains s || Number.fractionNames.contains s

/-- The literal that stands for nothing where missing values are not marked. -/
def null : Literal := .name "null"

/-- Is it the literal that stands for nothing? -/
def isNull : Literal → Bool
  | .name s => s == "null"
  | _ => false

/-! ## Values that nobody reads -/

/-- May the literal stand where any value may, if so many levels of nesting are left? Brackets
count for one level, and for one more if there is anything between them; only `()` counts for none.
`Some` counts for one and holds a single value. If contents may stand without parentheses of their
own, it may also hold nothing, fields, or the items of a tuple; looking ahead tells the items from a
single value. -/
def admits (c : Conventions) : Nat → Literal → Bool
  | _, .integer .. | _, .text _ | _, .scalar | _, .unit => true
  | _, .name s => s != "Some"
  | n + 2, .list items => items.all (admits c n)
  | 1, .list items => items.isEmpty
  | n + 2, .map pairs => pairs.all fun (k, l) => admits c n k && admits c n l
  | 1, .map pairs => pairs.isEmpty
  | n + 1, .givenBare l => c.bareOptions && admits c n l
  | n + 1, .given behind items =>
    if c.bareContents then
      match n, Extent.ofText? behind, items with
      | _, _, [] => true
      | n, some .one, [l] => admits c n l
      | n + 2, some .several, items => items.all (admits c n)
      | _, _, _ => false
    else
      match items with
      | [l] => admits c n l
      | _ => false
  | n + 3, .record (some "Some") fields => c.bareContents && fields.all fun (_, l) => admits c n l
  | n + 2, .tuple head items => !head.any isReserved && items.all (admits c n)
  | 1, .tuple head items => !head.any isReserved && items.isEmpty
  | n + 2, .record head fields => !head.any isReserved && fields.all fun (_, l) => admits c n l
  | _, _ => false

/-! ## Taking literals apart -/

/-- The integer, if the type holds it and no other is written behind it. -/
def integer? (t : IntType) : Literal → Option Int
  | .integer n type => if t.admits n && type.all (· == t) then some n else none
  | _ => none

/-- True or false. -/
def bool? : Literal → Option Bool
  | .name "true" => some true
  | .name "false" => some false
  | _ => none

/-- A string. -/
def string? : Literal → Option String
  | .text s => some s
  | _ => none

/-- A list, each of whose items is read. -/
def listOf? {α : Type} (read : Literal → Option α) : Literal → Option (List α)
  | .list items => items.mapM read
  | _ => none

/-- A tuple without a name, each of whose items is read. -/
def tupleOf? {α : Type} (read : Literal → Option α) : Literal → Option (List α)
  | .tuple none items => items.mapM read
  | .unit => some []
  | _ => none

/-- May a group with this name in front be one of the type? -/
def isNamed (type : String) (c : Conventions) : Option String → Bool
  | none => !c.explicitNames
  | some s => s == type

/-- The value in the parentheses of a wrapper. -/
def wrapped? (type : String) (c : Conventions) : Literal → Option Literal
  | .tuple head [l] => if !c.bareWrappers && isNamed type c head then some l else none
  | l => if c.bareWrappers then some l else none

/-- The fields of a record. -/
def fields? (type : String) (c : Conventions) : Literal → Option (List (String × Literal))
  | .record head fields => if isNamed type c head then some fields else none
  | .tuple head [] => if isNamed type c head then some [] else none
  | .unit => if isNamed type c none then some [] else none
  | _ => none

/-- The literal without the `Some` in front, if there is one and it has no parentheses. -/
def unmarked : Literal → Literal
  | .givenBare l => l
  | l => l

/-! ## Contents -/

/-- What stands in the parentheses of a case or behind `Some`. -/
inductive Contents where
  | items (ls : List Literal)
  | fields (fs : List (String × Literal))

/-- The contents as the fields of a record. -/
def Contents.fields? : Contents → Option (List (String × Literal))
  | .fields fs => some fs
  | .items [] => some []
  | .items _ => none

/-- A name, and what stands in the parentheses behind it if there are any. -/
def named? : Literal → Option (String × Option Contents)
  | .name s => some (s, none)
  | .tuple (some s) ls => some (s, some (.items ls))
  | .record (some s) fs => some (s, some (.fields fs))
  | .given _ ls => some ("Some", some (.items ls))
  | _ => none

end Literal

end PacketFilter
