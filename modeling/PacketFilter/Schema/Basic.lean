import PacketFilter.Literal.Basic

/-!
# Schemas

A schema says how the values of a type are read from literals and written as such. There are two
styles. In the tagged style, that of rulesets and scenarios, a case of a type is a name with its
contents in parentheses, and a value that may be missing is marked. The plain style needs nothing
but numbers, texts, lists and records: a case is a text or a record of one field, and a missing
value is `null`. Both are read; the plain style is written.

Schemas of records are put together field by field, those of types with several cases case by case,
so that each name of a field or a case is given once for both styles and both directions.
-/

namespace PacketFilter

/-- How literals are used to write values. -/
inductive Style where
  | tagged (p : Place)
  | plain
  deriving DecidableEq, Repr

/-- The style of what stands so many levels further inside. -/
def Style.deeper (style : Style) (levels : Nat) : Style :=
  match style with
  | .tagged p => .tagged (p.deeper levels)
  | .plain => .plain

/-- How a type is read and written. -/
structure Schema (α : Type) where
  read : Style → Literal → Option α
  write : α → Literal
  /-- For a record, how it is read from its fields alone. -/
  readFields : Option (Style → List (String × Literal) → Option α) := none

namespace Schema

variable {α β : Type}

/-! ## Values -/

/-- A number of a type. -/
def number (t : IntType) (ofNat : Nat → α) (toNat : α → Nat) : Schema α where
  read _ l := (l.integer? t).map fun n => ofNat n.toNat
  write v := .integer (Int.ofNat (toNat v)) none

/-- A byte. -/
def byte : Schema UInt8 := number .u8 UInt8.ofNat UInt8.toNat

/-- A 16-bit number. -/
def half : Schema UInt16 := number .u16 UInt16.ofNat UInt16.toNat

/-- A 32-bit number. -/
def word : Schema UInt32 := number .u32 UInt32.ofNat UInt32.toNat

/-- A 64-bit number. -/
def long : Schema UInt64 := number .u64 UInt64.ofNat UInt64.toNat

/-- True or false. -/
def switch : Schema Bool where
  read _ l := l.bool?
  write b := .name (if b then "true" else "false")

/-- A text. -/
def text : Schema String where
  read _ l := l.string?
  write s := .text s

/-- A list. -/
def list (s : Schema α) : Schema (List α) where
  read style l := l.listOf? (s.read (style.deeper 2))
  write vs := .list (vs.map s.write)

/-- A sequence of a fixed length: in the tagged style a tuple, in the plain style a list. -/
def tuple (s : Schema α) : Schema (List α) where
  read
    | .tagged p, l => l.tupleOf? (s.read (.tagged (p.deeper 2)))
    | .plain, l => l.listOf? (s.read .plain)
  write vs := .list (vs.map s.write)

/-- Read a value from the parentheses of the case or the `Some` that holds it. It stands there
alone, or, if the conventions say so and it is a record, its fields do. -/
def readContents (s : Schema α) (p : Place) (contents : Literal.Contents) : Option α :=
  match if p.conventions.bareContents then s.readFields else none with
  | some read => contents.fields?.bind (read (.tagged p))
  | none =>
    match contents with
    | .items [l] => s.read (.tagged p) l
    | _ => none

/-- Read a value that may be missing in the tagged style. -/
def readOptional (s : Schema α) (p : Place) (l : Literal) : Option (Option α) :=
  match l.named? with
  | some ("None", none) => some none
  | some ("Some", some contents) => (s.readContents (p.deeper 1) contents).map some
  | _ =>
    if p.conventions.bareOptions then (s.read (.tagged (p.deeper 1)) l.unmarked).map some else none

/-- A value that may be missing. -/
def optional (s : Schema α) : Schema (Option α) where
  read
    | .tagged p, l => s.readOptional p l
    | .plain, l => if l.isNull then some none else (s.read .plain l).map some
  write
    | none => .null
    | some v => s.write v

/-- Carry a schema over to another type, some of whose values may not be read. -/
def convert (s : Schema α) (ofBase? : α → Option β) (toBase : β → α) : Schema β where
  read style l := (s.read style l).bind ofBase?
  write v := s.write (toBase v)
  readFields := s.readFields.map fun read style fs => (read style fs).bind ofBase?

/-! ## Records -/

/-- Some fields of a record of type `ρ`, which make up a value of type `α`. -/
structure Fields (ρ α : Type) where
  keys : List String
  read : Style → List (String × Literal) → Option α
  write : ρ → List (String × Literal)

namespace Fields

variable {ρ : Type}

/-- No fields yet. -/
def start (v : α) : Fields ρ α := ⟨[], fun _ _ => some v, fun _ => []⟩

/-- One field more, which stands for `default` where it is left out. -/
def field (f : Fields ρ (α → β)) (key : String) (s : Schema α) (get : ρ → α)
    (default : Option α := none) : Fields ρ β where
  keys := f.keys ++ [key]
  read style items :=
    match f.read style items with
    | none => none
    | some g =>
      match items.lookup key with
      | some l => (s.read style l).map g
      | none => default.map g
  write v := f.write v ++ [(key, s.write (get v))]

/-- The two fields of a pair. -/
def pair (key₁ : String) (s₁ : Schema α) (key₂ : String) (s₂ : Schema β) :
    Fields (α × β) (α × β) :=
  start Prod.mk |>.field key₁ s₁ Prod.fst |>.field key₂ s₂ Prod.snd

/-- A single field. -/
def single (key : String) (s : Schema α) : Fields α α := start id |>.field key s id

/-- Is every field known and its own, or one that may be passed over? -/
def accepts (f : Fields ρ α) (style : Style) (items : List (String × Literal)) : Bool :=
  let (known, others) := items.partition fun (key, _) => f.keys.contains key
  decide (known.map Prod.fst).Nodup &&
    match style with
    | .tagged p => others.all fun (_, l) => l.admits p.conventions (Place.maxDepth - p.depth)
    | .plain => true

/-- Read a record from its fields. Each known field may be given once. -/
def readAll (f : Fields ρ α) (style : Style) (items : List (String × Literal)) : Option α :=
  let style := style.deeper 2
  if f.accepts style items then f.read style items else none

/-- Read a plain record, or a list that has the fields in order. -/
def readPlain (f : Fields ρ α) : Literal → Option α
  | .record none items => f.readAll .plain items
  | .list items =>
    if items.length ≤ f.keys.length then f.read .plain (f.keys.zip items) else none
  | _ => none

end Fields

/-- A record, which may have the name of its type in front in the tagged style. -/
def record (type : String) (f : Fields α α) : Schema α where
  read
    | .tagged p, l => (l.fields? type p.conventions).bind (f.readAll (.tagged p))
    | .plain, l => f.readPlain l
  write v := .record none (f.write v)
  readFields := some f.readAll

/-! ## Cases -/

/-- The name of a case, and what it holds if it holds anything. -/
def caseOf? : Style → Literal → Option (String × Option Literal.Contents)
  | .tagged _, l => l.named?
  | .plain, .text s => some (s, none)
  | .plain, .record none [(s, l)] => some (s, if l.isNull then none else some (.items [l]))
  | .plain, _ => none

/-- One case of a type: how it is read from its contents, and written if a value is of this
case. -/
structure Case (α : Type) where
  name : String
  read : Style → Option Literal.Contents → Option α
  write? : α → Option Literal

namespace Case

/-- A case that holds nothing. -/
def bare [DecidableEq α] (name : String) (v : α) : Case α where
  name
  read
    | _, none => some v
    | _, some _ => none
  write? w := if w = v then some (.text name) else none

/-- A case that holds one value. -/
def value (name : String) (s : Schema β) (make : β → α) (get? : α → Option β) : Case α where
  name
  read
    | .tagged p, some contents => (s.readContents (p.deeper 2) contents).map make
    | .plain, some (.items [l]) => (s.read .plain l).map make
    | _, _ => none
  write? v := (get? v).map fun b => .record none [(name, s.write b)]

/-- A case that holds fields. -/
def fields (name : String) (f : Fields β β) (make : β → α) (get? : α → Option β) : Case α where
  name
  read
    | .tagged p, some contents =>
      (contents.fields?.bind (f.readAll (.tagged (p.deeper 1)))).map make
    | .plain, some (.items [.record none items]) => (f.readAll .plain items).map make
    | _, _ => none
  write? v := (get? v).map fun b => .record none [(name, .record none (f.write b))]

/-- Make a case of a type a case of a type that it is part of. -/
def embed (c : Case β) (make : β → α) (get? : α → Option β) : Case α where
  name := c.name
  read style contents := (c.read style contents).map make
  write? v := (get? v).bind c.write?

end Case

/-- A type with several cases, told apart by their names. -/
def choice (cases : List (Case α)) : Schema α where
  read style l :=
    match caseOf? style l with
    | none => none
    | some (name, contents) =>
      (cases.find? fun c => c.name == name).bind fun c => c.read style contents
  write v := (cases.findSome? fun c => c.write? v).getD .null

end Schema

end PacketFilter
