import PacketFilter.Literal.Basic

/-!
# Reading literals

The reader takes one token after another and keeps the brackets that are still open on a stack.
Lists, groups and maps may end with a comma. `Some` may stand in front of anything but a comma, a
colon or a closing bracket, where it is a name. In front of the literal, a file may switch on
conventions, each by its name, in attributes of the form `#![enable(…)]`.

Main statement: `length_lt_of_switches?`, an attribute's names take up tokens.
-/

namespace PacketFilter

namespace Literal

/-! ## Brackets -/

/-- A kind of brackets. -/
inductive Bracket where
  | list
  /-- The name in front of the group, and the text behind its parenthesis. -/
  | group (name : Option String) (behind : List Char)
  | map

/-- Brackets that are still open. Their items are kept in reverse. -/
structure Frame where
  bracket : Bracket
  /-- How often `Some` stands in front. -/
  marks : Nat := 0
  items : List (Option Literal × Literal) := []
  /-- A key that has been read and whose value is to follow. -/
  key : Option Literal := none

namespace Frame

/-- A name is the key of a field, anything that of a pair in a map. -/
def acceptsKey (f : Frame) (key : Literal) : Bool :=
  match f.bracket, key with
  | .group .., .name _ | .map, _ => f.key.isNone
  | _, _ => false

/-- Take up an item. In a map it must have a key. -/
def put? (f : Frame) (l : Literal) : Option Frame :=
  match f.bracket, f.key with
  | .map, none => none
  | _, key => some { f with items := (key, l) :: f.items, key := none }

/-- An item with a name for a key as a field. -/
def field? : Option Literal × Literal → Option (String × Literal)
  | (some (.name s), l) => some (s, l)
  | _ => none

/-- An item without a key. -/
def item? : Option Literal × Literal → Option Literal
  | (none, l) => some l
  | _ => none

/-- An item with a key as a pair. -/
def pair? : Option Literal × Literal → Option (Literal × Literal)
  | (some k, l) => some (k, l)
  | _ => none

/-- The literal of a group without keys. -/
def group (head : Option String) (behind : List Char) (items : List Literal) : Literal :=
  if head = some "Some" then .given behind items
  else if head = none ∧ behind.head? = some ')' then .unit
  else .tuple head items

/-- The literal of brackets that are closed. The items of a group must be all fields or none. -/
def close? (f : Frame) : Option Literal :=
  if f.key.isSome then none
  else
    let items := f.items.reverse
    match f.bracket with
    | .list => (items.mapM item?).map .list
    | .map => (items.mapM pair?).map .map
    | .group head behind =>
      match items.mapM item? with
      | some ls => some (group head behind ls)
      | none => (items.mapM field?).map (.record head)

end Frame

/-! ## The reader -/

/-- What the reader has read: the open brackets, the innermost first, and the literal that has just
been read and not been put into them yet. -/
structure Reader where
  frames : List Frame := []
  /-- How often `Some` stands in front of the literal. -/
  marks : Nat := 0
  held : Option Literal := none

namespace Reader

/-- How often `Some` stands in front of a literal that begins here, if one may. -/
def marksHere? (r : Reader) : Option Nat :=
  match r.held with
  | none => some 0
  | some (.name "Some") => some (r.marks + 1)
  | some _ => none

/-- Take up a literal where one may stand. -/
def hold? (r : Reader) (l : Literal) : Option Reader :=
  r.marksHere?.map fun marks => { r with marks, held := some l }

/-- Open brackets with so many `Some` in front. -/
def openAt (r : Reader) (b : Bracket) (marks : Nat) : Reader :=
  ⟨{ bracket := b, marks } :: r.frames, 0, none⟩

/-- Open brackets where a literal may stand. -/
def open? (r : Reader) (b : Bracket) : Option Reader := r.marksHere?.map (r.openAt b)

/-- Open a group. There may be a name in front. -/
def openGroup? (r : Reader) (behind : List Char) : Option Reader :=
  match r.held with
  | some (.name s) => some (r.openAt (.group (some s) behind) r.marks)
  | _ => r.open? (.group none behind)

/-- The literal that is held, with the `Some` in front of it. -/
def value? (r : Reader) : Option Literal := r.held.map (Nat.repeat .givenBare r.marks)

/-- Put the held literal into the innermost brackets. -/
def put? (r : Reader) : Option Reader :=
  match r.frames, r.value? with
  | f :: fs, some l => (f.put? l).map fun f => { frames := f :: fs }
  | _, _ => none

/-- Close the innermost brackets, which must be of the kind that the token closes. -/
def close? (r : Reader) (fits : Bracket → Bool) : Option Reader :=
  match if r.held.isSome then r.put? else some r with
  | some ⟨f :: fs, _, _⟩ =>
    if fits f.bracket then f.close?.map fun l => ⟨fs, f.marks, some l⟩ else none
  | _ => none

/-- Make the held literal the key of the item that follows. -/
def key? (r : Reader) : Option Reader :=
  match r.frames, r.value? with
  | f :: fs, some l =>
    if f.acceptsKey l then some { frames := { f with key := some l } :: fs } else none
  | _, _ => none

/-- The literal of a name. A name that is marked as one keeps its mark if it would else be taken for
a value. -/
def ofName (s : String) (marked : Bool) : Literal :=
  .name (if marked && isReserved s then "r#" ++ s else s)

/-- Take one token. -/
def step (r : Reader) : Token → Option Reader
  | .name s marked => r.hold? (ofName s marked)
  | .integer n type => r.hold? (.integer n type)
  | .text s => r.hold? (.text s)
  | .scalar => r.hold? .scalar
  | .openList => r.open? .list
  | .openMap => r.open? .map
  | .openGroup behind => r.openGroup? behind
  | .closeList => r.close? fun | .list => true | _ => false
  | .closeMap => r.close? fun | .map => true | _ => false
  | .closeGroup => r.close? fun | .group .. => true | _ => false
  | .comma => r.put?
  | .colon => r.key?
  | .hash | .bang => none

/-- The literal that has been read, if nothing is open. -/
def finish? (r : Reader) : Option Literal := if r.frames.isEmpty then r.value? else none

end Reader

/-- Read the tokens of one literal. -/
def ofTokens? (ts : List Token) : Option Literal := (ts.foldlM Reader.step {}).bind Reader.finish?

/-! ## Conventions in front of a literal -/

/-- The names in the parentheses of an attribute, and the tokens behind them. -/
def switches? : List Token → Option (List String × List Token)
  | .name s _ :: .closeGroup :: ts => some ([s], ts)
  | .name s _ :: .comma :: .closeGroup :: ts => some ([s], ts)
  | .name s _ :: .comma :: ts => (switches? ts).map fun (names, rest) => (s :: names, rest)
  | _ => none

theorem length_lt_of_switches? {ts rest : List Token} {names : List String}
    (h : switches? ts = some (names, rest)) : rest.length < ts.length := by
  fun_induction switches? ts generalizing names with
  | case1 | case2 =>
    simp only [Option.some.injEq, Prod.mk.injEq] at h
    obtain ⟨-, rfl⟩ := h
    simp only [List.length_cons]
    omega
  | case3 s _ ts _ ih =>
    obtain ⟨⟨ns, r⟩, hr, he⟩ := Option.map_eq_some_iff.1 h
    simp only [Prod.mk.injEq] at he
    obtain ⟨-, rfl⟩ := he
    have := ih hr
    simp only [List.length_cons]
    omega
  | case4 => simp at h

end Literal

/-- Switch on a convention by its name. -/
def Conventions.switchOn? (c : Conventions) : String → Option Conventions
  | "implicit_some" => some { c with bareOptions := true }
  | "unwrap_newtypes" => some { c with bareWrappers := true }
  | "unwrap_variant_newtypes" => some { c with bareContents := true }
  | "explicit_struct_names" => some { c with explicitNames := true }
  | _ => none

namespace Literal

/-- Read the attributes in front of a literal; what is left are its tokens. -/
def conventions? (c : Conventions) (ts : List Token) : Option (Conventions × List Token) :=
  match ts with
  | .hash :: .bang :: .openList :: .name "enable" false :: .openGroup _ :: ts =>
    match _h : switches? ts with
    | some (names, .closeList :: rest) =>
      match names.foldlM Conventions.switchOn? c with
      | some c => conventions? c rest
      | none => none
    | _ => none
  | .hash :: _ => none
  | ts => some (c, ts)
termination_by ts.length
decreasing_by
  have := length_lt_of_switches? _h
  simp only [List.length_cons] at this ⊢
  omega

/-- Read a text that holds one literal, and the conventions it is to be read with. -/
def ofText? (text : String) : Option (Conventions × Literal) :=
  match (tokens? text).bind (conventions? {}) with
  | none => none
  | some (c, ts) => (ofTokens? ts).map fun l => (c, l)

end Literal

end PacketFilter
