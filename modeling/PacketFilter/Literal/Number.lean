import PacketFilter.Numeral

/-!
# Numbers of the literal notation

Numbers are integers, in one of four bases and perhaps with the name of their type behind, or
fractions. Nothing here is given as a fraction, so of one only its form is looked at.
-/

namespace PacketFilter

/-- A type of integers: how many bits it has, and whether it has integers below zero. -/
structure IntType where
  bits : Nat
  signed : Bool
  deriving DecidableEq, Repr

namespace IntType

def u8 : IntType := ⟨8, false⟩
def u16 : IntType := ⟨16, false⟩
def u32 : IntType := ⟨32, false⟩
def u64 : IntType := ⟨64, false⟩
def i64 : IntType := ⟨64, true⟩

/-- The names of the types. -/
def names : List (String × IntType) :=
  [("u8", u8), ("u16", u16), ("u32", u32), ("u64", u64), ("i8", ⟨8, true⟩), ("i16", ⟨16, true⟩),
    ("i32", ⟨32, true⟩), ("i64", i64)]

/-- How many integers from zero up the type has, and as many below zero if it has any. -/
def bound (t : IntType) : Int := Int.ofNat (1 <<< (if t.signed then t.bits - 1 else t.bits))

/-- Does the type hold the integer? -/
def admits (t : IntType) (n : Int) : Bool :=
  decide ((if t.signed then -t.bound else 0) ≤ n ∧ n < t.bound)

end IntType

/-- A number as it is written. -/
inductive Number where
  /-- An integer and the type that is written behind it. -/
  | integer (n : Int) (type : Option IntType)
  | fraction
  deriving DecidableEq, Repr

namespace Number

/-- Is there a minus sign, and what follows the sign? -/
def splitSign : List Char → Bool × List Char
  | '+' :: cs => (false, cs)
  | '-' :: cs => (true, cs)
  | cs => (false, cs)

/-! ## Integers -/

/-- A digit of any base, or an underscore. -/
def isDigitMark (c : Char) : Bool := (digitValue? c).isSome || c == '_'

/-- Digits of a base, among which there may be underscores, but not in front. -/
def digits? (base : Nat) (cs : List Char) : Option Nat :=
  if cs.head? = some '_' then none else numeral? base (cs.filter (· != '_'))

/-- A number without sign, in the base that its first two characters say. -/
def natural? : List Char → Option Nat
  | '0' :: 'x' :: cs => digits? 16 cs
  | '0' :: 'o' :: cs => digits? 8 cs
  | '0' :: 'b' :: cs => digits? 2 cs
  | cs => digits? 10 cs

/-- The integer of a natural number and a sign, if the type holds it. -/
def signed? (t : IntType) (negative : Bool) (n : Nat) : Option Int :=
  let i := if negative then -Int.ofNat n else Int.ofNat n
  if t.admits i then some i else none

/-- An integer. Where no type is written it may have 64 bits. The name of a type is looked for
behind the first digits and underscores. -/
def integer? (cs : List Char) : Option Number :=
  let (negative, body) := splitSign cs
  match IntType.names.lookup (String.ofList (body.dropWhile isDigitMark)) with
  | some t =>
    ((natural? (body.takeWhile isDigitMark)).bind (signed? t negative)).map (.integer · (some t))
  | none =>
    let t := if negative then IntType.i64 else .u64
    ((natural? body).bind (signed? t negative)).map (.integer · none)

/-! ## Fractions -/

/-- The names of infinity and of what is no number. -/
def fractionNames : List String := ["inf", "inff32", "inff64", "NaN", "NaNf32", "NaNf64"]

/-- A character of a fraction that is written in digits. -/
def isFractionMark (c : Char) : Bool :=
  c.isDigit || c == 'e' || c == 'E' || c == '.' || c == '+' || c == '-' || c == '_'

/-- Take the underscores out of a fraction. None may stand in front or behind the point. -/
def withoutUnderscores? (allowed : Bool) : List Char → Option (List Char)
  | [] => some []
  | '_' :: cs => if allowed then withoutUnderscores? true cs else none
  | c :: cs =>
    let allowed := c.isDigit || c == 'e' || c == 'E' || (c != '.' && allowed)
    (withoutUnderscores? allowed cs).map (c :: ·)

/-- May it stand behind the digits of a fraction? -/
def isExponent : List Char → Bool
  | [] => true
  | c :: cs =>
    let digits := (splitSign cs).2
    (c == 'e' || c == 'E') && !digits.isEmpty && digits.all Char.isDigit

/-- Digits with a point somewhere, or without, and an exponent, or without. -/
def isDecimal (cs : List Char) : Bool :=
  let body := (splitSign cs).2
  let whole := body.takeWhile Char.isDigit
  match body.dropWhile Char.isDigit with
  | '.' :: rest =>
    let places := rest.takeWhile Char.isDigit
    !(whole.isEmpty && places.isEmpty) && isExponent (rest.dropWhile Char.isDigit)
  | rest => !whole.isEmpty && isExponent rest

/-- Is it a fraction, perhaps with the name of its type behind? -/
def isFraction (cs : List Char) : Bool :=
  fractionNames.contains (String.ofList (splitSign cs).2) ||
    (["", "f32", "f64"].contains (String.ofList (cs.dropWhile isFractionMark)) &&
      (withoutUnderscores? false (cs.takeWhile isFractionMark)).any isDecimal)

/-- Read a number. -/
def ofChars? (cs : List Char) : Option Number :=
  match integer? cs with
  | some n => some n
  | none => if isFraction cs then some .fraction else none

end Number

end PacketFilter
