/-!
# Numerals

The two ways numbers are written besides plain decimal: lower-case hexadecimal, with or without
the `0x` mark, and numerals padded with zeros to a width.
-/

namespace PacketFilter

/-- Lower-case hexadecimal digits without leading zeros; zero is `0`. -/
def hexDigits (n : Nat) : String := String.ofList (Nat.toDigits 16 n)

/-- Lower-case hexadecimal with its `0x` mark. -/
def hexMarked (n : Nat) : String := "0x" ++ hexDigits n

/-- Put zeros in front of a numeral until it has at least `width` characters. -/
def zeroPadded (width : Nat) (numeral : String) : String :=
  String.ofList (List.replicate (width - numeral.length) '0') ++ numeral

/-- The value of a decimal or hexadecimal digit, in either case. -/
def digitValue? (c : Char) : Option Nat :=
  if '0' ≤ c ∧ c ≤ '9' then some (c.toNat - '0'.toNat)
  else if 'a' ≤ c ∧ c ≤ 'f' then some (c.toNat - 'a'.toNat + 10)
  else if 'A' ≤ c ∧ c ≤ 'F' then some (c.toNat - 'A'.toNat + 10)
  else none

/-- Read digits of a base, most significant first, onto the number read so far. -/
def readDigits? (base : Nat) : Nat → List Char → Option Nat
  | n, [] => some n
  | n, c :: cs =>
    match digitValue? c with
    | some d => if d < base then readDigits? base (base * n + d) cs else none
    | none => none

/-- Read a numeral of a base; there must be at least one digit. -/
def numeral? (base : Nat) (cs : List Char) : Option Nat :=
  if cs.isEmpty then none else readDigits? base 0 cs

end PacketFilter
