/-!
# Byte encodings

The form in which rules and snapshots cross to a client, postcard. Numbers are varints: seven bits
to a byte, low end first, with the high bit set on all bytes but the last. A sequence is its length
and then its items, a record its fields in order. Nothing marks the end, so bytes that follow are
left unread.

A `Codec` pairs the two directions for one type. The combinators build codecs of records from
those of their fields.

Main statements: `Varint.read_write`, a varint is read back whatever follows it, if it is within
the bound of its type; `Varint.read_cut`, it is not read if its end is missing;
`Varint.write_length_le`, which says how many bytes it takes.
-/

namespace PacketFilter.Wire

/-- Why bytes cannot be read. -/
inductive WireError where
  /-- There are not enough bytes. -/
  | unexpectedEnd
  /-- A varint goes on for too long, or carries bits past its type. -/
  | badVarint
  /-- A number that stands for none of the cases of its type. -/
  | unknownCase
  deriving DecidableEq, Repr

/-- What is said about bytes that cannot be read. -/
def WireError.message : WireError → String
  | .unexpectedEnd => "Hit the end of buffer, expected more data"
  | .badVarint =>
    "Found a varint that didn't terminate. Is the usize too big for this platform?"
  | .unknownCase => "Serde Deserialization Error"

/-- A way to write a type as bytes, and to read it from the start of a byte list. -/
structure Codec (α : Type) where
  write : α → List UInt8
  read : List UInt8 → Except WireError (α × List UInt8)

/-! ## Varints -/

namespace Varint

/-- Seven bits to a byte, low end first. -/
def write (n : Nat) : List UInt8 :=
  if n < 128 then [UInt8.ofNat n] else UInt8.ofNat (n % 128 + 128) :: write (n / 128)

/-- Read a varint of at most `bytes` bytes, of which the last possible one holds at most `top`. -/
def read (top : Nat) : Nat → List UInt8 → Except WireError (Nat × List UInt8)
  | 0, _ => .error .badVarint
  | _ + 1, [] => .error .unexpectedEnd
  | bytes + 1, b :: bs =>
    if b.toNat < 128 then
      if bytes = 0 ∧ top < b.toNat then .error .badVarint else .ok (b.toNat, bs)
    else
      match read top bytes bs with
      | .error e => .error e
      | .ok (n, rest) => .ok (b.toNat - 128 + 128 * n, rest)

/-- One more than the largest number that such a varint can hold. -/
def bound (top : Nat) : Nat → Nat
  | 0 => 0
  | 1 => min 128 (top + 1)
  | bytes + 2 => 128 * bound top (bytes + 1)

/-- What is left of a number behind its lowest seven bits is within the bound of one byte less. -/
theorem div_lt_bound {top bytes n : Nat} (h : n < bound top (bytes + 1)) (hn : ¬n < 128) :
    n / 128 < bound top bytes := by
  cases bytes with
  | zero => simp only [bound] at h; omega
  | succ k => simp only [bound] at h; omega

/-- A varint within the bound is read back, whatever follows it. -/
theorem read_write {top : Nat} {bytes n : Nat} (h : n < bound top bytes) (rest : List UInt8) :
    read top bytes (write n ++ rest) = .ok (n, rest) := by
  induction bytes generalizing n with
  | zero => simp [bound] at h
  | succ bytes ih =>
    rw [write]
    split
    · rename_i hn
      have : (UInt8.ofNat n).toNat = n := by simp; omega
      have : ¬(bytes = 0 ∧ top < n) := by
        rintro ⟨rfl, ht⟩
        simp only [bound] at h
        omega
      simp [read, *]
    · rename_i hn
      have hb : (UInt8.ofNat (n % 128 + 128)).toNat = n % 128 + 128 := by simp; omega
      simp only [List.cons_append, read, hb, ih (div_lt_bound h hn)]
      rw [if_neg (by omega)]
      congr 2
      omega

/-- A number within the bound takes at most so many bytes. -/
theorem write_length_le {top : Nat} {bytes n : Nat} (h : n < bound top bytes) :
    (write n).length ≤ bytes := by
  induction bytes generalizing n with
  | zero => simp [bound] at h
  | succ bytes ih =>
    rw [write]
    split
    · simp
    · rename_i hn
      simpa using ih (div_lt_bound h hn)

/-- Of a varint that is cut short it is known that bytes are missing. -/
theorem read_cut {top bytes n : Nat} (h : n < bound top bytes) {start : List UInt8}
    (hstart : start <+: write n) (hcut : start ≠ write n) :
    read top bytes start = .error .unexpectedEnd := by
  induction bytes generalizing n start with
  | zero => simp [bound] at h
  | succ bytes ih =>
    cases start with
    | nil => rfl
    | cons b bs =>
      rw [write] at hstart hcut
      split at hstart
      · rename_i hn
        rw [if_pos hn] at hcut
        obtain ⟨rfl, hbs⟩ := List.cons_prefix_cons.mp hstart
        exact absurd (congrArg _ (List.prefix_nil.mp hbs)) hcut
      · rename_i hn
        rw [if_neg hn] at hcut
        obtain ⟨rfl, hbs⟩ := List.cons_prefix_cons.mp hstart
        have hb : (UInt8.ofNat (n % 128 + 128)).toNat = n % 128 + 128 := by simp; omega
        have hrest := ih (div_lt_bound h hn) hbs fun heq => hcut (congrArg _ heq)
        simp only [read, hb, hrest]
        rw [if_neg (by omega)]

end Varint

/-! ## Codecs -/

namespace Codec

variable {α β : Type}

/-- One byte as it is. -/
def byte : Codec UInt8 where
  write b := [b]
  read
    | [] => .error .unexpectedEnd
    | b :: bs => .ok (b, bs)

/-- Carry a codec over to another type. -/
def convert (c : Codec α) (ofBase : α → β) (toBase : β → α) : Codec β where
  write v := c.write (toBase v)
  read bs :=
    match c.read bs with
    | .error e => .error e
    | .ok (v, rest) => .ok (ofBase v, rest)

/-- One value after another. -/
def pair (a : Codec α) (b : Codec β) : Codec (α × β) where
  write v := a.write v.1 ++ b.write v.2
  read bs :=
    match a.read bs with
    | .error e => .error e
    | .ok (x, rest) =>
      match b.read rest with
      | .error e => .error e
      | .ok (y, rest) => .ok ((x, y), rest)

/-- A varint of at most `bytes` bytes. -/
def varint (top bytes : Nat) : Codec Nat := ⟨Varint.write, Varint.read top bytes⟩

/-- A 16-bit number: at most three bytes, two bits in the last. -/
def half : Codec UInt16 := (varint 3 3).convert UInt16.ofNat UInt16.toNat

/-- A 32-bit number: at most five bytes, four bits in the last. -/
def word : Codec UInt32 := (varint 15 5).convert UInt32.ofNat UInt32.toNat

/-- A 64-bit number: at most ten bytes, one bit in the last. -/
def long : Codec UInt64 := (varint 1 10).convert UInt64.ofNat UInt64.toNat

/-- Read so many values. -/
def readMany (c : Codec α) : Nat → List UInt8 → Except WireError (List α × List UInt8)
  | 0, bs => .ok ([], bs)
  | n + 1, bs =>
    match c.read bs with
    | .error e => .error e
    | .ok (v, rest) =>
      match readMany c n rest with
      | .error e => .error e
      | .ok (vs, rest) => .ok (v :: vs, rest)

/-- The number of items, and then the items. -/
def list (c : Codec α) : Codec (List α) where
  write vs := Varint.write vs.length ++ vs.flatMap c.write
  read bs :=
    match Varint.read 1 10 bs with
    | .error e => .error e
    | .ok (n, rest) => readMany c n rest

/-- One of finitely many cases, written as its position among them. -/
def choice [DecidableEq α] (cases : List α) : Codec α where
  write v := Varint.write (cases.idxOf v)
  read bs :=
    match word.read bs with
    | .error e => .error e
    | .ok (n, rest) =>
      match cases[n.toNat]? with
      | some v => .ok (v, rest)
      | none => .error .unknownCase

/-- Read a value and leave what follows it. -/
def decode (c : Codec α) (bs : List UInt8) : Except WireError α :=
  match c.read bs with
  | .error e => .error e
  | .ok (v, _) => .ok v

end Codec

end PacketFilter.Wire
