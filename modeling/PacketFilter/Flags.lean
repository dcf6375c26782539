import PacketFilter.Blank
import PacketFilter.Numeral

/-!
# Flag sets

A flag set is eight bits, some of which have names. Which bits have names depends on what the
flags are about, so the kind is part of the type: modifiers of an instruction cannot be mixed up
with the flags of a TCP segment.

The written form is the names joined by ` | `, with the nameless bits, if any, as one hexadecimal
number at the end. Reading also takes hexadecimal numbers anywhere in the list, and blanks around
each piece.
-/

namespace PacketFilter

/-- What a flag set is about. -/
inductive FlagKind where
  /-- Modifiers of an instruction (`InsnFlags`). -/
  | modifier
  /-- Flags of a TCP segment (`TcpFlags`). -/
  | tcpFlag
  /-- Options present in a TCP segment (`TcpOpts`). -/
  | tcpOption
  /-- Options present in a datagram (`IpOpts`). -/
  | ipOption
  /-- Parts of a flow that make up the key of a connection limit (`LimitMask`). -/
  | limitPart
  deriving DecidableEq, Repr

/-- The named bits, in the order in which they are written. -/
def FlagKind.names : FlagKind → List (String × UInt8)
  | .modifier => [("NOT", 0x80), ("OR", 0x40)]
  | .tcpFlag =>
    [("FIN", 0x01), ("SYN", 0x02), ("RST", 0x04), ("PUSH", 0x08), ("ACK", 0x10), ("URG", 0x20)]
  | .tcpOption => [("MSS", 0x01), ("WINDOW", 0x02), ("SACK", 0x04), ("TS", 0x08), ("CC", 0x10)]
  | .ipOption => [("SSRR", 0x01), ("LSRR", 0x02), ("RR", 0x04), ("TS", 0x08)]
  | .limitPart => [("SRC_ADDR", 0x01), ("SRC_PORT", 0x02), ("DST_ADDR", 0x04), ("DST_PORT", 0x08)]

/-- The bits that have a name. -/
def FlagKind.named : FlagKind → UInt8
  | .modifier => 0xc0
  | .tcpFlag => 0x3f
  | .tcpOption => 0x1f
  | .ipOption => 0x0f
  | .limitPart => 0x0f

/-- The named bits are exactly those in the list of names. -/
theorem FlagKind.named_eq (k : FlagKind) :
    k.named = (k.names.map Prod.snd).foldl (· ||| ·) 0 := by
  cases k <;> decide

/-- A set of flags of one kind; bits without a name may be set too. -/
structure Flags (k : FlagKind) where
  /-- The eight bits. -/
  bits : UInt8
  deriving DecidableEq, Repr

namespace Flags

variable {k : FlagKind}

instance : Inhabited (Flags k) := ⟨⟨0⟩⟩

/-- The empty set. -/
def none : Flags k := ⟨0⟩

/-- All flags of either set. -/
def union (a b : Flags k) : Flags k := ⟨a.bits ||| b.bits⟩

/-- Are all flags of `part` in `whole`? -/
def includes (whole part : Flags k) : Bool := whole.bits &&& part.bits == part.bits

/-- Do the two sets share a flag? -/
def meets (a b : Flags k) : Bool := a.bits &&& b.bits != 0

/-- The set without its nameless bits. -/
def known (f : Flags k) : Flags k := ⟨f.bits &&& k.named⟩

/-- Has every flag of the set a name? -/
def isKnown (f : Flags k) : Bool := f.known == f

/-- Dropping nameless bits a second time changes nothing. -/
@[simp] theorem known_known (f : Flags k) : f.known.known = f.known := by
  simp [known, UInt8.and_assoc]

/-! ## Written form -/

/-- The flags of a set as text. -/
def render (f : Flags k) : String :=
  let names := (k.names.filter fun n => f.bits &&& n.2 == n.2).map Prod.fst
  let rest := f.bits &&& ~~~k.named
  " | ".intercalate (if rest = 0 then names else names ++ [hexMarked rest.toNat])

/-- Read a hexadecimal number of at most eight bits; a plus sign in front is allowed. -/
def bits? (cs : List Char) : Option UInt8 :=
  let digits := match cs with
    | '+' :: ds => ds
    | ds => ds
  match numeral? 16 digits with
  | some n => if n < 256 then some (UInt8.ofNat n) else Option.none
  | Option.none => Option.none

/-- Read one name or one hexadecimal number. -/
def piece? (k : FlagKind) (cs : List Char) : Option (Flags k) :=
  match cs with
  | '0' :: 'x' :: ds => (bits? ds).map Flags.mk
  | _ => (k.names.lookup (String.ofList cs)).map Flags.mk

/-- Read a flag set. A text of blanks is the empty set; otherwise no piece may be empty. -/
def ofText? (k : FlagKind) (s : String) : Option (Flags k) :=
  let cs := s.toList
  if (trimBlank cs).isEmpty then some none
  else
    ((splitAtEach '|' cs).mapM fun piece => piece? k (trimBlank piece)).map fun fs =>
      fs.foldl union none

end Flags

/-! ## The sets in use -/

/-- Modifiers of an instruction. -/
abbrev Modifiers := Flags .modifier

/-- Flags of a TCP segment. -/
abbrev TcpFlags := Flags .tcpFlag

/-- Options of a TCP segment. -/
abbrev TcpOptions := Flags .tcpOption

/-- Options of a datagram. -/
abbrev IpOptions := Flags .ipOption

/-- The parts of a flow that make up a limit key. -/
abbrev LimitParts := Flags .limitPart

/-- The sense of the instruction is inverted (`F_NOT`). -/
def Modifiers.negated : Modifiers := ⟨0x80⟩

/-- The instruction is joined with the next one in an or-block (`F_OR`). -/
def Modifiers.joined : Modifiers := ⟨0x40⟩

/-- The sender has no more data. -/
def TcpFlags.fin : TcpFlags := ⟨0x01⟩

/-- The sender opens the connection. -/
def TcpFlags.syn : TcpFlags := ⟨0x02⟩

/-- The sender aborts the connection. -/
def TcpFlags.rst : TcpFlags := ⟨0x04⟩

/-- The acknowledgement number is valid. -/
def TcpFlags.ack : TcpFlags := ⟨0x10⟩

/-- The source address is part of the key. -/
def LimitParts.sourceAddress : LimitParts := ⟨0x01⟩

/-- The source port is part of the key. -/
def LimitParts.sourcePort : LimitParts := ⟨0x02⟩

/-- The destination address is part of the key. -/
def LimitParts.destinationAddress : LimitParts := ⟨0x04⟩

/-- The destination port is part of the key. -/
def LimitParts.destinationPort : LimitParts := ⟨0x08⟩

end PacketFilter
