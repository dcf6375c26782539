/-!
# Addresses and flows

A flow is named by its two addresses, its two ports and its protocol. The filter remembers flows
without regard to direction: `orientation` says whether two names mean the same flow, and which
way round.

Main statements: reversing a flow twice gives it back (`reversed_reversed`), orientation does not
depend on which flow is asked (`orientation_comm`), and it exists exactly if the protocols agree
and the ends agree in one direction or the other (`orientation_isSome_iff`).
-/

namespace PacketFilter

/-! ## IPv4 addresses -/

/-- An IPv4 address, as a number in host order. -/
abbrev Ipv4 := UInt32

namespace Ipv4

/-- Dotted decimal form. -/
def render (a : Ipv4) : String :=
  let n := a.toNat
  s!"{n / 16777216}.{n / 65536 % 256}.{n / 256 % 256}.{n % 256}"

/-- Is the address in 224.0.0.0/4? -/
def isMulticast (a : Ipv4) : Bool := a.toNat / 268435456 == 14

/-- Is it the limited broadcast address? -/
def isBroadcast (a : Ipv4) : Bool := a == 0xffffffff

end Ipv4

/-! ## Protocols -/

/-- An IP protocol number. -/
abbrev Protocol := UInt8

namespace Protocol

/-- The control message protocol (`IPPROTO_ICMP`). -/
def icmp : Protocol := 1

/-- The transmission control protocol (`IPPROTO_TCP`). -/
def tcp : Protocol := 6

/-- The user datagram protocol (`IPPROTO_UDP`). -/
def udp : Protocol := 17

/-- The name a flow is shown with; protocols other than the three are plain `IP` (`proto_name`). -/
def name (p : Protocol) : String :=
  if p = icmp then "ICMP" else if p = tcp then "TCP" else if p = udp then "UDP" else "IP"

end Protocol

/-! ## Flows -/

/-- The two ends and the protocol of a conversation, with the flag byte it came with (`FlowId`). -/
structure Flow where
  source : Ipv4
  destination : Ipv4
  sourcePort : UInt16
  destinationPort : UInt16
  protocol : Protocol
  flags : UInt8
  deriving DecidableEq, Repr, Inhabited

namespace Flow

/-- The same flow seen from the other end. -/
def reversed (f : Flow) : Flow :=
  { f with
    source := f.destination
    destination := f.source
    sourcePort := f.destinationPort
    destinationPort := f.sourcePort }

@[simp] theorem reversed_reversed (f : Flow) : f.reversed.reversed = f := rfl

/-- Do the ends agree, whatever the protocol and flag bytes? -/
def sameEnds (f g : Flow) : Bool :=
  f.source == g.source && f.destination == g.destination && f.sourcePort == g.sourcePort &&
    f.destinationPort == g.destinationPort

/-- Does `g` name the flow `f`? `some true` if in the same direction, `some false` if in the
reverse one only. The flag bytes do not count. -/
def orientation (f g : Flow) : Option Bool :=
  if f.protocol != g.protocol then none
  else if f.sameEnds g then some true
  else if f.sameEnds g.reversed then some false
  else none

/-- The text by which messages and tables name a flow. -/
def render (f : Flow) : String :=
  f.protocol.name ++ ":" ++ f.source.render ++ ":" ++ toString f.sourcePort.toNat ++ ":" ++
    f.destination.render ++ ":" ++ toString f.destinationPort.toNat

theorem sameEnds_iff {f g : Flow} :
    f.sameEnds g = true ↔ f.source = g.source ∧ f.destination = g.destination ∧
      f.sourcePort = g.sourcePort ∧ f.destinationPort = g.destinationPort := by
  simp [sameEnds, and_assoc]

@[simp] theorem sameEnds_self (f : Flow) : f.sameEnds f = true := by simp [sameEnds]

theorem sameEnds_comm (f g : Flow) : f.sameEnds g = g.sameEnds f := by
  rw [Bool.eq_iff_iff, sameEnds_iff, sameEnds_iff]
  constructor <;> rintro ⟨h₁, h₂, h₃, h₄⟩ <;> exact ⟨h₁.symm, h₂.symm, h₃.symm, h₄.symm⟩

theorem sameEnds_reversed (f g : Flow) : f.sameEnds g.reversed = f.reversed.sameEnds g := by
  rw [Bool.eq_iff_iff, sameEnds_iff, sameEnds_iff]
  constructor <;> rintro ⟨h₁, h₂, h₃, h₄⟩ <;> exact ⟨h₂, h₁, h₄, h₃⟩

/-- A flow names itself in the forward direction. -/
@[simp] theorem orientation_self (f : Flow) : f.orientation f = some true := by
  simp [orientation]

/-- Naming the same flow does not depend on which of the two is looked at. -/
theorem orientation_comm (f g : Flow) : f.orientation g = g.orientation f := by
  simp only [orientation, sameEnds_comm f g, sameEnds_comm f g.reversed, ← sameEnds_reversed,
    bne_comm (a := f.protocol)]

theorem orientation_isSome_iff {f g : Flow} :
    (f.orientation g).isSome = true ↔
      f.protocol = g.protocol ∧ (f.sameEnds g = true ∨ f.sameEnds g.reversed = true) := by
  unfold orientation
  by_cases hp : f.protocol = g.protocol <;> by_cases h₁ : f.sameEnds g = true <;>
    by_cases h₂ : f.sameEnds g.reversed = true <;> simp [hp, h₁, h₂]

end Flow

end PacketFilter
