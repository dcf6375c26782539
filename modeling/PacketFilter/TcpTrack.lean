import PacketFilter.Packet
import PacketFilter.Time

/-!
# Tracking a TCP connection

Of each direction of a connection the filter keeps which of SYN, FIN and RST it has sent, and the
last acknowledgement number. That picks the lifetime of an idle entry, and lets the filter build
keepalive probes.

The flags seen are one half word: the low byte holds those of the forward direction, the high
byte those of the reverse one. `TcpTrack.update` folds in one segment; the match on the flags seen
that decides there, and in the name of a connection's phase, is `phaseOf`.

Main statement: `state_update`, the flags seen are those seen before and those of the segment.
-/

namespace PacketFilter

/-- How long an idle entry lives, by protocol and by phase of a TCP connection. -/
structure Lifetimes where
  ack : Lifetime
  syn : Lifetime
  fin : Lifetime
  rst : Lifetime
  udp : Lifetime
  short : Lifetime
  deriving DecidableEq, Repr, Inhabited

/-- Is `a` at or after `b` in sequence space (`seq_ge`)? Numbers wrap, so `b` counts as earlier if
it is less than half the space behind. -/
def seqAtOrAfter (a b : UInt32) : Bool := decide ((a - b).toNat < 2147483648)

/-- The flags seen in both directions, and the last acknowledgement of each. Zero stands for no
acknowledgement yet. -/
structure TcpTrack where
  state : UInt16 := 0
  ackForward : UInt32 := 0
  ackReverse : UInt32 := 0
  deriving DecidableEq, Repr, Inhabited

/-- The phase of a connection, read off the flags seen. -/
inductive TcpPhase where
  /-- No flag seen yet. -/
  | fresh
  /-- A SYN in one direction only. -/
  | opening (forward : Bool)
  /-- A SYN in both directions and nothing else. -/
  | established
  /-- Both SYNs, and a FIN in one direction. -/
  | closing
  /-- Both SYNs and both FINs. -/
  | closed
  /-- A RST, or a combination that no orderly connection shows. -/
  | reset
  deriving DecidableEq, Repr

namespace TcpTrack

/-- Both ends have sent a SYN (`BOTH_SYN`). -/
def bothSyn : UInt16 := 0x0202

/-- A FIN of the forward direction. -/
def finForward : UInt16 := 0x0001

/-- A FIN of the reverse direction. -/
def finReverse : UInt16 := 0x0100

/-- The flags kept of a segment: FIN, SYN and RST (`TRACKED`). -/
def trackedFlags : UInt8 := 0x07

/-- Have both ends sent a SYN? -/
def isEstablished (t : TcpTrack) : Bool := t.state &&& bothSyn == bothSyn

/-- The phase of a connection in which these flags have been seen. -/
def phaseOf (state : UInt16) : TcpPhase :=
  if state = 0 then .fresh
  else if state = 0x0002 then .opening true
  else if state = 0x0200 then .opening false
  else if state = bothSyn then .established
  else if state = bothSyn ||| finForward ∨ state = bothSyn ||| finReverse then .closing
  else if state = bothSyn ||| finForward ||| finReverse then .closed
  else .reset

/-- The phase the connection is in. -/
def phase (t : TcpTrack) : TcpPhase := phaseOf t.state

/-- The name of the phase. -/
def render (t : TcpTrack) : String :=
  match t.phase with
  | .fresh => "NONE"
  | .opening true => "SYN_SENT"
  | .opening false => "SYN_RCVD"
  | .established => "ESTABLISHED"
  | .closing => "CLOSING"
  | .closed => "CLOSED"
  | .reset => "RESET"

/-- The tracked flags of a segment, in the byte of its direction. -/
def seen (forward : Bool) (tcp : Option TcpHeader) : UInt16 :=
  let flags := ((tcp.map fun h => h.flags.bits).getD 0 &&& trackedFlags).toUInt16
  if forward then flags else flags <<< 8

/-- The acknowledgement last recorded for a direction. -/
def lastAck (t : TcpTrack) (forward : Bool) : UInt32 :=
  if forward then t.ackForward else t.ackReverse

/-- Record an acknowledgement for a direction. -/
def recordAck (t : TcpTrack) (forward : Bool) (ack : UInt32) : TcpTrack :=
  if forward then { t with ackForward := ack } else { t with ackReverse := ack }

/-- Take note of the acknowledgement of a segment. The answer says whether it was in order: a
number that lies before the recorded one is not recorded. -/
def acknowledge (t : TcpTrack) (forward : Bool) : Option TcpHeader → Bool × TcpTrack
  | none => (true, t)
  | some h =>
    if t.lastAck forward = 0 ∨ seqAtOrAfter h.ack (t.lastAck forward) = true then
      (true, t.recordAck forward h.ack)
    else (false, t)

/-- Fold in one segment and give the lifetime the entry now deserves: none if the segment's
acknowledgement is out of order, which must not keep an entry alive. -/
def update (t : TcpTrack) (forward : Bool) (tcp : Option TcpHeader) (lifetimes : Lifetimes) :
    Option Lifetime × TcpTrack :=
  let t := { t with state := t.state ||| seen forward tcp }
  match t.phase with
  | .opening _ => (some lifetimes.syn, t)
  | .established | .closing =>
    let answer := t.acknowledge forward tcp
    (if answer.1 then some lifetimes.ack else none, answer.2)
  | .closed => (some lifetimes.fin, t)
  | .fresh | .reset => (some lifetimes.rst, t)

@[simp] theorem state_recordAck (t : TcpTrack) (forward : Bool) (ack : UInt32) :
    (t.recordAck forward ack).state = t.state := by
  cases forward <;> rfl

@[simp] theorem state_acknowledge (t : TcpTrack) (forward : Bool) (tcp : Option TcpHeader) :
    (t.acknowledge forward tcp).2.state = t.state := by
  cases tcp with
  | none => rfl
  | some h => simp only [acknowledge]; split <;> simp

/-- The flags seen are those seen before and those of the segment. -/
@[simp] theorem state_update (t : TcpTrack) (forward : Bool) (tcp : Option TcpHeader)
    (lifetimes : Lifetimes) :
    (t.update forward tcp lifetimes).2.state = t.state ||| seen forward tcp := by
  simp only [update]
  split <;> simp

end TcpTrack

end PacketFilter
