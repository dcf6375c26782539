import PacketFilter.Snapshot
import PacketFilter.Wire.Codec

/-!
# Byte encodings of rules and snapshots

The codecs of what crosses to a client, each a record of fields in order: `IocRule`,
`DumpRulesResp`, `DumpStatesResp`, and what these hold.
-/

namespace PacketFilter.Wire

/-- Number, set, action offset and words. -/
def ruleImage : Codec RuleImage :=
  (Codec.half.pair (Codec.byte.pair (Codec.half.pair (Codec.list Codec.word)))).convert
    (fun v => ⟨v.1, v.2.1, v.2.2.1, v.2.2.2⟩)
    (fun i => (i.number, i.set, i.actionOffset, i.words))

/-- The image and the counters. -/
def ruleReport : Codec RuleReport :=
  (ruleImage.pair (Codec.long.pair (Codec.long.pair Codec.long))).convert
    (fun v => ⟨v.1, v.2.1, v.2.2.1, v.2.2.2⟩)
    (fun r => (r.image, r.packets, r.bytes, r.lastMatch))

/-- Version, disabled sets and rules. -/
def ruleSnapshot : Codec RuleSnapshot :=
  (Codec.long.pair (Codec.word.pair (Codec.list ruleReport))).convert
    (fun v => ⟨v.1, v.2.1, v.2.2⟩)
    (fun s => (s.version, s.disabled, s.rules))

/-- Addresses, ports, protocol and flag byte. -/
def flow : Codec Flow :=
  (Codec.word.pair (Codec.word.pair (Codec.half.pair (Codec.half.pair
    (Codec.byte.pair Codec.byte))))).convert
    (fun v => ⟨v.1, v.2.1, v.2.2.1, v.2.2.2.1, v.2.2.2.2.1, v.2.2.2.2.2⟩)
    (fun f => (f.source, f.destination, f.sourcePort, f.destinationPort, f.protocol, f.flags))

/-- The position among the three kinds. -/
def entryKind : Codec EntryKind := Codec.choice [.keepState, .limit, .limitParent]

/-- Flow, rule number, kind, seconds left, counters, TCP state and number of children. -/
def stateReport : Codec StateReport :=
  (flow.pair (Codec.half.pair (entryKind.pair (Codec.long.pair (Codec.long.pair (Codec.long.pair
    (Codec.half.pair Codec.word))))))).convert
    (fun v => ⟨v.1, v.2.1, v.2.2.1, v.2.2.2.1, v.2.2.2.2.1, v.2.2.2.2.2.1, v.2.2.2.2.2.2.1,
      v.2.2.2.2.2.2.2⟩)
    (fun s => (s.flow, s.ruleNumber, s.kind, s.expiresIn, s.packets, s.bytes, s.tcpState,
      s.children))

/-- Version and entries. -/
def stateSnapshot : Codec StateSnapshot :=
  (Codec.long.pair (Codec.list stateReport)).convert
    (fun v => ⟨v.1, v.2⟩)
    (fun s => (s.version, s.states))

end PacketFilter.Wire
