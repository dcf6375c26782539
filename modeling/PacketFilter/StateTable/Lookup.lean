import PacketFilter.StateTable.Basic

/-!
# Looking up state

A packet is matched by the newest live entry of its flow, in either direction. The entry counts
the packet and is kept alive by it.
-/

namespace PacketFilter

/-- An entry matched by a packet, as the packet has left it (`DynMatch`). -/
structure StateHit where
  entry : Entry
  direction : MatchDirection
  deriving DecidableEq, Repr

/-- Charge the packet to the first entry of a bucket that it matches (the loop in `lookup`). -/
def chargeFirst (pkt : Packet) (lifetimes : Lifetimes) (now : Moment) :
    List Entry → Option (StateHit × List Entry)
  | [] => none
  | e :: es =>
    match e.direction? pkt.flow now with
    | some dir =>
      let e := e.charge pkt dir lifetimes now
      some (⟨e, dir⟩, e :: es)
    | none =>
      match chargeFirst pkt lifetimes now es with
      | some (hit, es) => some (hit, e :: es)
      | none => none

namespace StateTable

/-- Find the live entry for a packet's flow and charge the packet to it. -/
def lookup (t : StateTable) (pkt : Packet) (now : Moment) : Option StateHit × StateTable :=
  if t.count = 0 then (none, t)
  else
    match chargeFirst pkt t.config.lifetimes now (t.bucket pkt.flow) with
    | some (hit, bucket) => (some hit, t.modifyBucket pkt.flow fun _ => bucket)
    | none => (none, t)

/-- Is there a live entry for the flow (`find_live`)? -/
def holdsLive (t : StateTable) (flow : Flow) (now : Moment) : Bool :=
  (t.bucket flow).any fun e => (e.direction? flow now).isSome

end StateTable

/-- Charging keeps the number of entries. -/
theorem length_chargeFirst {pkt : Packet} {lifetimes : Lifetimes} {now : Moment} :
    ∀ {es es' : List Entry} {hit : StateHit},
      chargeFirst pkt lifetimes now es = some (hit, es') → es'.length = es.length
  | [], _, _, h => by simp [chargeFirst] at h
  | e :: es, es', hit, h => by
    simp only [chargeFirst] at h
    split at h
    · cases h
      rfl
    · split at h
      · rename_i hr
        cases h
        simpa using length_chargeFirst hr
      · cases h

end PacketFilter
