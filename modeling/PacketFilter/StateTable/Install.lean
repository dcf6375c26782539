import PacketFilter.StateTable.Lookup
import PacketFilter.StateTable.Removal

/-!
# Creating state

A rule that keeps state asks for an entry for the packet's flow. A rule that limits connections
asks for an entry under the parent for its key, and the parent is made if it is not there. Nothing
is done if live state for the flow is already there.

Room is made by removing expired entries, only once the table is full. That may remove an idle
parent that was just found, so the parent is looked for again afterwards.

For a limit, `install` goes through three parts here: `openParent` up to where the parent is there
and refreshed, `makeWay` where the limit is reached, and `insertChild`.
-/

namespace PacketFilter

namespace StateTable

/-- Is there room for so many more entries? -/
def hasRoom (t : StateTable) (need : Nat) : Bool := decide (t.count + need ≤ t.config.capacity)

/-- Make room for so many more entries, by removing expired ones if there is none. Says whether
there is room then. -/
def reserve (t : StateTable) (need : Nat) (now : Moment) : Bool × StateTable :=
  if t.hasRoom need then (true, t)
  else
    let t := (t.sweep now).2
    (t.hasRoom need, t)

/-- Put an entry at the head of its bucket. -/
def insert (t : StateTable) (e : Entry) : StateTable :=
  { t.modifyBucket e.flow (e :: ·) with count := t.count + 1 }

/-- The parent for a rule and a key (`find_parent`). -/
def parent? (t : StateTable) (rule : Rule) (key : Flow) : Option Entry :=
  (t.bucket key).find? (·.isParentFor rule key)

/-- Change the parent for a rule and a key. -/
def modifyParent (t : StateTable) (rule : Rule) (key : Flow) (f : Entry → Entry) : StateTable :=
  t.modifyBucket key fun b => b.map fun e => if e.isParentFor rule key then f e else e

/-- The number of connections under a rule and a key. -/
def childrenOf (t : StateTable) (rule : Rule) (key : Flow) : Nat :=
  ((t.parent? rule key).map Entry.children).getD 0

/-- A new entry for a packet's flow, as `insert` makes it and the packet keeps it alive from the
start (`refresh`). -/
def freshEntry (t : StateTable) (pkt : Packet) (role : EntryRole) (rule : Rule) (now : Moment) :
    Entry :=
  ({ flow := pkt.flow, role, rule, expires := now.plus t.config.lifetimes.syn } : Entry).refresh
    pkt .forward t.config.lifetimes now

/-- A new parent without children. -/
def freshParent (t : StateTable) (rule : Rule) (key : Flow) (now : Moment) : Entry :=
  { flow := key, role := .parent 0, rule, expires := now.plus t.config.lifetimes.syn }

/-- Let the parent for a rule and a key live a short while longer. -/
def touchParent (t : StateTable) (rule : Rule) (key : Flow) (now : Moment) : StateTable :=
  t.modifyParent rule key fun p => { p with expires := now.plus t.config.lifetimes.short }

/-- Make room for a connection under a key, and for its parent if there is none, as `install` does
for `StateKind::Limit`. Afterwards the parent is there, and lives a short while longer. Says whether
there is room. -/
def openParent (t : StateTable) (rule : Rule) (key : Flow) (now : Moment) : Bool × StateTable :=
  match t.reserve (if (t.parent? rule key).isSome then 1 else 2) now with
  | (false, t) => (false, t)
  | (true, t) =>
    if (t.parent? rule key).isSome then (true, t.touchParent rule key now)
    else
      match t.reserve 2 now with
      | (false, t) => (false, t)
      | (true, t) => (true, (t.insert (t.freshParent rule key now)).touchParent rule key now)

/-- Remove expired connections under a key if there are as many as the limit allows, before
`install` finds the limit exceeded. -/
def makeWay (t : StateTable) (rule : Rule) (key : Flow) (limit : Nat) (now : Moment) : StateTable :=
  if limit ≤ t.childrenOf rule key then
    (t.removeWhere (·.isChildOf rule key) false now).2
  else t

/-- Put a connection under its parent, whose `limit_count` goes up. -/
def insertChild (t : StateTable) (e : Entry) (key : Flow) : StateTable :=
  (t.modifyParent e.rule key fun p => { p with role := .parent (p.children + 1) }).insert e

/-- Create state for a packet's flow on behalf of a rule, which may be barred from it. The table may
change even if no state is created, by making room. -/
def install (t : StateTable) (enabled : Bool) (rule : Rule) (request : StateRequest) (pkt : Packet)
    (now : Moment) : Except StateError Unit × StateTable :=
  if !enabled then (.error (.creationDisabled rule.number), t)
  else
    let t := t.takePending
    if t.holdsLive pkt.flow now then (.ok (), t)
    else
      match request with
      | .keepState =>
        match t.reserve 1 now with
        | (false, t) => (.error (.capacity t.config.capacity), t)
        | (true, t) => (.ok (), t.insert (t.freshEntry pkt .keepState rule now))
      | .limit parts connections =>
        let key := pkt.flow.limitKey parts
        match t.openParent rule key now with
        | (false, t) => (.error (.capacity t.config.capacity), t)
        | (true, t) =>
          let t := t.makeWay rule key connections.toNat now
          if connections.toNat ≤ t.childrenOf rule key then
            (.error (.limitExceeded connections), t)
          else (.ok (), t.insertChild (t.freshEntry pkt (.child key) rule now) key)

end StateTable

end PacketFilter
