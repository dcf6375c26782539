import PacketFilter.Rule.Basic
import PacketFilter.Snapshot
import PacketFilter.TcpTrack

/-!
# The state table

Entries are created on behalf of rules that keep state or limit connections, and are found again
by packets of either direction of the flow. They lie in buckets; the bucket of a flow is picked
by a hash that is the same for both directions. Within a bucket the newest entry comes first.

An entry that counts against a connection limit has a parent, the entry for the key that the
limit is about, created for the same rule. Parents count their children and are not matched by
packets.

An entry's `EntryRole` stands for its `dyn_type`, its `parent` and its `limit_count`: a child names
its parent by rule and key. `StateTable` has the fields of `DynStateTable` and of the `DynTable`
inside it, and `StateTable.entries` is the table as one list, bucket by bucket.

Main statements: `hash_reversed`, both directions of a flow have one hash; `bucketIndex_lt`, the
bucket of a flow is one that the table has.
-/

namespace PacketFilter

/-! ## Configuration of the table -/

/-- What the table is given to work with (`DynConfig`). -/
structure StateConfig where
  buckets : Nat
  /-- The most entries there may be. -/
  capacity : Nat
  lifetimes : Lifetimes
  keepalive : Bool
  /-- How long before an entry expires probes begin. -/
  keepaliveInterval : Lifetime
  /-- The time between two probes of one entry. -/
  keepalivePeriod : Lifetime
  deriving DecidableEq, Repr, Inhabited

/-- The most buckets there may be (`DYN_MAX_BUCKETS`). -/
def maxBuckets : Nat := 65536

/-- Is the number a power of two? Zero is none. -/
def isPowerOfTwo (n : Nat) : Bool := n != 0 && 1 <<< n.log2 == n

/-- May a table have so many buckets? -/
def validBuckets (n : Nat) : Bool := isPowerOfTwo n && decide (n ≤ maxBuckets)

/-- Why state is not created. -/
inductive StateError where
  | capacity (max : Nat)
  | limitExceeded (limit : UInt16)
  | creationDisabled (ruleNumber : UInt16)
  deriving DecidableEq, Repr

/-- What is said about state that is not created. -/
def StateError.message : StateError → String
  | .capacity max => "too many dynamic entries (" ++ toString max ++ ")"
  | .limitExceeded limit => "too many sessions for limit key (" ++ toString limit.toNat ++ ")"
  | .creationDisabled n => "state creation disabled for rule " ++ toString n.toNat

/-- What state a rule asks for (`StateKind`). -/
inductive StateRequest where
  | keepState
  | limit (parts : LimitParts) (connections : UInt16)
  deriving DecidableEq, Repr

/-- Which way a packet travels, seen from the one that created the entry (`MatchDir`). -/
inductive MatchDirection where
  | forward
  | reverse
  deriving DecidableEq, Repr

/-! ## Entries -/

/-- What an entry is for. -/
inductive EntryRole where
  | keepState
  /-- A connection under a limit; the parent is the entry of the same rule for this key. -/
  | child (key : Flow)
  /-- The key of a limit, and the number of connections under it. -/
  | parent (children : Nat)
  deriving DecidableEq, Repr

/-- One entry of the table (`DynEntry`). -/
structure Entry where
  flow : Flow
  role : EntryRole
  /-- The rule that created the entry. -/
  rule : Rule
  expires : Moment
  track : TcpTrack := {}
  packets : UInt64 := 0
  bytes : UInt64 := 0
  /-- When keepalive probes were last sent. -/
  probed : Option Moment := none
  deriving DecidableEq, Repr

namespace Entry

/-- Does the entry stand for the key of a limit? -/
def isParent (e : Entry) : Bool :=
  match e.role with
  | .parent _ => true
  | _ => false

/-- The number of connections under a parent, zero for other entries. -/
def children (e : Entry) : Nat :=
  match e.role with
  | .parent n => n
  | _ => 0

/-- The kind that clients are told. -/
def kind (e : Entry) : EntryKind :=
  match e.role with
  | .keepState => .keepState
  | .child _ => .limit
  | .parent _ => .limitParent

/-- Is it the parent for this rule and key? -/
def isParentFor (e : Entry) (rule : Rule) (key : Flow) : Bool :=
  e.isParent && e.rule.id == rule.id && e.flow == key

/-- Is it a connection under the parent for this rule and key (`has_parent`)? -/
def isChildOf (e : Entry) (rule : Rule) (key : Flow) : Bool :=
  e.role == .child key && e.rule.id == rule.id

/-- Has the entry's time run out? -/
def isExpired (e : Entry) (now : Moment) : Bool := decide (e.expires ≤ now)

/-- How a packet of the flow travels if the entry is matched by it: expired entries and parents
are matched by none. -/
def direction? (e : Entry) (flow : Flow) (now : Moment) : Option MatchDirection :=
  if e.isParent then none
  else
    match e.flow.orientation flow with
    | none => none
    | some forward =>
      if e.isExpired now then none else some (if forward then .forward else .reverse)

/-- Let a packet keep the entry alive: for as long as its protocol and, with TCP, the phase of the
connection deserve. -/
def refresh (e : Entry) (pkt : Packet) (dir : MatchDirection) (lifetimes : Lifetimes)
    (now : Moment) : Entry :=
  if pkt.isTcp then
    let (lifetime, track) := e.track.update (dir == .forward) pkt.tcp lifetimes
    match lifetime with
    | some l => { e with track, expires := now.plus l }
    | none => { e with track }
  else if pkt.isUdp then { e with expires := now.plus lifetimes.udp }
  else { e with expires := now.plus lifetimes.short }

/-- Account a matching packet to the entry and keep it alive. -/
def charge (e : Entry) (pkt : Packet) (dir : MatchDirection) (lifetimes : Lifetimes)
    (now : Moment) : Entry :=
  let e := e.refresh pkt dir lifetimes now
  { e with packets := e.packets + 1, bytes := e.bytes + pkt.length.toUInt64 }

/-- Keeping an entry alive changes no more than its expiry and what is known of the connection. -/
theorem refresh_eq (e : Entry) (pkt : Packet) (dir : MatchDirection) (lifetimes : Lifetimes)
    (now : Moment) :
    ∃ expires track, e.refresh pkt dir lifetimes now = { e with expires, track } := by
  simp only [refresh]
  split
  · cases (e.track.update (dir == .forward) pkt.tcp lifetimes).1 <;> exact ⟨_, _, rfl⟩
  · split <;> exact ⟨_, _, rfl⟩

@[simp] theorem flow_charge (e : Entry) (pkt : Packet) (dir : MatchDirection)
    (lifetimes : Lifetimes) (now : Moment) : (e.charge pkt dir lifetimes now).flow = e.flow := by
  obtain ⟨expires, track, h⟩ := e.refresh_eq pkt dir lifetimes now
  simp only [charge, h]

@[simp] theorem role_charge (e : Entry) (pkt : Packet) (dir : MatchDirection)
    (lifetimes : Lifetimes) (now : Moment) : (e.charge pkt dir lifetimes now).role = e.role := by
  obtain ⟨expires, track, h⟩ := e.refresh_eq pkt dir lifetimes now
  simp only [charge, h]

@[simp] theorem rule_charge (e : Entry) (pkt : Packet) (dir : MatchDirection)
    (lifetimes : Lifetimes) (now : Moment) : (e.charge pkt dir lifetimes now).rule = e.rule := by
  obtain ⟨expires, track, h⟩ := e.refresh_eq pkt dir lifetimes now
  simp only [charge, h]

/-- What clients are told about the entry (`DynEntry::dump`). -/
def report (e : Entry) (now : Moment) : StateReport where
  flow := e.flow
  ruleNumber := e.rule.number
  kind := e.kind
  expiresIn := e.expires.since now / 1000
  packets := e.packets
  bytes := e.bytes
  tcpState := e.track.state
  children := UInt32.ofNat e.children

end Entry

/-- The key of a limit: the parts of the flow that the limit is about, and zeros for the rest
(`limit_key`). -/
def Flow.limitKey (f : Flow) (parts : LimitParts) : Flow where
  source := if parts.includes LimitParts.sourceAddress then f.source else 0
  destination := if parts.includes LimitParts.destinationAddress then f.destination else 0
  sourcePort := if parts.includes LimitParts.sourcePort then f.sourcePort else 0
  destinationPort := if parts.includes LimitParts.destinationPort then f.destinationPort else 0
  protocol := f.protocol
  flags := 0

/-! ## The table -/

/-- Entries in buckets (`DynStateTable`). -/
structure StateTable where
  config : StateConfig
  /-- Makes the hash differ from one table to another. -/
  salt : UInt32
  buckets : Array (List Entry)
  /-- The number of entries. -/
  count : Nat := 0
  /-- How often the number of buckets has changed. -/
  generation : Nat := 0
  /-- A number of buckets asked for, which the table takes on when it is empty. -/
  pending : Option Nat := none
  deriving DecidableEq, Repr, Inhabited

/-- The salted hash of a flow, the same for both of its directions (`hash_flow`). -/
def Flow.hash (f : Flow) (salt : UInt32) : UInt32 :=
  let ends := f.source ^^^ f.destination ^^^ (f.sourcePort ^^^ f.destinationPort).toUInt32
  -- The constant comes first: unfolded the other way round, the product counts down from it.
  let mixed := 0x9e3779b1 * (ends ^^^ salt)
  mixed ^^^ (mixed >>> 16)

/-- Both directions of a flow have one hash. -/
@[simp] theorem Flow.hash_reversed (f : Flow) (salt : UInt32) :
    f.reversed.hash salt = f.hash salt := by
  simp [Flow.hash, Flow.reversed, UInt32.xor_comm f.destination, UInt16.xor_comm f.destinationPort]

namespace StateTable

/-- An empty table. -/
def new (config : StateConfig) (salt : UInt32) : StateTable :=
  { config, salt, buckets := Array.replicate config.buckets [] }

/-- All entries, bucket by bucket, the newest first in each (`for_each`). -/
def entries (t : StateTable) : List Entry := t.buckets.toList.flatten

@[simp] theorem entries_new (config : StateConfig) (salt : UInt32) :
    (new config salt).entries = [] := by
  simp [new, entries]

theorem mem_entries_of_bucket {t : StateTable} {b : List Entry} (hb : b ∈ t.buckets) {e : Entry}
    (he : e ∈ b) : e ∈ t.entries :=
  List.mem_flatten.mpr ⟨b, Array.mem_toList_iff.mpr hb, he⟩

/-- The bucket for a flow. -/
def bucketIndex (t : StateTable) (f : Flow) : Nat := (f.hash t.salt).toNat % t.buckets.size

/-- The entries that a packet of the flow could match. -/
def bucket (t : StateTable) (f : Flow) : List Entry := t.buckets.getD (t.bucketIndex f) []

/-- Change the bucket for a flow. -/
def modifyBucket (t : StateTable) (f : Flow) (g : List Entry → List Entry) : StateTable :=
  { t with buckets := t.buckets.modify (t.bucketIndex f) g }

/-- Change every bucket. -/
def mapBuckets (t : StateTable) (g : List Entry → List Entry) : StateTable :=
  { t with buckets := t.buckets.map g }

section

variable (t : StateTable) (f : Flow) (g : List Entry → List Entry)

@[simp] theorem buckets_mapBuckets : (t.mapBuckets g).buckets = t.buckets.map g := rfl

@[simp] theorem buckets_modifyBucket :
    (t.modifyBucket f g).buckets = t.buckets.modify (t.bucketIndex f) g := rfl

@[simp] theorem config_modifyBucket : (t.modifyBucket f g).config = t.config := rfl

@[simp] theorem salt_modifyBucket : (t.modifyBucket f g).salt = t.salt := rfl

@[simp] theorem count_modifyBucket : (t.modifyBucket f g).count = t.count := rfl

@[simp] theorem pending_modifyBucket : (t.modifyBucket f g).pending = t.pending := rfl

end

/-- A change that leaves every bucket as it is. -/
theorem mapBuckets_eq_self {t : StateTable} {g : List Entry → List Entry}
    (h : ∀ b ∈ t.buckets, g b = b) : t.mapBuckets g = t := by
  have hbuckets : t.buckets.map g = t.buckets := (Array.map_congr_left h).trans (Array.map_id' _)
  rw [mapBuckets, hbuckets]

/-- The bucket for a flow is one that the table has. -/
theorem bucketIndex_lt {t : StateTable} (h : 0 < t.buckets.size) (f : Flow) :
    t.bucketIndex f < t.buckets.size := Nat.mod_lt _ h

@[simp] theorem bucketIndex_reversed (t : StateTable) (f : Flow) :
    t.bucketIndex f.reversed = t.bucketIndex f := by
  simp [bucketIndex]

/-- Ask for a number of buckets; refused unless it is a power of two and not too large. -/
def setBuckets (t : StateTable) (n : Nat) : Option StateTable :=
  if validBuckets n then some { t with pending := some n } else none

/-- Take on the number of buckets asked for, if the table is empty (`maybe_resize`). -/
def takePending (t : StateTable) : StateTable :=
  if t.count ≠ 0 then t
  else
    match t.pending with
    | none => t
    | some n =>
      if n = t.buckets.size then { t with pending := none }
      else
        { t with
          pending := none
          buckets := Array.replicate n []
          generation := t.generation + 1 }

/-- What clients are told about the entries (`DynStateTable::dump`). -/
def report (t : StateTable) (now : Moment) : List StateReport := t.entries.map (·.report now)

end StateTable

end PacketFilter
