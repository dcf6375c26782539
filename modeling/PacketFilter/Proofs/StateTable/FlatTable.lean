import PacketFilter.StateTable.Install
import PacketFilter.StateTable.Keepalive

/-!
# State without buckets

`FlatTable` keeps the entries of a state table as one list, the newest first. A packet is matched
by the first live entry of its flow, a parent is looked for in the whole list, and removing
entries filters the list. There is no hash, no salt, no number of buckets and no counter of
entries: a table that is asked for another number of buckets only says whether it would take it.

`TableOp` lists what can be asked of a state table and `TableAnswer` what it answers. Both kinds of
table carry out an operation with `apply` and a list of operations with `run`.
-/

namespace PacketFilter

/-! ## Operations and answers -/

/-- What can be asked of a state table. -/
inductive TableOp where
  | install (enabled : Bool) (rule : Rule) (request : StateRequest) (pkt : Packet) (now : Moment)
  | lookup (pkt : Packet) (now : Moment)
  | sweep (now : Moment)
  | flush (selected : Entry → Bool) (now : Moment)
  | flushRule (rule : Rule) (now : Moment)
  | flushAll (now : Moment)
  | probe (now : Moment)
  | setBuckets (n : Nat)
  | size
  | report (now : Moment)

/-- Is the operation a lookup? -/
def TableOp.isLookup : TableOp → Bool
  | .lookup _ _ => true
  | _ => false

/-- What a state table answers. -/
inductive TableAnswer where
  /-- Whether state was created. -/
  | installed (result : Except StateError Unit)
  /-- The entry that a packet has matched, as the packet has left it. -/
  | found (hit : Option StateHit)
  /-- How many entries were removed. -/
  | removed (n : Nat)
  /-- How many entries were probed, and the probes. -/
  | probed (n : Nat) (requests : List PacketRequest)
  /-- Whether the table would take on the number of buckets. -/
  | accepted (b : Bool)
  | size (n : Nat)
  | report (reports : List StateReport)

/-- The same answer; reports and probes may come in another order. -/
def TableAnswer.Agrees : TableAnswer → TableAnswer → Prop
  | .probed n requests, .probed m requests' => n = m ∧ requests.Perm requests'
  | .report reports, .report reports' => reports.Perm reports'
  | a, b => a = b

namespace StateTable

/-- Carry out an operation. -/
def apply (t : StateTable) : TableOp → TableAnswer × StateTable
  | .install enabled rule request pkt now =>
    let (result, t) := t.install enabled rule request pkt now
    (.installed result, t)
  | .lookup pkt now =>
    let (hit, t) := t.lookup pkt now
    (.found hit, t)
  | .sweep now =>
    let (n, t) := t.sweep now
    (.removed n, t)
  | .flush selected now =>
    let (n, t) := t.flush selected now
    (.removed n, t)
  | .flushRule rule now =>
    let (n, t) := t.flushRule rule now
    (.removed n, t)
  | .flushAll now =>
    let (n, t) := t.flushAll now
    (.removed n, t)
  | .probe now =>
    let (n, requests, t) := t.probeDue now
    (.probed n requests, t)
  | .setBuckets n =>
    match t.setBuckets n with
    | some t => (.accepted true, t)
    | none => (.accepted false, t)
  | .size => (.size t.count, t)
  | .report now => (.report (t.report now), t)

/-- Carry out operations one after another: the answers, and the table they lead to. -/
def run (t : StateTable) : List TableOp → List TableAnswer × StateTable
  | [] => ([], t)
  | op :: ops =>
    let (answer, t) := t.apply op
    let (answers, t) := t.run ops
    (answer :: answers, t)

end StateTable

/-! ## The table as one list -/

/-- The entries that the first pass of a removal leaves: those that are no parents have gone, and
parents have fewer children. -/
def afterFirstPass (es : List Entry) (selected : Entry → Bool) (force : Bool) (now : Moment) :
    List Entry :=
  (es.filter fun e => !e.leaves selected force now).map
    (·.release (es.filter (·.leaves selected force now)))

/-- The entries that a removal leaves: parents without children have gone as well. -/
def remaining (es : List Entry) (selected : Entry → Bool) (force : Bool) (now : Moment) :
    List Entry :=
  (afterFirstPass es selected force now).filter fun e => !e.leavesChildless selected force now

/-- State kept as one list of entries, the newest first. -/
structure FlatTable where
  config : StateConfig
  entries : List Entry := []

namespace FlatTable

variable (t : FlatTable)

/-- Remove the entries that are selected, and of those only the expired ones unless forced. Says
how many are removed. -/
def removeWhere (selected : Entry → Bool) (force : Bool) (now : Moment) : Nat × FlatTable :=
  let rest := remaining t.entries selected force now
  (t.entries.length - rest.length, { t with entries := rest })

/-- Find the live entry for a packet's flow and charge the packet to it. -/
def lookup (pkt : Packet) (now : Moment) : Option StateHit × FlatTable :=
  match chargeFirst pkt t.config.lifetimes now t.entries with
  | some (hit, entries) => (some hit, { t with entries })
  | none => (none, t)

/-- Is there a live entry for the flow? -/
def holdsLive (flow : Flow) (now : Moment) : Bool :=
  t.entries.any fun e => (e.direction? flow now).isSome

/-- Is there room for so many more entries? -/
def hasRoom (need : Nat) : Bool := decide (t.entries.length + need ≤ t.config.capacity)

/-- Make room for so many more entries, by removing expired ones if there is none. -/
def reserve (need : Nat) (now : Moment) : Bool × FlatTable :=
  if t.hasRoom need then (true, t)
  else
    let t := (t.removeWhere (fun _ => true) false now).2
    (t.hasRoom need, t)

/-- Put an entry in front. -/
def insert (e : Entry) : FlatTable := { t with entries := e :: t.entries }

/-- The parent for a rule and a key, looked for in the whole list. -/
def parent? (rule : Rule) (key : Flow) : Option Entry :=
  t.entries.find? (·.isParentFor rule key)

/-- Change the parent for a rule and a key. -/
def modifyParent (rule : Rule) (key : Flow) (f : Entry → Entry) : FlatTable :=
  { t with entries := t.entries.map fun e => if e.isParentFor rule key then f e else e }

/-- The number of connections under a rule and a key. -/
def childrenOf (rule : Rule) (key : Flow) : Nat :=
  ((t.parent? rule key).map Entry.children).getD 0

/-- A new entry for a packet's flow, which the packet keeps alive from the start. -/
def freshEntry (pkt : Packet) (role : EntryRole) (rule : Rule) (now : Moment) : Entry :=
  ({ flow := pkt.flow, role, rule, expires := now.plus t.config.lifetimes.syn } : Entry).refresh
    pkt .forward t.config.lifetimes now

/-- A new parent without children. -/
def freshParent (rule : Rule) (key : Flow) (now : Moment) : Entry :=
  { flow := key, role := .parent 0, rule, expires := now.plus t.config.lifetimes.syn }

/-- Let the parent for a rule and a key live a short while longer. -/
def touchParent (rule : Rule) (key : Flow) (now : Moment) : FlatTable :=
  t.modifyParent rule key fun p => { p with expires := now.plus t.config.lifetimes.short }

/-- Make room for a connection under a key, and for its parent if there is none. -/
def openParent (rule : Rule) (key : Flow) (now : Moment) : Bool × FlatTable :=
  match t.reserve (if (t.parent? rule key).isSome then 1 else 2) now with
  | (false, t) => (false, t)
  | (true, t) =>
    if (t.parent? rule key).isSome then (true, t.touchParent rule key now)
    else
      match t.reserve 2 now with
      | (false, t) => (false, t)
      | (true, t) => (true, (t.insert (t.freshParent rule key now)).touchParent rule key now)

/-- Remove expired connections under a key if there are as many as the limit allows. -/
def makeWay (rule : Rule) (key : Flow) (limit : Nat) (now : Moment) : FlatTable :=
  if limit ≤ t.childrenOf rule key then
    (t.removeWhere (·.isChildOf rule key) false now).2
  else t

/-- Put a connection under its parent. -/
def insertChild (e : Entry) (key : Flow) : FlatTable :=
  (t.modifyParent e.rule key fun p => { p with role := .parent (p.children + 1) }).insert e

/-- Create state for a packet's flow on behalf of a rule, which may be barred from it. -/
def install (enabled : Bool) (rule : Rule) (request : StateRequest) (pkt : Packet)
    (now : Moment) : Except StateError Unit × FlatTable :=
  if !enabled then (.error (.creationDisabled rule.number), t)
  else if t.holdsLive pkt.flow now then (.ok (), t)
  else
    match request with
    | .keepState =>
      match t.reserve 1 now with
      | (false, t) => (.error (.capacity t.config.capacity), t)
      | (true, t) => (.ok (), t.insert (t.freshEntry pkt .keepState rule now))
    | .limit parts connections =>
      let key := pkt.flow.limitKey parts
      match t.openParent rule key now with
      | (false, t) => (.error (.capacity t.config.capacity), t)
      | (true, t) =>
        let t := t.makeWay rule key connections.toNat now
        if connections.toNat ≤ t.childrenOf rule key then
          (.error (.limitExceeded connections), t)
        else (.ok (), t.insertChild (t.freshEntry pkt (.child key) rule now) key)

/-- Is the entry due for probes? -/
def isDue (now : Moment) (e : Entry) : Bool :=
  t.config.keepalive && e.isDue t.config.keepaliveInterval t.config.keepalivePeriod now

/-- Probe the entries that are due, and mark them as probed. -/
def probeDue (now : Moment) : Nat × List PacketRequest × FlatTable :=
  let due := t.entries.filter (t.isDue now)
  (due.length, due.flatMap Entry.probes,
    { t with entries := t.entries.map fun e =>
        if t.isDue now e then { e with probed := some now } else e })

/-- Carry out an operation. -/
def apply : TableOp → TableAnswer × FlatTable
  | .install enabled rule request pkt now =>
    let (result, t) := t.install enabled rule request pkt now
    (.installed result, t)
  | .lookup pkt now =>
    let (hit, t) := t.lookup pkt now
    (.found hit, t)
  | .sweep now =>
    let (n, t) := t.removeWhere (fun _ => true) false now
    (.removed n, t)
  | .flush selected now =>
    let (n, t) := t.removeWhere selected true now
    (.removed n, t)
  | .flushRule rule now =>
    let (n, t) := t.removeWhere (fun e => e.rule.id == rule.id) true now
    (.removed n, t)
  | .flushAll now =>
    let (n, t) := t.removeWhere (fun _ => true) true now
    (.removed n, t)
  | .probe now =>
    let (n, requests, t) := t.probeDue now
    (.probed n requests, t)
  | .setBuckets n => (.accepted (validBuckets n), t)
  | .size => (.size t.entries.length, t)
  | .report now => (.report (t.entries.map (·.report now)), t)

/-- Carry out operations one after another. -/
def run (t : FlatTable) : List TableOp → List TableAnswer × FlatTable
  | [] => ([], t)
  | op :: ops =>
    let (answer, t) := t.apply op
    let (answers, t) := t.run ops
    (answer :: answers, t)

/-! ### What making room keeps -/

section

variable {t} {P : FlatTable → Prop} {now : Moment} {rule : Rule} {key : Flow}
  (hremove : ∀ t selected, P t → P (removeWhere t selected false now).2)
include hremove

/-- **A property that is kept when expired entries are removed** is kept when room is made. -/
theorem reserve_keeps (h : P t) (need : Nat) : P (t.reserve need now).2 := by
  unfold reserve
  split
  · exact h
  · exact hremove t _ h

/-- Making room for a connection and its parent comes to removing expired entries, putting a new
parent in front and letting it live longer. -/
theorem openParent_keeps (htouch : ∀ t, P t → P (touchParent t rule key now))
    (hinsert : ∀ t, P t → P (insert t (freshParent t rule key now))) (h : P t) :
    P (t.openParent rule key now).2 := by
  unfold openParent
  generalize (if (t.parent? rule key).isSome then 1 else 2) = need
  have h₁ := reserve_keeps hremove h need
  rcases hx : t.reserve need now with ⟨ok, t₁⟩
  rw [hx] at h₁
  cases ok with
  | false => exact h₁
  | true =>
    simp only
    split
    · exact htouch t₁ h₁
    · have h₂ := reserve_keeps hremove h₁ 2
      rcases hx₂ : t₁.reserve 2 now with ⟨ok, t₂⟩
      rw [hx₂] at h₂
      cases ok with
      | false => exact h₂
      | true => exact htouch _ (hinsert t₂ h₂)

theorem makeWay_keeps (h : P t) (limit : Nat) : P (t.makeWay rule key limit now) := by
  unfold makeWay
  split
  · exact hremove t _ h
  · exact h

end

end FlatTable

end PacketFilter
