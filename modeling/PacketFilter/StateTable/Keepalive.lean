import PacketFilter.PacketRequest
import PacketFilter.StateTable.Basic

/-!
# Keepalive probes

Idle connections that are about to expire are probed in both directions, with sequence numbers
that make the ends answer. An answer is a packet of the flow and keeps the entry alive.

Probes are not sent while the table is held. A pass goes through the buckets, stops behind the first
in which it finds entries that are due, marks them as probed, lets the table go to send their
probes, and goes on from there. If the table has been given other buckets in between, the pass ends.
Of the loop in `keepalive_tick`, `scan` is what is done under the lock, and `probeFrom` one round
after another.

Main statement: `scan_next`, what a pass finds lies in front of where it goes on.
-/

namespace PacketFilter

namespace Entry

/-- Is the entry due for probes? It must be an established connection that has not expired, that
expires within the interval, that has shown an acknowledgement in both directions, and that has
not been probed within the period. -/
def isDue (e : Entry) (interval period : Lifetime) (now : Moment) : Bool :=
  !e.isParent && e.flow.protocol == Protocol.tcp && e.track.isEstablished &&
    decide (now < e.expires) && decide (e.expires < now.plus interval) &&
    e.track.ackForward != 0 && e.track.ackReverse != 0 &&
    match e.probed with
    | some last => period.isOver last now
    | none => true

/-- The entry as a pass leaves it: marked as probed if it is due. -/
def probedIfDue (e : Entry) (interval period : Lifetime) (now : Moment) : Entry :=
  if e.isDue interval period now then { e with probed := some now } else e

/-- The probes of an entry, one in each direction. -/
def probes (e : Entry) : List PacketRequest :=
  [.probe e.flow (e.track.ackReverse - 1) e.track.ackForward TcpFlags.ack,
    .probe e.flow.reversed (e.track.ackForward - 1) e.track.ackReverse TcpFlags.ack]

end Entry

namespace StateTable

/-- The entries that are due for probes, in the order of the table. -/
def due (t : StateTable) (now : Moment) : List Entry :=
  if t.config.keepalive then
    t.entries.filter (·.isDue t.config.keepaliveInterval t.config.keepalivePeriod now)
  else []

/-- The table with the entries of bucket `i` marked that are due. -/
def visit (t : StateTable) (now : Moment) (i : Nat) : StateTable :=
  { t with
    buckets := t.buckets.modify i fun b => b.map fun e =>
      e.probedIfDue t.config.keepaliveInterval t.config.keepalivePeriod now }

/-- Go through the buckets from bucket `i` on, up to the first that has entries that are due: which
they are, the bucket behind it, and the table with the buckets visited. -/
def scan (t : StateTable) (now : Moment) (i : Nat) : List Entry × Nat × StateTable :=
  if h : i < t.buckets.size then
    let found := t.buckets[i].filter
      (·.isDue t.config.keepaliveInterval t.config.keepalivePeriod now)
    if found.isEmpty then (t.visit now i).scan now (i + 1) else (found, i + 1, t.visit now i)
  else ([], i, t)
termination_by t.buckets.size - i
decreasing_by
  simp only [visit, Array.size_modify]
  omega

/-- What is found lies in front of where the scan has stopped, and the table has as many buckets as
before. -/
theorem scan_next {t t' : StateTable} {now : Moment} {i j : Nat} {found : List Entry}
    (h : t.scan now i = (found, j, t')) :
    t'.buckets.size = t.buckets.size ∧ (found ≠ [] → i < j ∧ i < t.buckets.size) := by
  fun_induction scan t now i with
  | case1 t i hi found' hempty ih =>
    obtain ⟨hsize, hnext⟩ := ih h
    refine ⟨hsize.trans (by simp [visit]), fun hfound => ?_⟩
    exact ⟨by have := (hnext hfound).1; omega, hi⟩
  | case2 t i hi found' hempty =>
    obtain ⟨-, rfl, rfl⟩ : found' = found ∧ i + 1 = j ∧ t.visit now i = t' := by simpa using h
    exact ⟨by simp [visit], fun _ => ⟨Nat.lt_succ_self i, hi⟩⟩
  | case3 t i hi =>
    cases h
    exact ⟨rfl, fun hfound => absurd rfl hfound⟩

/-- Go on with a pass from bucket `i` on, which began when the buckets had been changed `generation`
times: how many entries are probed, the probes, and the table in which they are marked. -/
def probeFrom (t : StateTable) (now : Moment) (generation i : Nat) :
    Nat × List PacketRequest × StateTable :=
  if t.generation = generation then
    match _ : t.scan now i with
    | ([], _, t) => (0, [], t)
    | (e :: es, j, t) =>
      let found := e :: es
      let (n, requests, t) := t.probeFrom now generation j
      (found.length + n, found.flatMap Entry.probes ++ requests, t)
  else (0, [], t)
termination_by t.buckets.size - i
decreasing_by
  rename_i hscan
  obtain ⟨hsize, hnext⟩ := scan_next hscan
  have := hnext (List.cons_ne_nil e es)
  omega

/-- Probe the entries that are due: how many they are, the probes, and the table in which they are
marked as probed (`keepalive_tick`). -/
def probeDue (t : StateTable) (now : Moment) : Nat × List PacketRequest × StateTable :=
  if t.config.keepalive then t.probeFrom now t.generation 0 else (0, [], t)

end StateTable

end PacketFilter
