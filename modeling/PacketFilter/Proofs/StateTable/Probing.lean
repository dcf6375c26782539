import PacketFilter.Proofs.StateTable.Accounting

/-!
# Probes are sent where they are due

`Entry.Due` says of an entry that it is due for probes: an established connection in the last
interval before it expires, acknowledged in both directions, and not probed within the period. A
pass probes these entries and no others, each once in each direction, and notes when. A connection
that has just been probed is not due any more, because settings that pass their check have a period.

Main statements: `Entry.isDue_iff`, what is looked at decides whether an entry is due;
`probeDue_again`, a pass leaves nothing to do for another one at the same moment; **`run_probes`**,
what a pass does to a table after any run.
-/

namespace PacketFilter

namespace Entry

/-- **The entry is due for probes.** -/
structure Due (e : Entry) (interval period : Lifetime) (now : Moment) : Prop where
  connection : e.kind ≠ .limitParent
  tcp : e.flow.protocol = Protocol.tcp
  /-- Both ends have sent a SYN. -/
  established : e.track.state &&& TcpTrack.bothSyn = TcpTrack.bothSyn
  live : now.ms.toNat < e.expires.ms.toNat
  /-- It expires within the interval, which does not reach beyond the last moment there is. -/
  expiring : e.expires.ms.toNat < min (now.ms.toNat + interval.ms.toNat) Moment.limit
  acknowledged : e.track.ackForward ≠ 0 ∧ e.track.ackReverse ≠ 0
  /-- The last probes, if there were any, were sent at least a period ago. -/
  rested : ∀ last ∈ e.probed, last.ms.toNat + period.ms.toNat ≤ now.ms.toNat

instance (e : Entry) (interval period : Lifetime) (now : Moment) :
    Decidable (e.Due interval period now) :=
  decidable_of_iff
    (e.kind ≠ .limitParent ∧ e.flow.protocol = Protocol.tcp ∧
      e.track.state &&& TcpTrack.bothSyn = TcpTrack.bothSyn ∧
      now.ms.toNat < e.expires.ms.toNat ∧
      e.expires.ms.toNat < min (now.ms.toNat + interval.ms.toNat) Moment.limit ∧
      (e.track.ackForward ≠ 0 ∧ e.track.ackReverse ≠ 0) ∧
      ∀ last ∈ e.probed, last.ms.toNat + period.ms.toNat ≤ now.ms.toNat)
    ⟨fun ⟨h₁, h₂, h₃, h₄, h₅, h₆, h₇⟩ => ⟨h₁, h₂, h₃, h₄, h₅, h₆, h₇⟩,
      fun h => ⟨h.connection, h.tcp, h.established, h.live, h.expiring, h.acknowledged, h.rested⟩⟩

variable {e : Entry} {interval period : Lifetime} {now : Moment}

/-- **What is looked at decides whether an entry is due**, if there is a period. Without one, probes
that were sent at a later moment, before the clock was set back, would count as well. -/
theorem isDue_iff (hperiod : 0 < period.ms.toNat) :
    e.isDue interval period now = true ↔ e.Due interval period now := by
  have hconnection : e.isParent = false ↔ e.kind ≠ .limitParent := by
    rw [← Bool.not_eq_true, ne_eq, kind_eq_limitParent_iff]
  have hover : ∀ last : Moment, period.isOver last now = true ↔
      last.ms.toNat + period.ms.toNat ≤ now.ms.toNat := fun last => by
    rw [Lifetime.isOver_iff]
    omega
  simp only [isDue, Bool.and_eq_true, Bool.not_eq_true', hconnection, beq_iff_eq, decide_eq_true_eq,
    bne_iff_ne, Moment.lt_iff, Moment.toNat_plus, TcpTrack.isEstablished]
  constructor
  · rintro ⟨⟨⟨⟨⟨⟨⟨h₁, h₂⟩, h₃⟩, h₄⟩, h₅⟩, h₆⟩, h₇⟩, h₈⟩
    refine ⟨h₁, h₂, h₃, h₄, h₅, ⟨h₆, h₇⟩, fun last hlast => ?_⟩
    rw [Option.mem_def.mp hlast] at h₈
    exact (hover last).mp h₈
  · intro h
    refine ⟨⟨⟨⟨⟨⟨⟨h.connection, h.tcp⟩, h.established⟩, h.live⟩, h.expiring⟩, h.acknowledged.1⟩,
      h.acknowledged.2⟩, ?_⟩
    cases hlast : e.probed with
    | none => rfl
    | some last => exact (hover last).mpr (h.rested last hlast)

/-- An entry that a pass has gone by is not due any more at that moment. -/
theorem isDue_probedIfDue (hperiod : 0 < period.ms.toNat) :
    (e.probedIfDue interval period now).isDue interval period now = false := by
  unfold probedIfDue
  split
  · have hover : period.isOver now now = false := by
      rw [← Bool.not_eq_true, Lifetime.isOver_iff]
      omega
    simp only [isDue, hover, Bool.and_false]
  · rename_i hnot
    exact Bool.not_eq_true _ ▸ hnot

/-- An entry that is not due is left as it is. -/
theorem probedIfDue_of_not_isDue (h : e.isDue interval period now = false) :
    e.probedIfDue interval period now = e := by
  rw [probedIfDue, h]
  rfl

end Entry

namespace StateTable

variable {t : StateTable} {now : Moment}

/-- A pass over a table in which nothing is due does nothing. -/
theorem probeDue_of_due_eq_nil
    (h : ∀ e ∈ t.entries, e.isDue t.config.keepaliveInterval t.config.keepalivePeriod now = false) :
    t.probeDue now = (0, [], t) := by
  have hdue : t.due now = [] := by
    unfold due
    split
    · exact List.filter_eq_nil_iff.mpr fun e he => Bool.eq_false_iff.mp (h e he)
    · rfl
  have hbuckets : t.mapBuckets (fun b => b.map
      (·.probedIfDue t.config.keepaliveInterval t.config.keepalivePeriod now)) = t :=
    mapBuckets_eq_self fun b hb =>
      (List.map_congr_left fun e he =>
        Entry.probedIfDue_of_not_isDue (h e (mem_entries_of_bucket hb he))).trans (List.map_id' _)
  rw [probeDue_eq, hdue, hbuckets, ite_self]
  rfl

/-- **A pass leaves nothing to do** for another one at the same moment. -/
theorem probeDue_again (hperiod : 0 < t.config.keepalivePeriod.ms.toNat) :
    (t.probeDue now).2.2.probeDue now = (0, [], (t.probeDue now).2.2) := by
  cases hkeepalive : t.config.keepalive with
  | false =>
    have hoff : t.probeDue now = (0, [], t) := by
      rw [probeDue, hkeepalive]
      rfl
    rw [hoff]
    exact hoff
  | true =>
    have hafter : (t.probeDue now).2.2 = t.mapBuckets fun b => b.map
        (·.probedIfDue t.config.keepaliveInterval t.config.keepalivePeriod now) := by
      rw [probeDue_eq, hkeepalive]
      rfl
    rw [hafter]
    refine probeDue_of_due_eq_nil fun e he => ?_
    obtain ⟨b, hb, he⟩ := List.mem_flatten.mp he
    rw [buckets_mapBuckets, Array.toList_map] at hb
    obtain ⟨b, -, rfl⟩ := List.mem_map.mp hb
    obtain ⟨e, -, rfl⟩ := List.mem_map.mp he
    exact Entry.isDue_probedIfDue hperiod

/-- **What a pass of probes does**, after any run of a table that was set up with settings that pass
their check and with keepalives on: it probes the entries that are due, in the order of the table,
each once in each direction, and notes the moment in them. All else stays as it is, the number of
these entries is answered, and another pass at the same moment does nothing. -/
theorem run_probes (config : Config) (hconfig : config.check = .ok ())
    (hkeepalive : config.keepalive = true) (salt : UInt32) (ops : List TableOp) (now : Moment) :
    let t := ((new config.stateConfig salt).run ops).2
    let isDue := fun e : Entry => decide
      (e.Due (.ofSeconds config.keepaliveInterval) (.ofSeconds config.keepalivePeriod) now)
    let due := t.entries.filter isDue
    t.probeDue now =
        (due.length,
          due.flatMap fun e =>
            [.probe e.flow (e.track.ackReverse - 1) e.track.ackForward TcpFlags.ack,
              .probe e.flow.reversed (e.track.ackForward - 1) e.track.ackReverse TcpFlags.ack],
          t.mapBuckets fun b => b.map fun e =>
            if isDue e then { e with probed := some now } else e) ∧
      (t.probeDue now).2.2.probeDue now = (0, [], (t.probeDue now).2.2) := by
  intro t isDue due
  have hsound : t.Sound config.stateConfig :=
    (Sound.new config.stateConfig salt (config.validBuckets_of_check hconfig)).run ops
  have hsettings := hsound.settings
  have hon : t.config.keepalive = true :=
    (congrArg StateConfig.keepalive hsettings).trans hkeepalive
  have hinterval : t.config.keepaliveInterval = .ofSeconds config.keepaliveInterval :=
    congrArg StateConfig.keepaliveInterval hsettings
  have hperiod : t.config.keepalivePeriod = .ofSeconds config.keepalivePeriod :=
    congrArg StateConfig.keepalivePeriod hsettings
  have hpositive : 0 < (Lifetime.ofSeconds config.keepalivePeriod).ms.toNat :=
    config.time_pos hconfig .keepalivePeriod (by decide)
  have hdue : (fun e : Entry =>
      e.isDue (.ofSeconds config.keepaliveInterval) (.ofSeconds config.keepalivePeriod) now) =
        isDue :=
    funext fun e => Bool.eq_iff_iff.mpr ((Entry.isDue_iff hpositive).trans decide_eq_true_iff.symm)
  refine ⟨?_, probeDue_again (hperiod ▸ hpositive)⟩
  rw [probeDue_eq]
  simp only [StateTable.due, Entry.probedIfDue, hon, if_true, hinterval, hperiod]
  simp only [congrFun hdue]
  rfl

/-- After a handshake, ten seconds before the connection expires: it is probed, and only once. -/
theorem run_probes_handshake :
    let segment (flow : Flow) (flags : TcpFlags) (ack : UInt32) : Packet :=
      { flow, direction := .inbound, length := 40,
        tcp := some { seq := 0, ack, window := 0, flags, options := ⟨0⟩ } }
    let flow : Flow := ⟨1, 2, 3, 4, Protocol.tcp, 0⟩
    let config : Config := { buckets := 1 }
    let ops : List TableOp :=
      [.install true (Rule.terminal 0 true) .keepState (segment flow TcpFlags.syn 0) ⟨0⟩,
        .lookup (segment flow.reversed TcpFlags.syn 1001) ⟨0⟩,
        .lookup (segment flow TcpFlags.ack 7001) ⟨0⟩]
    let t := ((new config.stateConfig 5).run ops).2
    config.check = .ok () ∧ config.keepalive = true ∧
      (t.probeDue ⟨290000⟩).2.1 =
        [.probe flow 1000 7001 TcpFlags.ack, .probe flow.reversed 7000 1001 TcpFlags.ack] ∧
      ((t.probeDue ⟨290000⟩).2.2.probeDue ⟨290000⟩).2.1 = [] := by
  intro segment flow config ops t
  have hcheck : config.check = .ok () := by decide
  obtain ⟨hfirst, hsecond⟩ := run_probes config hcheck rfl 5 ops ⟨290000⟩
  refine ⟨hcheck, rfl, ?_, congrArg (·.2.1) hsecond⟩
  refine (congrArg (·.2.1) hfirst).trans ?_
  decide +kernel

end StateTable

end PacketFilter
