import PacketFilter.Proofs.StateTable.Admission
import PacketFilter.Proofs.StateTable.Flushing

/-!
# What a sweep removes

A sweep goes through the table twice, and what the second pass does to a parent depends on which of
its connections the first pass has taken, wherever in the table they were. It comes to this. Of the
entries that have expired all go that are no parents, and of the parents those that no live
connection is under. The others stay in their order and as they are, but for the number of a parent,
which becomes that of the connections left under it. Nothing is left for a second sweep.

Main statements: `Sound.sweep_eq`, a sweep in closed form; `Sound.swept_eq_self`, a sweep that finds
nothing to remove changes nothing; **`run_removals`**, what sweeps and flushes remove from the table
that any run has left.
-/

namespace PacketFilter

namespace Entry

/-- The entry with, if it is a parent, the number of the connections among some entries that are
under it. -/
def recounted (e : Entry) (es : List Entry) : Entry :=
  match e.role with
  | .parent _ => { e with role := .parent (es.countP (·.isChildOf e.rule e.flow)) }
  | _ => e

theorem recounted_of_not_isParent {e : Entry} (h : e.isParent = false) (es : List Entry) :
    e.recounted es = e := by
  unfold recounted
  split
  · rename_i n hrole
    simp [isParent, hrole] at h
  · rfl

theorem recounted_of_isParent {e : Entry} (h : e.isParent = true) (es : List Entry) :
    e.recounted es = { e with role := .parent (es.countP (·.isChildOf e.rule e.flow)) } := by
  simp only [recounted, role_of_isParent h]

end Entry

section

variable {es : List Entry} {now : Moment}

/-- The entries that a sweep leaves, as they are before it. -/
def unreclaimed (es : List Entry) (now : Moment) : List Entry :=
  es.filter fun e => !e.isReclaimable es now

theorem length_unreclaimed (es : List Entry) (now : Moment) :
    (unreclaimed es now).length + es.countP (·.isReclaimable es now) = es.length := by
  have hsplit := List.length_eq_length_filter_add (l := es) fun e => e.isReclaimable es now
  rw [List.countP_eq_length_filter, Nat.add_comm]
  exact hsplit.symm

/-- The connections that a sweep leaves are the live ones. -/
theorem countP_unreclaimed (es : List Entry) (now : Moment) (rule : Rule) (key : Flow) :
    (unreclaimed es now).countP (·.isChildOf rule key) = liveUnder es rule key now := by
  unfold unreclaimed liveUnder
  rw [List.countP_filter]
  refine List.countP_congr fun e _ => ?_
  cases hchild : e.isChildOf rule key with
  | false => simp
  | true => simp [Entry.isReclaimable, Entry.isParent_eq_false_of_isChildOf hchild]

/-- The numbers are right where the accounts are. -/
theorem Accounted.recounted_eq (h : Accounted es) {e : Entry} (he : e ∈ es) :
    e.recounted es = e := by
  cases hparent : e.isParent with
  | false => exact Entry.recounted_of_not_isParent hparent es
  | true =>
    have hrole := Entry.role_of_isParent hparent
    rw [Entry.recounted_of_isParent hparent, ← h.counted e he _ hrole, ← hrole]

/-- A parent that gives up its expired connections is left with as many as stay. -/
theorem Accounted.release_eq (h : Accounted es) {e : Entry} (he : e ∈ es) :
    e.release (es.filter (·.leaves (fun _ => true) false now)) =
      e.recounted (unreclaimed es now) := by
  cases hparent : e.isParent with
  | false =>
    rw [Entry.release_of_not_isParent hparent, Entry.recounted_of_not_isParent hparent]
  | true =>
    have hleft : (e.release _).children = liveUnder es e.rule e.flow now :=
      h.children_release he hparent
    have hrole := Entry.role_of_isParent hparent
    simp only [Entry.release, hrole] at hleft ⊢
    rw [Entry.recounted_of_isParent hparent, countP_unreclaimed, ← hleft]
    rfl

/-- Once what is reclaimable has gone, nothing else is. -/
theorem Accounted.not_isReclaimable_of_mem (h : Accounted es) {e : Entry}
    (he : e ∈ (unreclaimed es now).map (·.recounted (unreclaimed es now))) :
    e.isReclaimable ((unreclaimed es now).map (·.recounted (unreclaimed es now))) now = false := by
  have hremaining : PacketFilter.remaining es (fun _ => true) false now =
      (unreclaimed es now).map (·.recounted (unreclaimed es now)) :=
    h.sweep_eq.trans (List.map_congr_left fun e he => h.release_eq (List.mem_filter.mp he).1)
  have hlasting : lasting _ now = lasting es now := h.lasting_sweep
  rw [← h.length_sweep, hremaining] at hlasting
  simpa using List.countP_eq_length.mp hlasting e he

end

namespace StateTable

/-- **What a sweep leaves of a table.** -/
def swept (t : StateTable) (now : Moment) : StateTable :=
  { t.mapBuckets fun b =>
      (b.filter fun e => !e.isReclaimable t.entries now).map
        (·.recounted (unreclaimed t.entries now)) with
    count := (unreclaimed t.entries now).length }

/-- The table without its entries. -/
def emptied (t : StateTable) : StateTable := { t.mapBuckets fun _ => [] with count := 0 }

@[simp] theorem entries_swept (t : StateTable) (now : Moment) :
    (t.swept now).entries =
      (unreclaimed t.entries now).map (·.recounted (unreclaimed t.entries now)) := by
  simp only [swept, entries, unreclaimed, buckets_mapBuckets, Array.toList_map,
    List.filter_flatten, List.map_flatten, List.map_map, Function.comp_def]

variable {config : StateConfig} {t : StateTable}

/-- **A sweep in closed form**: what has gone is what is reclaimable, and so many entries are
told. -/
theorem Sound.sweep_eq (ht : t.Sound config) (now : Moment) :
    t.sweep now = (t.entries.countP (·.isReclaimable t.entries now), t.swept now) := by
  have haccounted := ht.accounted
  have hremoval := ht.removeWhere_eq (fun _ => true) false now
    (fun b => (b.filter fun e => !e.isReclaimable t.entries now).map
      (·.recounted (unreclaimed t.entries now))) fun b hb => by
        have hpart := fun e he => mem_entries_of_bucket (e := e) hb he
        rw [haccounted.passes_eq hpart]
        exact List.map_congr_left fun e he =>
          haccounted.release_eq (hpart e (List.mem_filter.mp he).1)
  have hlength : (t.swept now).entries.length = (unreclaimed t.entries now).length := by
    rw [entries_swept, List.length_map]
  have hgone : t.entries.length - (t.swept now).entries.length =
      t.entries.countP (·.isReclaimable t.entries now) := by
    rw [hlength, ← length_unreclaimed t.entries now, Nat.add_sub_cancel_left]
  exact hremoval.trans
    (Prod.ext hgone (congrArg (fun count => { t.swept now with count }) hlength))

/-- What has gone is taken off the counter. -/
theorem Sound.count_swept (ht : t.Sound config) (now : Moment) :
    (t.swept now).count + t.entries.countP (·.isReclaimable t.entries now) = t.count := by
  rw [ht.count_eq]
  exact length_unreclaimed t.entries now

/-- **A sweep that finds nothing to remove** changes nothing. -/
theorem Sound.swept_eq_self (ht : t.Sound config) {now : Moment}
    (hall : ∀ e ∈ t.entries, e.isReclaimable t.entries now = false) : t.swept now = t := by
  have hkept : unreclaimed t.entries now = t.entries :=
    List.filter_eq_self.mpr fun e he => by rw [hall e he]; rfl
  have hbuckets : (t.mapBuckets fun b => (b.filter fun e => !e.isReclaimable t.entries now).map
      (·.recounted (unreclaimed t.entries now))) = t := by
    refine mapBuckets_eq_self fun b hb => ?_
    have hmem := fun e he => mem_entries_of_bucket (e := e) hb he
    rw [hkept, List.filter_eq_self.mpr fun e he => by rw [hall e (hmem e he)]; rfl]
    exact (List.map_congr_left fun e he => ht.accounted.recounted_eq (hmem e he)).trans
      (List.map_id' b)
  have hcount : (unreclaimed t.entries now).length = t.count := by rw [hkept, ht.count_eq]
  rw [swept, hbuckets, hcount]

/-- **A second sweep** finds nothing to remove. -/
theorem Sound.sweep_swept (ht : t.Sound config) (now : Moment) :
    (t.swept now).sweep now = (0, t.swept now) := by
  have hswept : (t.swept now).Sound config := by
    have hafter := ht.apply (.sweep now)
    rwa [show (t.apply (.sweep now)).2 = (t.sweep now).2 from rfl, ht.sweep_eq] at hafter
  have hnone : ∀ e ∈ (t.swept now).entries,
      e.isReclaimable (t.swept now).entries now = false := by
    rw [entries_swept]
    exact fun e he => ht.accounted.not_isReclaimable_of_mem he
  rw [hswept.sweep_eq, hswept.swept_eq_self hnone, List.countP_eq_zero.mpr fun e he => by
    rw [hnone e he]; exact Bool.false_ne_true]

/-- Flushing everything leaves nothing. -/
theorem Sound.flushAll_eq (ht : t.Sound config) (now : Moment) :
    t.flushAll now = (t.count, t.emptied) := by
  refine (ht.flush_eq (fun _ => true) now).trans (Prod.ext ?_ ?_)
  · rw [ht.count_eq]
    exact congrFun List.countP_true t.entries
  · simp [restrict, emptied, ht.count_eq]

/-- **What is removed**, from any table that was set up with settings that pass their check and used
in any way, at any moment. A sweep removes what is reclaimable, tells how much that was, and takes
it off the counter; of the others it changes no more than the numbers of parents, which are then
those of the connections that are left. A second sweep changes nothing. Flushing everything empties
the table and tells how many entries there were; flushing a rule leaves the entries of all other
rules as they are. -/
theorem run_removals (config : Config) (hconfig : config.check = .ok ()) (salt : UInt32)
    (ops : List TableOp) (rule : Rule) (now : Moment) :
    let t := ((new config.stateConfig salt).run ops).2
    let gone := t.entries.countP (·.isReclaimable t.entries now)
    t.count = t.entries.length ∧
      t.sweep now = (gone, t.swept now) ∧ (t.swept now).count + gone = t.count ∧
      (t.swept now).sweep now = (0, t.swept now) ∧
      t.flushAll now = (t.count, t.emptied) ∧
      t.flushRule rule now =
        (t.entries.countP (·.rule.id == rule.id), t.restrict fun e => !(e.rule.id == rule.id)) := by
  have hsound := (Sound.new config.stateConfig salt (config.validBuckets_of_check hconfig)).run ops
  exact ⟨hsound.count_eq, hsound.sweep_eq now, hsound.count_swept now, hsound.sweep_swept now,
    hsound.flushAll_eq now, hsound.flush_eq (· == rule.id) now⟩

/-- Two connections under a limit of one rule, five seconds apart, and one under a limit of
another. -/
def twoLimits : List TableOp :=
  [.install true (Rule.terminal 0 true) (.limit LimitParts.sourceAddress 3)
      { flow := ⟨1, 2, 1, 4, Protocol.udp, 0⟩, direction := .inbound, length := 40 } ⟨0⟩,
    .install true (Rule.terminal 0 true) (.limit LimitParts.sourceAddress 3)
      { flow := ⟨1, 2, 2, 4, Protocol.udp, 0⟩, direction := .inbound, length := 40 } ⟨5000⟩,
    .install true (Rule.terminal 1 true) (.limit LimitParts.sourceAddress 3)
      { flow := ⟨9, 2, 1, 4, Protocol.udp, 0⟩, direction := .inbound, length := 40 } ⟨0⟩]

/-- Twelve seconds from the start, all but the second connection have expired, and so have both
parents. The one that the second connection is under stays, with a number of one. -/
theorem run_removals_two_limits :
    let t := ((new ({ buckets := 1 } : Config).stateConfig 5).run twoLimits).2
    let now : Moment := ⟨12000⟩
    let rule := Rule.terminal 1 true
    t.sweep now = (3, t.swept now) ∧
      (t.swept now).entries.map (·.role) =
        [.child (Flow.mk 1 0 0 0 Protocol.udp 0), .parent 1] ∧
      (t.swept now).sweep now = (0, t.swept now) ∧ t.flushAll now = (5, t.emptied) ∧
      t.flushRule rule now = (2, t.restrict fun e => !(e.rule.id == rule.id)) := by
  intro t now rule
  have hgone : t.entries.countP (·.isReclaimable t.entries now) = 3 := by decide +kernel
  have hroles : (t.swept now).entries.map (·.role) =
      [.child (Flow.mk 1 0 0 0 Protocol.udp 0), .parent 1] := by decide +kernel
  have hcount : t.count = 5 := by decide +kernel
  have hflushed : t.entries.countP (·.rule.id == rule.id) = 2 := by decide +kernel
  have hremovals := run_removals { buckets := 1 } (by decide) 5 twoLimits rule now
  -- From here on the table is not to be evaluated.
  have ht : ((new ({ buckets := 1 } : Config).stateConfig 5).run twoLimits).2 = t := rfl
  rw [ht] at hremovals
  clear_value t
  obtain ⟨-, hsweep, -, hagain, hall, hrule⟩ := hremovals
  rw [hgone] at hsweep
  rw [hcount] at hall
  rw [hflushed] at hrule
  exact ⟨hsweep, hroles, hagain, hall, hrule⟩

end StateTable

end PacketFilter
