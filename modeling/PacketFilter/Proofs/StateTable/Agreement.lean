import PacketFilter.Config.Basic
import PacketFilter.Proofs.StateTable.Refinement
import PacketFilter.Proofs.StateTable.Scanning

/-!
# A state table answers as one list does

The rest of the refinement: creating state, probing, and taking on another number of buckets.

A parent lies in the bucket of its key, so looking for it there finds the one that the whole list
would give. Room is counted, not looked for, and the counter is the length of the list. Buckets are
dealt out anew only when there is no entry that could be misplaced.

Main statements: `apply_refines`, an operation keeps the relation and gives the same answer;
`run_refines`, so does a run; **`run_agrees`**, a new table answers every run as the empty list
does, and so do all tables that differ in salt and number of buckets only.
-/

namespace PacketFilter

namespace StateTable

namespace Refines

variable {t : StateTable} {l : FlatTable}

/-! ## Making room -/

theorem hasRoom_eq (h : t.Refines l) (need : Nat) : t.hasRoom need = l.hasRoom need := by
  unfold StateTable.hasRoom FlatTable.hasRoom
  rw [h.count, h.capacity_eq]

theorem reserve (h : t.Refines l) (need : Nat) (now : Moment) :
    ∃ ok t' l', t.reserve need now = (ok, t') ∧ l.reserve need now = (ok, l') ∧ t'.Refines l' := by
  unfold StateTable.reserve FlatTable.reserve
  rw [h.hasRoom_eq]
  split
  · exact ⟨_, _, _, rfl, rfl, h⟩
  · have hsweep := (h.removeWhere (fun _ => true) false now).2
    refine ⟨_, _, _, rfl, ?_, hsweep⟩
    rw [StateTable.sweep, hsweep.hasRoom_eq]

/-- A new entry comes first in its bucket, as it does in the list. -/
theorem insert (h : t.Refines l) (e : Entry) : (t.insert e).Refines (l.insert e) := by
  have hcount : t.count + 1 = (e :: l.entries).length := congrArg (· + 1) h.count
  exact h.rebuild rfl rfl rfl hcount (by simp [StateTable.insert])
    (h.bucket_modifyBucket (by simp [inBucket]) fun i hi => by simp [inBucket, hi])

/-! ## Parents -/

/-- A parent lies in the bucket of its key. -/
theorem inBucket_of_isParentFor {e : Entry} {rule : Rule} {key : Flow}
    (h : e.isParentFor rule key = true) : t.inBucket (t.bucketIndex key) e = true := by
  have hflow : e.flow = key := by
    simp only [Entry.isParentFor, Bool.and_eq_true, beq_iff_eq] at h
    exact h.2
  simp only [inBucket, hflow, beq_self_eq_true]

theorem parent?_eq (h : t.Refines l) (rule : Rule) (key : Flow) :
    t.parent? rule key = l.parent? rule key := by
  unfold StateTable.parent? FlatTable.parent?
  rw [h.bucket_eq, List.find?_filter]
  congr 1
  funext e
  cases hp : e.isParentFor rule key with
  | true => simp [inBucket_of_isParentFor hp]
  | false => simp

theorem childrenOf_eq (h : t.Refines l) (rule : Rule) (key : Flow) :
    t.childrenOf rule key = l.childrenOf rule key := by
  unfold StateTable.childrenOf FlatTable.childrenOf
  rw [h.parent?_eq]

/-- A change of the parent that keeps its flow. -/
theorem modifyParent (h : t.Refines l) (rule : Rule) (key : Flow) {f : Entry → Entry}
    (hf : ∀ e, (f e).flow = e.flow) :
    (t.modifyParent rule key f).Refines (l.modifyParent rule key f) := by
  have hkeep : ∀ i e, t.inBucket i (if e.isParentFor rule key then f e else e) =
      t.inBucket i e := by
    intro i e
    split
    · simp only [inBucket, hf]
    · rfl
  have hfilter : ∀ i, (l.entries.map fun e => if e.isParentFor rule key then f e else e).filter
      (t.inBucket i) = (l.entries.filter (t.inBucket i)).map
        fun e => if e.isParentFor rule key then f e else e := by
    intro i
    rw [List.filter_map]
    simp only [Function.comp_def, hkeep]
  refine h.modifyBucket (List.length_map _) (hfilter _).symm fun i hi => ?_
  rw [hfilter i]
  refine (List.map_id' _).symm.trans (List.map_congr_left fun e he => ?_)
  have hin := (List.mem_filter.mp he).2
  have hnot : ¬ e.isParentFor rule key = true := fun hp => by
    have hkey := inBucket_of_isParentFor (t := t) hp
    simp only [inBucket, beq_iff_eq] at hin hkey
    exact hi (hkey.symm.trans hin)
  rw [if_neg hnot]

theorem touchParent (h : t.Refines l) (rule : Rule) (key : Flow) (now : Moment) :
    (t.touchParent rule key now).Refines (l.touchParent rule key now) := by
  unfold StateTable.touchParent FlatTable.touchParent
  rw [h.lifetimes_eq]
  exact h.modifyParent rule key fun _ => rfl

theorem freshParent_eq (h : t.Refines l) (rule : Rule) (key : Flow) (now : Moment) :
    t.freshParent rule key now = l.freshParent rule key now := by
  unfold StateTable.freshParent FlatTable.freshParent
  rw [h.lifetimes_eq]

theorem openParent (h : t.Refines l) (rule : Rule) (key : Flow) (now : Moment) :
    ∃ ok t' l', t.openParent rule key now = (ok, t') ∧ l.openParent rule key now = (ok, l') ∧
      t'.Refines l' := by
  unfold StateTable.openParent FlatTable.openParent
  obtain ⟨ok, t₁, l₁, hx, hy, h₁⟩ :=
    h.reserve (if (l.parent? rule key).isSome then 1 else 2) now
  rw [h.parent?_eq, hx, hy]
  cases ok with
  | false => exact ⟨_, _, _, rfl, rfl, h₁⟩
  | true =>
    by_cases hfound : (l₁.parent? rule key).isSome = true
    · simp only [h₁.parent?_eq, if_pos hfound]
      exact ⟨_, _, _, rfl, rfl, h₁.touchParent rule key now⟩
    · obtain ⟨ok, t₂, l₂, hx₂, hy₂, h₂⟩ := h₁.reserve 2 now
      simp only [h₁.parent?_eq, if_neg hfound, hx₂, hy₂]
      cases ok with
      | false => exact ⟨_, _, _, rfl, rfl, h₂⟩
      | true =>
        simp only [h₂.freshParent_eq]
        exact ⟨_, _, _, rfl, rfl, (h₂.insert _).touchParent rule key now⟩

theorem makeWay (h : t.Refines l) (rule : Rule) (key : Flow) (limit : Nat) (now : Moment) :
    (t.makeWay rule key limit now).Refines (l.makeWay rule key limit now) := by
  unfold StateTable.makeWay FlatTable.makeWay
  rw [h.childrenOf_eq]
  split
  · exact (h.removeWhere _ false now).2
  · exact h

theorem insertChild (h : t.Refines l) (e : Entry) (key : Flow) :
    (t.insertChild e key).Refines (l.insertChild e key) :=
  Refines.insert
    (h.modifyParent (f := fun p => { p with role := .parent (p.children + 1) }) e.rule key
      fun _ => rfl) e

/-! ## Creating state -/

/-- An empty table may deal out its buckets anew. -/
theorem takePending (h : t.Refines l) : t.takePending.Refines l := by
  unfold StateTable.takePending
  split
  · exact h
  · rename_i hzero
    have hnil : l.entries = [] := List.length_eq_zero_iff.mp (h.count ▸ Decidable.not_not.mp hzero)
    cases hp : t.pending with
    | none => exact h
    | some n =>
      simp only
      split
      · exact ⟨h.config, h.valid, by simp, h.count, h.bucket⟩
      · refine ⟨h.config, by simpa using h.pending n hp, by simp, h.count, fun i hi => ?_⟩
        rw [hnil]
        exact Array.getElem_replicate ..

theorem freshEntry_eq (h : t.Refines l) (pkt : Packet) (role : EntryRole) (rule : Rule)
    (now : Moment) : t.freshEntry pkt role rule now = l.freshEntry pkt role rule now := by
  unfold StateTable.freshEntry FlatTable.freshEntry
  rw [h.lifetimes_eq]

theorem install (h : t.Refines l) (enabled : Bool) (rule : Rule) (request : StateRequest)
    (pkt : Packet) (now : Moment) :
    (t.install enabled rule request pkt now).1 = (l.install enabled rule request pkt now).1 ∧
      (t.install enabled rule request pkt now).2.Refines
        (l.install enabled rule request pkt now).2 := by
  unfold StateTable.install FlatTable.install
  by_cases henabled : (!enabled) = true
  · rw [if_pos henabled, if_pos henabled]
    exact ⟨rfl, h⟩
  rw [if_neg henabled, if_neg henabled]
  have h := h.takePending
  simp only
  rw [h.holdsLive_eq]
  by_cases hlive : l.holdsLive pkt.flow now = true
  · rw [if_pos hlive, if_pos hlive]
    exact ⟨rfl, h⟩
  rw [if_neg hlive, if_neg hlive]
  cases request with
  | keepState =>
    obtain ⟨ok, t₁, l₁, hx, hy, h₁⟩ := h.reserve 1 now
    simp only [hx, hy]
    cases ok with
    | false => exact ⟨congrArg (fun n => Except.error (StateError.capacity n)) h₁.capacity_eq, h₁⟩
    | true =>
      simp only [h₁.freshEntry_eq]
      exact ⟨trivial, h₁.insert _⟩
  | limit parts connections =>
    obtain ⟨ok, t₁, l₁, hx, hy, h₁⟩ := h.openParent rule (pkt.flow.limitKey parts) now
    simp only [hx, hy]
    cases ok with
    | false => exact ⟨congrArg (fun n => Except.error (StateError.capacity n)) h₁.capacity_eq, h₁⟩
    | true =>
      have h₂ := h₁.makeWay rule (pkt.flow.limitKey parts) connections.toNat now
      simp only
      rw [h₂.childrenOf_eq]
      split
      · exact ⟨rfl, h₂⟩
      · rw [h₂.freshEntry_eq]
        exact ⟨rfl, h₂.insertChild _ _⟩

/-! ## Probes -/

theorem isDue_eq (h : t.Refines l) (now : Moment) (e : Entry) :
    l.isDue now e = (t.config.keepalive &&
      e.isDue t.config.keepaliveInterval t.config.keepalivePeriod now) := by
  unfold FlatTable.isDue
  rw [← h.config]

theorem probeDue (h : t.Refines l) (now : Moment) :
    (t.probeDue now).1 = (l.probeDue now).1 ∧
      (t.probeDue now).2.1.Perm (l.probeDue now).2.1 ∧
      (t.probeDue now).2.2.Refines (l.probeDue now).2.2 := by
  have hdue : (t.due now).Perm (l.entries.filter (l.isDue now)) := by
    unfold StateTable.due
    simp only [funext (h.isDue_eq now)]
    cases t.config.keepalive with
    | true => simpa using h.entries_perm.filter _
    | false => simp
  rw [StateTable.probeDue_eq]
  refine ⟨hdue.length_eq, hdue.flatMap_right _, ?_⟩
  unfold FlatTable.probeDue
  simp only [h.isDue_eq, Entry.probedIfDue]
  cases t.config.keepalive with
  | false => simpa using h
  | true =>
    simp only [Bool.true_and, if_true]
    have hcount : t.count = (l.entries.map fun e =>
        if e.isDue t.config.keepaliveInterval t.config.keepalivePeriod now then
          { e with probed := some now }
        else e).length := by rw [h.count, List.length_map]
    refine h.mapBuckets hcount fun i => ?_
    rw [List.filter_map]
    congr 1
    refine List.filter_congr fun e _ => ?_
    simp only [Function.comp_def, inBucket]
    split <;> rfl

/-! ## Operations -/

/-- The counterpart of a table that takes on another number of buckets later stays as it is. -/
theorem setBuckets (h : t.Refines l) {n : Nat} {t' : StateTable} (hset : t.setBuckets n = some t') :
    validBuckets n = true ∧ t'.Refines l := by
  unfold StateTable.setBuckets at hset
  split at hset
  · rename_i hvalid
    cases hset
    refine ⟨hvalid, h.config, h.valid, fun m hm => ?_, h.count, h.bucket⟩
    cases hm
    exact hvalid
  · cases hset

/-- **An operation is answered alike**, and keeps the relation. -/
theorem apply_refines (h : t.Refines l) (op : TableOp) :
    (t.apply op).1.Agrees (l.apply op).1 ∧ (t.apply op).2.Refines (l.apply op).2 := by
  cases op with
  | install enabled rule request pkt now =>
    have hi := h.install enabled rule request pkt now
    exact ⟨congrArg TableAnswer.installed hi.1, hi.2⟩
  | lookup pkt now =>
    have hl := h.lookup pkt now
    exact ⟨congrArg TableAnswer.found hl.1, hl.2⟩
  | sweep now =>
    have hr := h.removeWhere (fun _ => true) false now
    exact ⟨congrArg TableAnswer.removed hr.1, hr.2⟩
  | flush selected now =>
    have hr := h.removeWhere selected true now
    exact ⟨congrArg TableAnswer.removed hr.1, hr.2⟩
  | flushRule rule now =>
    have hr := h.removeWhere (fun e => e.rule.id == rule.id) true now
    exact ⟨congrArg TableAnswer.removed hr.1, hr.2⟩
  | flushAll now =>
    have hr := h.removeWhere (fun _ => true) true now
    exact ⟨congrArg TableAnswer.removed hr.1, hr.2⟩
  | probe now =>
    obtain ⟨hn, hperm, hr⟩ := h.probeDue now
    exact ⟨⟨hn, hperm⟩, hr⟩
  | setBuckets n =>
    simp only [StateTable.apply, FlatTable.apply]
    cases hset : t.setBuckets n with
    | some t' =>
      obtain ⟨hvalid, h'⟩ := h.setBuckets hset
      exact ⟨congrArg TableAnswer.accepted hvalid.symm, h'⟩
    | none =>
      have hvalid : validBuckets n = false := by
        unfold StateTable.setBuckets at hset
        split at hset
        · cases hset
        · rename_i hnot
          simpa using hnot
      exact ⟨congrArg TableAnswer.accepted hvalid.symm, h⟩
  | size => exact ⟨congrArg TableAnswer.size h.count, h⟩
  | report now => exact ⟨h.entries_perm.map _, h⟩

/-- A run is answered alike, and keeps the relation. -/
theorem run_refines (h : t.Refines l) (ops : List TableOp) :
    List.Forall₂ TableAnswer.Agrees (t.run ops).1 (l.run ops).1 ∧
      (t.run ops).2.Refines (l.run ops).2 := by
  induction ops generalizing t l with
  | nil => exact ⟨List.Forall₂.nil, h⟩
  | cons op ops ih =>
    obtain ⟨hanswer, hnext⟩ := h.apply_refines op
    obtain ⟨hanswers, hrun⟩ := ih hnext
    exact ⟨List.Forall₂.cons hanswer hanswers, hrun⟩

end Refines

/-! ## Runs of new tables -/

/-- A new table refines the empty list, however many buckets it has. -/
theorem new_refines (config : StateConfig) (salt : UInt32) {buckets : Nat}
    (h : validBuckets buckets = true) :
    (new { config with buckets } salt).Refines { config } := by
  refine ⟨rfl, by simpa [new] using h, by simp [new], rfl, fun i hi => ?_⟩
  exact Array.getElem_replicate ..

end StateTable

namespace TableAnswer

/-- Answers that agree with a third agree with one another. -/
theorem Agrees.of_common {a b c : TableAnswer} (ha : a.Agrees c) (hb : b.Agrees c) :
    a.Agrees b := by
  cases c with
  | probed n requests =>
    cases a with
    | probed n₁ requests₁ =>
      cases b with
      | probed n₂ requests₂ => exact ⟨ha.1.trans hb.1.symm, ha.2.trans hb.2.symm⟩
      | _ => cases hb
    | _ => cases ha
  | report reports =>
    cases a with
    | report reports₁ =>
      cases b with
      | report reports₂ => exact List.Perm.trans ha (List.Perm.symm hb)
      | _ => cases hb
    | _ => cases ha
  | _ =>
    cases a <;> cases ha
    cases b <;> cases hb
    rfl

/-- So do runs of answers. -/
theorem agrees_of_common {as bs cs : List TableAnswer} (ha : List.Forall₂ Agrees as cs)
    (hb : List.Forall₂ Agrees bs cs) : List.Forall₂ Agrees as bs := by
  induction ha generalizing bs with
  | nil =>
    cases hb
    exact List.Forall₂.nil
  | cons h _ ih =>
    cases hb with
    | cons h' hb => exact List.Forall₂.cons (h.of_common h') (ih hb)

end TableAnswer

namespace StateTable

/-- **A state table answers as one unhashed list does**, operation by operation, whatever the
operations, the salt and the number of buckets; so two tables that differ in salt and number of
buckets only answer alike. -/
theorem run_agrees (config : StateConfig) (salt : UInt32)
    (hbuckets : validBuckets config.buckets = true) (ops : List TableOp) :
    List.Forall₂ TableAnswer.Agrees ((new config salt).run ops).1
        (({ config } : FlatTable).run ops).1 ∧
      ∀ (salt' : UInt32) (buckets : Nat), validBuckets buckets = true →
        List.Forall₂ TableAnswer.Agrees ((new config salt).run ops).1
          ((new { config with buckets } salt').run ops).1 := by
  have hflat := ((new_refines config salt hbuckets).run_refines ops).1
  refine ⟨hflat, fun salt' buckets h' => ?_⟩
  exact TableAnswer.agrees_of_common hflat ((new_refines config salt' h').run_refines ops).1

/-- A run with the default settings, against the list and against a single bucket: the entry that
a rule creates is found by a packet of the reverse direction. -/
theorem run_agrees_default :
    validBuckets 256 = true ∧ validBuckets 1 = true ∧
      (let config := ({} : Config).stateConfig
      let pkt : Packet :=
        { flow := ⟨1, 2, 3, 4, Protocol.udp, 0⟩, direction := .inbound, length := 40 }
      let ops := [TableOp.install true (Rule.terminal 0 true) .keepState pkt ⟨0⟩,
        .setBuckets 16, .lookup { pkt with flow := pkt.flow.reversed } ⟨1⟩, .flushAll ⟨1⟩, .size]
      List.Forall₂ TableAnswer.Agrees ((new config 5).run ops).1
          (({ config } : FlatTable).run ops).1 ∧
        List.Forall₂ TableAnswer.Agrees ((new config 5).run ops).1
          ((new { config with buckets := 1 } 7).run ops).1) := by
  refine ⟨by decide, by decide, ?_⟩
  have hrun := run_agrees ({} : Config).stateConfig 5 (by decide)
    [TableOp.install true (Rule.terminal 0 true) .keepState
      { flow := ⟨1, 2, 3, 4, Protocol.udp, 0⟩, direction := .inbound, length := 40 } ⟨0⟩,
      .setBuckets 16,
      .lookup { flow := ⟨2, 1, 4, 3, Protocol.udp, 0⟩, direction := .inbound, length := 40 } ⟨1⟩,
      .flushAll ⟨1⟩, .size]
  exact ⟨hrun.1, hrun.2 7 1 (by decide)⟩

end StateTable

end PacketFilter
