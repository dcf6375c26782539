import PacketFilter.Proofs.StateTable.Survival

/-!
# Entries that are left as they are

A live entry is changed by two things only: a packet of its flow, and a probe. What makes room takes
none that is live, creating state writes to parents and puts new entries in front, and a lookup
charges the packet to an entry of its own flow. So between two packets of a flow its entry stays
what it is, to the last field.

Main statements: `mem_install` and `mem_lookup`, creating state and a lookup; **`Sound.mem_run`**, a
run of operations that pass an entry by.
-/

namespace PacketFilter

namespace FlatTable

variable {t : FlatTable} {e : Entry} {now : Moment}

theorem mem_removeWhere (he : e ∈ t.entries) (hlive : e.Live now) (selected : Entry → Bool) :
    e ∈ (t.removeWhere selected false now).2.entries := by
  have hexpired : e.isExpired now = false := by
    rw [Entry.isExpired, decide_eq_false_iff_not, Moment.le_iff, Nat.not_le]
    exact Moment.lt_iff.mp hlive.2
  have hfirst : e ∈ t.entries.filter fun e => !e.leaves selected false now :=
    List.mem_filter.mpr ⟨he, by simp [Entry.leaves, hexpired]⟩
  have hmem := List.mem_map_of_mem
    (f := (·.release (t.entries.filter (·.leaves selected false now)))) hfirst
  rw [Entry.release_of_not_isParent hlive.1] at hmem
  exact List.mem_filter.mpr ⟨hmem, by simp [Entry.leavesChildless, hexpired]⟩

theorem mem_reserve (he : e ∈ t.entries) (hlive : e.Live now) (need : Nat) :
    e ∈ (t.reserve need now).2.entries :=
  reserve_keeps (P := fun t => e ∈ t.entries)
    (fun _ selected he => mem_removeWhere he hlive selected) he need

/-- Changing a parent changes no other entry. -/
theorem mem_modifyParent (he : e ∈ t.entries) (hparent : e.isParent = false) (rule : Rule)
    (key : Flow) (f : Entry → Entry) : e ∈ (t.modifyParent rule key f).entries := by
  have hnot : ¬ e.isParentFor rule key = true := fun hfor =>
    Bool.eq_false_iff.mp hparent (Entry.isParentFor_iff.mp hfor).1
  exact List.mem_map.mpr ⟨e, he, if_neg hnot⟩

theorem mem_openParent (he : e ∈ t.entries) (hlive : e.Live now) (rule : Rule) (key : Flow) :
    e ∈ (t.openParent rule key now).2.entries :=
  openParent_keeps (P := fun t => e ∈ t.entries)
    (fun _ selected he => mem_removeWhere he hlive selected)
    (fun _ he => mem_modifyParent he hlive.1 rule key _)
    (fun _ he => List.mem_cons_of_mem _ he) he

theorem mem_makeWay (he : e ∈ t.entries) (hlive : e.Live now) (rule : Rule) (key : Flow)
    (limit : Nat) : e ∈ (t.makeWay rule key limit now).entries :=
  makeWay_keeps (P := fun t => e ∈ t.entries)
    (fun _ selected he => mem_removeWhere he hlive selected) he limit

/-- **Creating state** leaves every live entry as it is. -/
theorem mem_install (he : e ∈ t.entries) (hlive : e.Live now) (enabled : Bool) (rule : Rule)
    (request : StateRequest) (pkt : Packet) :
    e ∈ (t.install enabled rule request pkt now).2.entries := by
  unfold install
  split
  · exact he
  split
  · exact he
  cases request with
  | keepState =>
    have h₁ := mem_reserve he hlive 1
    rcases hreserve : t.reserve 1 now with ⟨ok, t₁⟩
    rw [hreserve] at h₁
    cases ok with
    | false => exact h₁
    | true => exact List.mem_cons_of_mem _ h₁
  | limit parts connections =>
    have h₁ := mem_openParent he hlive rule (pkt.flow.limitKey parts)
    simp only
    rcases hopen : t.openParent rule (pkt.flow.limitKey parts) now with ⟨ok, t₁⟩
    rw [hopen] at h₁
    cases ok with
    | false => exact h₁
    | true =>
      have h₂ := mem_makeWay h₁ hlive rule (pkt.flow.limitKey parts) connections.toNat
      simp only
      split
      · exact h₂
      · exact List.mem_cons_of_mem _ (mem_modifyParent h₂ hlive.1 _ _ _)

/-- **A lookup** leaves the entries of other flows as they are. -/
theorem mem_lookup {pkt : Packet} (he : e ∈ t.entries)
    (hother : e.flow.orientation pkt.flow = none) : e ∈ (t.lookup pkt now).2.entries := by
  unfold lookup
  split
  · rename_i hit es hcharge
    obtain ⟨pre, x, post, hes, -, hmatch, -, rfl⟩ := chargeFirst_eq_some hcharge
    rw [hes] at he
    have hne : e ≠ x := by
      rintro rfl
      have hsome := Entry.orientation_of_direction
        (show (e.direction? pkt.flow now).isSome = true by rw [hmatch]; rfl)
      rw [hother] at hsome
      cases hsome
    rcases List.mem_append.mp he with he | he
    · exact List.mem_append_left _ he
    · exact List.mem_append_right _ (List.mem_cons_of_mem _ (List.mem_of_ne_of_mem hne he))
  · exact he

/-- Probing leaves the entries as they are that are not due. -/
theorem mem_probeDue (he : e ∈ t.entries) (hdue : t.isDue now e = false) :
    e ∈ (t.probeDue now).2.2.entries :=
  List.mem_map.mpr ⟨e, he, if_neg (by simp [hdue])⟩

end FlatTable

/-- Does the operation pass the entry of a flow by? It looks up no packet of the flow, probes
nothing, and is not told to remove entries. -/
def TableOp.PassesBy (flow : Flow) : TableOp → Prop
  | .lookup pkt _ => flow.orientation pkt.flow = none
  | .flush _ _ | .flushRule _ _ | .flushAll _ | .probe _ => False
  | .install _ _ _ _ _ | .sweep _ | .setBuckets _ | .size | .report _ => True

section

variable {e : Entry} {now : Moment}

theorem FlatTable.mem_apply {t : FlatTable} (he : e ∈ t.entries) (hlive : e.Live now) {op : TableOp}
    (hat : op.At now) (hop : op.PassesBy e.flow) : e ∈ (t.apply op).2.entries := by
  cases op with
  | install enabled rule request pkt moment =>
    obtain rfl : moment = now := hat moment rfl
    exact mem_install he hlive enabled rule request pkt
  | lookup pkt moment => exact mem_lookup he hop
  | sweep moment =>
    obtain rfl : moment = now := hat moment rfl
    exact mem_removeWhere he hlive _
  | flush | flushRule | flushAll | probe => exact hop.elim
  | setBuckets | size | report => exact he

theorem FlatTable.mem_run {t : FlatTable} (he : e ∈ t.entries) (hlive : e.Live now)
    {ops : List TableOp} (hops : ∀ op ∈ ops, op.At now ∧ op.PassesBy e.flow) :
    e ∈ (t.run ops).2.entries := by
  induction ops generalizing t with
  | nil => exact he
  | cons op ops ih =>
    obtain ⟨hat, hpasses⟩ := hops op List.mem_cons_self
    exact ih (mem_apply he hlive hat hpasses) fun op' hop' =>
      hops op' (List.mem_cons_of_mem op hop')

/-- **Operations that pass an entry by leave it as it is**, if it is live at the moment at which
they take place. -/
theorem StateTable.Sound.mem_run {config : StateConfig} {t : StateTable} (h : t.Sound config)
    (he : e ∈ t.entries) (hlive : e.Live now) {ops : List TableOp}
    (hops : ∀ op ∈ ops, op.At now ∧ op.PassesBy e.flow) : e ∈ (t.run ops).2.entries := by
  obtain ⟨l, hrefines, -⟩ := h
  have hmem : e ∈ l.entries := hrefines.entries_perm.mem_iff.mp he
  have hrun := (hrefines.run_refines ops).2
  exact hrun.entries_perm.mem_iff.mpr (FlatTable.mem_run hmem hlive hops)

end

end PacketFilter
