import PacketFilter.Proofs.StateTable.Accounting

/-!
# Flushing what some rules have created

A flush goes through the table twice: connections go first, and then parents that are left without
any. If it is for all that some rules have created, this comes to leaving out their entries and
nothing else. All that is under a parent is of the parent's rule, so that the parents of other rules
lose none of their connections, and those of the rules concerned lose all.

Main statements: `Sound.removeWhere_eq`, what any removal comes to, once it is known what is left of
each bucket; **`Sound.flush_eq`**, a flush of what some rules have created filters the buckets.
-/

namespace PacketFilter

/-- Two filters and a change between them, which leaves alone what stays. -/
theorem filter_map_filter_eq {α : Type} {first second keep : α → Bool} {f : α → α} {xs : List α}
    (hstays : ∀ x ∈ xs, keep x = true → first x = true ∧ f x = x ∧ second x = true)
    (hgoes : ∀ x ∈ xs, keep x = false → first x = true → second (f x) = false) :
    ((xs.filter first).map f).filter second = xs.filter keep := by
  induction xs with
  | nil => rfl
  | cons x xs ih =>
    have ih := ih (fun y hy => hstays y (List.mem_cons_of_mem x hy))
      fun y hy => hgoes y (List.mem_cons_of_mem x hy)
    cases hkeep : keep x with
    | true =>
      obtain ⟨hfirst, hf, hsecond⟩ := hstays x List.mem_cons_self hkeep
      rw [List.filter_cons_of_pos hfirst, List.map_cons, hf, List.filter_cons_of_pos hsecond,
        List.filter_cons_of_pos hkeep, ih]
    | false =>
      rw [List.filter_cons_of_neg (Bool.eq_false_iff.mp hkeep)]
      cases hfirst : first x with
      | true =>
        have hsecond := hgoes x List.mem_cons_self hkeep hfirst
        rw [List.filter_cons_of_pos hfirst, List.map_cons,
          List.filter_cons_of_neg (Bool.eq_false_iff.mp hsecond), ih]
      | false => rw [List.filter_cons_of_neg (Bool.eq_false_iff.mp hfirst), ih]

/-! ## Flushing what some rules have created -/

namespace StateTable

/-- The table with only those of its entries that meet a condition, each as it is and where it is.
-/
def restrict (t : StateTable) (keep : Entry → Bool) : StateTable :=
  { t.mapBuckets (·.filter keep) with count := t.count - t.entries.countP fun e => !keep e }

variable {config : StateConfig} {t : StateTable} {keep keep' : Entry → Bool}

@[simp] theorem entries_restrict (t : StateTable) (keep : Entry → Bool) :
    (t.restrict keep).entries = t.entries.filter keep := by
  simp only [restrict, entries, buckets_mapBuckets, Array.toList_map, List.filter_flatten]

/-- Conditions that agree on the entries of the table restrict it to the same. -/
theorem restrict_congr (h : ∀ e ∈ t.entries, keep e = keep' e) :
    t.restrict keep = t.restrict keep' := by
  have hbuckets : t.buckets.map (·.filter keep) = t.buckets.map (·.filter keep') :=
    Array.map_congr_left fun b hb =>
      List.filter_congr fun e he => h e (mem_entries_of_bucket hb he)
  have hcount : (t.entries.countP fun e => !keep e) = t.entries.countP fun e => !keep' e :=
    List.countP_congr fun e he => by rw [h e he]
  simp only [restrict, mapBuckets, hbuckets, hcount]

theorem restrict_true (t : StateTable) : (t.restrict fun _ => true) = t := by
  simp [restrict, mapBuckets]

theorem Sound.count_eq (ht : t.Sound config) : t.count = t.entries.length := by
  obtain ⟨l, hrefines, -⟩ := ht
  rw [hrefines.count, hrefines.entries_perm.length_eq]

/-- Restricting a table takes as many off its counter as there are entries that go. -/
theorem Sound.count_restrict (ht : t.Sound config) (keep : Entry → Bool) :
    (t.restrict keep).count + (t.entries.filter fun e => !keep e).length = t.count := by
  have hle := List.countP_le_length (p := fun e => !keep e) (l := t.entries)
  rw [← List.countP_eq_length_filter]
  show t.count - _ + _ = t.count
  rw [ht.count_eq]
  omega

variable {selects : Nat → Bool} {e : Entry}

/-- A flush leaves the entries of other rules alone: none of them goes, and as a parent it loses no
connection. -/
theorem stays_of_not_selected (t : StateTable) (now : Moment) (hkeep : selects e.rule.id = false) :
    e.leaves (fun e => selects e.rule.id) true now = false ∧
      e.release (t.entries.filter (·.leaves (fun e => selects e.rule.id) true now)) = e ∧
      e.leavesChildless (fun e => selects e.rule.id) true now = false := by
  refine ⟨by simp [Entry.leaves, hkeep], ?_, by simp [Entry.leavesChildless, hkeep]⟩
  cases hparent : e.isParent with
  | false => exact Entry.release_of_not_isParent hparent _
  | true =>
    have hrole := Entry.role_of_isParent hparent
    have hnone : (t.entries.filter (·.leaves (fun e => selects e.rule.id) true now)).countP
        (·.isChildOf e.rule e.flow) = 0 := by
      refine List.countP_eq_zero.mpr fun x hx hchild => ?_
      have hleaves := (List.mem_filter.mp hx).2
      simp [Entry.leaves, (Entry.isChildOf_iff.mp hchild).2, hkeep] at hleaves
    unfold Entry.release
    rw [hrole]
    simp only [hnone, Nat.sub_zero, ← hrole]

/-- A flush leaves no entry of the rules that it is for: connections go in the first pass, and what
is left of a parent after that has no children. -/
theorem Sound.goes_of_selected (ht : t.Sound config) (now : Moment) (he : e ∈ t.entries)
    (hselected : selects e.rule.id = true)
    (hfirst : e.leaves (fun e => selects e.rule.id) true now = false) :
    (e.release (t.entries.filter (·.leaves (fun e => selects e.rule.id) true now))).leavesChildless
      (fun e => selects e.rule.id) true now = true := by
  have hparent : e.isParent = true := by simpa [Entry.leaves, hselected] using hfirst
  have hall : (t.entries.filter (·.leaves (fun e => selects e.rule.id) true now)).countP
      (·.isChildOf e.rule e.flow) = e.children := by
    rw [ht.accounted.counted e he _ (Entry.role_of_isParent hparent), List.countP_filter]
    refine List.countP_congr fun x _ => ?_
    rw [Bool.and_eq_true, and_iff_left_iff_imp]
    intro hchild
    simp [Entry.leaves, Entry.isParent_eq_false_of_isChildOf hchild,
      (Entry.isChildOf_iff.mp hchild).2, hselected]
  have hchildren : (e.release (t.entries.filter
      (·.leaves (fun e => selects e.rule.id) true now))).children = 0 := by
    rw [Entry.children_of_role (Entry.role_release (Entry.role_of_isParent hparent) _), hall,
      Nat.sub_self]
  simp [Entry.leavesChildless, Entry.isParent_release, hparent, hchildren, Entry.rule_release,
    hselected]

/-- **What a removal comes to** if it is known what is left of each bucket: the counter is that of
the entries that are left, and the number that is told is that of the others. -/
theorem Sound.removeWhere_eq (ht : t.Sound config) (selected : Entry → Bool) (force : Bool)
    (now : Moment) (left : List Entry → List Entry)
    (hleft : ∀ b ∈ t.buckets,
      ((b.filter fun e => !e.leaves selected force now).map
        (·.release (t.entries.filter (·.leaves selected force now)))).filter
          (fun e => !e.leavesChildless selected force now) = left b) :
    t.removeWhere selected force now =
      (t.entries.length - (t.mapBuckets left).entries.length,
        { t.mapBuckets left with count := (t.mapBuckets left).entries.length }) := by
  have hbuckets : (t.removeWhere selected force now).2.buckets = (t.mapBuckets left).buckets := by
    simp only [removeWhere, buckets_mapBuckets, Array.map_map]
    exact Array.map_congr_left hleft
  have hentries : (t.removeWhere selected force now).2.entries = (t.mapBuckets left).entries := by
    unfold entries
    rw [hbuckets]
  -- What is left of a table in order is in order, and nothing is counted that is not there.
  obtain ⟨l, hrefines, -⟩ := ht
  obtain ⟨hn, hrefines'⟩ := hrefines.removeWhere selected force now
  have hafter :
      (t.removeWhere selected force now).2.count = (t.mapBuckets left).entries.length := by
    rw [hrefines'.count, ← hrefines'.entries_perm.length_eq, hentries]
  have hremoved : (t.removeWhere selected force now).1 =
      t.entries.length - (t.mapBuckets left).entries.length := by
    rw [hn, ← hentries, hrefines'.entries_perm.length_eq, hrefines.entries_perm.length_eq]
    rfl
  have hrest : t.removeWhere selected force now = ((t.removeWhere selected force now).1,
      { t with
        buckets := (t.removeWhere selected force now).2.buckets
        count := (t.removeWhere selected force now).2.count }) := rfl
  rw [hrest, hremoved, hbuckets, hafter]
  rfl

/-- **Flushing what some rules have created** leaves the entries of all others, and nothing else,
and the number that is told is that of what has gone. -/
theorem Sound.flush_eq (ht : t.Sound config) (selects : Nat → Bool) (now : Moment) :
    t.flush (fun e => selects e.rule.id) now =
      (t.entries.countP fun e => selects e.rule.id, t.restrict fun e => !selects e.rule.id) := by
  have hremoval := ht.removeWhere_eq (fun e => selects e.rule.id) true now
    (·.filter fun e => !selects e.rule.id) fun b hb => by
      refine filter_map_filter_eq (fun e he hkeep => ?_) fun e he hgoes hfirst => ?_
      · have hstays := t.stays_of_not_selected (e := e) now (by simpa using hkeep)
        exact ⟨by rw [hstays.1]; rfl, hstays.2.1, by rw [hstays.2.2]; rfl⟩
      · rw [ht.goes_of_selected now (mem_entries_of_bucket hb he) (by simpa using hgoes)
          (by simpa using hfirst)]
        rfl
  have hkept : (t.mapBuckets (·.filter fun e => !selects e.rule.id)).entries =
      t.entries.filter fun e => !selects e.rule.id := entries_restrict t _
  have hsplit := List.length_eq_length_filter_add (l := t.entries) fun e => selects e.rule.id
  have hcount := ht.count_restrict fun e => !selects e.rule.id
  simp only [Bool.not_not] at hcount
  rw [hkept] at hremoval
  refine hremoval.trans (Prod.ext ?_ ?_)
  · rw [List.countP_eq_length_filter]
    exact Nat.sub_eq_of_eq_add hsplit
  · have hleft : (t.entries.filter fun e => !selects e.rule.id).length =
        (t.restrict fun e => !selects e.rule.id).count := by
      rw [ht.count_eq] at hcount
      omega
    rw [hleft]
    rfl

end StateTable

end PacketFilter
