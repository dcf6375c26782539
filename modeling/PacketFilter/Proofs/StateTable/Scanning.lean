import PacketFilter.StateTable.Keepalive

/-!
# A pass that stops and goes on

A pass of probes lets the table go whenever it has found something, and goes on behind the bucket in
which it was. What is still before it at any time is what is due in the buckets from there on
(`dueFrom`), and what it still does to the table is to mark these entries (`markedFrom`). A visit
takes one bucket off the first and leaves the second as it is, so that neither depends on where the
pass has stopped on the way.

Main statements: `scan_spec`, what one stretch of a pass does; `probeFrom_eq`, what all that is left
of a pass does; **`probeDue_eq`**, a pass probes the entries that are due, in the order of the
table, and marks them.
-/

namespace PacketFilter

namespace StateTable

/-- The entries that are due in the buckets from bucket `i` on. -/
def dueFrom (t : StateTable) (now : Moment) (i : Nat) : List Entry :=
  (t.buckets.toList.drop i).flatten.filter
    (·.isDue t.config.keepaliveInterval t.config.keepalivePeriod now)

/-- The table with the entries of those buckets marked that are due. -/
def markedFrom (t : StateTable) (now : Moment) (i : Nat) : StateTable :=
  { t with
    buckets := t.buckets.mapIdx fun k b =>
      if i ≤ k then
        b.map (·.probedIfDue t.config.keepaliveInterval t.config.keepalivePeriod now)
      else b }

variable {t t' : StateTable} {now : Moment} {i j : Nat} {found : List Entry}

/-! ## Buckets -/

theorem dueFrom_of_size_le (h : t.buckets.size ≤ i) : t.dueFrom now i = [] := by
  rw [dueFrom, List.drop_eq_nil_of_le (by simpa using h)]
  rfl

theorem markedFrom_of_size_le (h : t.buckets.size ≤ i) : t.markedFrom now i = t := by
  have hbuckets : (t.markedFrom now i).buckets = t.buckets := by
    refine Array.ext (by simp [markedFrom]) fun k hk hk' => ?_
    have hlt : ¬ i ≤ k := by omega
    simp [markedFrom, hlt]
  exact congrArg (fun buckets => { t with buckets }) hbuckets

/-- A visit takes the entries of its bucket off those that are still to come. -/
theorem dueFrom_visit (h : i < t.buckets.size) :
    t.buckets[i].filter (·.isDue t.config.keepaliveInterval t.config.keepalivePeriod now) ++
        (t.visit now i).dueFrom now (i + 1) =
      t.dueFrom now i := by
  have hlater : (t.visit now i).buckets.toList.drop (i + 1) = t.buckets.toList.drop (i + 1) := by
    rw [visit, Array.toList_modify, List.drop_modify_of_lt _ _ _ _ (Nat.lt_succ_self i)]
  have hfirst : t.buckets.toList.drop i = t.buckets[i] :: t.buckets.toList.drop (i + 1) :=
    List.drop_eq_getElem_cons (by simpa using h)
  rw [dueFrom, dueFrom, hlater, hfirst, List.flatten_cons, List.filter_append]
  rfl

/-- It marks what would have been marked. -/
theorem markedFrom_visit : (t.visit now i).markedFrom now (i + 1) = t.markedFrom now i := by
  have hbuckets :
      ((t.visit now i).markedFrom now (i + 1)).buckets = (t.markedFrom now i).buckets := by
    refine Array.ext (by simp [markedFrom, visit]) fun k hk hk' => ?_
    simp only [markedFrom, visit, Array.getElem_mapIdx, Array.getElem_modify]
    by_cases hki : i = k
    · subst hki
      simp [Nat.not_succ_le_self i]
    · have hiff : i + 1 ≤ k ↔ i ≤ k := by omega
      simp [hki, hiff]
  exact congrArg (fun buckets => { t with buckets }) hbuckets

/-! ## The pass -/

/-- **What one stretch of a pass does**: it finds the first that are due of those still to come, and
has marked what is behind it. If it finds nothing, it has come to the end. -/
theorem scan_spec (h : t.scan now i = (found, j, t')) :
    found ++ t'.dueFrom now j = t.dueFrom now i ∧ t'.markedFrom now j = t.markedFrom now i ∧
      t'.generation = t.generation ∧ (found = [] → t'.buckets.size ≤ j) := by
  fun_induction scan t now i with
  | case1 t i hi found' hempty ih =>
    obtain ⟨hdue, hmarked, hgeneration, hend⟩ := ih h
    have hnone : found' = [] := List.isEmpty_iff.mp hempty
    refine ⟨?_, hmarked.trans markedFrom_visit, hgeneration, hend⟩
    calc found ++ t'.dueFrom now j
        = found' ++ (t.visit now i).dueFrom now (i + 1) := by rw [hdue, hnone, List.nil_append]
      _ = t.dueFrom now i := dueFrom_visit hi
  | case2 t i hi found' hempty =>
    obtain ⟨rfl, rfl, rfl⟩ : found' = found ∧ i + 1 = j ∧ t.visit now i = t' := by simpa using h
    refine ⟨dueFrom_visit hi, markedFrom_visit, rfl, fun hnone => ?_⟩
    exact absurd (List.isEmpty_iff.mpr hnone) hempty
  | case3 t i hi =>
    cases h
    exact ⟨rfl, rfl, rfl, fun _ => Nat.not_lt.mp hi⟩

/-- **What is left of a pass** is to probe and to mark what is still to come, if nobody else has
changed the buckets. -/
theorem probeFrom_eq (t : StateTable) (now : Moment) (i : Nat) :
    t.probeFrom now t.generation i =
      ((t.dueFrom now i).length, (t.dueFrom now i).flatMap Entry.probes, t.markedFrom now i) := by
  generalize hgeneration : t.generation = generation
  fun_induction probeFrom t now generation i with
  | case1 t i hsame j t' hscan =>
    obtain ⟨hdue, hmarked, -, hend⟩ := scan_spec hscan
    rw [List.nil_append, dueFrom_of_size_le (hend rfl)] at hdue
    rw [markedFrom_of_size_le (hend rfl)] at hmarked
    rw [← hdue, ← hmarked]
    rfl
  | case2 t i hsame e es j t' hscan found n requests t'' hrest ih =>
    obtain ⟨hdue, hmarked, hkept, -⟩ := scan_spec hscan
    have hrest := hrest.symm.trans (ih (hkept.trans hsame))
    simp only [Prod.mk.injEq] at hrest
    obtain ⟨rfl, rfl, rfl⟩ := hrest
    rw [← hdue, ← hmarked, List.length_append, List.flatMap_append]
  | case3 t i hchanged => exact absurd hgeneration hchanged

theorem dueFrom_zero (t : StateTable) (now : Moment) :
    t.dueFrom now 0 =
      t.entries.filter (·.isDue t.config.keepaliveInterval t.config.keepalivePeriod now) := rfl

theorem markedFrom_zero (t : StateTable) (now : Moment) :
    t.markedFrom now 0 = t.mapBuckets fun b =>
      b.map (·.probedIfDue t.config.keepaliveInterval t.config.keepalivePeriod now) := by
  have hbuckets : (t.markedFrom now 0).buckets = t.buckets.map fun b =>
      b.map (·.probedIfDue t.config.keepaliveInterval t.config.keepalivePeriod now) :=
    Array.ext (by simp [markedFrom]) fun k _ _ => by simp [markedFrom]
  exact congrArg (fun buckets => { t with buckets }) hbuckets

/-- **A pass probes the entries that are due**, in the order of the table, and marks them. -/
theorem probeDue_eq (t : StateTable) (now : Moment) :
    t.probeDue now =
      ((t.due now).length, (t.due now).flatMap Entry.probes,
        if t.config.keepalive then
          t.mapBuckets fun b =>
            b.map (·.probedIfDue t.config.keepaliveInterval t.config.keepalivePeriod now)
        else t) := by
  unfold probeDue due
  split
  · rw [probeFrom_eq, dueFrom_zero, markedFrom_zero]
  · rfl

end StateTable

end PacketFilter
