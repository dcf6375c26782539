import Mathlib.Data.List.Nodup
import PacketFilter.Chain

/-!
# Members of a chain and their order

Which rules are in a chain after one is added or some are removed, and in which order they stand.
The default rule is selected by nothing and stays, and it stays the last: all others have smaller
numbers.

A position is looked at as what is left of the chain from there on. A rule that skips leaves of
what stands behind it the rules from the first one numbered at or above its target.

Main statements: `perm_insert`, adding a rule adds that rule; `removeWhere_spec`, what is removed
and what stays; **`InOrder.insert`** and **`InOrder.removeWhere`**, a chain in order stays in order;
`rest_continueAt`, what is left behind a rule that does not decide; `InOrder.continueAt_lt`, going
on behind a rule that is not the last leads to a position of the chain.
-/

namespace PacketFilter

/-- Of the rules that stand behind a rule, those with which a walk goes on if that rule does not
decide. -/
def Rule.goesOnWith (r : Rule) (behind : List Rule) : List Rule :=
  match r.action with
  | .skipTo target => behind.dropWhile fun x => !decide (target ≤ x.number)
  | _ => behind

/-- Does a rule come before another one in every chain? The smaller number does, and of rules of the
same number the one that was accepted before. -/
def Rule.Precedes (a b : Rule) : Prop := a.number < b.number ∨ a.number = b.number ∧ a.id < b.id

theorem Rule.Precedes.number_le {a b : Rule} (h : a.Precedes b) : a.number ≤ b.number := by
  rcases h with h | ⟨h, -⟩
  · exact UInt16.le_of_lt h
  · exact UInt16.le_of_eq h

/-- The default rule has the largest number that there is. -/
theorem le_defaultRuleNumber (n : UInt16) : n ≤ defaultRuleNumber :=
  UInt16.le_iff_toNat_le.mpr (Nat.le_of_lt_succ n.toNat_lt)

theorem Rule.number_of_isDefault {r : Rule} (h : r.isDefault = true) :
    r.number = defaultRuleNumber := by
  simpa [Rule.isDefault] using h

/-- All other numbers are smaller. -/
theorem Rule.lt_number_of_isDefault {r : Rule} (h : r.isDefault = true) {n : UInt16}
    (hn : n ≠ defaultRuleNumber) : n < r.number := by
  rw [Rule.number_of_isDefault h]
  exact UInt16.lt_of_le_of_ne (le_defaultRuleNumber n) hn

namespace Chain

variable (c : Chain) (p : Rule → Bool)

/-! ## Members -/

/-- A position behind which rules are numbered higher is one of the chain. -/
theorem firstAfter?_lt {c : Chain} {n : UInt16} {i : Nat} (h : c.firstAfter? n = some i) :
    i < c.length :=
  (List.findIdx?_eq_some_iff_getElem.mp h).1

/-- Adding a rule adds that rule, wherever it is put. -/
theorem perm_insert (r : Rule) : (c.insert r).2.rules.Perm (r :: c.rules) := by
  refine List.perm_insertIdx r c.rules ?_
  cases h : c.firstAfter? r.number with
  | none => exact Nat.le_refl _
  | some i => exact Nat.le_of_lt (firstAfter?_lt h)

theorem mem_select {r : Rule} :
    r ∈ c.select p ↔ r ∈ c.rules ∧ r.isDefault = false ∧ p r = true := by
  simp [select]

theorem select_sublist : (c.select p).Sublist c.rules := List.filter_sublist

/-- The rules that are removed are those selected, and the others stay; if there is none, so does
the chain. -/
theorem removeWhere_spec :
    (c.removeWhere p).1 = c.select p ∧
      (c.removeWhere p).2.rules = c.rules.filter fun r => !(!r.isDefault && p r) := by
  unfold removeWhere
  simp only
  split
  · rename_i hempty
    have hnone : c.select p = [] := List.isEmpty_iff.mp hempty
    refine ⟨hnone.symm, (List.filter_eq_self.mpr fun r hr => ?_).symm⟩
    have hnot : ¬ (!r.isDefault && p r) = true := List.filter_eq_nil_iff.mp hnone r hr
    simpa only [Bool.not_eq_true', Bool.not_eq_true] using hnot
  · exact ⟨rfl, rfl⟩

theorem mem_removeWhere {r : Rule} :
    r ∈ (c.removeWhere p).2.rules ↔ r ∈ c.rules ∧ r ∉ c.select p := by
  rw [(c.removeWhere_spec p).2, List.mem_filter, mem_select]
  constructor
  · rintro ⟨hr, hstays⟩
    refine ⟨hr, fun hsel => ?_⟩
    rw [hsel.2.1, hsel.2.2] at hstays
    cases hstays
  · rintro ⟨hr, hnot⟩
    refine ⟨hr, ?_⟩
    cases hdefault : r.isDefault with
    | true => rfl
    | false =>
      cases hp : p r with
      | false => rfl
      | true => exact absurd ⟨hr, hdefault, hp⟩ hnot

variable {c p}

/-! ## Positions -/

/-- What is left of a chain from a position on. -/
def rest (c : Chain) (i : Nat) : List Rule := c.rules.drop i

theorem rest_of_get? {i : Nat} {r : Rule} (h : c.get? i = some r) :
    c.rest i = r :: c.rest (i + 1) := by
  obtain ⟨hlt, hget⟩ := List.getElem?_eq_some_iff.mp h
  rw [rest, List.drop_eq_getElem_cons hlt, hget]
  rfl

theorem get?_of_rest {i : Nat} {r : Rule} {rs : List Rule} (h : c.rest i = r :: rs) :
    c.get? i = some r := by
  have hhead : (c.rules.drop i)[0]? = some r := by
    rw [show c.rules.drop i = r :: rs from h]
    rfl
  rwa [List.getElem?_drop, Nat.add_zero] at hhead

theorem rest_eq_nil_iff {i : Nat} : c.rest i = [] ↔ c.get? i = none := by
  rw [rest, get?, List.drop_eq_nil_iff, List.getElem?_eq_none_iff]

/-- The rules numbered above `n`, and those between them, are left at their first position. -/
theorem rest_firstAfter? {n : UInt16} {i : Nat} (h : c.firstAfter? n = some i) :
    c.rest i = c.rules.dropWhile fun x => !decide (n < x.number) := by
  obtain ⟨-, hi⟩ := List.findIdx?_eq_some_iff_findIdx_eq.mp h
  rw [rest, ← hi, List.dropWhile_eq_drop_findIdx_not]
  simp only [Bool.not_not]

theorem firstAfter?_eq_none {n : UInt16} (h : c.firstAfter? n = none) (x : Rule)
    (hx : x ∈ c.rules) : ¬ n < x.number := by
  simpa using List.findIdx?_eq_none_iff.mp h x hx

/-- What is left where a walk goes on. -/
theorem rest_next {i : Nat} {r : Rule} (h : c.get? i = some r) :
    c.rest (c.next i) = r.goesOnWith (c.rest (i + 1)) := by
  unfold next Rule.goesOnWith
  rw [h]
  simp only
  cases r.action with
  | skipTo target =>
    simp only
    rw [rest, rest, ← List.drop_drop, List.dropWhile_eq_drop_findIdx_not]
    simp only [Bool.not_not]
  | _ => rfl

/-- If no rule has the id, it has no position. -/
theorem lastPosition?_eq_none {id : Nat} : ∀ {rs : List Rule}, id ∉ rs.map Rule.id →
    lastPosition? id rs = none
  | [], _ => rfl
  | r :: rs, h => by
    rw [List.map_cons, List.mem_cons, not_or] at h
    rw [lastPosition?, lastPosition?_eq_none h.2]
    exact if_neg (Ne.symm h.1)

/-- Of rules with different ids, each is found where it stands. -/
theorem lastPosition?_append {r : Rule} {behind : List Rule} (hbehind : r.id ∉ behind.map Rule.id) :
    ∀ before : List Rule, lastPosition? r.id (before ++ r :: behind) = some before.length
  | [] => by
    rw [List.nil_append, lastPosition?, lastPosition?_eq_none hbehind]
    exact if_pos rfl
  | x :: before => by
    rw [List.cons_append, lastPosition?, lastPosition?_append hbehind before]
    rfl

theorem indexOf?_of_append {r : Rule} {before behind : List Rule}
    (hids : (c.rules.map Rule.id).Nodup) (h : c.rules = before ++ r :: behind) :
    c.indexOf? r = some before.length := by
  rw [h, List.map_append, List.map_cons, List.nodup_append] at hids
  rw [indexOf?, h]
  exact lastPosition?_append (List.nodup_cons.mp hids.2.1).1 before

/-- What is left behind a rule of the chain that does not decide. -/
theorem rest_continueAt {r : Rule} {before behind : List Rule}
    (hids : (c.rules.map Rule.id).Nodup) (h : c.rules = before ++ r :: behind) :
    c.rest (c.continueAt r) = r.goesOnWith behind := by
  have hrest : c.rest before.length = r :: behind := by
    rw [rest, h, List.drop_left]
  have hget := get?_of_rest hrest
  have hbehind : c.rest (before.length + 1) = behind := by
    rw [rest_of_get? hget] at hrest
    exact (List.cons.inj hrest).2
  rw [continueAt, indexOf?_of_append hids h]
  simp only
  rw [rest_next hget, hbehind]

/-! ## Order -/

/-- **A chain in order**: each rule precedes those behind it, no two have the same id, and `last`, a
default rule, is the last and the only one. -/
structure InOrder (last : Rule) (c : Chain) : Prop where
  isDefault : last.isDefault = true
  ids : (c.rules.map Rule.id).Nodup
  ascending : c.rules.Pairwise Rule.Precedes
  ends : ∃ front, c.rules = front ++ [last] ∧ ∀ r ∈ front, r.isDefault = false

namespace InOrder

variable {last : Rule}

theorem last_mem (h : c.InOrder last) : last ∈ c.rules := by
  obtain ⟨front, hfront, -⟩ := h.ends
  rw [hfront]
  exact List.mem_append_right _ List.mem_cons_self

theorem eq_last (h : c.InOrder last) {r : Rule} (hr : r ∈ c.rules) (hdefault : r.isDefault = true) :
    r = last := by
  obtain ⟨front, hfront, hnot⟩ := h.ends
  rw [hfront, List.mem_append, List.mem_singleton] at hr
  rcases hr with hr | hr
  · rw [hnot r hr] at hdefault
    cases hdefault
  · exact hr

theorem eq_of_id (h : c.InOrder last) {r r' : Rule} (hr : r ∈ c.rules) (hr' : r' ∈ c.rules)
    (hid : r.id = r'.id) : r = r' :=
  List.inj_on_of_nodup_map h.ids hr hr' hid

theorem lt_length_of_mem {i : Nat} {r : Rule} (h : r ∈ c.rest i) : i < c.length := by
  refine Nat.lt_of_not_le fun hle => ?_
  rw [rest, List.drop_eq_nil_of_le hle] at h
  exact absurd h List.not_mem_nil

/-- A rule at a position is the last one if there is no later position. -/
theorem last_mem_behind (h : c.InOrder last) {r : Rule} {before behind : List Rule}
    (hsplit : c.rules = before ++ r :: behind) (hr : r.isDefault = false) : last ∈ behind := by
  have hlast : c.rules.getLast? = some last := by
    obtain ⟨front, hfront, -⟩ := h.ends
    rw [hfront, List.getLast?_concat]
  rw [hsplit, List.getLast?_append] at hlast
  cases behind with
  | nil =>
    have heq : r = last := by simpa using hlast
    rw [heq, h.isDefault] at hr
    cases hr
  | cons x behind =>
    refine List.mem_of_getLast? ?_
    simpa using hlast

/-- Behind a rule that is not the last there is a position. -/
theorem succ_lt (h : c.InOrder last) {i : Nat} {r : Rule} (hget : c.get? i = some r)
    (hr : r.isDefault = false) : i + 1 < c.length := by
  have hsplit : c.rules = c.rules.take i ++ r :: c.rest (i + 1) := by
    rw [← rest_of_get? hget, rest, List.take_append_drop]
  exact lt_length_of_mem (h.last_mem_behind hsplit hr)

/-- No skip leads past the last rule. -/
theorem last_mem_goesOnWith (h : c.InOrder last) (r : Rule) {behind : List Rule}
    (hlast : last ∈ behind) : last ∈ r.goesOnWith behind := by
  unfold Rule.goesOnWith
  split
  · rename_i target _
    have htarget : target ≤ last.number := by
      rw [Rule.number_of_isDefault h.isDefault]
      exact le_defaultRuleNumber target
    obtain ⟨before, after, hsplit⟩ := List.append_of_mem hlast
    rw [hsplit]
    clear hsplit hlast
    induction before with
    | nil => simp [htarget]
    | cons x before ih =>
      rw [List.cons_append, List.dropWhile_cons]
      split
      · exact ih
      · exact List.mem_cons_of_mem _ (List.mem_append_right _ List.mem_cons_self)
  · exact hlast

/-- **Going on behind a rule that is not the last leads to a position of the chain.** -/
theorem continueAt_lt (h : c.InOrder last) {r : Rule} (hr : r ∈ c.rules)
    (hdefault : r.isDefault = false) : c.continueAt r < c.length := by
  obtain ⟨before, behind, hsplit⟩ := List.append_of_mem hr
  have hlast := h.last_mem_goesOnWith r (h.last_mem_behind hsplit hdefault)
  rw [← rest_continueAt h.ids hsplit] at hlast
  exact lt_length_of_mem hlast

/-- There are rules numbered above every number but that of the last. -/
theorem exists_firstAfter? (h : c.InOrder last) {n : UInt16} (hn : n ≠ defaultRuleNumber) :
    ∃ i, c.firstAfter? n = some i := by
  cases hfirst : c.firstAfter? n with
  | some i => exact ⟨i, rfl⟩
  | none =>
    exact absurd (Rule.lt_number_of_isDefault h.isDefault hn)
      (firstAfter?_eq_none hfirst last h.last_mem)

/-- The chain of a default rule. -/
theorem new (hdefault : last.isDefault = true) : (Chain.new last).InOrder last :=
  ⟨hdefault, List.nodup_singleton _, List.pairwise_singleton _ _, [], rfl,
    fun _ hr => absurd hr List.not_mem_nil⟩

/-- Leaving out rules other than the last keeps the order. -/
theorem filter {c' : Chain} (h : c.InOrder last) {keep : Rule → Bool} (hlast : keep last = true)
    (hrules : c'.rules = c.rules.filter keep) : c'.InOrder last := by
  obtain ⟨front, hfront, hnot⟩ := h.ends
  refine ⟨h.isDefault, ?_, ?_, front.filter keep, ?_, fun r hr => ?_⟩
  · rw [hrules]
    exact h.ids.sublist (List.filter_sublist.map _)
  · rw [hrules]
    exact h.ascending.filter _
  · rw [hrules, hfront, List.filter_append, List.filter_cons_of_pos hlast, List.filter_nil]
  · exact hnot r (List.mem_filter.mp hr).1

/-- **Removing rules** keeps the order. -/
theorem removeWhere (h : c.InOrder last) (p : Rule → Bool) : (c.removeWhere p).2.InOrder last :=
  h.filter (by simp [h.isDefault]) (c.removeWhere_spec p).2

end InOrder

/-- Where a rule is put: behind those of the same and of smaller numbers. -/
theorem insert_split (c : Chain) (r : Rule) : ∃ before behind,
    c.rules = before ++ behind ∧ (c.insert r).2.rules = before ++ r :: behind ∧
      (∀ x ∈ before, x.number ≤ r.number) ∧ ∀ x, behind.head? = some x → r.number < x.number := by
  have hplace : (c.firstAfter? r.number).getD c.length =
      c.rules.findIdx fun x => decide (r.number < x.number) := List.findIdx_eq_getD_findIdx?.symm
  unfold insert
  rw [hplace]
  generalize habove : (fun x : Rule => decide (r.number < x.number)) = above
  have hle : c.rules.findIdx above ≤ c.rules.length := List.findIdx_le_length
  obtain ⟨before, behind, hsplit, hlength, hinsert⟩ :=
    List.exists_of_modifyTailIdx (List.cons r) hle
  have hbefore : before = c.rules.takeWhile fun x => !above x := by
    rw [List.takeWhile_eq_take_findIdx_not]
    simp only [Bool.not_not]
    rw [← hlength, hsplit, List.take_left]
  have hbehind : behind = c.rules.dropWhile fun x => !above x := by
    rw [List.dropWhile_eq_drop_findIdx_not]
    simp only [Bool.not_not]
    rw [← hlength, hsplit, List.drop_left]
  refine ⟨before, behind, hsplit, hinsert, fun x hx => ?_, fun x hx => ?_⟩
  · rw [hbefore] at hx
    have hnot := List.all_takeWhile (p := fun x => !above x) (l := c.rules)
    simpa [← habove] using List.all_eq_true.mp hnot x hx
  · rw [hbehind] at hx
    have hhead := List.head?_dropWhile_not (fun x => !above x) c.rules
    rw [hx] at hhead
    simpa [← habove] using hhead

/-- **Adding a rule** that is not the default rule, and younger than those of the chain, keeps the
order. -/
theorem InOrder.insert {last : Rule} (h : c.InOrder last) {r : Rule}
    (hdefault : r.isDefault = false) (hyounger : ∀ x ∈ c.rules, x.id < r.id) :
    (c.insert r).2.InOrder last := by
  obtain ⟨before, behind, hsplit, hinsert, hbefore, hhead⟩ := c.insert_split r
  obtain ⟨front, hfront, hnot⟩ := h.ends
  have hascending := h.ascending
  rw [hsplit, List.pairwise_append] at hascending
  obtain ⟨hbeforeOrder, hbehindOrder, hcross⟩ := hascending
  have hr : r.number ≠ defaultRuleNumber := by simpa [Rule.isDefault] using hdefault
  have hprecedes : ∀ x ∈ before, x.Precedes r := by
    intro x hx
    rcases Nat.lt_or_eq_of_le (UInt16.le_iff_toNat_le.mp (hbefore x hx)) with hlt | heq
    · exact Or.inl (UInt16.lt_iff_toNat_lt.mpr hlt)
    · refine Or.inr ⟨UInt16.toNat_inj.mp heq, hyounger x ?_⟩
      rw [hsplit]
      exact List.mem_append_left _ hx
  have hfollows : ∀ x ∈ behind, r.Precedes x := by
    cases behind with
    | nil => exact fun x hx => absurd hx List.not_mem_nil
    | cons y behind =>
      have hy := hhead y rfl
      intro x hx
      rcases List.mem_cons.mp hx with rfl | hx
      · exact Or.inl hy
      · have hle := ((List.pairwise_cons.mp hbehindOrder).1 x hx).number_le
        exact Or.inl (UInt16.lt_of_lt_of_le hy hle)
  refine ⟨h.isDefault, ?_, ?_, ?_⟩
  · rw [((c.perm_insert r).map Rule.id).nodup_iff, List.map_cons, List.nodup_cons]
    refine ⟨fun hmem => ?_, h.ids⟩
    obtain ⟨x, hx, hid⟩ := List.mem_map.mp hmem
    exact absurd (hyounger x hx) (by omega)
  · rw [hinsert, List.pairwise_append, List.pairwise_cons]
    refine ⟨hbeforeOrder, ⟨hfollows, hbehindOrder⟩, fun x hx y hy => ?_⟩
    rcases List.mem_cons.mp hy with rfl | hy
    · exact hprecedes x hx
    · exact hcross x hx y hy
  · -- The last rule is numbered above the new one, so that it is among those behind.
    have hlast : last ∈ behind := by
      have hmem := h.last_mem
      rw [hsplit, List.mem_append] at hmem
      rcases hmem with hmem | hmem
      · have hlt := Rule.lt_number_of_isDefault h.isDefault hr
        exact absurd (hbefore last hmem) (UInt16.not_le.mpr hlt)
      · exact hmem
    rcases List.eq_nil_or_concat behind with rfl | ⟨middle, x, rfl⟩
    · exact absurd hlast List.not_mem_nil
    rw [List.concat_eq_append] at hsplit hinsert
    obtain ⟨rfl, hx⟩ : front = before ++ middle ∧ [last] = [x] := by
      rw [hfront, ← List.append_assoc] at hsplit
      exact List.append_inj' hsplit rfl
    refine ⟨before ++ r :: middle, ?_, fun y hy => ?_⟩
    · rw [hinsert, hx, List.append_assoc, List.cons_append]
    · rcases List.mem_append.mp hy with hy | hy
      · exact hnot y (List.mem_append_left _ hy)
      · rcases List.mem_cons.mp hy with rfl | hy
        · exact hdefault
        · exact hnot y (List.mem_append_right _ hy)

end Chain

end PacketFilter
