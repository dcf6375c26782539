import Mathlib.Order.Bounds.Defs
import PacketFilter.Proofs.Chain

/-!
# Positions, jumps and changes of a chain

Where a rule stands, where a walk goes on behind it, and what a change of the chain does to both.
A jump that has been looked up is remembered until the membership of the chain changes; the
generation of the chain tells whether it has.

Main statements: **`InOrder.next_isLeast`**, a rule that skips goes on at the first later rule that
is numbered high enough; `InOrder.next_lt`, no jump leads past the end; **`Memo.Valid.ask`**, what
is remembered is what would be found anew; `Evolves.insert` and `Evolves.removeWhere`, the
generation goes up by one exactly if the membership changes; **`InOrder.insert_highest`**, a rule
that is numbered as high as any other but the last is put right before the last.
-/

namespace PacketFilter.Chain

variable {c c' : Chain} {last : Rule}

/-! ## Positions -/

/-- A rule of the chain is found where it stands. -/
theorem indexOf?_of_get? (hids : (c.rules.map Rule.id).Nodup) {i : Nat} {r : Rule}
    (h : c.get? i = some r) : c.indexOf? r = some i := by
  have hsplit : c.rules = c.rules.take i ++ r :: c.rest (i + 1) := by
    rw [← rest_of_get? h, rest, List.take_append_drop]
  have hle : i ≤ c.rules.length := Nat.le_of_lt (get?_lt h)
  rw [indexOf?_of_append hids hsplit, List.length_take, Nat.min_eq_left hle]

/-! ## Jumps -/

/-- A rule that does not skip goes on at the next position. -/
theorem next_of_no_skip {i : Nat} {r : Rule} (hget : c.get? i = some r)
    (hskip : ∀ target, r.action ≠ .skipTo target) : c.next i = i + 1 := by
  unfold next
  rw [hget]
  cases haction : r.action with
  | skipTo target => exact absurd haction (hskip target)
  | _ => simp only [haction]

/-- No rule that a jump passes over is numbered high enough. -/
theorem number_lt_of_lt_next {i : Nat} {r : Rule} {target : UInt16} (hget : c.get? i = some r)
    (hskip : r.action = .skipTo target) {j : Nat} {x : Rule} (hij : i < j) (hj : j < c.next i)
    (hx : c.get? j = some x) : x.number < target := by
  unfold next at hj
  rw [hget] at hj
  simp only [hskip] at hj
  obtain ⟨k, rfl⟩ := Nat.exists_eq_add_of_lt hij
  have hk : k < (c.rules.drop (i + 1)).findIdx fun r => decide (target ≤ r.number) := by omega
  have hx' : (c.rules.drop (i + 1))[k]? = some x := by
    rw [List.getElem?_drop, ← hx, get?, Nat.add_right_comm]
  obtain ⟨hlt, hk'⟩ := List.getElem?_eq_some_iff.mp hx'
  have hnot := List.not_of_lt_findIdx hk
  rw [hk'] at hnot
  simpa using hnot

namespace InOrder

/-- Behind a rule that is not at the end, the last rule is still ahead of where a walk goes on. -/
theorem last_mem_rest_next (h : c.InOrder last) {i : Nat} (hi : i + 1 < c.length) :
    last ∈ c.rest (c.next i) := by
  obtain ⟨r, hget⟩ : ∃ r, c.get? i = some r :=
    ⟨_, List.getElem?_eq_getElem (show i < c.rules.length by unfold length at hi; omega)⟩
  rw [rest_next hget]
  refine h.last_mem_goesOnWith r ?_
  obtain ⟨front, hfront, -⟩ := h.ends
  have hlength : c.length = front.length + 1 := by
    rw [length, hfront, List.length_append, List.length_singleton]
  rw [rest, hfront, List.drop_append_of_le_length (by omega)]
  exact List.mem_append_right _ List.mem_cons_self

/-- **No jump leads past the end** of the chain. -/
theorem next_lt (h : c.InOrder last) {i : Nat} (hi : i + 1 < c.length) : c.next i < c.length :=
  lt_length_of_mem (h.last_mem_rest_next hi)

/-- **A jump leads to the first later rule that is numbered at or above the target.** -/
theorem next_isLeast (h : c.InOrder last) {i : Nat} {r : Rule} {target : UInt16}
    (hget : c.get? i = some r) (hskip : r.action = .skipTo target) (hi : i + 1 < c.length) :
    IsLeast {j | i < j ∧ ∃ x, c.get? j = some x ∧ target ≤ x.number} (c.next i) := by
  have hlt := lt_next (c := c) (get?_lt hget)
  refine ⟨⟨hlt, ?_⟩, ?_⟩
  · have hrest := rest_next hget
    rw [Rule.goesOnWith, hskip] at hrest
    simp only at hrest
    have hne := List.ne_nil_of_mem (h.last_mem_rest_next hi)
    obtain ⟨x, xs, hx⟩ := List.exists_cons_of_ne_nil hne
    refine ⟨x, get?_of_rest hx, ?_⟩
    have hhead := List.head?_dropWhile_not (fun x : Rule => !decide (target ≤ x.number))
      (c.rest (i + 1))
    rw [← hrest, hx] at hhead
    simpa using hhead
  · rintro j ⟨hij, x, hx, hnumber⟩
    refine Nat.le_of_not_lt fun hj => ?_
    exact UInt16.not_lt.mpr hnumber (number_lt_of_lt_next hget hskip hij hj hx)

end InOrder

/-! ## Remembered jumps -/

/-- The jumps of a chain that have been looked up, by position. -/
structure Memo where
  slots : List (Option Nat)
  deriving DecidableEq, Repr

/-- Nothing has been looked up. -/
def Memo.fresh (c : Chain) : Memo := ⟨List.replicate c.length none⟩

/-- Look up where to go on, and remember it. -/
def ask (c : Chain) (m : Memo) (i : Nat) : Nat × Memo :=
  match m.slots[i]? with
  | none => (c.length, m)
  | some (some j) => (j, m)
  | some none => (c.next i, ⟨m.slots.set i (some (c.next i))⟩)

/-- What is remembered when one chain gives way to another: all of it as long as the generation is
the same. -/
def Memo.follow (m : Memo) (c c' : Chain) : Memo :=
  if c'.generation = c.generation then m else .fresh c'

/-- **Is what is remembered true of the chain?** There is a slot for each position, and what is in
it is where the chain goes on. -/
structure Memo.Valid (c : Chain) (m : Memo) : Prop where
  length : m.slots.length = c.length
  next : ∀ i j, m.slots[i]? = some (some j) → j = c.next i

theorem Memo.valid_fresh (c : Chain) : (Memo.fresh c).Valid c := by
  refine ⟨List.length_replicate, fun i j h => ?_⟩
  unfold Memo.fresh at h
  rw [List.getElem?_replicate] at h
  split at h
  · cases h
  · cases h

/-- **Looking up a jump** gives where the chain goes on, and leaves a memo that is true of it. -/
theorem Memo.Valid.ask {m : Memo} (h : m.Valid c) (i : Nat) :
    (c.ask m i).1 = c.next i ∧ (c.ask m i).2.Valid c := by
  unfold Chain.ask
  split
  · rename_i hnone
    refine ⟨?_, h⟩
    rw [List.getElem?_eq_none_iff, h.length] at hnone
    unfold Chain.next
    rw [show c.get? i = none from List.getElem?_eq_none_iff.mpr hnone]
  · rename_i j hj
    exact ⟨h.next i j hj, h⟩
  · refine ⟨rfl, ?_, fun k j hk => ?_⟩
    · rw [List.length_set, h.length]
    · rw [List.getElem?_set] at hk
      split at hk
      · rename_i hik
        subst hik
        split at hk
        · cases hk
          rfl
        · cases hk
      · exact h.next k j hk

/-! ## Generations -/

/-- **What becomes of a chain in one step**: either it stays, or its membership changes and the
generation goes up by one. -/
def Evolves (c c' : Chain) : Prop :=
  c' = c ∨ c'.generation = c.generation + 1 ∧ ¬ c'.rules.Perm c.rules

theorem Evolves.insert (c : Chain) (r : Rule) : c.Evolves (c.insert r).2 := by
  refine .inr ⟨rfl, fun hperm => ?_⟩
  have hlength := hperm.length_eq
  rw [(c.perm_insert r).length_eq, List.length_cons] at hlength
  omega

theorem Evolves.removeWhere (c : Chain) (p : Rule → Bool) : c.Evolves (c.removeWhere p).2 := by
  obtain ⟨hremoved, hrules⟩ := c.removeWhere_spec p
  by_cases hempty : (c.select p).isEmpty = true
  · refine .inl ?_
    unfold Chain.removeWhere
    simp only [if_pos hempty]
  · refine .inr ⟨?_, fun hperm => hempty ?_⟩
    · unfold Chain.removeWhere
      simp only [if_neg hempty]
    · -- A filter that leaves as many rules as there were selects none.
      rw [hrules] at hperm
      have hall := List.filter_eq_self.mp (List.filter_sublist.eq_of_length hperm.length_eq)
      refine List.isEmpty_iff.mpr (List.filter_eq_nil_iff.mpr fun r hr hselected => ?_)
      have hstays := hall r hr
      rw [hselected] at hstays
      cases hstays

/-- What is remembered stays true when a chain evolves. -/
theorem Memo.Valid.follow {m : Memo} (h : m.Valid c) (hevolves : c.Evolves c') :
    (m.follow c c').Valid c' := by
  unfold Memo.follow
  split
  · rename_i hsame
    rcases hevolves with rfl | ⟨hnext, -⟩
    · exact h
    · omega
  · exact Memo.valid_fresh c'

/-! ## The highest number -/

/-- The rules but the last are numbered at most as high as the one right before the last. -/
theorem InOrder.number_le_lastNumber? (h : c.InOrder last) {r : Rule} (hr : r ∈ c.rules)
    (hdefault : r.isDefault = false) : ∃ n, c.lastNumber? = some n ∧ r.number ≤ n := by
  obtain ⟨front, hfront, hnot⟩ := h.ends
  have hascending := h.ascending
  rw [hfront, List.mem_append, List.mem_singleton] at hr
  rw [hfront, List.pairwise_append] at hascending
  have hr : r ∈ front := by
    rcases hr with hr | rfl
    · exact hr
    · rw [h.isDefault] at hdefault
      cases hdefault
  rcases List.eq_nil_or_concat front with rfl | ⟨before, y, rfl⟩
  · exact absurd hr List.not_mem_nil
  rw [List.concat_eq_append] at hr hfront hnot hascending
  have hy : y.isDefault = false := hnot y (List.mem_append_right _ List.mem_cons_self)
  refine ⟨y.number, ?_, ?_⟩
  · simp [lastNumber?, hfront, h.isDefault, hy]
  · rcases List.mem_append.mp hr with hr | hr
    · exact ((List.pairwise_append.mp hascending.1).2.2 r hr y List.mem_cons_self).number_le
    · exact UInt16.le_of_eq (congrArg Rule.number (List.mem_singleton.mp hr))

/-- **A rule that is numbered as high as any but the last** is put right before the last. -/
theorem InOrder.insert_highest (h : c.InOrder last) {r : Rule} (hdefault : r.isDefault = false)
    (hhighest : ∀ x ∈ c.rules, x.isDefault = false → x.number ≤ r.number) :
    ∃ front, c.rules = front ++ [last] ∧ (c.insert r).2.rules = front ++ [r, last] := by
  obtain ⟨before, behind, hsplit, hinsert, hbefore, hhead⟩ := c.insert_split r
  have hr : r.number ≠ defaultRuleNumber := by simpa [Rule.isDefault] using hdefault
  have hmem : ∀ x ∈ behind, x ∈ c.rules := fun x hx => hsplit ▸ List.mem_append_right _ hx
  have hlast : last ∈ behind := by
    have hlast := h.last_mem
    rw [hsplit, List.mem_append] at hlast
    rcases hlast with hlast | hlast
    · have hlt := Rule.lt_number_of_isDefault h.isDefault hr
      exact absurd (hbefore last hlast) (UInt16.not_le.mpr hlt)
    · exact hlast
  obtain ⟨x, behind, rfl⟩ := List.exists_cons_of_ne_nil (List.ne_nil_of_mem hlast)
  -- The first rule behind is numbered higher than any other but the last, so that it is the last.
  have hx : x = last := by
    refine h.eq_last (hmem x List.mem_cons_self) ?_
    cases hx : x.isDefault with
    | true => rfl
    | false =>
      have hle := hhighest x (hmem x List.mem_cons_self) hx
      exact absurd (hhead x rfl) (UInt16.not_lt.mpr hle)
  subst hx
  have hnone : behind = [] := by
    refine List.eq_nil_iff_forall_not_mem.mpr fun y hy => ?_
    have hnodup := h.ids.of_map
    have hascending := h.ascending
    rw [hsplit, List.nodup_append] at hnodup
    rw [hsplit, List.pairwise_append, List.pairwise_cons] at hascending
    have hle := (hascending.2.1.1 y hy).number_le
    rw [Rule.number_of_isDefault h.isDefault] at hle
    have hy' : y.isDefault = true := by
      simpa [Rule.isDefault] using UInt16.le_antisymm (le_defaultRuleNumber y.number) hle
    rw [h.eq_last (hmem y (List.mem_cons_of_mem _ hy)) hy'] at hy
    exact (List.nodup_cons.mp hnodup.2.1).1 hy
  exact ⟨before, by rw [hsplit, hnone], by rw [hinsert, hnone]⟩

end PacketFilter.Chain
