import Mathlib.Algebra.Ring.Nat
import PacketFilter.Config.Basic
import PacketFilter.Proofs.StateTable.Agreement

/-!
# The accounts of a state table

A connection under a limit is tied to its parent by rule and key only, and the parent holds nothing
but a number. `Accounted` says that the two never get out of step: every connection has its parent,
a parent's number is that of its connections, and there are no two parents for one rule and key.
A removal keeps this because a parent leaves in the second pass and only without children; a
parent that making room has removed is made anew, and then nothing is under its key.

Main statements: `Accounted.remaining`, removals keep the accounts; `Sound.install`, so does
creating state; **`run_accounts`**, after any run of a new table the counter of entries, the
buckets, the parents and their numbers are right, and there are no more entries than there may be.
-/

namespace PacketFilter

/-! ## What the accounts depend on -/

namespace Entry

/-- The entry without its times and counters: the flow, the role and the rule. -/
def bare (e : Entry) : Entry :=
  { e with expires := ⟨0⟩, track := {}, packets := 0, bytes := 0, probed := none }

@[simp] theorem bare_charge (e : Entry) (pkt : Packet) (dir : MatchDirection)
    (lifetimes : Lifetimes) (now : Moment) : (e.charge pkt dir lifetimes now).bare = e.bare := by
  simp only [bare, flow_charge, role_charge, rule_charge]

theorem of_bare_eq {e e' : Entry} (h : e.bare = e'.bare) :
    e.flow = e'.flow ∧ e.role = e'.role ∧ e.rule = e'.rule := by
  simp only [bare, Entry.mk.injEq] at h
  exact ⟨h.1, h.2.1, h.2.2.1⟩

theorem isParentFor_iff {e : Entry} {rule : Rule} {key : Flow} :
    e.isParentFor rule key = true ↔ e.isParent = true ∧ e.rule.id = rule.id ∧ e.flow = key := by
  simp [isParentFor, and_assoc]

theorem isParentFor_release (e : Entry) (removed : List Entry) (rule : Rule) (key : Flow) :
    (e.release removed).isParentFor rule key = e.isParentFor rule key := by
  simp only [isParentFor, isParent_release, rule_release, flow_release]

theorem isChildOf_iff {e : Entry} {rule : Rule} {key : Flow} :
    e.isChildOf rule key = true ↔ e.role = .child key ∧ e.rule.id = rule.id := by
  simp [isChildOf]

theorem isParent_iff {e : Entry} : e.isParent = true ↔ ∃ n, e.role = .parent n := by
  unfold isParent
  split <;> simp_all

theorem children_of_role {e : Entry} {n : Nat} (h : e.role = .parent n) : e.children = n := by
  simp only [children, h]

theorem role_of_isParent {e : Entry} (h : e.isParent = true) : e.role = .parent e.children := by
  obtain ⟨n, hn⟩ := isParent_iff.mp h
  rw [children_of_role hn, hn]

theorem isParent_eq_false_of_isChildOf {e : Entry} {rule : Rule} {key : Flow}
    (h : e.isChildOf rule key = true) : e.isParent = false := by
  simp only [isParent, (isChildOf_iff.mp h).1]

/-- An entry that is no parent is released by nothing. -/
theorem release_of_not_isParent {e : Entry} (h : e.isParent = false) (removed : List Entry) :
    e.release removed = e := by
  unfold release
  split
  · simp_all [isParent]
  · rfl

theorem isChildOf_of_isParent {e : Entry} (h : e.isParent = true) (rule : Rule) (key : Flow) :
    e.isChildOf rule key = false := by
  obtain ⟨n, hn⟩ := isParent_iff.mp h
  simp [isChildOf, hn]

theorem isChildOf_release (e : Entry) (removed : List Entry) (rule : Rule) (key : Flow) :
    (e.release removed).isChildOf rule key = e.isChildOf rule key := by
  cases hp : e.isParent with
  | false => rw [release_of_not_isParent hp]
  | true =>
    have hp' : (e.release removed).isParent = true := by rw [isParent_release, hp]
    rw [isChildOf_of_isParent hp, isChildOf_of_isParent hp']

/-- What is left of a parent's number when entries are removed. -/
theorem role_release {e : Entry} {n : Nat} (h : e.role = .parent n) (removed : List Entry) :
    (e.release removed).role = .parent (n - removed.countP (·.isChildOf e.rule e.flow)) := by
  simp only [release, h]

/-- The entry with one more connection, if it is the parent for the rule and key. -/
def counting (e : Entry) (rule : Rule) (key : Flow) : Entry :=
  if e.isParentFor rule key then { e with role := .parent (e.children + 1) } else e

theorem flow_counting (e : Entry) (rule : Rule) (key : Flow) :
    (e.counting rule key).flow = e.flow := by
  unfold counting
  split <;> rfl

theorem rule_counting (e : Entry) (rule : Rule) (key : Flow) :
    (e.counting rule key).rule = e.rule := by
  unfold counting
  split <;> rfl

theorem isParent_counting (e : Entry) (rule : Rule) (key : Flow) :
    (e.counting rule key).isParent = e.isParent := by
  unfold counting
  split
  · rename_i hfor
    rw [(isParentFor_iff.mp hfor).1]
    rfl
  · rfl

theorem counting_of_not_isParent {e : Entry} (h : e.isParent = false) {rule : Rule} {key : Flow} :
    e.counting rule key = e := by
  refine if_neg fun hfor => ?_
  rw [(isParentFor_iff.mp hfor).1] at h
  cases h

theorem isChildOf_counting (e : Entry) (rule : Rule) (key : Flow) (rule' : Rule) (key' : Flow) :
    (e.counting rule key).isChildOf rule' key' = e.isChildOf rule' key' := by
  cases hp : e.isParent with
  | false => rw [counting_of_not_isParent hp]
  | true =>
    rw [isChildOf_of_isParent hp, isChildOf_of_isParent ((isParent_counting e rule key).trans hp)]

end Entry

/-! ## The accounts -/

/-- **Connections and their parents are in step.** -/
structure Accounted (es : List Entry) : Prop where
  /-- Every connection has its parent. -/
  parented : ∀ e ∈ es, ∀ key, e.role = .child key → ∃ p ∈ es, p.isParentFor e.rule key = true
  /-- The number of a parent is that of its connections. -/
  counted : ∀ p ∈ es, ∀ n, p.role = .parent n → n = es.countP (·.isChildOf p.rule p.flow)
  /-- There are no two parents for one rule and key. -/
  unique : es.Pairwise fun p q =>
    p.isParent = true → q.isParent = true → p.rule.id = q.rule.id → p.flow ≠ q.flow

namespace Accounted

variable {es : List Entry}

theorem nil : Accounted [] where
  parented := by simp
  counted := by simp
  unique := List.Pairwise.nil

/-- The accounts do not depend on the order. -/
theorem perm {es' : List Entry} (h : Accounted es) (hperm : es.Perm es') : Accounted es' := by
  refine ⟨fun e he key hrole => ?_, fun p hp n hrole => ?_, ?_⟩
  · obtain ⟨p, hp, hfor⟩ := h.parented e (hperm.mem_iff.mpr he) key hrole
    exact ⟨p, hperm.mem_iff.mp hp, hfor⟩
  · rw [← hperm.countP_eq]
    exact h.counted p (hperm.mem_iff.mpr hp) n hrole
  · refine (hperm.pairwise_iff fun {p q} hpq => ?_).mp h.unique
    exact fun hq hp hid hflow => hpq hp hq hid.symm hflow.symm

/-- The accounts depend on flows, roles and rules only. -/
theorem of_bare {es' : List Entry} (h : Accounted es)
    (hbare : es'.map Entry.bare = es.map Entry.bare) : Accounted es' := by
  have hsame : ∀ e ∈ es', ∃ e₀ ∈ es, e₀.bare = e.bare := fun e he => by
    have hmem : e.bare ∈ es.map Entry.bare := hbare ▸ List.mem_map_of_mem he
    simpa using hmem
  have hsame' : ∀ e ∈ es, ∃ e' ∈ es', e'.bare = e.bare := fun e he => by
    have hmem : e.bare ∈ es'.map Entry.bare := hbare ▸ List.mem_map_of_mem he
    simpa using hmem
  have hcount : ∀ rule key,
      es'.countP (·.isChildOf rule key) = es.countP (·.isChildOf rule key) := by
    intro rule key
    have hc := congrArg (List.countP (·.isChildOf rule key)) hbare
    rw [List.countP_map, List.countP_map] at hc
    exact hc
  refine ⟨fun e he key hrole => ?_, fun p hp n hrole => ?_, ?_⟩
  · obtain ⟨e₀, he₀, hb⟩ := hsame e he
    obtain ⟨-, hrole₀, hrule₀⟩ := Entry.of_bare_eq hb
    obtain ⟨p, hp, hfor⟩ := h.parented e₀ he₀ key (hrole₀.trans hrole)
    obtain ⟨p', hp', hb'⟩ := hsame' p hp
    have hfor' : p'.bare.isParentFor e₀.rule key = true := by rw [hb']; exact hfor
    exact ⟨p', hp', hrule₀ ▸ hfor'⟩
  · obtain ⟨p₀, hp₀, hb⟩ := hsame p hp
    obtain ⟨hflow, hrole₀, hrule⟩ := Entry.of_bare_eq hb
    rw [hcount, ← hrule, ← hflow]
    exact h.counted p₀ hp₀ n (hrole₀.trans hrole)
  · have hu : (es.map Entry.bare).Pairwise fun p q =>
        p.isParent = true → q.isParent = true → p.rule.id = q.rule.id → p.flow ≠ q.flow :=
      List.pairwise_map.mpr h.unique
    rw [← hbare] at hu
    exact List.pairwise_map.mp hu

/-- A connection counts for its parent. -/
theorem pos_of_child (h : Accounted es) {e p : Entry} (he : e ∈ es) (hp : p ∈ es) {key : Flow}
    (hrole : e.role = .child key) (hfor : p.isParentFor e.rule key = true) : p.children ≠ 0 := by
  obtain ⟨hparent, hid, hflow⟩ := Entry.isParentFor_iff.mp hfor
  have hcount := h.counted p hp _ (Entry.role_of_isParent hparent)
  have hchild : e.isChildOf p.rule p.flow = true :=
    Entry.isChildOf_iff.mpr ⟨hflow ▸ hrole, hid.symm⟩
  have hpos : 0 < es.countP (·.isChildOf p.rule p.flow) := List.countP_pos_iff.mpr ⟨e, he, hchild⟩
  omega

/-! ## Removals -/

variable (selected : Entry → Bool) (force : Bool) (now : Moment)

/-- What is removed from under a parent is not more than is there. -/
theorem removed_le (h : Accounted es) {p : Entry} (hp : p ∈ es) (hparent : p.isParent = true) :
    (es.filter (·.leaves selected force now)).countP (·.isChildOf p.rule p.flow) ≤ p.children := by
  rw [h.counted p hp _ (Entry.role_of_isParent hparent)]
  exact List.filter_sublist.countP_le

/-- The first pass: each parent gives up as many connections as are removed from under it. -/
theorem afterFirstPass (h : Accounted es) : Accounted (afterFirstPass es selected force now) := by
  unfold PacketFilter.afterFirstPass
  have hmem : ∀ e ∈ (es.filter fun e => !e.leaves selected force now).map
      (·.release (es.filter (·.leaves selected force now))),
      ∃ e₀ ∈ es, e₀.release (es.filter (·.leaves selected force now)) = e := fun e he => by
    obtain ⟨e₀, he₀, heq⟩ := List.mem_map.mp he
    exact ⟨e₀, (List.mem_filter.mp he₀).1, heq⟩
  refine ⟨fun e he key hrole => ?_, fun p hp n hrole => ?_, ?_⟩
  · obtain ⟨e₀, he₀, rfl⟩ := hmem e he
    have hnot : e₀.isParent = false := by
      rw [← Entry.isParent_release e₀ (es.filter (·.leaves selected force now))]
      simp only [Entry.isParent, hrole]
    rw [Entry.release_of_not_isParent hnot] at hrole
    obtain ⟨p, hp, hfor⟩ := h.parented e₀ he₀ key hrole
    obtain ⟨hparent, hid, hflow⟩ := Entry.isParentFor_iff.mp hfor
    have hstays : p ∈ es.filter fun e => !e.leaves selected force now :=
      List.mem_filter.mpr ⟨hp, by simp [Entry.leaves, hparent]⟩
    refine ⟨_, List.mem_map_of_mem hstays, Entry.isParentFor_iff.mpr ⟨?_, ?_, ?_⟩⟩
    · rw [Entry.isParent_release, hparent]
    · rw [Entry.rule_release, Entry.rule_release, hid]
    · rw [Entry.flow_release, hflow]
  · obtain ⟨p₀, hp₀, rfl⟩ := hmem p hp
    have hparent : p₀.isParent = true := by
      rw [← Entry.isParent_release p₀ (es.filter (·.leaves selected force now))]
      exact Entry.isParent_iff.mpr ⟨n, hrole⟩
    have hcount := h.counted p₀ hp₀ _ (Entry.role_of_isParent hparent)
    have hsplit := List.countP_eq_countP_filter_add es (·.isChildOf p₀.rule p₀.flow)
      (·.leaves selected force now)
    rw [Entry.role_release (Entry.role_of_isParent hparent)] at hrole
    rw [Entry.rule_release, Entry.flow_release, List.countP_map]
    simp only [Function.comp_def, Entry.isChildOf_release]
    simp only [EntryRole.parent.injEq] at hrole
    omega
  · refine List.pairwise_map.mpr ((h.unique.sublist List.filter_sublist).imp ?_)
    intro p q hpq
    simpa only [Entry.isParent_release, Entry.rule_release, Entry.flow_release] using hpq

/-- The second pass: a parent that leaves has no connections. -/
theorem remaining (h : Accounted es) : Accounted (remaining es selected force now) := by
  have h := h.afterFirstPass selected force now
  unfold PacketFilter.remaining
  generalize PacketFilter.afterFirstPass es selected force now = es at h
  refine ⟨fun e he key hrole => ?_, fun p hp n hrole => ?_, h.unique.sublist List.filter_sublist⟩
  · have he := (List.mem_filter.mp he).1
    obtain ⟨p, hp, hfor⟩ := h.parented e he key hrole
    have hpos := h.pos_of_child he hp hrole hfor
    exact ⟨p, List.mem_filter.mpr ⟨hp, by simp [Entry.leavesChildless, hpos]⟩, hfor⟩
  · rw [h.counted p (List.mem_filter.mp hp).1 n hrole, List.countP_filter]
    refine List.countP_congr fun e _ => ?_
    constructor
    · intro hchild
      simp [hchild, Entry.leavesChildless, Entry.isParent_eq_false_of_isChildOf hchild]
    · intro hboth
      simp only [Bool.and_eq_true] at hboth
      exact hboth.1

/-- A parent of which a connection is left is left itself. -/
theorem parent_stays (h : Accounted es) {p e : Entry} (hp : p ∈ es) (hparent : p.isParent = true)
    (he : e ∈ PacketFilter.remaining es selected force now)
    (hchild : e.isChildOf p.rule p.flow = true) :
    p.release (es.filter (·.leaves selected force now)) ∈
      PacketFilter.remaining es selected force now := by
  have hnot : p.leaves selected force now = false := by simp [Entry.leaves, hparent]
  have hfirst : p.release (es.filter (·.leaves selected force now)) ∈
      PacketFilter.afterFirstPass es selected force now :=
    List.mem_map_of_mem (List.mem_filter.mpr ⟨hp, by simp [hnot]⟩)
  obtain ⟨hrole, hid⟩ := Entry.isChildOf_iff.mp hchild
  have hpos := (h.afterFirstPass selected force now).pos_of_child (List.mem_filter.mp he).1 hfirst
    hrole (Entry.isParentFor_iff.mpr
      ⟨by rw [Entry.isParent_release, hparent], by rw [Entry.rule_release, hid],
        Entry.flow_release _ _⟩)
  exact List.mem_filter.mpr ⟨hfirst, by simp [Entry.leavesChildless, hpos]⟩

/-! ## New entries -/

theorem cons_keepState (h : Accounted es) {e : Entry} (hrole : e.role = .keepState) :
    Accounted (e :: es) := by
  have hnot : e.isParent = false := by simp only [Entry.isParent, hrole]
  refine ⟨fun x hx key hchild => ?_, fun p hp n hparent => ?_, ?_⟩
  · rcases List.mem_cons.mp hx with rfl | hx
    · rw [hrole] at hchild
      cases hchild
    · obtain ⟨p, hp, hfor⟩ := h.parented x hx key hchild
      exact ⟨p, List.mem_cons_of_mem _ hp, hfor⟩
  · rcases List.mem_cons.mp hp with rfl | hp
    · rw [hrole] at hparent
      cases hparent
    · rw [List.countP_cons_of_neg (by simp [Entry.isChildOf, hrole])]
      exact h.counted p hp n hparent
  · exact List.pairwise_cons.mpr ⟨fun q _ hp => by simp [hnot] at hp, h.unique⟩

/-- A new parent has no connections, because each of them would have a parent already. -/
theorem cons_parent (h : Accounted es) {p : Entry} (hrole : p.role = .parent 0)
    (hnew : ∀ q ∈ es, ¬ q.isParentFor p.rule p.flow = true) : Accounted (p :: es) := by
  have hnone : ∀ e ∈ es, ¬ e.isChildOf p.rule p.flow = true := fun e he hchild => by
    obtain ⟨hkey, hid⟩ := Entry.isChildOf_iff.mp hchild
    obtain ⟨q, hq, hfor⟩ := h.parented e he _ hkey
    obtain ⟨hparent, hid', hflow⟩ := Entry.isParentFor_iff.mp hfor
    exact hnew q hq (Entry.isParentFor_iff.mpr ⟨hparent, hid'.trans hid, hflow⟩)
  refine ⟨fun x hx key hchild => ?_, fun q hq n hparent => ?_, ?_⟩
  · rcases List.mem_cons.mp hx with rfl | hx
    · rw [hrole] at hchild
      cases hchild
    · obtain ⟨q, hq, hfor⟩ := h.parented x hx key hchild
      exact ⟨q, List.mem_cons_of_mem _ hq, hfor⟩
  · rw [List.countP_cons_of_neg (by simp [Entry.isChildOf, hrole])]
    rcases List.mem_cons.mp hq with rfl | hq
    · rw [hrole] at hparent
      cases hparent
      exact (List.countP_eq_zero.mpr hnone).symm
    · exact h.counted q hq n hparent
  · refine List.pairwise_cons.mpr ⟨fun q hq _ hparent hid hflow => ?_, h.unique⟩
    exact hnew q hq (Entry.isParentFor_iff.mpr ⟨hparent, hid.symm, hflow.symm⟩)

/-- Counting a connection for its parent takes no parent away. -/
theorem exists_parent_map_counting (rule : Rule) (key : Flow) {rule' : Rule} {key' : Flow}
    (hparent : ∃ p ∈ es, p.isParentFor rule' key' = true) :
    ∃ q ∈ es.map (·.counting rule key), q.isParentFor rule' key' = true := by
  obtain ⟨p, hp, hfor⟩ := hparent
  refine ⟨p.counting rule key, List.mem_map_of_mem hp, ?_⟩
  rw [Entry.isParentFor_iff, Entry.isParent_counting, Entry.rule_counting, Entry.flow_counting]
  exact Entry.isParentFor_iff.mp hfor

/-- A connection is put under its parent, which counts it. -/
theorem cons_child (h : Accounted es) {e : Entry} {key : Flow} (hrole : e.role = .child key)
    (hparent : ∃ p ∈ es, p.isParentFor e.rule key = true) :
    Accounted (e :: es.map (·.counting e.rule key)) := by
  have hnot : e.isParent = false := by simp only [Entry.isParent, hrole]
  refine ⟨fun x hx key' hkey => ?_, fun q hq n hcount => ?_, ?_⟩
  · suffices hfound : ∃ p ∈ es, p.isParentFor x.rule key' = true by
      obtain ⟨p, hp, hfor⟩ := exists_parent_map_counting e.rule key hfound
      exact ⟨p, List.mem_cons_of_mem _ hp, hfor⟩
    rcases List.mem_cons.mp hx with rfl | hx
    · rw [hrole] at hkey
      cases hkey
      exact hparent
    · obtain ⟨y, hy, rfl⟩ := List.mem_map.mp hx
      have hy' : y.isParent = false := by
        rw [← Entry.isParent_counting y e.rule key]
        simp only [Entry.isParent, hkey]
      rw [Entry.counting_of_not_isParent hy'] at hkey ⊢
      exact h.parented y hy key' hkey
  · rcases List.mem_cons.mp hq with rfl | hq
    · rw [hrole] at hcount
      cases hcount
    obtain ⟨p, hp, rfl⟩ := List.mem_map.mp hq
    have hp' : p.isParent = true := by
      rw [← Entry.isParent_counting p e.rule key]
      exact Entry.isParent_iff.mpr ⟨n, hcount⟩
    have hbefore := h.counted p hp _ (Entry.role_of_isParent hp')
    have hrest : (es.map (·.counting e.rule key)).countP (·.isChildOf p.rule p.flow) =
        es.countP (·.isChildOf p.rule p.flow) := by
      rw [List.countP_map]
      exact List.countP_congr fun x _ => by rw [Function.comp_apply, Entry.isChildOf_counting]
    rw [Entry.rule_counting, Entry.flow_counting, List.countP_cons, hrest, ← hbefore]
    by_cases hfor : p.isParentFor e.rule key = true
    · obtain ⟨-, hid, hkey⟩ := Entry.isParentFor_iff.mp hfor
      have hmine : e.isChildOf p.rule p.flow = true :=
        Entry.isChildOf_iff.mpr ⟨hkey ▸ hrole, hid.symm⟩
      simp only [Entry.counting, if_pos hfor, EntryRole.parent.injEq] at hcount
      rw [if_pos hmine, ← hcount]
    · have hother : ¬ e.isChildOf p.rule p.flow = true := fun hmine => by
        obtain ⟨hkey, hid⟩ := Entry.isChildOf_iff.mp hmine
        rw [hrole] at hkey
        cases hkey
        exact hfor (Entry.isParentFor_iff.mpr ⟨hp', hid.symm, rfl⟩)
      simp only [Entry.counting, if_neg hfor] at hcount
      rw [if_neg hother, Entry.children_of_role hcount, Nat.add_zero]
  · refine List.pairwise_cons.mpr ⟨fun q _ hp => by simp [hnot] at hp, List.pairwise_map.mpr ?_⟩
    simp only [Entry.isParent_counting, Entry.rule_counting, Entry.flow_counting]
    exact h.unique

end Accounted

/-! ## Operations -/

/-- **A table in order**: the accounts are right and there are no more entries than there may
be. -/
structure FlatTable.Sound (config : StateConfig) (l : FlatTable) : Prop where
  settings : l.config = config
  accounted : Accounted l.entries
  bounded : l.entries.length ≤ config.capacity

namespace FlatTable

variable {config : StateConfig} {l : FlatTable} (rule : Rule) (key : Flow) (now : Moment)

/-- Changes of times and counters only. -/
theorem Sound.of_bare (h : l.Sound config) {entries : List Entry}
    (hbare : entries.map Entry.bare = l.entries.map Entry.bare) :
    Sound config { l with entries } := by
  have hlength : entries.length = l.entries.length := by simpa using congrArg List.length hbare
  exact ⟨h.settings, h.accounted.of_bare hbare, hlength ▸ h.bounded⟩

theorem Sound.lookup (h : l.Sound config) (pkt : Packet) : (l.lookup pkt now).2.Sound config := by
  unfold FlatTable.lookup
  split
  · rename_i hit entries hc
    obtain ⟨pre, e, post, hes, -, -, he, rfl⟩ := chargeFirst_eq_some hc
    refine h.of_bare ?_
    rw [hes, he]
    simp only [List.map_append, List.map_cons, Entry.bare_charge]
  · exact h

theorem Sound.probeDue (h : l.Sound config) : (l.probeDue now).2.2.Sound config := by
  refine h.of_bare ?_
  rw [List.map_map]
  refine List.map_congr_left fun e _ => ?_
  simp only [Function.comp_apply]
  split <;> rfl

/-- What a removal leaves was there before, but for the numbers of parents. -/
theorem exists_of_mem_remaining {es : List Entry} {selected : Entry → Bool} {force : Bool}
    {now : Moment} {e : Entry} (he : e ∈ remaining es selected force now) :
    ∃ e₀ ∈ es, ∃ removed, e₀.release removed = e := by
  obtain ⟨e₀, he₀, heq⟩ := List.mem_map.mp (List.mem_filter.mp he).1
  exact ⟨e₀, (List.mem_filter.mp he₀).1, _, heq⟩

theorem length_remaining_le (es : List Entry) (selected : Entry → Bool) (force : Bool) :
    (remaining es selected force now).length ≤ es.length := by
  have := StateTable.Refines.length_remaining es selected force now
  omega

theorem Sound.removeWhere (h : l.Sound config) (selected : Entry → Bool) (force : Bool) :
    (l.removeWhere selected force now).2.Sound config :=
  ⟨h.settings, h.accounted.remaining selected force now,
    Nat.le_trans (length_remaining_le now l.entries selected force) h.bounded⟩

theorem Sound.reserve (h : l.Sound config) (need : Nat) : (l.reserve need now).2.Sound config := by
  unfold FlatTable.reserve
  split
  · exact h
  · exact h.removeWhere now _ false

/-- If room is made, there is room. -/
theorem hasRoom_reserve {need : Nat} {l' : FlatTable} (hl : l.reserve need now = (true, l')) :
    l'.entries.length + need ≤ l'.config.capacity := by
  unfold FlatTable.reserve at hl
  split at hl
  · rename_i hroom
    cases hl
    exact of_decide_eq_true hroom
  · simp only [Prod.mk.injEq] at hl
    obtain ⟨hroom, rfl⟩ := hl
    exact of_decide_eq_true hroom

theorem Sound.touchParent (h : l.Sound config) : (l.touchParent rule key now).Sound config := by
  refine h.of_bare ?_
  rw [List.map_map]
  refine List.map_congr_left fun e _ => ?_
  simp only [Function.comp_apply]
  split <;> rfl

variable {rule key}

theorem isSome_parent?_iff :
    (l.parent? rule key).isSome = true ↔ ∃ p ∈ l.entries, p.isParentFor rule key = true :=
  List.find?_isSome

/-- A parent stays the parent when it is touched. -/
theorem isSome_parent?_touchParent (h : (l.parent? rule key).isSome = true) :
    ((l.touchParent rule key now).parent? rule key).isSome = true := by
  obtain ⟨p, hp, hfor⟩ := isSome_parent?_iff.mp h
  refine isSome_parent?_iff.mpr ⟨_, List.mem_map_of_mem hp, ?_⟩
  rw [if_pos hfor]
  exact hfor

@[simp] theorem length_touchParent :
    (l.touchParent rule key now).entries.length = l.entries.length := List.length_map _

/-- Removing entries brings no parent back. -/
theorem isSome_parent?_of_removeWhere {selected : Entry → Bool} {force : Bool}
    (h : ((l.removeWhere selected force now).2.parent? rule key).isSome = true) :
    (l.parent? rule key).isSome = true := by
  obtain ⟨p, hp, hfor⟩ := isSome_parent?_iff.mp h
  obtain ⟨p₀, hp₀, removed, rfl⟩ := exists_of_mem_remaining hp
  rw [Entry.isParentFor_release] at hfor
  exact isSome_parent?_iff.mpr ⟨p₀, hp₀, hfor⟩

theorem isSome_parent?_of_reserve {need : Nat}
    (h : ((l.reserve need now).2.parent? rule key).isSome = true) :
    (l.parent? rule key).isSome = true := by
  unfold FlatTable.reserve at h
  split at h
  · exact h
  · exact isSome_parent?_of_removeWhere now h

/-- A new parent is put into a table that has none for the key. -/
theorem Sound.insert_freshParent (h : l.Sound config)
    (hnone : ¬ (l.parent? rule key).isSome = true)
    (hroom : l.entries.length + 1 ≤ config.capacity) :
    (l.insert (l.freshParent rule key now)).Sound config := by
  refine ⟨h.settings, h.accounted.cons_parent rfl fun q hq hfor => ?_, hroom⟩
  exact hnone (isSome_parent?_iff.mpr ⟨q, hq, hfor⟩)

theorem isSome_parent?_insert_freshParent :
    ((l.insert (l.freshParent rule key now)).parent? rule key).isSome = true :=
  isSome_parent?_iff.mpr ⟨_, List.mem_cons_self, by
    simp [freshParent, Entry.isParentFor, Entry.isParent]⟩

/-- After room was made for a connection, its parent is there, and room for one more entry. -/
theorem Sound.openParent (h : l.Sound config) (rule : Rule) (key : Flow) :
    (l.openParent rule key now).2.Sound config ∧
      ((l.openParent rule key now).1 = true →
        ((l.openParent rule key now).2.parent? rule key).isSome = true ∧
          (l.openParent rule key now).2.entries.length + 1 ≤ config.capacity) := by
  unfold FlatTable.openParent
  have hneed : 1 ≤ if (l.parent? rule key).isSome then 1 else 2 := by split <;> omega
  generalize (if (l.parent? rule key).isSome then 1 else 2) = need at hneed
  have h₁ := h.reserve now need
  rcases hx : l.reserve need now with ⟨ok, l₁⟩
  rw [hx] at h₁
  simp only at h₁
  cases ok with
  | false => exact ⟨h₁, fun hno => by cases hno⟩
  | true =>
    have hroom := hasRoom_reserve now hx
    rw [h₁.settings] at hroom
    simp only
    by_cases hfound : (l₁.parent? rule key).isSome = true
    · rw [if_pos hfound]
      refine ⟨h₁.touchParent rule key now, fun _ => ⟨isSome_parent?_touchParent now hfound, ?_⟩⟩
      rw [length_touchParent]
      omega
    · rw [if_neg hfound]
      have h₂ := h₁.reserve now 2
      rcases hx₂ : l₁.reserve 2 now with ⟨ok, l₂⟩
      rw [hx₂] at h₂
      simp only at h₂
      cases ok with
      | false => exact ⟨h₂, fun hno => by cases hno⟩
      | true =>
        have hroom₂ := hasRoom_reserve now hx₂
        rw [h₂.settings] at hroom₂
        have hnone : ¬ (l₂.parent? rule key).isSome = true := fun hback => by
          have hback : ((l₁.reserve 2 now).2.parent? rule key).isSome = true := by
            rw [hx₂]
            exact hback
          exact hfound (isSome_parent?_of_reserve now hback)
        have h₃ := h₂.insert_freshParent now hnone (by omega)
        refine ⟨h₃.touchParent rule key now, fun _ =>
          ⟨isSome_parent?_touchParent now (isSome_parent?_insert_freshParent now), ?_⟩⟩
        rw [length_touchParent]
        exact hroom₂

/-- Removing connections leaves their parent. -/
theorem Sound.makeWay (h : l.Sound config) (limit : Nat)
    (hparent : (l.parent? rule key).isSome = true)
    (hroom : l.entries.length + 1 ≤ config.capacity) :
    (l.makeWay rule key limit now).Sound config ∧
      ((l.makeWay rule key limit now).parent? rule key).isSome = true ∧
      (l.makeWay rule key limit now).entries.length + 1 ≤ config.capacity := by
  unfold FlatTable.makeWay
  split
  · refine ⟨h.removeWhere now _ false, ?_, ?_⟩
    · obtain ⟨p, hp, hfor⟩ := isSome_parent?_iff.mp hparent
      have hp' : p.isParent = true := (Entry.isParentFor_iff.mp hfor).1
      refine isSome_parent?_iff.mpr ⟨p.release _, List.mem_filter.mpr ⟨List.mem_map_of_mem
        (List.mem_filter.mpr ⟨hp, by simp [Entry.leaves, hp']⟩), ?_⟩, ?_⟩
      · simp [Entry.leavesChildless, Entry.isChildOf_release, Entry.isChildOf_of_isParent hp']
      · rw [Entry.isParentFor_release, hfor]
    · have := length_remaining_le now l.entries (·.isChildOf rule key) false
      simp only [FlatTable.removeWhere]
      omega
  · exact ⟨h, hparent, hroom⟩

/-- A packet that keeps its own entry alive changes neither its flow nor its role nor its rule. -/
theorem freshEntry_eq (pkt : Packet) (role : EntryRole) :
    ∃ expires track, l.freshEntry pkt role rule now =
      { flow := pkt.flow, role, rule, expires, track } := by
  obtain ⟨expires, track, h⟩ := Entry.refresh_eq
    { flow := pkt.flow, role, rule, expires := now.plus l.config.lifetimes.syn } pkt .forward
    l.config.lifetimes now
  exact ⟨expires, track, h⟩

theorem flow_freshEntry (pkt : Packet) (role : EntryRole) :
    (l.freshEntry pkt role rule now).flow = pkt.flow := by
  obtain ⟨expires, track, h⟩ := l.freshEntry_eq now pkt role
  rw [h]

theorem role_freshEntry (pkt : Packet) (role : EntryRole) :
    (l.freshEntry pkt role rule now).role = role := by
  obtain ⟨expires, track, h⟩ := l.freshEntry_eq now pkt role
  rw [h]

theorem rule_freshEntry (pkt : Packet) (role : EntryRole) :
    (l.freshEntry pkt role rule now).rule = rule := by
  obtain ⟨expires, track, h⟩ := l.freshEntry_eq now pkt role
  rw [h]

/-- **Creating state keeps a table in order.** -/
theorem Sound.install (h : l.Sound config) (enabled : Bool) (rule : Rule) (request : StateRequest)
    (pkt : Packet) : (l.install enabled rule request pkt now).2.Sound config := by
  unfold FlatTable.install
  by_cases henabled : (!enabled) = true
  · rw [if_pos henabled]
    exact h
  rw [if_neg henabled]
  by_cases hlive : l.holdsLive pkt.flow now = true
  · rw [if_pos hlive]
    exact h
  rw [if_neg hlive]
  cases request with
  | keepState =>
    have h₁ := h.reserve now 1
    simp only
    rcases hx : l.reserve 1 now with ⟨ok, l₁⟩
    rw [hx] at h₁
    cases ok with
    | false => exact h₁
    | true =>
      have hroom := hasRoom_reserve now hx
      rw [h₁.settings] at hroom
      exact ⟨h₁.settings, h₁.accounted.cons_keepState (role_freshEntry now pkt .keepState), hroom⟩
  | limit parts connections =>
    have h₁ := h.openParent now rule (pkt.flow.limitKey parts)
    simp only
    rcases hx : l.openParent rule (pkt.flow.limitKey parts) now with ⟨ok, l₁⟩
    rw [hx] at h₁
    cases ok with
    | false => exact h₁.1
    | true =>
      obtain ⟨hparent, hroom⟩ := h₁.2 rfl
      obtain ⟨h₂, hparent₂, hroom₂⟩ := h₁.1.makeWay now connections.toNat hparent hroom
      simp only
      split
      · exact h₂
      · refine ⟨h₂.settings, h₂.accounted.cons_child (role_freshEntry now pkt _) ?_, ?_⟩
        · rw [rule_freshEntry]
          exact isSome_parent?_iff.mp hparent₂
        · simpa [insertChild, FlatTable.insert, FlatTable.modifyParent] using hroom₂

/-- Every operation keeps a table in order. -/
theorem Sound.apply (h : l.Sound config) (op : TableOp) : (l.apply op).2.Sound config := by
  cases op with
  | install enabled rule request pkt now => exact h.install now enabled rule request pkt
  | lookup pkt now => exact h.lookup now pkt
  | sweep now => exact h.removeWhere now _ false
  | flush selected now => exact h.removeWhere now selected true
  | flushRule rule now => exact h.removeWhere now _ true
  | flushAll now => exact h.removeWhere now _ true
  | probe now => exact h.probeDue now
  | setBuckets n => exact h
  | size => exact h
  | report now => exact h

theorem Sound.empty (config : StateConfig) : Sound config { config } :=
  ⟨rfl, Accounted.nil, Nat.zero_le _⟩

end FlatTable

/-! ## Tables in buckets -/

namespace StateTable

/-- A table in order is one that refines a list in order. -/
def Sound (config : StateConfig) (t : StateTable) : Prop :=
  ∃ l : FlatTable, t.Refines l ∧ l.Sound config

variable {config : StateConfig} {t : StateTable}

theorem Sound.apply (h : t.Sound config) (op : TableOp) : (t.apply op).2.Sound config := by
  obtain ⟨l, hrefines, hsound⟩ := h
  exact ⟨_, (hrefines.apply_refines op).2, hsound.apply op⟩

theorem Sound.run (h : t.Sound config) (ops : List TableOp) : (t.run ops).2.Sound config := by
  induction ops generalizing t with
  | nil => exact h
  | cons op ops ih => exact ih (h.apply op)

theorem Sound.new (config : StateConfig) (salt : UInt32)
    (hbuckets : validBuckets config.buckets = true) : (StateTable.new config salt).Sound config :=
  ⟨_, new_refines config salt hbuckets, FlatTable.Sound.empty config⟩

/-- A table in order has the settings that it was made with. -/
theorem Sound.settings (h : t.Sound config) :
    { t.config with buckets := config.buckets } = config := by
  obtain ⟨l, hrefines, hsound⟩ := h
  rw [← hsound.settings]
  exact hrefines.config

theorem Sound.accounted (h : t.Sound config) : Accounted t.entries := by
  obtain ⟨l, hrefines, hsound⟩ := h
  exact hsound.accounted.perm hrefines.entries_perm.symm

/-- What is right about a state table at any time. -/
structure WellKept (config : Config) (t : StateTable) : Prop where
  /-- The counter is the number of entries, which is not more than there may be. -/
  count : t.count = t.entries.length
  bounded : t.count ≤ config.maxStates.toNat
  /-- The counter does not wrap when it is asked for room for a connection and its parent. -/
  unwrapped : t.count + 2 < 2 ^ 32
  /-- The number of buckets is a power of two and not too large. -/
  buckets : (∃ k, t.buckets.size = 2 ^ k) ∧ t.buckets.size ≤ maxBuckets
  /-- Every entry lies in the bucket that its flow is hashed to. -/
  placed : ∀ i (hi : i < t.buckets.size), ∀ e ∈ t.buckets[i], t.bucketIndex e.flow = i
  /-- Those entries that count under a limit, and no others, are under a parent in the table,
  created by the same rule. -/
  parented : ∀ e ∈ t.entries, e.kind = .limit ↔
    ∃ p ∈ t.entries, p.kind = .limitParent ∧ e.isChildOf p.rule p.flow = true
  /-- A parent's number is that of the entries under it. -/
  counted : ∀ p ∈ t.entries, p.kind = .limitParent →
    p.children = t.entries.countP (·.isChildOf p.rule p.flow)
  /-- No removal takes more from a parent's number than that. -/
  released : ∀ p ∈ t.entries, p.kind = .limitParent → ∀ selected force now,
    (t.entries.filter (·.leaves selected force now)).countP (·.isChildOf p.rule p.flow) ≤ p.children
  /-- A parent stays as long as one of the entries under it. -/
  stays : ∀ p ∈ t.entries, p.kind = .limitParent → ∀ selected force now,
    (∃ e ∈ (t.removeWhere selected force now).2.entries, e.isChildOf p.rule p.flow = true) →
      p.release (t.entries.filter (·.leaves selected force now)) ∈
        (t.removeWhere selected force now).2.entries
  /-- There are no two parents for one rule and key. -/
  unique : t.entries.Pairwise fun p q =>
    p.kind = .limitParent → q.kind = .limitParent → ¬ (p.rule.id = q.rule.id ∧ p.flow = q.flow)

theorem validBuckets_iff {n : Nat} :
    validBuckets n = true ↔ (∃ k, n = 2 ^ k) ∧ n ≤ maxBuckets := by
  simp only [validBuckets, isPowerOfTwo, Nat.one_shiftLeft, Bool.and_eq_true, bne_iff_ne, ne_eq,
    beq_iff_eq, decide_eq_true_eq]
  refine and_congr_left fun _ => ⟨fun h => ⟨n.log2, h.2.symm⟩, ?_⟩
  rintro ⟨k, rfl⟩
  exact ⟨Nat.ne_of_gt (Nat.two_pow_pos k), by rw [Nat.log2_two_pow]⟩

end StateTable

theorem Entry.kind_eq_limitParent_iff {e : Entry} : e.kind = .limitParent ↔ e.isParent = true := by
  unfold Entry.kind Entry.isParent
  cases e.role <;> simp

theorem Entry.kind_eq_limit_iff {e : Entry} : e.kind = .limit ↔ ∃ key, e.role = .child key := by
  unfold Entry.kind
  cases e.role <;> simp

namespace StateTable

variable {config : Config} {t : StateTable}

/-- A table in order is well kept. -/
theorem Sound.wellKept (h : t.Sound config.stateConfig)
    (hmax : config.maxStates.toNat ≤ 2 ^ 32 - 3) : t.WellKept config := by
  have haccounted := h.accounted
  obtain ⟨l, hrefines, hsound⟩ := h
  have hcount : t.count = t.entries.length :=
    hrefines.count.trans hrefines.entries_perm.length_eq.symm
  have hbounded : t.count ≤ config.maxStates.toNat := hrefines.count ▸ hsound.bounded
  refine ⟨hcount, hbounded, by omega, validBuckets_iff.mp hrefines.valid, fun i hi e he => ?_,
    fun e he => ⟨fun hkind => ?_, ?_⟩, fun p hp hkind => ?_,
    fun p hp hkind selected force now => ?_, fun p hp hkind selected force now => ?_,
    haccounted.unique.imp fun {p q} hpq hp hq hsame => ?_⟩
  · rw [hrefines.bucket i hi] at he
    simpa [inBucket] using (List.mem_filter.mp he).2
  · obtain ⟨key, hrole⟩ := Entry.kind_eq_limit_iff.mp hkind
    obtain ⟨p, hp, hfor⟩ := haccounted.parented e he key hrole
    obtain ⟨hparent, hid, hflow⟩ := Entry.isParentFor_iff.mp hfor
    exact ⟨p, hp, Entry.kind_eq_limitParent_iff.mpr hparent,
      Entry.isChildOf_iff.mpr ⟨hflow ▸ hrole, hid.symm⟩⟩
  · rintro ⟨p, -, -, hchild⟩
    exact Entry.kind_eq_limit_iff.mpr ⟨_, (Entry.isChildOf_iff.mp hchild).1⟩
  · have hparent := Entry.kind_eq_limitParent_iff.mp hkind
    exact haccounted.counted p hp _ (Entry.role_of_isParent hparent)
  · exact haccounted.removed_le selected force now hp (Entry.kind_eq_limitParent_iff.mp hkind)
  · rintro ⟨e, he, hchild⟩
    have hperm := (hrefines.removeWhere selected force now).2.entries_perm
    rw [Entry.release_congr p (hrefines.entries_perm.filter _)]
    exact hperm.mem_iff.mpr (hsound.accounted.parent_stays selected force now
      (hrefines.entries_perm.mem_iff.mp hp) (Entry.kind_eq_limitParent_iff.mp hkind)
      (hperm.mem_iff.mp he) hchild)
  · exact hpq (Entry.kind_eq_limitParent_iff.mp hp) (Entry.kind_eq_limitParent_iff.mp hq)
      hsame.1 hsame.2

/-- **The accounts are right after every run** of a table that was set up with settings that pass
their check. -/
theorem run_accounts (config : Config) (hconfig : config.check = .ok ())
    (hmax : config.maxStates.toNat ≤ 2 ^ 32 - 3) (salt : UInt32) (ops : List TableOp) :
    ((new config.stateConfig salt).run ops).2.WellKept config := by
  have hbuckets : validBuckets config.stateConfig.buckets = true :=
    config.validBuckets_of_check hconfig
  exact ((Sound.new config.stateConfig salt hbuckets).run ops).wellKept hmax

/-- Two connections under one key of a limit of two, and a third that finds no room. -/
theorem run_accounts_full_limit :
    ({} : Config).check = .ok () ∧ ({} : Config).maxStates.toNat ≤ 2 ^ 32 - 3 ∧
      ((new ({} : Config).stateConfig 5).run
        ([1, 2, 3].map fun port => .install true (Rule.terminal 0 true)
          (.limit LimitParts.sourceAddress 2)
          { flow := ⟨1, 2, port, 4, Protocol.udp, 0⟩, direction := .inbound, length := 40 }
          ⟨0⟩)).2.WellKept {} :=
  ⟨by decide, by decide, run_accounts {} (by decide) (by decide) 5 _⟩

end StateTable

end PacketFilter
