import Mathlib.Logic.Relation
import PacketFilter.Proofs.StateTable.Accounting

/-!
# Properties of single entries

What a run of a state table does to one entry is little: packets and timers change its times and
counters, removals lower a parent's number, and creating state adds an entry or raises a parent's
number, which is below the limit then. A property of entries that survives each of these holds of
all entries at any time.

`Steps` are operations one after another, of which those that create state do so for requests
that a predicate grants.

Main statements: `Sound.forall_apply`, an operation keeps such a property, and `Steps.forall`, so do
steps; `exists_of_lookup`, the entry that a packet matches was in the table.
-/

namespace PacketFilter

namespace Entry

/-- A property of entries that does not depend on times and counters, and that a parent does not
lose by having fewer connections. -/
structure Kept (P : Entry → Prop) : Prop where
  bare : ∀ {e e' : Entry}, e'.bare = e.bare → P e → P e'
  release : ∀ {e : Entry} (removed : List Entry), P e → P (e.release removed)

/-- What is created for a rule's request has the property. A parent that has it and fewer
connections than the limit keeps it when it gets one more. -/
structure Admitted (P : Entry → Prop) (rule : Rule) (request : StateRequest) : Prop where
  keepState : request = .keepState → ∀ e : Entry, e.role = .keepState → e.rule = rule → P e
  parent : ∀ {parts n}, request = .limit parts n → ∀ e : Entry, e.role = .parent 0 →
    e.rule = rule → P e
  child : ∀ {parts n}, request = .limit parts n → ∀ e : Entry,
    e.role = .child (e.flow.limitKey parts) → e.rule = rule → P e
  counted : ∀ {parts n}, request = .limit parts n → ∀ p : Entry, p.isParent = true →
    p.rule.id = rule.id → p.children < n.toNat → P p →
      P { p with role := .parent (p.children + 1) }

end Entry

/-! ## On the list -/

namespace FlatTable

variable {config : StateConfig} {l : FlatTable} {P : Entry → Prop} (now : Moment)

theorem forall_of_bare {es es' : List Entry} (hP : Entry.Kept P)
    (hbare : es'.map Entry.bare = es.map Entry.bare) (h : ∀ e ∈ es, P e) : ∀ e ∈ es', P e := by
  intro e he
  have hmem : e.bare ∈ es.map Entry.bare := hbare ▸ List.mem_map_of_mem he
  obtain ⟨e₀, he₀, hb⟩ := List.mem_map.mp hmem
  exact hP.bare hb.symm (h e₀ he₀)

theorem forall_removeWhere (hP : Entry.Kept P) (h : ∀ e ∈ l.entries, P e)
    (selected : Entry → Bool) (force : Bool) :
    ∀ e ∈ (l.removeWhere selected force now).2.entries, P e := by
  intro e he
  obtain ⟨e₀, he₀, removed, rfl⟩ := exists_of_mem_remaining he
  exact hP.release removed (h e₀ he₀)

theorem forall_reserve (hP : Entry.Kept P) (h : ∀ e ∈ l.entries, P e) (need : Nat) :
    ∀ e ∈ (l.reserve need now).2.entries, P e :=
  reserve_keeps (P := fun l => ∀ e ∈ l.entries, P e)
    (fun _ selected h => forall_removeWhere now hP h selected false) h need

theorem forall_touchParent (hP : Entry.Kept P) (h : ∀ e ∈ l.entries, P e) (rule : Rule)
    (key : Flow) : ∀ e ∈ (l.touchParent rule key now).entries, P e := by
  intro e he
  obtain ⟨e₀, he₀, rfl⟩ := List.mem_map.mp he
  refine hP.bare ?_ (h e₀ he₀)
  split <;> rfl

theorem forall_openParent (hP : Entry.Kept P) (h : ∀ e ∈ l.entries, P e) (rule : Rule)
    (key : Flow) (hnew : ∀ p : Entry, p.role = .parent 0 → p.rule = rule → P p) :
    ∀ e ∈ (l.openParent rule key now).2.entries, P e := by
  refine openParent_keeps (P := fun l => ∀ e ∈ l.entries, P e)
    (fun _ selected h => forall_removeWhere now hP h selected false)
    (fun _ h => forall_touchParent now hP h rule key) (fun _ h e he => ?_) h
  rcases List.mem_cons.mp he with rfl | he
  · exact hnew _ rfl rfl
  · exact h e he

theorem forall_makeWay (hP : Entry.Kept P) (h : ∀ e ∈ l.entries, P e) (rule : Rule) (key : Flow)
    (limit : Nat) : ∀ e ∈ (l.makeWay rule key limit now).entries, P e :=
  makeWay_keeps (P := fun l => ∀ e ∈ l.entries, P e)
    (fun _ selected h => forall_removeWhere now hP h selected false) h limit

/-- The number under a key is that of every parent for it, of which there is one. -/
theorem Sound.children_eq (h : l.Sound config) {p : Entry} {rule : Rule} {key : Flow}
    (hp : p ∈ l.entries) (hfor : p.isParentFor rule key = true) :
    p.children = l.childrenOf rule key := by
  obtain ⟨hparent, hid, hflow⟩ := Entry.isParentFor_iff.mp hfor
  unfold FlatTable.childrenOf FlatTable.parent?
  cases hq : l.entries.find? (·.isParentFor rule key) with
  | none => exact absurd hfor (by simpa using List.find?_eq_none.mp hq p hp)
  | some q =>
    have hfor' : q.isParentFor rule key = true := by simpa using List.find?_some hq
    obtain ⟨hparent', hid', hflow'⟩ := Entry.isParentFor_iff.mp hfor'
    have hp' := h.accounted.counted p hp _ (Entry.role_of_isParent hparent)
    have hq' := h.accounted.counted q (List.mem_of_find?_eq_some hq) _
      (Entry.role_of_isParent hparent')
    show p.children = q.children
    rw [hp', hq', hflow, hflow']
    refine List.countP_congr fun e _ => ?_
    rw [Entry.isChildOf_iff, Entry.isChildOf_iff, hid, hid']

/-- Putting a connection under a parent that has fewer than the limit. -/
theorem Sound.forall_insertChild (hl : l.Sound config) (h : ∀ e ∈ l.entries, P e) {rule : Rule}
    {parts : LimitParts} {connections : UInt16}
    (hnew : Entry.Admitted P rule (.limit parts connections)) (pkt : Packet)
    (hbelow : l.childrenOf rule (pkt.flow.limitKey parts) < connections.toNat) :
    ∀ e ∈ (l.insertChild (l.freshEntry pkt (.child (pkt.flow.limitKey parts)) rule now)
      (pkt.flow.limitKey parts)).entries, P e := by
  intro e he
  rcases List.mem_cons.mp he with rfl | he
  · refine hnew.child rfl _ ?_ (rule_freshEntry now pkt _)
    rw [role_freshEntry, flow_freshEntry]
  · obtain ⟨p, hp, rfl⟩ := List.mem_map.mp he
    rw [rule_freshEntry]
    split
    · rename_i hfor
      obtain ⟨hparent, hid, -⟩ := Entry.isParentFor_iff.mp hfor
      rw [← hl.children_eq hp hfor] at hbelow
      exact hnew.counted rfl p hparent hid hbelow (h p hp)
    · exact h p hp

/-- **Creating state** keeps a property that the new entries have. -/
theorem Sound.forall_install (hl : l.Sound config) (hP : Entry.Kept P) (h : ∀ e ∈ l.entries, P e)
    {enabled : Bool} {rule : Rule} {request : StateRequest}
    (hnew : enabled = true → Entry.Admitted P rule request) (pkt : Packet) :
    ∀ e ∈ (l.install enabled rule request pkt now).2.entries, P e := by
  unfold FlatTable.install
  cases enabled with
  | false => exact h
  | true =>
    have hnew := hnew rfl
    simp only [Bool.not_true, Bool.false_eq_true, if_false]
    by_cases hlive : l.holdsLive pkt.flow now = true
    · rw [if_pos hlive]
      exact h
    rw [if_neg hlive]
    cases request with
    | keepState =>
      have h₁ := forall_reserve now hP h 1
      rcases hx : l.reserve 1 now with ⟨ok, l₁⟩
      rw [hx] at h₁
      simp only
      cases ok with
      | false => exact h₁
      | true =>
        intro e he
        rcases List.mem_cons.mp he with rfl | he
        · exact hnew.keepState rfl _ (role_freshEntry now pkt .keepState)
            (rule_freshEntry now pkt .keepState)
        · exact h₁ e he
    | limit parts connections =>
      have h₁ := forall_openParent now hP h rule (pkt.flow.limitKey parts)
        (hnew.parent rfl)
      have hl₁ := hl.openParent now rule (pkt.flow.limitKey parts)
      simp only
      rcases hx : l.openParent rule (pkt.flow.limitKey parts) now with ⟨ok, l₁⟩
      rw [hx] at h₁ hl₁
      cases ok with
      | false => exact h₁
      | true =>
        obtain ⟨hparent, hroom⟩ := hl₁.2 rfl
        obtain ⟨hl₂, -, -⟩ := hl₁.1.makeWay now connections.toNat hparent hroom
        have h₂ := forall_makeWay now hP h₁ rule (pkt.flow.limitKey parts)
          connections.toNat
        simp only
        generalize l₁.makeWay rule (pkt.flow.limitKey parts) connections.toNat now = l₂ at hl₂ h₂
        split
        · exact h₂
        · rename_i hbelow
          exact hl₂.forall_insertChild now h₂ hnew pkt (Nat.lt_of_not_le hbelow)

end FlatTable

/-! ## In buckets -/

namespace StateTable

variable {config : StateConfig} {t : StateTable} {P : Entry → Prop}

/-- **An operation keeps a property of entries**, if what is created has it. -/
theorem Sound.forall_apply (ht : t.Sound config) (hP : Entry.Kept P) (h : ∀ e ∈ t.entries, P e)
    (op : TableOp)
    (hnew : ∀ rule request pkt now, op = .install true rule request pkt now →
      Entry.Admitted P rule request) : ∀ e ∈ (t.apply op).2.entries, P e := by
  obtain ⟨l, hrefines, hl⟩ := ht
  have hflat : ∀ e ∈ l.entries, P e := fun e he => h e (hrefines.entries_perm.mem_iff.mpr he)
  suffices hgoal : ∀ e ∈ (l.apply op).2.entries, P e by
    intro e he
    exact hgoal e ((hrefines.apply_refines op).2.entries_perm.mem_iff.mp he)
  cases op with
  | install enabled rule request pkt now =>
    refine hl.forall_install now hP hflat (fun henabled => ?_) pkt
    subst henabled
    exact hnew rule request pkt now rfl
  | lookup pkt now =>
    simp only [FlatTable.apply, FlatTable.lookup]
    split
    · rename_i hit entries hc
      obtain ⟨pre, e, post, hes, -, -, he, rfl⟩ := chargeFirst_eq_some hc
      refine FlatTable.forall_of_bare hP ?_ hflat
      rw [hes, he]
      simp only [List.map_append, List.map_cons, Entry.bare_charge]
    · exact hflat
  | sweep now => exact FlatTable.forall_removeWhere now hP hflat _ false
  | flush selected now => exact FlatTable.forall_removeWhere now hP hflat selected true
  | flushRule rule now => exact FlatTable.forall_removeWhere now hP hflat _ true
  | flushAll now => exact FlatTable.forall_removeWhere now hP hflat _ true
  | probe now =>
    intro e he
    obtain ⟨e₀, he₀, rfl⟩ := List.mem_map.mp he
    refine hP.bare ?_ (hflat e₀ he₀)
    split <;> rfl
  | setBuckets n => exact hflat
  | size => exact hflat
  | report now => exact hflat

/-- One operation, which creates state only if the rule's request is granted. -/
inductive Step (grants : Rule → StateRequest → Prop) : StateTable → StateTable → Prop
  | apply (t : StateTable) (op : TableOp)
      (h : ∀ rule request pkt now, op = .install true rule request pkt now → grants rule request) :
      Step grants t (t.apply op).2

/-- Operations one after another. -/
abbrev Steps (grants : Rule → StateRequest → Prop) : StateTable → StateTable → Prop :=
  Relation.ReflTransGen (Step grants)

variable {grants : Rule → StateRequest → Prop} {t' : StateTable}

theorem Steps.sound (h : Steps grants t t') (ht : t.Sound config) : t'.Sound config := by
  induction h with
  | refl => exact ht
  | tail _ hstep ih =>
    cases hstep
    exact ih.apply _

/-- Steps keep a property of entries, if what is granted has it. -/
theorem Steps.forall (h : Steps grants t t') (ht : t.Sound config) (hP : Entry.Kept P)
    (hnew : ∀ rule request, grants rule request → Entry.Admitted P rule request)
    (hall : ∀ e ∈ t.entries, P e) : ∀ e ∈ t'.entries, P e := by
  induction h with
  | refl => exact hall
  | tail hsteps hstep ih =>
    cases hstep with
    | apply op hop =>
      refine (Steps.sound hsteps ht).forall_apply hP ih op fun rule request pkt now heq => ?_
      exact hnew rule request (hop rule request pkt now heq)

/-- More may be granted. -/
theorem Steps.mono {grants' : Rule → StateRequest → Prop} (h : Steps grants t t')
    (hmono : ∀ rule request, grants rule request → grants' rule request) :
    Steps grants' t t' := by
  induction h with
  | refl => exact Relation.ReflTransGen.refl
  | tail _ hstep ih =>
    cases hstep with
    | apply op hop =>
      exact ih.tail (Step.apply _ op fun rule request pkt now heq =>
        hmono rule request (hop rule request pkt now heq))

/-- An operation that creates no state. -/
theorem Steps.single (t : StateTable) (op : TableOp)
    (h : ∀ rule request pkt now, op ≠ .install true rule request pkt now) :
    Steps grants t (t.apply op).2 :=
  Relation.ReflTransGen.single (Step.apply t op fun rule request pkt now heq =>
    absurd heq (h rule request pkt now))

/-- The entry that a packet matches was in the table, and live for the packet's flow. -/
theorem exists_of_lookup {pkt : Packet} {now : Moment} {hit : StateHit}
    (h : (t.lookup pkt now).1 = some hit) :
    ∃ e ∈ t.entries, e.direction? pkt.flow now = some hit.direction ∧
      e.rule = hit.entry.rule := by
  unfold StateTable.lookup at h
  split at h
  · cases h
  · split at h
    · rename_i hc
      cases h
      obtain ⟨pre, e, post, hes, -, hdirection, he, -⟩ := chargeFirst_eq_some hc
      have hmem : e ∈ t.bucket pkt.flow := by
        rw [hes]
        exact List.mem_append_right _ List.mem_cons_self
      refine ⟨e, ?_, hdirection, by rw [he, Entry.rule_charge]⟩
      unfold StateTable.bucket at hmem
      rw [Array.getD_eq_getD_getElem?] at hmem
      cases hb : t.buckets[t.bucketIndex pkt.flow]? with
      | none => simp [hb] at hmem
      | some b =>
        rw [hb] at hmem
        exact mem_entries_of_bucket (Array.mem_of_getElem? hb) hmem
    · cases h

end StateTable

end PacketFilter
