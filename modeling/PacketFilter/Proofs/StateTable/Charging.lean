import Mathlib.Data.List.Nodup
import PacketFilter.Proofs.StateTable.Survival

/-!
# What is left alone

Creating state touches no entry but parents, whose connections and times it changes, and takes away
nothing that is live; the entries that it makes have counted nothing. A lookup that finds an entry
changes that one only. `Ledger.LeavesAlone` says this of all entries but those of some numbers, and
is put together one operation behind the other.

An entry that a packet is charged to stays live, so that it is still there with what it has counted
after more state has been created.

Main statements: `leavesAlone_install`, creating state; `leavesAlone_lookup`, a lookup;
**`chargesOnce`**, a packet is charged to one entry however often state is created for it before and
behind its lookup; `chargesNone`, and to none where it finds none.
-/

namespace PacketFilter

/-- Does the operation ask for state for a packet? -/
def TableOp.Installs (op : TableOp) (pkt : Packet) (now : Moment) : Prop :=
  ∃ enabled rule request, op = .install enabled rule request pkt now

/-! ## One entry -/

/-- **An entry that has been left alone**, as far as packets go: it has counted nothing, and has not
changed at all if it is no parent. -/
structure Entry.Untouched (e e' : Entry) : Prop where
  isParent : e'.isParent = e.isParent
  packets : e'.packets = e.packets
  bytes : e'.bytes = e.bytes
  same : e.isParent = false → e' = e

namespace Entry.Untouched

variable {e e' e'' : Entry}

theorem refl (e : Entry) : e.Untouched e := ⟨rfl, rfl, rfl, fun _ => rfl⟩

theorem trans (h : e.Untouched e') (h' : e'.Untouched e'') : e.Untouched e'' where
  isParent := h'.isParent.trans h.isParent
  packets := h'.packets.trans h.packets
  bytes := h'.bytes.trans h.bytes
  same hnot := (h'.same (h.isParent.trans hnot)).trans (h.same hnot)

/-- Changing the times of a parent and the number of its connections. -/
theorem of_parent (hparent : e.isParent = true) (n : Nat) (expires : Moment) :
    e.Untouched { e with role := .parent n, expires } where
  isParent := hparent.symm
  packets := rfl
  bytes := rfl
  same hnot := by rw [hparent] at hnot; cases hnot

theorem release (e : Entry) (removed : List Entry) : e.Untouched (e.release removed) := by
  cases hparent : e.isParent with
  | false =>
    rw [release_of_not_isParent hparent]
    exact refl e
  | true =>
    unfold Entry.release
    rw [role_of_isParent hparent]
    exact of_parent hparent _ e.expires

end Entry.Untouched

namespace Entry

/-- Which way a packet travels that matches an entry. -/
theorem orientation_of_direction?_eq {e : Entry} {flow : Flow} {now : Moment} {dir : MatchDirection}
    (h : e.direction? flow now = some dir) :
    e.flow.orientation flow = some (dir == .forward) := by
  unfold direction? at h
  split at h
  · cases h
  · split at h
    · cases h
    · rename_i forward heq
      split at h
      · cases h
      · cases h
        rw [heq]
        cases forward <;> rfl

/-- A packet that is charged to an entry is counted. -/
theorem counters_charge (e : Entry) (pkt : Packet) (dir : MatchDirection) (lifetimes : Lifetimes)
    (now : Moment) : (e.charge pkt dir lifetimes now).packets = e.packets + 1 ∧
      (e.charge pkt dir lifetimes now).bytes = e.bytes + pkt.length.toUInt64 := by
  obtain ⟨expires, track, h⟩ := e.refresh_eq pkt dir lifetimes now
  simp only [charge, h, and_self]

end Entry

namespace Ledger

variable {now : Moment} {l l' l'' : Ledger} {charged charged' : List Nat}

/-! ## All entries but some -/

/-- **What has been left alone** on the way from one ledger to another, in which entries with some
numbers have been charged. -/
structure LeavesAlone (now : Moment) (charged : List Nat) (l l' : Ledger) : Prop where
  config : l'.config = l.config
  distinct : l'.Distinct
  next_le : l.next ≤ l'.next
  /-- An entry that was there before, and is still there, -/
  old : ∀ x ∈ l'.entries, x.1 < l.next → x.1 ∉ charged →
    ∃ e, (x.1, e) ∈ l.entries ∧ e.Untouched x.2
  /-- and one that has come. -/
  new : ∀ x ∈ l'.entries, l.next ≤ x.1 → x.1 ∉ charged → x.2.packets = 0 ∧ x.2.bytes = 0
  /-- What is live does not go. -/
  live : ∀ x ∈ l.entries, x.2.Live now → x.1 ∉ charged → x ∈ l'.entries

namespace LeavesAlone

theorem refl (hl : l.Distinct) : l.LeavesAlone now charged l where
  config := rfl
  distinct := hl
  next_le := Nat.le_refl _
  old x hx _ _ := ⟨x.2, hx, .refl _⟩
  new x hx hle _ := absurd (hl.below x hx) (Nat.not_lt.mpr hle)
  live _ hx _ _ := hx

theorem trans (h : l.LeavesAlone now charged l') (h' : l'.LeavesAlone now charged' l'') :
    l.LeavesAlone now (charged ++ charged') l'' := by
  refine ⟨h'.config.trans h.config, h'.distinct, Nat.le_trans h.next_le h'.next_le,
    fun x hx hlt hnot => ?_, fun x hx hle hnot => ?_, fun x hx hlive hnot => ?_⟩
  all_goals obtain ⟨hnot, hnot'⟩ := not_or.mp (fun hor => hnot (List.mem_append.mpr hor))
  · obtain ⟨e', he', huntouched'⟩ := h'.old x hx (Nat.lt_of_lt_of_le hlt h.next_le) hnot'
    obtain ⟨e, he, huntouched⟩ := h.old (x.1, e') he' hlt hnot
    exact ⟨e, he, huntouched.trans huntouched'⟩
  · by_cases hlt : x.1 < l'.next
    · obtain ⟨e', he', huntouched'⟩ := h'.old x hx hlt hnot'
      obtain ⟨hpackets, hbytes⟩ := h.new (x.1, e') he' hle hnot
      exact ⟨huntouched'.packets.trans hpackets, huntouched'.bytes.trans hbytes⟩
    · exact h'.new x hx (Nat.not_lt.mp hlt) hnot'
  · exact h'.live x (h.live x hx hlive hnot) hlive hnot'

/-- Leaving out entries that are not live, and changing others where they are. -/
theorem of_sublist (hl : l.Distinct) {es : List (Nat × Entry)}
    (hnumbers : (es.map Prod.fst).Sublist (l.entries.map Prod.fst))
    (hold : ∀ x ∈ es, x.1 ∉ charged → ∃ e, (x.1, e) ∈ l.entries ∧ e.Untouched x.2)
    (hlive : ∀ x ∈ l.entries, x.2.Live now → x.1 ∉ charged → x ∈ es) :
    l.LeavesAlone now charged { l with entries := es } where
  config := rfl
  distinct := hl.of_sublist hnumbers
  next_le := Nat.le_refl _
  old x hx _ hnot := hold x hx hnot
  new x hx hle hnot := by
    obtain ⟨e, he, -⟩ := hold x hx hnot
    exact absurd (hl.below (x.1, e) he) (Nat.not_lt.mpr hle)
  live := hlive

theorem keep (hl : l.Distinct) {p : Entry → Bool} (hp : ∀ e : Entry, e.Live now → p e = true) :
    l.LeavesAlone now [] (l.keep p) :=
  of_sublist hl (List.filter_sublist.map _)
    (fun x hx _ => ⟨x.2, (List.mem_filter.mp hx).1, .refl _⟩)
    fun x hx hlive _ => List.mem_filter.mpr ⟨hx, hp x.2 hlive⟩

theorem change (hl : l.Distinct) {f : Entry → Entry} (hf : ∀ e : Entry, e.Untouched (f e)) :
    l.LeavesAlone now [] (l.change f) := by
  refine of_sublist hl ?_ (fun x hx _ => ?_) fun x hx hlive _ => ?_
  · rw [List.map_map]
    exact List.Sublist.refl _
  · obtain ⟨x₀, hx₀, rfl⟩ := List.mem_map.mp hx
    exact ⟨x₀.2, hx₀, hf x₀.2⟩
  · have hsame : f x.2 = x.2 := (hf x.2).same hlive.1
    exact List.mem_map.mpr ⟨x, hx, by rw [hsame]⟩

theorem insert (hl : l.Distinct) (e : Entry) (hpackets : e.packets = 0) (hbytes : e.bytes = 0) :
    l.LeavesAlone now [] (l.insert e) where
  config := rfl
  distinct := hl.insert e
  next_le := Nat.le_succ _
  old x hx hlt _ := by
    rcases List.mem_cons.mp hx with rfl | hx
    · exact absurd hlt (Nat.lt_irrefl _)
    · exact ⟨x.2, hx, .refl _⟩
  new x hx hle _ := by
    rcases List.mem_cons.mp hx with rfl | hx
    · exact ⟨hpackets, hbytes⟩
    · exact absurd (hl.below x hx) (Nat.not_lt.mpr hle)
  live x hx _ _ := List.mem_cons_of_mem _ hx

end LeavesAlone

/-! ## Creating state -/

/-- **A removal that is not forced.** -/
theorem leavesAlone_removeWhere (hl : l.Distinct) (selected : Entry → Bool) :
    l.LeavesAlone now [] (l.removeWhere selected false now) := by
  have hstays : ∀ e : Entry, e.Live now → (!e.leaves selected false now) = true := by
    intro e hlive
    have hexpired : e.isExpired now = false := by
      rw [Entry.isExpired, decide_eq_false_iff_not, Moment.le_iff, Nat.not_le]
      exact Moment.lt_iff.mp hlive.2
    simp [Entry.leaves, hexpired]
  have hstays' : ∀ e : Entry, e.Live now → (!e.leavesChildless selected false now) = true :=
    fun e hlive => by simp [Entry.leavesChildless, hlive.1]
  have h₁ := LeavesAlone.keep hl hstays
  have h₂ := h₁.trans (.change h₁.distinct fun e =>
    .release e (l.flat.entries.filter (·.leaves selected false now)))
  exact h₂.trans (.keep h₂.distinct hstays')

theorem leavesAlone_reserve (hl : l.Distinct) (need : Nat) :
    l.LeavesAlone now [] (l.reserve need now).2 :=
  reserve_keeps (P := l.LeavesAlone now [])
    (fun _ selected h => h.trans (leavesAlone_removeWhere h.distinct selected)) (.refl hl) need

/-- Changing parents for a rule and a key. -/
theorem leavesAlone_modifyParent (hl : l.Distinct) (rule : Rule) (key : Flow) {f : Entry → Entry}
    (hf : ∀ p : Entry, p.isParent = true → p.Untouched (f p)) :
    l.LeavesAlone now [] (l.modifyParent rule key f) := by
  refine .change hl fun e => ?_
  split
  · rename_i hfor
    exact hf e (Entry.isParentFor_iff.mp hfor).1
  · exact .refl e

theorem leavesAlone_touchParent (hl : l.Distinct) (rule : Rule) (key : Flow) :
    l.LeavesAlone now [] (l.touchParent rule key now) := by
  refine leavesAlone_modifyParent hl rule key fun p hparent => ?_
  have h := Entry.Untouched.of_parent hparent p.children (now.plus l.config.lifetimes.short)
  rwa [← Entry.role_of_isParent hparent] at h

theorem leavesAlone_openParent (hl : l.Distinct) (rule : Rule) (key : Flow) :
    l.LeavesAlone now [] (l.openParent rule key now).2 :=
  openParent_keeps (P := l.LeavesAlone now [])
    (fun _ selected h => h.trans (leavesAlone_removeWhere h.distinct selected))
    (fun _ h => h.trans (leavesAlone_touchParent h.distinct rule key))
    (fun _ h => h.trans (.insert h.distinct _ rfl rfl)) (.refl hl)

theorem leavesAlone_makeWay (hl : l.Distinct) (rule : Rule) (key : Flow) (limit : Nat) :
    l.LeavesAlone now [] (l.makeWay rule key limit now) :=
  makeWay_keeps (P := l.LeavesAlone now [])
    (fun _ selected h => h.trans (leavesAlone_removeWhere h.distinct selected)) (.refl hl) limit

/-- A new entry has counted nothing. -/
theorem counters_freshEntry (t : FlatTable) (pkt : Packet) (role : EntryRole) (rule : Rule)
    (now : Moment) : (t.freshEntry pkt role rule now).packets = 0 ∧
      (t.freshEntry pkt role rule now).bytes = 0 := by
  obtain ⟨expires, track, h⟩ := @FlatTable.freshEntry_eq t rule now pkt role
  rw [h]
  exact ⟨rfl, rfl⟩

/-- **Creating state** charges no entry. -/
theorem leavesAlone_install (hl : l.Distinct) (enabled : Bool) (rule : Rule)
    (request : StateRequest) (pkt : Packet) :
    l.LeavesAlone now [] (l.install enabled rule request pkt now) := by
  unfold install
  split
  · exact .refl hl
  split
  · exact .refl hl
  cases request with
  | keepState =>
    have h₁ : l.LeavesAlone now [] (l.reserve 1 now).2 := leavesAlone_reserve hl 1
    rcases hx : l.reserve 1 now with ⟨ok, l₁⟩
    rw [hx] at h₁
    cases ok with
    | false => exact h₁
    | true =>
      obtain ⟨hpackets, hbytes⟩ := counters_freshEntry l₁.flat pkt .keepState rule now
      exact h₁.trans (.insert h₁.distinct _ hpackets hbytes)
  | limit parts connections =>
    have h₁ : l.LeavesAlone now [] (l.openParent rule (pkt.flow.limitKey parts) now).2 :=
      leavesAlone_openParent hl rule _
    simp only
    rcases hx : l.openParent rule (pkt.flow.limitKey parts) now with ⟨ok, l₁⟩
    rw [hx] at h₁
    cases ok with
    | false => exact h₁
    | true =>
      have h₂ := h₁.trans (leavesAlone_makeWay h₁.distinct rule (pkt.flow.limitKey parts)
        connections.toNat)
      simp only
      generalize l₁.makeWay rule (pkt.flow.limitKey parts) connections.toNat now = l₂ at h₂
      split
      · exact h₂
      · obtain ⟨hpackets, hbytes⟩ := counters_freshEntry l₂.flat pkt
          (.child (pkt.flow.limitKey parts)) rule now
        generalize l₂.flat.freshEntry pkt (.child (pkt.flow.limitKey parts)) rule now = e at *
        have h₃ := h₂.trans (leavesAlone_modifyParent h₂.distinct e.rule
          (pkt.flow.limitKey parts) fun p hparent => .of_parent hparent (p.children + 1) p.expires)
        exact h₃.trans (.insert h₃.distinct e hpackets hbytes)

/-! ## Looking up state -/

/-- **A lookup that finds an entry**: which one it is, and what it does to it. -/
theorem lookup_eq_some {pkt : Packet} {i : Nat} {hit : StateHit}
    (h : l.lookup pkt now = (some (i, hit), l')) :
    ∃ pre e post, l.entries = pre ++ (i, e) :: post ∧
      e.direction? pkt.flow now = some hit.direction ∧
      hit.entry = e.charge pkt hit.direction l.config.lifetimes now ∧
      l' = { l with entries := pre ++ (i, hit.entry) :: post } := by
  unfold lookup at h
  split at h
  · rename_i hcharge
    cases h
    obtain ⟨pre, e, post, hes, hmatch, hentry, rfl⟩ := chargeNumbered_eq_some hcharge
    exact ⟨pre, e, post, hes, hmatch, hentry, rfl⟩
  · cases h

/-- **It leaves all others alone.** -/
theorem leavesAlone_lookup (hl : l.Distinct) {pkt : Packet} {i : Nat} {hit : StateHit}
    (h : l.lookup pkt now = (some (i, hit), l')) : l.LeavesAlone now [i] l' := by
  obtain ⟨pre, e, post, hes, -, -, rfl⟩ := lookup_eq_some h
  have hothers : ∀ e e' x, x ∈ pre ++ (i, e) :: post → x.1 ∉ [i] → x ∈ pre ++ (i, e') :: post := by
    intro e e' x hx hnot
    rcases List.mem_append.mp hx with hx | hx
    · exact List.mem_append_left _ hx
    rcases List.mem_cons.mp hx with rfl | hx
    · exact absurd (List.mem_singleton_self _) hnot
    · exact List.mem_append_right _ (List.mem_cons_of_mem _ hx)
  refine .of_sublist hl ?_ (fun x hx hnot => ?_) fun x hx _ hnot => ?_
  · rw [hes]
    simp
  · exact ⟨x.2, hes ▸ hothers _ e x hx hnot, .refl _⟩
  · exact hothers e _ x (hes ▸ hx) hnot

/-! ## Packets -/

/-- Asking for state, as often as need be, charges no entry. -/
theorem leavesAlone_run {pkt : Packet} (hl : l.Distinct) {ops : List TableOp}
    (hops : ∀ op ∈ ops, op.Installs pkt now) : l.LeavesAlone now [] (l.run ops).2 := by
  induction ops generalizing l with
  | nil => exact .refl hl
  | cons op ops ih =>
    obtain ⟨enabled, rule, request, rfl⟩ := hops op List.mem_cons_self
    have hfirst : l.LeavesAlone now [] (l.install enabled rule request pkt now) :=
      leavesAlone_install hl enabled rule request pkt
    exact hfirst.trans (ih hfirst.distinct fun op' hop' => hops op' (List.mem_cons_of_mem _ hop'))

/-- **What a packet does to a table**: the entry with a number is charged, if there is one, to which
the packet is matched in a direction, and all others are left alone. -/
structure ChargesOnce (pkt : Packet) (now : Moment) (charged : Option (Nat × MatchDirection))
    (l found l' : Ledger) : Prop where
  /-- The entry that is charged was live when it was found, and is of the packet's flow in this
  direction. It was there before, or has been made for the packet and had counted nothing. -/
  one : ∀ i dir, charged = some (i, dir) → ∃ e e',
    (i, e) ∈ found.entries ∧ e.Live now ∧ e.flow.orientation pkt.flow = some (dir == .forward) ∧
    ((i, e) ∈ l.entries ∨ l.next ≤ i ∧ e.packets = 0 ∧ e.bytes = 0) ∧
    (i, e') ∈ l'.entries ∧ e'.packets = e.packets + 1 ∧ e'.bytes = e.bytes + pkt.length.toUInt64
  /-- No other entry has counted the packet, and of those that were there before none but parents
  has changed. -/
  others : ∀ i e', (i, e') ∈ l'.entries → (∀ dir, charged ≠ some (i, dir)) →
    (∀ e, (i, e) ∈ l.entries → e'.packets = e.packets ∧ e'.bytes = e.bytes ∧
      (e.isParent = false → e' = e)) ∧
    (l.next ≤ i → e'.packets = 0 ∧ e'.bytes = 0)

theorem LeavesAlone.others (h : l.LeavesAlone now charged l') (hl : l.Distinct) {i : Nat}
    {e' : Entry} (he' : (i, e') ∈ l'.entries) (hnot : i ∉ charged) :
    (∀ e, (i, e) ∈ l.entries → e'.packets = e.packets ∧ e'.bytes = e.bytes ∧
      (e.isParent = false → e' = e)) ∧
    (l.next ≤ i → e'.packets = 0 ∧ e'.bytes = 0) := by
  refine ⟨fun e he => ?_, fun hle => h.new (i, e') he' hle hnot⟩
  obtain ⟨e₁, he₁, huntouched⟩ := h.old (i, e') he' (hl.below (i, e) he) hnot
  -- A number stands for one entry.
  obtain rfl : e₁ = e := congrArg Prod.snd (List.inj_on_of_nodup_map hl.nodup he₁ he rfl)
  exact ⟨huntouched.packets, huntouched.bytes, huntouched.same⟩

/-- A packet that finds no state is charged to no entry. -/
theorem chargesNone {pkt : Packet} (hl : l.Distinct) (found : Ledger) {ops : List TableOp}
    (hops : ∀ op ∈ ops, op.Installs pkt now) :
    l.ChargesOnce pkt now none found (l.run ops).2 where
  one _ _ h := by cases h
  others _ _ he' _ := (leavesAlone_run hl hops).others hl he' List.not_mem_nil

/-- **A packet that finds state is charged to the entry found**, however often state is created for
it before and behind. -/
theorem chargesOnce {pkt : Packet} (hl : l.Distinct) (hpos : l.config.lifetimes.Positive)
    {before after : List TableOp} (hbefore : ∀ op ∈ before, op.Installs pkt now)
    (hafter : ∀ op ∈ after, op.Installs pkt now) {i : Nat} {hit : StateHit}
    (hfound : (l.run before).2.lookup pkt now = (some (i, hit), l')) :
    l.ChargesOnce pkt now (some (i, hit.direction)) (l.run before).2 (l'.run after).2 := by
  have h₁ := leavesAlone_run hl hbefore
  have h₂ := h₁.trans (leavesAlone_lookup h₁.distinct hfound)
  have h₃ := leavesAlone_run h₂.distinct hafter
  have hall := h₂.trans h₃
  obtain ⟨pre, e, post, hes, hmatch, hentry, rfl⟩ := lookup_eq_some hfound
  obtain ⟨hlive, -⟩ := Entry.isSome_direction_iff.mp (Option.isSome_of_eq_some hmatch)
  have he : (i, e) ∈ (l.run before).2.entries := by
    rw [hes]
    exact List.mem_append_right _ List.mem_cons_self
  have hentry' : hit.entry.Live now := by
    refine ⟨?_, ?_⟩
    · rw [hentry, Entry.isParent, Entry.role_charge]
      exact hlive.1
    · rw [hentry]
      exact Entry.lt_expires_refresh (h₁.config ▸ hpos) hlive.2 pkt hit.direction
  obtain ⟨hpackets, hbytes⟩ := e.counters_charge pkt hit.direction
    (l.run before).2.config.lifetimes now
  rw [← hentry] at hpackets hbytes
  refine ⟨?_, fun j e' he' hnot => ?_⟩
  · rintro i dir ⟨rfl, rfl⟩
    refine ⟨e, hit.entry, he, hlive, Entry.orientation_of_direction?_eq hmatch, ?_, ?_, hpackets,
      hbytes⟩
    · by_cases hlt : i < l.next
      · obtain ⟨e₁, he₁, huntouched⟩ := h₁.old (i, e) he hlt List.not_mem_nil
        obtain rfl : e = e₁ := huntouched.same (huntouched.isParent ▸ hlive.1)
        exact Or.inl he₁
      · have hle := Nat.not_lt.mp hlt
        exact Or.inr ⟨hle, h₁.new (i, e) he hle List.not_mem_nil⟩
    · exact h₃.live (i, hit.entry) (List.mem_append_right _ List.mem_cons_self) hentry'
        List.not_mem_nil
  · refine hall.others hl he' fun hmem => hnot hit.direction ?_
    obtain rfl : j = i := by simpa using hmem
    rfl

end Ledger

end PacketFilter
