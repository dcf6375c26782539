import PacketFilter.Proofs.StateTable.Lifespan

/-!
# Live entries stay

What makes room takes expired entries only, and of the parents those without connections: packets
and timers take nothing from the table that is live, and no parent of a connection that is. An entry
that a packet matches counts the packet. Its expiry may come nearer by that, but it stays ahead of
the clock, since no lifetime is nothing.

Operations that are told to remove entries, expired or not, are left out here.

Main statements: `spares_removeWhere`, a removal that is not forced; `spares_install`, creating
state; `spares_lookup`, a lookup; **`spares_run`**, what operations at one moment leave of what is
live then.
-/

namespace PacketFilter

/-! ## Lifetimes -/

/-- The lifetimes that an entry may be given. -/
def Lifetimes.all (l : Lifetimes) : List Lifetime := [l.ack, l.syn, l.fin, l.rst, l.udp, l.short]

/-- **Is each lifetime longer than nothing?** -/
def Lifetimes.Positive (l : Lifetimes) : Prop := ∀ x ∈ l.all, 0 < x.ms.toNat

/-- Settings that pass the check give lifetimes that are longer than nothing. -/
theorem Config.lifetimes_positive (c : Config) (h : c.check = .ok ()) : c.lifetimes.Positive := by
  have hpositive := c.time_pos h
  intro x hx
  simp only [Lifetimes.all, lifetimes, List.mem_cons, List.not_mem_nil, or_false] at hx
  rcases hx with rfl | rfl | rfl | rfl | rfl | rfl
  · exact hpositive .ackLifetime (by decide)
  · exact hpositive .synLifetime (by decide)
  · exact hpositive .finLifetime (by decide)
  · exact hpositive .rstLifetime (by decide)
  · exact hpositive .udpLifetime (by decide)
  · exact hpositive .shortLifetime (by decide)

/-- A segment gives its connection one of the lifetimes, or none. -/
theorem TcpTrack.mem_all_of_update {t : TcpTrack} {forward : Bool} {tcp : Option TcpHeader}
    {lifetimes : Lifetimes} {l : Lifetime} (h : (t.update forward tcp lifetimes).1 = some l) :
    l ∈ lifetimes.all := by
  unfold update at h
  simp only at h
  split at h
  case h_2 | h_3 =>
    simp only at h
    split at h
    · cases h
      simp [Lifetimes.all]
    · cases h
  all_goals
    cases h
    simp [Lifetimes.all]

/-- Where there are later moments, a lifetime leads to one. -/
theorem Moment.lt_plus {t u : Moment} {l : Lifetime} (hl : 0 < l.ms.toNat) (hlater : t < u) :
    t < t.plus l := by
  have hmax := u.ms.toNat_lt
  have hlater := Moment.lt_iff.mp hlater
  rw [Moment.lt_iff, Moment.toNat_plus]
  unfold Moment.limit
  omega

namespace Entry

variable {now : Moment} {e e' e'' : Entry} {m n : Nat}

/-- **A live entry that a packet keeps alive is live.** -/
theorem lt_expires_refresh {lifetimes : Lifetimes} (hpos : lifetimes.Positive)
    (hlive : now < e.expires) (pkt : Packet) (dir : MatchDirection) :
    now < (e.refresh pkt dir lifetimes now).expires := by
  unfold refresh
  split
  · simp only
    split
    · rename_i l hl
      exact Moment.lt_plus (hpos l (TcpTrack.mem_all_of_update hl)) hlive
    · exact hlive
  · split <;> exact Moment.lt_plus (hpos _ (by simp [Lifetimes.all])) hlive

/-- **The same entry after at most so many packets have matched it**: still live, and with counters
that have gone up by what has matched. -/
structure Survives (now : Moment) (n : Nat) (e e' : Entry) : Prop where
  flow : e'.flow = e.flow
  role : e'.role = e.role
  rule : e'.rule = e.rule
  live : now < e'.expires
  gains : ∃ packets bytes : Nat, packets ≤ n ∧ bytes ≤ packets * 65535 ∧
    e'.packets = e.packets + UInt64.ofNat packets ∧ e'.bytes = e.bytes + UInt64.ofNat bytes

namespace Survives

/-- What matches no packet. -/
theorem of_eq (hlive : now < e.expires) (hbare : e'.bare = e.bare)
    (hexpires : e'.expires = e.expires) (hpackets : e'.packets = e.packets)
    (hbytes : e'.bytes = e.bytes) : e.Survives now n e' := by
  obtain ⟨hflow, hrole, hrule⟩ := of_bare_eq hbare
  refine ⟨hflow, hrole, hrule, hexpires ▸ hlive, 0, 0, Nat.zero_le n, Nat.zero_le _, ?_, ?_⟩
  · rw [hpackets]
    exact (UInt64.add_zero _).symm
  · rw [hbytes]
    exact (UInt64.add_zero _).symm

theorem refl (hlive : now < e.expires) : e.Survives now n e := of_eq hlive rfl rfl rfl rfl

theorem mono (h : e.Survives now m e') (hle : m ≤ n) : e.Survives now n e' := by
  obtain ⟨packets, bytes, hm, hgains⟩ := h.gains
  exact ⟨h.flow, h.role, h.rule, h.live, packets, bytes, Nat.le_trans hm hle, hgains⟩

theorem trans (h : e.Survives now m e') (h' : e'.Survives now n e'') :
    e.Survives now (m + n) e'' := by
  obtain ⟨packets, bytes, hm, hle, hpackets, hbytes⟩ := h.gains
  obtain ⟨packets', bytes', hn, hle', hpackets', hbytes'⟩ := h'.gains
  refine ⟨h'.flow.trans h.flow, h'.role.trans h.role, h'.rule.trans h.rule, h'.live,
    packets + packets', bytes + bytes', by omega, by omega, ?_, ?_⟩
  · rw [hpackets', hpackets, UInt64.add_assoc, UInt64.ofNat_add]
  · rw [hbytes', hbytes, UInt64.add_assoc, UInt64.ofNat_add]

/-- A packet that matches. -/
theorem charge {lifetimes : Lifetimes} (hpos : lifetimes.Positive) (hlive : now < e.expires)
    (pkt : Packet) (dir : MatchDirection) : e.Survives now 1 (e.charge pkt dir lifetimes now) := by
  obtain ⟨expires, track, hrefresh⟩ := e.refresh_eq pkt dir lifetimes now
  have hexpires := lt_expires_refresh hpos hlive pkt dir
  refine ⟨flow_charge e pkt dir lifetimes now, role_charge e pkt dir lifetimes now,
    rule_charge e pkt dir lifetimes now, hexpires, 1, pkt.length.toNat, Nat.le_refl 1, ?_, ?_, ?_⟩
  · have := pkt.length.toNat_lt
    omega
  · simp only [Entry.charge, hrefresh]
    rfl
  · simp only [Entry.charge, hrefresh, UInt64.ofNat_uInt16ToNat]

/-- The number of packets does not go down, as long as it is short of its end. -/
theorem packets_le (h : e.Survives now n e') (hshort : e.packets.toNat + n < 2 ^ 64) :
    e.packets ≤ e'.packets := by
  obtain ⟨packets, bytes, hle, -, hpackets, -⟩ := h.gains
  rw [UInt64.le_iff_toNat_le, hpackets, UInt64.toNat_add, UInt64.toNat_ofNat']
  omega

/-- Nor does the number of bytes. -/
theorem bytes_le (h : e.Survives now n e') (hshort : e.bytes.toNat + n * 65535 < 2 ^ 64) :
    e.bytes ≤ e'.bytes := by
  obtain ⟨packets, bytes, hle, hbound, -, hbytes⟩ := h.gains
  have hmul := Nat.mul_le_mul_right 65535 hle
  rw [UInt64.le_iff_toNat_le, hbytes, UInt64.toNat_add, UInt64.toNat_ofNat']
  omega

end Survives

end Entry

/-! ## Ledgers -/

namespace Ledger

variable {config : StateConfig} {now : Moment} {l l' l'' : Ledger} {m n : Nat}

/-- Has the ledger a live connection under a parent? -/
def HasLiveChild (l : Ledger) (now : Moment) (p : Entry) : Prop :=
  ∃ x ∈ l.entries, x.2.Live now ∧ x.2.isChildOf p.rule p.flow = true

/-- **What is live is spared**, while at most so many packets are matched, and so are the parents of
connections that are live. -/
structure Spares (now : Moment) (n : Nat) (l l' : Ledger) : Prop where
  distinct : l.Distinct → l'.Distinct
  live : ∀ x ∈ l.entries, x.2.Live now → ∃ e', (x.1, e') ∈ l'.entries ∧ x.2.Survives now n e'
  parents : ∀ x ∈ l.entries, x.2.isParent = true → l.HasLiveChild now x.2 →
    ∃ p', (x.1, p') ∈ l'.entries ∧ p'.isParent = true ∧ p'.flow = x.2.flow ∧ p'.rule = x.2.rule

namespace Spares

theorem refl (l : Ledger) : l.Spares now n l :=
  ⟨id, fun x hx hlive => ⟨x.2, hx, .refl hlive.2⟩,
    fun x hx hparent _ => ⟨x.2, hx, hparent, rfl, rfl⟩⟩

theorem trans (h : l.Spares now m l') (h' : l'.Spares now n l'') : l.Spares now (m + n) l'' := by
  have hlive : ∀ x ∈ l.entries, x.2.Live now →
      ∃ e', (x.1, e') ∈ l'.entries ∧ e'.Live now ∧ x.2.Survives now m e' := by
    intro x hx hlive
    obtain ⟨e', he', hsurvives⟩ := h.live x hx hlive
    have hnot : e'.isParent = false := by
      simpa only [Entry.isParent, hsurvives.role] using hlive.1
    exact ⟨e', he', ⟨hnot, hsurvives.live⟩, hsurvives⟩
  refine ⟨h'.distinct ∘ h.distinct, fun x hx hx' => ?_, fun x hx hparent hchild => ?_⟩
  · obtain ⟨e', he', hlive', hsurvives⟩ := hlive x hx hx'
    obtain ⟨e'', he'', hsurvives'⟩ := h'.live (x.1, e') he' hlive'
    exact ⟨e'', he'', hsurvives.trans hsurvives'⟩
  · obtain ⟨p', hp', hparent', hflow, hrule⟩ := h.parents x hx hparent hchild
    obtain ⟨y, hy, hlivey, hof⟩ := hchild
    obtain ⟨y', hy', hlivey', hsurvives⟩ := hlive y hy hlivey
    have hchild' : l'.HasLiveChild now p' := by
      refine ⟨(y.1, y'), hy', hlivey', ?_⟩
      rw [hflow, hrule]
      simpa only [Entry.isChildOf, hsurvives.role, hsurvives.rule] using hof
    obtain ⟨p'', hp'', hparent'', hflow', hrule'⟩ := h'.parents (x.1, p') hp' hparent' hchild'
    exact ⟨p'', hp'', hparent'', hflow'.trans hflow, hrule'.trans hrule⟩

/-- Changing entries where they are. -/
theorem change {f : Entry → Entry} (hlive : ∀ e : Entry, e.Live now → e.Survives now n (f e))
    (hparents : ∀ p : Entry, p.isParent = true →
      (f p).isParent = true ∧ (f p).flow = p.flow ∧ (f p).rule = p.rule) (l : Ledger) :
    l.Spares now n (l.change f) :=
  ⟨fun h => h.change f, fun x hx hx' => ⟨f x.2, List.mem_map_of_mem hx, hlive x.2 hx'⟩,
    fun x hx hparent _ => ⟨f x.2, List.mem_map_of_mem hx, hparents x.2 hparent⟩⟩

theorem insert (l : Ledger) (e : Entry) : l.Spares now n (l.insert e) :=
  ⟨fun h => h.insert e, fun x hx hlive => ⟨x.2, List.mem_cons_of_mem _ hx, .refl hlive.2⟩,
    fun x hx hparent _ => ⟨x.2, List.mem_cons_of_mem _ hx, hparent, rfl, rfl⟩⟩

end Spares

/-! ## Making room -/

/-- What a removal leaves, with its number. -/
theorem mem_removeWhere (selected : Entry → Bool) (force : Bool) (now : Moment) {x : Nat × Entry}
    (hx : x ∈ l.entries) (hstays : x.2.leaves selected force now = false)
    (hstays' : (x.2.release (l.flat.entries.filter (·.leaves selected force now))).leavesChildless
      selected force now = false) :
    (x.1, x.2.release (l.flat.entries.filter (·.leaves selected force now))) ∈
      (l.removeWhere selected force now).entries := by
  have hfirst : x ∈ l.entries.filter fun x => !x.2.leaves selected force now :=
    List.mem_filter.mpr ⟨hx, congrArg Bool.not hstays⟩
  exact List.mem_filter.mpr ⟨List.mem_map.mpr ⟨x, hfirst, rfl⟩, congrArg Bool.not hstays'⟩

/-- **A removal that is not forced** leaves what is live. A parent goes only without connections,
and its number is that of its connections. -/
theorem spares_removeWhere (h : Accounted l.flat.entries) (selected : Entry → Bool) :
    l.Spares now n (l.removeWhere selected false now) := by
  have hlive : ∀ x ∈ l.entries, x.2.Live now → x ∈ (l.removeWhere selected false now).entries := by
    intro x hx hlive
    have hexpired : x.2.isExpired now = false := by
      rw [Entry.isExpired, decide_eq_false_iff_not, Moment.le_iff, Nat.not_le]
      exact Moment.lt_iff.mp hlive.2
    have hmem := mem_removeWhere selected false now hx
      (by simp [Entry.leaves, hexpired])
      (by simp [Entry.leavesChildless, Entry.isParent_release, hlive.1])
    rwa [Entry.release_of_not_isParent hlive.1] at hmem
  refine ⟨fun h => by unfold removeWhere; exact ((h.keep _).change _).keep _,
    fun x hx hx' => ⟨x.2, hlive x hx hx', .refl hx'.2⟩, fun x hx hparent hchild => ?_⟩
  obtain ⟨y, hy, hlivey, hof⟩ := hchild
  have hleft : y.2 ∈ remaining l.flat.entries selected false now := by
    have hmem := List.mem_map_of_mem (f := Prod.snd) (hlive y hy hlivey)
    have hflat := congrArg FlatTable.entries (l.flat_removeWhere selected false now)
    rwa [← entries_flat, hflat] at hmem
  have hstays := h.parent_stays selected false now (List.mem_map_of_mem (f := Prod.snd) hx) hparent
    hleft hof
  have hmem := mem_removeWhere selected false now hx
    (by simp [Entry.leaves, hparent]) (by simpa using (List.mem_filter.mp hstays).2)
  exact ⟨_, hmem, by rw [Entry.isParent_release, hparent], Entry.flow_release _ _,
    Entry.rule_release _ _⟩

theorem spares_reserve (h : Accounted l.flat.entries) (need : Nat) :
    l.Spares now n (l.reserve need now).2 := by
  unfold reserve
  split
  · exact .refl l
  · exact spares_removeWhere h _

/-- Changing parents for a rule and a key. -/
theorem spares_modifyParent (l : Ledger) (rule : Rule) (key : Flow) {f : Entry → Entry}
    (hf : ∀ p : Entry, p.isParent = true →
      (f p).isParent = true ∧ (f p).flow = p.flow ∧ (f p).rule = p.rule) :
    l.Spares now n (l.modifyParent rule key f) := by
  refine .change (fun e hlive => ?_) (fun p hparent => ?_) l
  · have hnot : ¬ e.isParentFor rule key = true := fun hfor =>
      Bool.eq_false_iff.mp hlive.1 (Entry.isParentFor_iff.mp hfor).1
    rw [if_neg hnot]
    exact .refl hlive.2
  · split
    · exact hf p hparent
    · exact ⟨hparent, rfl, rfl⟩

theorem spares_openParent (h : l.flat.Sound config) (rule : Rule) (key : Flow) :
    l.Spares now 0 (l.openParent rule key now).2 := by
  have htouch : ∀ l : Ledger, l.Spares now 0 (l.touchParent rule key now) := fun l =>
    l.spares_modifyParent rule key fun p hparent => ⟨hparent, rfl, rfl⟩
  unfold openParent
  generalize (if (l.flat.parent? rule key).isSome then 1 else 2) = need
  have h₁ : l.Spares now 0 (l.reserve need now).2 := spares_reserve h.accounted need
  have hsound : (l.reserve need now).2.flat.Sound config := by
    have hreserve := h.reserve now need
    rwa [l.flat_reserve] at hreserve
  rcases hx : l.reserve need now with ⟨ok, l₁⟩
  rw [hx] at h₁ hsound
  cases ok with
  | false => exact h₁
  | true =>
    simp only
    split
    · exact h₁.trans (htouch l₁)
    · have h₂ : l.Spares now 0 (l₁.reserve 2 now).2 :=
        h₁.trans (spares_reserve (n := 0) hsound.accounted 2)
      rcases hx₂ : l₁.reserve 2 now with ⟨ok, l₂⟩
      rw [hx₂] at h₂
      cases ok with
      | false => exact h₂
      | true => exact h₂.trans ((Spares.insert (n := 0) l₂ _).trans (htouch _))

theorem spares_makeWay (h : Accounted l.flat.entries) (rule : Rule) (key : Flow) (limit : Nat) :
    l.Spares now n (l.makeWay rule key limit now) := by
  unfold makeWay
  split
  · exact spares_removeWhere h _
  · exact .refl l

/-! ## Operations -/

/-- **Creating state** takes nothing that is live. -/
theorem spares_install (h : l.flat.Sound config) (enabled : Bool) (rule : Rule)
    (request : StateRequest) (pkt : Packet) :
    l.Spares now 0 (l.install enabled rule request pkt now) := by
  unfold install
  split
  · exact .refl l
  split
  · exact .refl l
  cases request with
  | keepState =>
    have h₁ : l.Spares now 0 (l.reserve 1 now).2 := spares_reserve h.accounted 1
    rcases hx : l.reserve 1 now with ⟨ok, l₁⟩
    rw [hx] at h₁
    cases ok with
    | false => exact h₁
    | true => exact h₁.trans (Spares.insert (n := 0) l₁ _)
  | limit parts connections =>
    have h₁ : l.Spares now 0 (l.openParent rule (pkt.flow.limitKey parts) now).2 :=
      spares_openParent h rule _
    have hsound : (l.openParent rule (pkt.flow.limitKey parts) now).2.flat.Sound config := by
      have hopen := (h.openParent now rule (pkt.flow.limitKey parts)).1
      rwa [l.flat_openParent] at hopen
    simp only
    rcases hx : l.openParent rule (pkt.flow.limitKey parts) now with ⟨ok, l₁⟩
    rw [hx] at h₁ hsound
    cases ok with
    | false => exact h₁
    | true =>
      have h₂ : l.Spares now 0 (l₁.makeWay rule (pkt.flow.limitKey parts) connections.toNat now) :=
        h₁.trans (spares_makeWay (n := 0) hsound.accounted rule (pkt.flow.limitKey parts) _)
      simp only
      split
      · exact h₂
      · refine h₂.trans ((spares_modifyParent (n := 0) _ _ _ fun p hparent => ?_).trans
          (Spares.insert (n := 0) _ _))
        exact ⟨rfl, rfl, rfl⟩

/-- **A lookup** changes one live entry, which stays live. -/
theorem spares_lookup (hpos : l.config.lifetimes.Positive) (pkt : Packet) :
    l.Spares now 1 (l.lookup pkt now).2 := by
  rcases l.lookup_cases pkt now with hnone | ⟨i, hit, pre, e, post, hes, hlive, hentry, hfound⟩
  · rw [hnone]
    exact .refl l
  rw [hfound]
  have hmem : ∀ x ∈ l.entries, x = (i, e) ∨ x ∈ pre ++ (i, hit.entry) :: post := by
    intro x hx
    rw [hes] at hx
    rcases List.mem_append.mp hx with hx | hx
    · exact Or.inr (List.mem_append_left _ hx)
    rcases List.mem_cons.mp hx with hx | hx
    · exact Or.inl hx
    · exact Or.inr (List.mem_append_right _ (List.mem_cons_of_mem _ hx))
  refine ⟨fun h => h.of_sublist ?_, fun x hx hx' => ?_, fun x hx hparent _ => ?_⟩
  · rw [hes]
    simp
  · rcases hmem x hx with rfl | hx
    · exact ⟨hit.entry, List.mem_append_right _ List.mem_cons_self,
        hentry ▸ .charge hpos hlive.2 pkt hit.direction⟩
    · exact ⟨x.2, hx, .refl hx'.2⟩
  · rcases hmem x hx with rfl | hx
    · rw [hlive.1] at hparent
      cases hparent
    · exact ⟨x.2, hx, hparent, rfl, rfl⟩

theorem spares_probeDue (l : Ledger) : l.Spares now n (l.probeDue now) := by
  refine .change (fun e hlive => ?_) (fun p hparent => ?_) l
  · split
    · exact .of_eq hlive.2 rfl rfl rfl rfl
    · exact .refl hlive.2
  · split
    · exact ⟨hparent, rfl, rfl⟩
    · exact ⟨hparent, rfl, rfl⟩

end Ledger

/-- Does the operation leave alone what is live? Not if it is told to remove entries. -/
def TableOp.Gentle : TableOp → Prop
  | .flush _ _ | .flushRule _ _ | .flushAll _ => False
  | _ => True

namespace Ledger

variable {config : StateConfig} {now : Moment} {l : Ledger}

/-- **What an operation leaves of what is live.** -/
theorem spares_apply (h : l.flat.Sound config) (hpos : config.lifetimes.Positive) {op : TableOp}
    (hat : op.At now) (hgentle : op.Gentle) :
    l.Spares now (if op.isLookup then 1 else 0) (l.apply op).2 := by
  cases op with
  | install enabled rule request pkt t =>
    obtain rfl : t = now := hat t rfl
    exact spares_install h enabled rule request pkt
  | lookup pkt t =>
    obtain rfl : t = now := hat t rfl
    have hpos : l.config.lifetimes.Positive := by rwa [← l.config_flat, h.settings]
    exact spares_lookup hpos pkt
  | sweep t =>
    obtain rfl : t = now := hat t rfl
    exact spares_removeWhere h.accounted _
  | probe t =>
    obtain rfl : t = now := hat t rfl
    exact l.spares_probeDue
  | flush | flushRule | flushAll => exact hgentle.elim
  | setBuckets | size | report => exact .refl l

/-- **What operations at one moment leave of what is live then.** -/
theorem spares_run (h : l.flat.Sound config) (hpos : config.lifetimes.Positive) {ops : List TableOp}
    (hops : ∀ op ∈ ops, op.At now ∧ op.Gentle) :
    l.Spares now (ops.countP TableOp.isLookup) (l.run ops).2 := by
  induction ops generalizing l with
  | nil => exact .refl l
  | cons op ops ih =>
    obtain ⟨hat, hgentle⟩ := hops op List.mem_cons_self
    have hfirst := spares_apply h hpos hat hgentle
    have hsound : (l.apply op).2.flat.Sound config := by
      rw [l.flat_apply]
      exact h.apply op
    have hrest := ih hsound fun op' hop' => hops op' (List.mem_cons_of_mem op hop')
    rw [List.countP_cons, Nat.add_comm]
    exact hfirst.trans hrest

end Ledger

end PacketFilter
