import PacketFilter.Proofs.StateTable.Accounting
import PacketFilter.Proofs.StateTable.Ledger

/-!
# The life of an entry

An entry that packets can match is live until it expires, and expired entries lie in the table until
they are removed. `Ledger.Passes` says what any operation does at a moment: an entry that is no
parent and has expired at that moment stays as it is, and a new entry for a flow comes only where
there is no live one for that flow, in either direction. A parent counts no packets; its expiry is
set anew when a connection is asked for under its key, whether it has expired or not.

Expiry may go back as well as forward when a packet is charged, so that an entry once live for
longer than another one is not live for longer later on. Nothing here depends on it: that no two
live entries are of one flow is said of each moment, and what is not live at a moment was not live
at any later one.

Main statements: `Orderly.length_le_one`, a flow has at most one live entry at any moment from now
on; `install_cases`, creating state makes room and adds at most one entry that packets can match;
**`passes_run`**, what operations at one moment do to entries; **`live_of_run`**, they match only
entries that are live at that moment.
-/

namespace PacketFilter

/-- Flows that name one flow name one another. -/
theorem Flow.orientation_trans {f g h : Flow} (hfg : (f.orientation g).isSome = true)
    (hgh : (g.orientation h).isSome = true) : (f.orientation h).isSome = true := by
  obtain ⟨hp, hfg⟩ := orientation_isSome_iff.mp hfg
  obtain ⟨hp', hgh⟩ := orientation_isSome_iff.mp hgh
  refine orientation_isSome_iff.mpr ⟨hp.trans hp', ?_⟩
  simp only [sameEnds_iff, reversed] at hfg hgh ⊢
  rcases hfg with ⟨h₁, h₂, h₃, h₄⟩ | ⟨h₁, h₂, h₃, h₄⟩
  · rw [h₁, h₂, h₃, h₄]
    exact hgh
  · rw [h₁, h₂, h₃, h₄]
    rcases hgh with ⟨k₁, k₂, k₃, k₄⟩ | ⟨k₁, k₂, k₃, k₄⟩
    · exact Or.inr ⟨k₂, k₁, k₄, k₃⟩
    · exact Or.inl ⟨k₂, k₁, k₄, k₃⟩

/-! ## Moments of operations -/

namespace TableOp

/-- The moment at which an operation takes place, if it has one. -/
def moment? : TableOp → Option Moment
  | .install _ _ _ _ now | .lookup _ now | .sweep now | .flush _ now | .flushRule _ now
  | .flushAll now | .probe now | .report now => some now
  | .setBuckets _ | .size => none

/-- Does the operation take place at this moment? Some could take place at any. -/
def At (op : TableOp) (now : Moment) : Prop := ∀ t ∈ op.moment?, t = now

/-- Does the operation ask for a connection under the key, on behalf of the rule? -/
def AsksFor (op : TableOp) (rule : Rule) (key : Flow) : Prop :=
  match op with
  | .install true rule' (.limit parts _) pkt _ => rule'.id = rule.id ∧ pkt.flow.limitKey parts = key
  | _ => False

end TableOp

/-! ## One entry -/

namespace Entry

/-- **Could a packet match the entry?** It is no parent, and its time has not run out. -/
def Live (e : Entry) (now : Moment) : Prop := e.isParent = false ∧ now < e.expires

theorem isSome_direction_iff {e : Entry} {flow : Flow} {now : Moment} :
    (e.direction? flow now).isSome = true ↔
      e.Live now ∧ (e.flow.orientation flow).isSome = true := by
  have hnot : e.expires ≤ now ↔ ¬ now < e.expires := by
    rw [Moment.le_iff, Moment.lt_iff, Nat.not_lt]
  unfold direction? Live
  cases e.isParent with
  | true => simp
  | false =>
    cases e.flow.orientation flow with
    | none => simp
    | some forward =>
      by_cases hlive : now < e.expires <;> simp [isExpired, hnot, hlive]

variable {asked asked' : Rule → Flow → Prop} {now now' : Moment} {e e' e'' : Entry}

theorem Live.mono (h : e.Live now') (hle : now ≤ now') : e.Live now := by
  refine ⟨h.1, Moment.lt_iff.mpr ?_⟩
  exact Nat.lt_of_le_of_lt (Moment.le_iff.mp hle) (Moment.lt_iff.mp h.2)

/-- **What becomes of an entry at a moment**, and from then on, while connections are asked for
under some keys. -/
structure Endures (asked : Rule → Flow → Prop) (now : Moment) (e e' : Entry) : Prop where
  flow : e'.flow = e.flow
  rule : e'.rule = e.rule
  isParent : e'.isParent = e.isParent
  /-- An entry that has expired stays as it is. -/
  expired : e.isParent = false → e.expires ≤ now → e' = e
  /-- A parent counts no packets, and lives for longer only if a connection under it is asked
  for. -/
  parent : e.isParent = true → e'.packets = e.packets ∧ e'.bytes = e.bytes ∧
    (e'.expires = e.expires ∨ asked e.rule e.flow)

namespace Endures

theorem refl (e : Entry) : e.Endures asked now e :=
  ⟨rfl, rfl, rfl, fun _ _ => rfl, fun _ => ⟨rfl, rfl, Or.inl rfl⟩⟩

theorem trans (h : e.Endures asked now e') (h' : e'.Endures asked now e'') :
    e.Endures asked now e'' where
  flow := h'.flow.trans h.flow
  rule := h'.rule.trans h.rule
  isParent := h'.isParent.trans h.isParent
  expired hnot hle := by
    obtain rfl := h.expired hnot hle
    exact h'.expired hnot hle
  parent hparent := by
    obtain ⟨hpackets, hbytes, hexpires⟩ := h.parent hparent
    obtain ⟨hpackets', hbytes', hexpires'⟩ := h'.parent (h.isParent.trans hparent)
    refine ⟨hpackets'.trans hpackets, hbytes'.trans hbytes, ?_⟩
    rcases hexpires with hexpires | hasked
    · rw [h.rule, h.flow] at hexpires'
      exact hexpires'.imp_left fun heq => heq.trans hexpires
    · exact Or.inr hasked

/-- What holds from a moment on holds of all that has expired before. -/
theorem mono (h : e.Endures asked now' e') (hle : now ≤ now')
    (hasked : ∀ rule key, asked rule key → asked' rule key) : e.Endures asked' now e' where
  flow := h.flow
  rule := h.rule
  isParent := h.isParent
  expired hnot hexpired := by
    refine h.expired hnot (Moment.le_iff.mpr ?_)
    exact Nat.le_trans (Moment.le_iff.mp hexpired) (Moment.le_iff.mp hle)
  parent hparent := by
    obtain ⟨hpackets, hbytes, hexpires⟩ := h.parent hparent
    exact ⟨hpackets, hbytes, hexpires.imp_right (hasked _ _)⟩

/-- What is live was live. -/
theorem live (h : e.Endures asked now e') (hlive : e'.Live now) : e.Live now := by
  have hnot : e.isParent = false := h.isParent ▸ hlive.1
  refine ⟨hnot, Classical.byContradiction fun hover => ?_⟩
  have hle : e.expires ≤ now := by
    rw [Moment.lt_iff] at hover
    exact Moment.le_iff.mpr (Nat.not_lt.mp hover)
  obtain rfl := h.expired hnot hle
  exact hover hlive.2

/-- A parent changes nothing but its number of connections. -/
theorem of_parent (hparent : e.isParent = true) {n : Nat} :
    e.Endures asked now { e with role := .parent n } where
  flow := rfl
  rule := rfl
  isParent := hparent.symm
  expired hnot := by rw [hparent] at hnot; cases hnot
  parent _ := ⟨rfl, rfl, Or.inl rfl⟩

/-- A live entry may change its times and counters. -/
theorem of_live (hlive : e.Live now) (hbare : e'.bare = e.bare) : e.Endures asked now e' := by
  obtain ⟨hflow, hrole, hrule⟩ := of_bare_eq hbare
  refine ⟨hflow, hrule, by simp only [Entry.isParent, hrole], fun _ hexpired => ?_,
    fun hparent => ?_⟩
  · have hlt := Moment.lt_iff.mp hlive.2
    have hle := Moment.le_iff.mp hexpired
    omega
  · rw [hlive.1] at hparent
    cases hparent

theorem release (e : Entry) (removed : List Entry) : e.Endures asked now (e.release removed) := by
  cases hparent : e.isParent with
  | false =>
    rw [release_of_not_isParent hparent]
    exact refl e
  | true =>
    unfold Entry.release
    rw [role_of_isParent hparent]
    exact of_parent hparent

end Endures

end Entry

namespace Ledger

variable {asked asked' : Rule → Flow → Prop} {now now' : Moment} {l l' l'' : Ledger}

/-! ## Ledgers in order -/

/-- **Each entry has a number of its own, and no two live entries are of one flow.** -/
structure Orderly (now : Moment) (l : Ledger) : Prop where
  below : ∀ x ∈ l.entries, x.1 < l.next
  nodup : (l.entries.map Prod.fst).Nodup
  sole : ∀ x ∈ l.entries, ∀ y ∈ l.entries, x.2.Live now → y.2.Live now →
    (x.2.flow.orientation y.2.flow).isSome = true → x.1 = y.1

namespace Orderly

theorem distinct (h : l.Orderly now) : l.Distinct := ⟨h.nodup, h.below⟩

theorem new (config : StateConfig) : Orderly now { config } where
  below _ hx := absurd hx List.not_mem_nil
  nodup := List.nodup_nil
  sole _ hx := absurd hx List.not_mem_nil

/-- What has expired does not come back to life by itself. -/
theorem mono (h : l.Orderly now) (hle : now ≤ now') : l.Orderly now' :=
  ⟨h.below, h.nodup, fun x hx y hy hlive hlive' =>
    h.sole x hx y hy (hlive.mono hle) (hlive'.mono hle)⟩

/-- **A flow has at most one live entry**, in either direction, at any moment from now on. -/
theorem length_le_one (h : l.Orderly now) (hle : now ≤ now') (flow : Flow) :
    (l.flat.entries.filter fun e => (e.direction? flow now').isSome).length ≤ 1 := by
  simp only [entries_flat, List.filter_map, Function.comp_def, List.length_map]
  have hnodup := h.nodup.sublist ((List.filter_sublist (l := l.entries)
    (p := fun x => (x.2.direction? flow now').isSome)).map Prod.fst)
  have hlive : ∀ x ∈ l.entries.filter fun x => (x.2.direction? flow now').isSome,
      x ∈ l.entries ∧ x.2.Live now ∧ (x.2.flow.orientation flow).isSome = true := fun x hx => by
    obtain ⟨hmem, hsome⟩ := List.mem_filter.mp hx
    obtain ⟨hlive, hflow⟩ := Entry.isSome_direction_iff.mp hsome
    exact ⟨hmem, hlive.mono hle, hflow⟩
  generalize l.entries.filter (fun x => (x.2.direction? flow now').isSome) = live at hnodup hlive ⊢
  rcases live with _ | ⟨x, _ | ⟨y, rest⟩⟩
  · exact Nat.zero_le 1
  · exact Nat.le_refl 1
  · obtain ⟨hx, hlivex, hflow⟩ := hlive x List.mem_cons_self
    obtain ⟨hy, hlivey, hflow'⟩ := hlive y (List.mem_cons_of_mem _ List.mem_cons_self)
    rw [Flow.orientation_comm] at hflow'
    have hsame := h.sole x hx y hy hlivex hlivey (Flow.orientation_trans hflow hflow')
    rw [List.map_cons, List.map_cons, hsame] at hnodup
    exact absurd List.mem_cons_self (List.nodup_cons.mp hnodup).1

end Orderly

/-! ## What an operation does -/

/-- **What has become of the entries**: what has a number that was given out before is an entry that
was there, as it is now. -/
structure Keeps (asked : Rule → Flow → Prop) (now : Moment) (l l' : Ledger) : Prop where
  next_le : l.next ≤ l'.next
  old : ∀ x ∈ l'.entries, x.1 < l.next → ∃ e, (x.1, e) ∈ l.entries ∧ e.Endures asked now x.2

theorem Keeps.refl (l : Ledger) : l.Keeps asked now l :=
  ⟨Nat.le_refl _, fun x hx _ => ⟨x.2, hx, .refl _⟩⟩

theorem Keeps.trans (h : l.Keeps asked now l') (h' : l'.Keeps asked now l'') :
    l.Keeps asked now l'' := by
  refine ⟨Nat.le_trans h.next_le h'.next_le, fun x hx hold => ?_⟩
  obtain ⟨e', he', hendures'⟩ := h'.old x hx (Nat.lt_of_lt_of_le hold h.next_le)
  obtain ⟨e, he, hendures⟩ := h.old (x.1, e') he' hold
  exact ⟨e, he, hendures.trans hendures'⟩

theorem Keeps.mono (h : l.Keeps asked now' l') (hle : now ≤ now')
    (hasked : ∀ rule key, asked rule key → asked' rule key) : l.Keeps asked' now l' := by
  refine ⟨h.next_le, fun x hx hold => ?_⟩
  obtain ⟨e, he, hendures⟩ := h.old x hx hold
  exact ⟨e, he, hendures.mono hle hasked⟩

/-- **What an operation does at a moment.** -/
structure Passes (asked : Rule → Flow → Prop) (now : Moment) (l l' : Ledger) : Prop
    extends Keeps asked now l l' where
  orderly : l.Orderly now → l'.Orderly now

namespace Passes

theorem refl (l : Ledger) : l.Passes asked now l := ⟨.refl l, id⟩

theorem trans (h : l.Passes asked now l') (h' : l'.Passes asked now l'') :
    l.Passes asked now l'' :=
  ⟨h.toKeeps.trans h'.toKeeps, h'.orderly ∘ h.orderly⟩

theorem mono (h : l.Passes asked now l') (hasked : ∀ rule key, asked rule key → asked' rule key) :
    l.Passes asked' now l' :=
  ⟨h.toKeeps.mono (Moment.le_iff.mpr (Nat.le_refl _)) hasked, h.orderly⟩

/-- Removing entries, and changing others where they are. -/
theorem of_sublist {es : List (Nat × Entry)}
    (hnumbers : (es.map Prod.fst).Sublist (l.entries.map Prod.fst))
    (hold : ∀ x ∈ es, ∃ e, (x.1, e) ∈ l.entries ∧ e.Endures asked now x.2) :
    l.Passes asked now { l with entries := es } := by
  refine ⟨⟨Nat.le_refl _, fun x hx _ => hold x hx⟩, fun h => ?_⟩
  have hdistinct := h.distinct.of_sublist hnumbers
  refine ⟨hdistinct.below, hdistinct.nodup, fun x hx y hy hlive hlive' hflow => ?_⟩
  obtain ⟨e, he, hendures⟩ := hold x hx
  obtain ⟨e', he', hendures'⟩ := hold y hy
  rw [hendures.flow, hendures'.flow] at hflow
  exact h.sole (x.1, e) he (y.1, e') he' (hendures.live hlive) (hendures'.live hlive') hflow

theorem keep (l : Ledger) (p : Entry → Bool) : l.Passes asked now (l.keep p) :=
  of_sublist (List.filter_sublist.map _) fun x hx => ⟨x.2, (List.mem_filter.mp hx).1, .refl _⟩

theorem change {f : Entry → Entry} (hf : ∀ e : Entry, e.Endures asked now (f e)) (l : Ledger) :
    l.Passes asked now (l.change f) := by
  refine of_sublist ?_ fun x hx => ?_
  · rw [List.map_map]
    exact List.Sublist.refl _
  · obtain ⟨x₀, hx₀, rfl⟩ := List.mem_map.mp hx
    exact ⟨x₀.2, hx₀, hf x₀.2⟩

/-- A new entry that is not live, or whose flow has no live entry. -/
theorem insert {e : Entry} (hnew : e.Live now → ∀ x ∈ l.entries, x.2.Live now →
    ¬ (x.2.flow.orientation e.flow).isSome = true) : l.Passes asked now (l.insert e) := by
  refine ⟨⟨Nat.le_succ _, fun x hx hold => ?_⟩, fun h => ?_⟩
  · rcases List.mem_cons.mp hx with rfl | hx
    · exact absurd hold (Nat.lt_irrefl _)
    · exact ⟨x.2, hx, .refl _⟩
  · have hdistinct := h.distinct.insert e
    refine ⟨hdistinct.below, hdistinct.nodup, fun x hx y hy hlive hlive' hflow => ?_⟩
    rcases List.mem_cons.mp hx with rfl | hx <;> rcases List.mem_cons.mp hy with rfl | hy
    · rfl
    · rw [Flow.orientation_comm] at hflow
      exact absurd hflow (hnew hlive y hy hlive')
    · exact absurd hflow (hnew hlive' x hx hlive)
    · exact h.sole x hx y hy hlive hlive' hflow

end Passes

/-- **What making room does**: no entry comes that packets could match, and none changes. -/
structure MakesRoom (asked : Rule → Flow → Prop) (now : Moment) (l l' : Ledger) : Prop
    extends Passes asked now l l' where
  quiet : ∀ x ∈ l'.entries, x.2.isParent = false → x ∈ l.entries

namespace MakesRoom

theorem refl (l : Ledger) : l.MakesRoom asked now l := ⟨.refl l, fun _ hx _ => hx⟩

theorem trans (h : l.MakesRoom asked now l') (h' : l'.MakesRoom asked now l'') :
    l.MakesRoom asked now l'' :=
  ⟨h.toPasses.trans h'.toPasses, fun x hx hnot => h.quiet x (h'.quiet x hx hnot) hnot⟩

theorem keep (l : Ledger) (p : Entry → Bool) : l.MakesRoom asked now (l.keep p) :=
  ⟨.keep l p, fun _ hx _ => (List.mem_filter.mp hx).1⟩

/-- Changing parents only. -/
theorem change {f : Entry → Entry} (hf : ∀ e : Entry, e.Endures asked now (f e))
    (hparents : ∀ e : Entry, e.isParent = false → f e = e) (l : Ledger) :
    l.MakesRoom asked now (l.change f) := by
  refine ⟨.change hf l, fun x hx hnot => ?_⟩
  obtain ⟨x₀, hx₀, rfl⟩ := List.mem_map.mp hx
  have hnot : x₀.2.isParent = false := (hf x₀.2).isParent ▸ hnot
  rw [hparents x₀.2 hnot]
  exact hx₀

theorem insert {e : Entry} (hparent : e.isParent = true) (l : Ledger) :
    l.MakesRoom asked now (l.insert e) := by
  refine ⟨.insert fun hlive => ?_, fun x hx hnot => ?_⟩
  · rw [hlive.1] at hparent
    cases hparent
  · rcases List.mem_cons.mp hx with rfl | hx
    · rw [hparent] at hnot
      cases hnot
    · exact hx

/-- A flow without a live entry has none afterwards. -/
theorem not_live (h : l.MakesRoom asked now l') {flow : Flow}
    (hnone : l.flat.holdsLive flow now = false) :
    ∀ x ∈ l'.entries, x.2.Live now → ¬ (x.2.flow.orientation flow).isSome = true := by
  intro x hx hlive hflow
  have hmem : x.2 ∈ l.flat.entries := List.mem_map_of_mem (h.quiet x hx hlive.1)
  have hsome := Entry.isSome_direction_iff.mpr ⟨hlive, hflow⟩
  exact absurd hsome (by simpa using List.any_eq_false.mp hnone x.2 hmem)

end MakesRoom

/-! ## Making room -/

theorem makesRoom_removeWhere (l : Ledger) (selected : Entry → Bool) (force : Bool) :
    l.MakesRoom asked now (l.removeWhere selected force now) := by
  unfold removeWhere
  refine .trans (.trans (.keep l _) (.change (fun e => .release e _) ?_ _)) (.keep _ _)
  exact fun e hnot => Entry.release_of_not_isParent hnot _

theorem makesRoom_reserve (l : Ledger) (need : Nat) :
    l.MakesRoom asked now (l.reserve need now).2 :=
  reserve_keeps (P := l.MakesRoom asked now)
    (fun l' selected h => h.trans (l'.makesRoom_removeWhere selected false)) (.refl l) need

/-- Changing parents for a rule and a key. -/
theorem makesRoom_modifyParent (l : Ledger) {rule : Rule} {key : Flow} {f : Entry → Entry}
    (hf : ∀ p : Entry, p.isParentFor rule key = true → p.Endures asked now (f p)) :
    l.MakesRoom asked now (l.modifyParent rule key f) := by
  refine MakesRoom.change (fun e => ?_) (fun e hnot => if_neg fun hfor => ?_) l
  · split
    · exact hf e ‹_›
    · exact .refl e
  · rw [(Entry.isParentFor_iff.mp hfor).1] at hnot
    cases hnot

theorem makesRoom_touchParent (l : Ledger) {rule : Rule} {key : Flow}
    (hasked : ∀ rule' : Rule, rule.id = rule'.id → asked rule' key) :
    l.MakesRoom asked now (l.touchParent rule key now) := by
  refine l.makesRoom_modifyParent fun p hfor => ?_
  obtain ⟨hparent, hid, rfl⟩ := Entry.isParentFor_iff.mp hfor
  refine ⟨rfl, rfl, rfl, fun hnot => ?_, fun _ => ⟨rfl, rfl, Or.inr (hasked _ hid.symm)⟩⟩
  rw [hparent] at hnot
  cases hnot

theorem makesRoom_openParent (l : Ledger) {rule : Rule} {key : Flow}
    (hasked : ∀ rule' : Rule, rule.id = rule'.id → asked rule' key) :
    l.MakesRoom asked now (l.openParent rule key now).2 :=
  openParent_keeps (P := l.MakesRoom asked now)
    (fun l' selected h => h.trans (l'.makesRoom_removeWhere selected false))
    (fun l' h => h.trans (l'.makesRoom_touchParent hasked))
    (fun l' h => h.trans (.insert rfl l')) (.refl l)

theorem makesRoom_makeWay (l : Ledger) (rule : Rule) (key : Flow) (limit : Nat) :
    l.MakesRoom asked now (l.makeWay rule key limit now) :=
  makeWay_keeps (P := l.MakesRoom asked now)
    (fun l' selected h => h.trans (l'.makesRoom_removeWhere selected false)) (.refl l) limit

/-! ## Operations -/

/-- **What creating state does**: room is made, and then there may come one entry that packets can
match, of the rule that asks, for a flow that has no live one. -/
theorem install_cases (l : Ledger) (enabled : Bool) (rule : Rule) (request : StateRequest)
    (pkt : Packet) (now : Moment) :
    ∃ l', l.MakesRoom (TableOp.AsksFor (.install enabled rule request pkt now)) now l' ∧
      (l.install enabled rule request pkt now = l' ∨
        ∃ e : Entry, e.flow = pkt.flow ∧ e.rule = rule ∧ l.flat.holdsLive pkt.flow now = false ∧
          l.install enabled rule request pkt now = l'.insert e) := by
  unfold install
  cases enabled with
  | false => exact ⟨l, .refl l, Or.inl rfl⟩
  | true =>
    simp only [Bool.not_true, Bool.false_eq_true, if_false]
    by_cases hlive : l.flat.holdsLive pkt.flow now = true
    · rw [if_pos hlive]
      exact ⟨l, .refl l, Or.inl rfl⟩
    rw [if_neg hlive]
    have hnone := Bool.eq_false_iff.mpr hlive
    cases request with
    | keepState =>
      have h₁ : l.MakesRoom (TableOp.AsksFor (.install true rule .keepState pkt now)) now
          (l.reserve 1 now).2 := l.makesRoom_reserve 1
      rcases hx : l.reserve 1 now with ⟨ok, l₁⟩
      rw [hx] at h₁
      cases ok with
      | false => exact ⟨l₁, h₁, Or.inl rfl⟩
      | true =>
        exact ⟨l₁, h₁, Or.inr ⟨_, FlatTable.flow_freshEntry _ _ _, FlatTable.rule_freshEntry _ _ _,
          hnone, rfl⟩⟩
    | limit parts connections =>
      have h₁ : l.MakesRoom
          (TableOp.AsksFor (.install true rule (.limit parts connections) pkt now)) now
          (l.openParent rule (pkt.flow.limitKey parts) now).2 :=
        l.makesRoom_openParent fun _ hid => ⟨hid, rfl⟩
      simp only
      rcases hx : l.openParent rule (pkt.flow.limitKey parts) now with ⟨ok, l₁⟩
      rw [hx] at h₁
      cases ok with
      | false => exact ⟨l₁, h₁, Or.inl rfl⟩
      | true =>
        have h₂ := h₁.trans (l₁.makesRoom_makeWay rule (pkt.flow.limitKey parts)
          connections.toNat)
        simp only
        generalize l₁.makeWay rule (pkt.flow.limitKey parts) connections.toNat now = l₂ at h₂
        split
        · exact ⟨l₂, h₂, Or.inl rfl⟩
        · generalize hnew : l₂.flat.freshEntry pkt (.child (pkt.flow.limitKey parts)) rule now = e
          have hflow : e.flow = pkt.flow := by rw [← hnew, FlatTable.flow_freshEntry]
          have hrule : e.rule = rule := by rw [← hnew, FlatTable.rule_freshEntry]
          have hcount : l₂.MakesRoom (TableOp.AsksFor
              (.install true rule (.limit parts connections) pkt now)) now
              (l₂.modifyParent e.rule (pkt.flow.limitKey parts) fun p =>
                { p with role := .parent (p.children + 1) }) :=
            l₂.makesRoom_modifyParent fun p hfor => .of_parent (Entry.isParentFor_iff.mp hfor).1
          exact ⟨_, h₂.trans hcount, Or.inr ⟨e, hflow, hrule, hnone, rfl⟩⟩

/-- **Creating state**: an entry comes only where its flow has no live one. -/
theorem passes_install (l : Ledger) (enabled : Bool) (rule : Rule) (request : StateRequest)
    (pkt : Packet) :
    l.Passes (TableOp.AsksFor (.install enabled rule request pkt now)) now
      (l.install enabled rule request pkt now) := by
  obtain ⟨l', hroom, heq | ⟨e, hflow, -, hnone, heq⟩⟩ :=
    l.install_cases enabled rule request pkt now
  · rw [heq]
    exact hroom.toPasses
  · rw [heq]
    refine hroom.toPasses.trans (.insert fun _ => ?_)
    rw [hflow]
    exact hroom.not_live hnone

/-- A packet is charged to an entry that it matches. -/
theorem chargeNumbered_eq_some {pkt : Packet} {lifetimes : Lifetimes} {i : Nat} {hit : StateHit} :
    ∀ {es es' : List (Nat × Entry)},
      chargeNumbered pkt lifetimes now es = some ((i, hit), es') →
      ∃ pre e post, es = pre ++ (i, e) :: post ∧
        e.direction? pkt.flow now = some hit.direction ∧
        hit.entry = e.charge pkt hit.direction lifetimes now ∧
        es' = pre ++ (i, hit.entry) :: post
  | [], _, h => by simp [chargeNumbered] at h
  | (j, e) :: es, es', h => by
    simp only [chargeNumbered] at h
    split at h
    · rename_i dir heq
      cases h
      exact ⟨[], e, es, rfl, heq, rfl, rfl⟩
    · split at h
      · rename_i hr
        cases h
        obtain ⟨pre, x, post, rfl, hmatch, hcharge, rfl⟩ := chargeNumbered_eq_some hr
        exact ⟨(j, e) :: pre, x, post, rfl, hmatch, hcharge, rfl⟩
      · cases h

/-- A lookup finds nothing and does nothing, or finds an entry that is live and charges it. -/
theorem lookup_cases (l : Ledger) (pkt : Packet) (now : Moment) :
    l.lookup pkt now = (none, l) ∨
      ∃ i hit pre e post, l.entries = pre ++ (i, e) :: post ∧ e.Live now ∧
        hit.entry = e.charge pkt hit.direction l.config.lifetimes now ∧
        l.lookup pkt now =
          (some (i, hit), { l with entries := pre ++ (i, hit.entry) :: post }) := by
  unfold lookup
  split
  · rename_i hit es hcharge
    obtain ⟨pre, e, post, hes, hmatch, hentry, rfl⟩ := chargeNumbered_eq_some hcharge
    have hlive := (Entry.isSome_direction_iff.mp (Option.isSome_of_eq_some hmatch)).1
    exact Or.inr ⟨hit.1, hit.2, pre, e, post, hes, hlive, hentry, rfl⟩
  · exact Or.inl rfl

/-- **A lookup** changes no entry but a live one. -/
theorem passes_lookup (l : Ledger) (pkt : Packet) : l.Passes asked now (l.lookup pkt now).2 := by
  rcases l.lookup_cases pkt now with hnone | ⟨i, hit, pre, e, post, hes, hlive, hentry, hfound⟩
  · rw [hnone]
    exact .refl l
  rw [hfound]
  refine .of_sublist ?_ fun x hx => ?_
  · rw [hes]
    simp
  · rw [hes]
    rcases List.mem_append.mp hx with hx | hx
    · exact ⟨x.2, List.mem_append_left _ hx, .refl _⟩
    rcases List.mem_cons.mp hx with rfl | hx
    · refine ⟨e, List.mem_append_right _ List.mem_cons_self, .of_live hlive ?_⟩
      rw [hentry, Entry.bare_charge]
    · exact ⟨x.2, List.mem_append_right _ (List.mem_cons_of_mem _ hx), .refl _⟩

/-- A packet matches only an entry that is live. -/
theorem live_of_lookup {pkt : Packet} {hit : Nat × StateHit} (h : hit ∈ (l.lookup pkt now).1) :
    ∃ e, (hit.1, e) ∈ l.entries ∧ e.Live now := by
  rcases l.lookup_cases pkt now with hnone | ⟨i, hit', pre, e, post, hes, hlive, -, hfound⟩
  · rw [hnone] at h
    cases h
  · rw [hfound] at h
    cases h
    rw [hes]
    exact ⟨e, List.mem_append_right _ List.mem_cons_self, hlive⟩

/-- Only entries that are live are probed. -/
theorem passes_probeDue (l : Ledger) : l.Passes asked now (l.probeDue now) := by
  refine .change (fun e => ?_) l
  split
  · rename_i hdue
    simp only [FlatTable.isDue, Entry.isDue, Bool.and_eq_true, Bool.not_eq_true',
      decide_eq_true_eq] at hdue
    refine .of_live ⟨?_, ?_⟩ rfl
    · exact hdue.2.1.1.1.1.1.1.1
    · exact hdue.2.1.1.1.1.2
  · exact .refl e

/-- **What an operation does at its moment**: entries that have expired stay as they are. -/
theorem passes_apply (l : Ledger) {op : TableOp} (hop : op.At now) :
    l.Passes op.AsksFor now (l.apply op).2 := by
  cases op with
  | install enabled rule request pkt t =>
    obtain rfl : t = now := hop t rfl
    exact l.passes_install enabled rule request pkt
  | lookup pkt t =>
    obtain rfl : t = now := hop t rfl
    exact l.passes_lookup pkt
  | sweep t =>
    obtain rfl : t = now := hop t rfl
    exact (l.makesRoom_removeWhere _ false).toPasses
  | flush selected t =>
    obtain rfl : t = now := hop t rfl
    exact (l.makesRoom_removeWhere selected true).toPasses
  | flushRule rule t =>
    obtain rfl : t = now := hop t rfl
    exact (l.makesRoom_removeWhere _ true).toPasses
  | flushAll t =>
    obtain rfl : t = now := hop t rfl
    exact (l.makesRoom_removeWhere _ true).toPasses
  | probe t =>
    obtain rfl : t = now := hop t rfl
    exact l.passes_probeDue
  | setBuckets n => exact .refl l
  | size => exact .refl l
  | report t => exact .refl l

/-- An operation matches only an entry that is live. -/
theorem live_of_apply {op : TableOp} (hop : op.At now) {i : Nat} (hi : i ∈ (l.apply op).1) :
    ∃ e, (i, e) ∈ l.entries ∧ e.Live now := by
  cases op with
  | lookup pkt t =>
    obtain rfl : t = now := hop t rfl
    obtain ⟨hit, hhit, rfl⟩ := Option.map_eq_some_iff.mp hi
    exact live_of_lookup hhit
  | _ => cases hi

variable {ops : List TableOp}

/-- **What operations at one moment do to entries.** -/
theorem passes_run (l : Ledger) (hops : ∀ op ∈ ops, op.At now) :
    l.Passes (fun rule key => ∃ op ∈ ops, op.AsksFor rule key) now (l.run ops).2 := by
  induction ops generalizing l with
  | nil => exact .refl l
  | cons op ops ih =>
    have hfirst := l.passes_apply (hops op List.mem_cons_self)
    have hrest := ih (l.apply op).2 fun op' hop' => hops op' (List.mem_cons_of_mem op hop')
    refine (hfirst.mono fun rule key hasks => ⟨op, List.mem_cons_self, hasks⟩).trans
      (hrest.mono fun rule key hasks => ?_)
    obtain ⟨op', hop', hasks⟩ := hasks
    exact ⟨op', List.mem_cons_of_mem op hop', hasks⟩

/-- **An entry that operations at one moment match is live at that moment**, if it was there
before. -/
theorem live_of_run (hops : ∀ op ∈ ops, op.At now) {i : Nat} (hi : i ∈ (l.run ops).1)
    (hold : i < l.next) : ∃ e, (i, e) ∈ l.entries ∧ e.Live now := by
  induction ops generalizing l with
  | nil => exact absurd hi List.not_mem_nil
  | cons op ops ih =>
    have hop := hops op List.mem_cons_self
    rcases List.mem_append.mp hi with hi | hi
    · exact live_of_apply hop (Option.mem_toList.mp hi)
    · have hfirst := l.passes_apply hop
      obtain ⟨e', he', hlive⟩ := ih (fun op' hop' => hops op' (List.mem_cons_of_mem op hop')) hi
        (Nat.lt_of_lt_of_le hold hfirst.next_le)
      obtain ⟨e, he, hendures⟩ := hfirst.old (i, e') he' hold
      exact ⟨e, he, hendures.live hlive⟩

end Ledger

end PacketFilter
