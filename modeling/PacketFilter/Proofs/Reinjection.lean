import PacketFilter.Proofs.Decision
import PacketFilter.Proofs.Front

/-!
# Packets that come back make progress

A packet that comes back with a rule starts behind it. From there on the front of its walk goes on,
and the rule that decides stands behind the one before, unless state is found that leads back. Such
state was in the table before the packet came back: on its way to the lookup the packet asks for
state only on behalf of rules that it has come to, and those stand behind the rule with which it
came back.

Where it is not led back, a packet is handed out by rules that stand further and further behind, of
which there are no more than the chain has.

Main statements: `Walk.ahead_next`, what a step does to a walk that is ahead of a position;
`Coherent.check_advances`, which rule decides a packet that comes back; **`reinjection_advances`**,
in every session packets that come back make progress, unless they match state that a rule created
which stands where they come from or before; `reinjection_returns`, a packet that does, and comes
back for ever.
-/

namespace PacketFilter

/-! ## State that was there -/

namespace Ledger

variable {env : Surroundings} {pkt : Packet} {G : Rule → Prop} {l : Ledger}

/-- **Without a lookup**, an entry that packets can match was there before, or is of a rule that has
asked for it. -/
theorem mem_of_asked {ops : List TableOp} (hops : ∀ op ∈ ops, op.Asked env pkt G)
    (hnone : ops.countP TableOp.isLookup = 0) :
    ∀ x ∈ (l.run ops).2.entries, x.2.isParent = false → x ∈ l.entries ∨ G x.2.rule := by
  induction ops generalizing l with
  | nil => exact fun x hx _ => Or.inl hx
  | cons op ops ih =>
    intro x hx hnot
    rw [List.countP_cons, Nat.add_eq_zero_iff] at hnone
    rcases ih (fun op' hop' => hops op' (List.mem_cons_of_mem op hop')) hnone.1 x hx hnot with
      hmem | hrule
    · have hop := hops op List.mem_cons_self
      cases hop with
      | lookup => exact absurd hnone.2 (by simp [TableOp.isLookup])
      | @install enabled rule hrule request =>
        obtain ⟨l', hroom, heq | ⟨e, -, hcreator, -, heq⟩⟩ :=
          l.install_cases enabled rule request pkt env.now
        · exact Or.inl (hroom.quiet x (heq ▸ hmem) hnot)
        · have hmem : x ∈ (l'.insert e).entries := heq ▸ hmem
          rcases List.mem_cons.mp hmem with rfl | hmem
          · exact Or.inr (hcreator ▸ hrule)
          · exact Or.inl (hroom.quiet x hmem hnot)
    · exact Or.inr hrule

end Ledger

section

variable {env : Surroundings} {pkt : Packet} {G : Rule → Prop}

/-- **State that is found** was in the table at the outset, or is of a rule that has asked for it on
the way. -/
theorem exists_of_consult {config : StateConfig} {p p' p'' : Progress} {ops : List TableOp}
    {charged : List Rule} {creator : Rule} (hsound : p.engine.states.Sound config)
    (hunasked : p.asked = false) (hleft : Footprint env pkt G p ops charged p')
    (hconsult : consult env pkt p' = (some creator, p'')) :
    p''.direction.isSome = true ∧
      (G creator ∨ ∃ e ∈ p.engine.states.entries,
        (e.direction? pkt.flow env.now).isSome = true ∧ e.rule = creator) := by
  have hasked : p'.asked = false :=
    asked_eq_false_of_consult env pkt (congrArg Prod.fst hconsult)
  have hnone : ops.countP TableOp.isLookup = 0 := by
    have hlookups := hleft.lookups
    simp only [Progress.lookupsLeft, hunasked, hasked] at hlookups
    simpa using hlookups
  unfold consult at hconsult
  split at hconsult
  · cases hconsult
  · simp only [Prod.mk.injEq] at hconsult
    obtain ⟨hcreator, rfl⟩ := hconsult
    obtain ⟨hit, hhit, rfl⟩ := Option.map_eq_some_iff.mp hcreator
    refine ⟨by rw [Progress.direction, hhit]; rfl, ?_⟩
    obtain ⟨x, hx, hdirection, hrule⟩ := StateTable.exists_of_lookup hhit
    have hmatches : (x.direction? pkt.flow env.now).isSome = true := by rw [hdirection]; rfl
    -- The entry is looked for in the list that the table refines, under a number.
    obtain ⟨t, hrefines, -⟩ := hsound
    have hafter := (hrefines.run_refines ops).2
    rw [hleft.states, ← t.flat_numbered, ← Ledger.flat_run] at hafter
    obtain ⟨⟨i, x⟩, hmem, rfl⟩ := List.mem_map.mp (hafter.entries_perm.mem_iff.mp hx)
    have hnot := (Entry.isSome_direction_iff.mp hmatches).1.1
    rcases Ledger.mem_of_asked hleft.asked hnone _ hmem hnot with hmem | hG
    · have hflat : x ∈ t.numbered.flat.entries := List.mem_map_of_mem hmem
      rw [t.flat_numbered] at hflat
      exact Or.inr ⟨x, hrefines.entries_perm.mem_iff.mpr hflat, hmatches, hrule⟩
    · exact Or.inl (hrule ▸ hG)

/-- A packet that has matched state has matched it from then on. -/
theorem Footprint.direction {p p' : Progress} {ops : List TableOp} {charged : List Rule}
    (h : Footprint env pkt G p ops charged p') (hmatched : p.direction.isSome = true) :
    p'.direction.isSome = true := by
  cases hlookup : p.lookup with
  | none =>
    rw [Progress.direction, hlookup] at hmatched
    cases hmatched
  | some found =>
    rw [Progress.direction, h.kept found hlookup]
    rwa [Progress.direction, hlookup] at hmatched

end

/-! ## Walks that are ahead -/

/-- Does a rule stand behind a position? -/
def Chain.Behind (c : Chain) (i : Nat) (r : Rule) : Prop := ∃ j, c.indexOf? r = some j ∧ i < j

/-- **Is there live state for a flow of a rule that stands at a position or before?** -/
def Engine.HoldsUpTo (e : Engine) (c : Chain) (flow : Flow) (now : Moment) (i : Nat) : Prop :=
  ∃ x ∈ e.states.entries, (x.direction? flow now).isSome = true ∧
    ∃ j, c.indexOf? x.rule = some j ∧ j ≤ i

section

variable (env : Surroundings) (pkt : Packet) (e : Engine) (i : Nat)

/-- **A walk that is ahead of a position**, and has left behind what rules behind it do. -/
structure Walk.Ahead (w : Walk) : Prop where
  front : i < w.front env
  left : ∃ ops charged,
    Footprint env pkt (env.chain.Behind i) { engine := e } ops charged w.progress

/-- **A walk that was led back** by state that was in the table at the outset. -/
structure Walk.LedBack (w : Walk) : Prop where
  matched : w.progress.direction.isSome = true
  found : e.HoldsUpTo env.chain pkt.flow env.now i

variable {env pkt e i} {w w' : Walk}

/-- A walk that is ahead of a position runs rules that stand behind it. -/
theorem Walk.Ahead.behind (hids : (env.chain.rules.map Rule.id).Nodup)
    (hw : w.Underway env pkt e) (h : w.Ahead env pkt e i) {rule : Rule} {is : List Insn}
    (hbody : w.body? env = some (rule, is)) : env.chain.Behind i rule := by
  obtain ⟨j, hindex, -⟩ := Chain.exists_indexOf? hids (hw.inService hbody).1
  exact ⟨j, hindex, Nat.lt_of_lt_of_le h.front (Walk.front_le_of_body hids hbody hindex)⟩

/-- **A step of a walk that is ahead of a position** leaves it ahead, unless state leads it back. -/
theorem Walk.ahead_next (hids : (env.chain.rules.map Rule.id).Nodup)
    (he : e.Within (env.InService e)) (hw : w.Underway env pkt e) (h : w.Ahead env pkt e i)
    (hnext : w.next env pkt = .inl w') : w'.Ahead env pkt e i ∨ w'.LedBack env pkt e i := by
  obtain ⟨hfront, ops, charged, hleft⟩ := h
  obtain ⟨⟨ops', hmore⟩, hfinds⟩ :=
    Walk.next_footprint (fun rule is hbody => Walk.Ahead.behind hids hw ⟨hfront, _, _, hleft⟩ hbody)
      hnext
  have hleft' := hleft.trans hmore
  rcases Walk.front_next hids (fun rule is hbody => (hw.inService hbody).1) hnext with
    ⟨-, hlater⟩ | ⟨rule, j, -, -, hj, hbehind⟩ | ⟨creator, hcursor, -⟩
  · exact Or.inl ⟨Nat.lt_of_lt_of_le hfront hlater, _, _, hleft'⟩
  · exact Or.inl ⟨by omega, _, _, hleft'⟩
  · have hfollows := (hw.next he hnext).follows
    rw [hcursor] at hfollows
    obtain ⟨j, hindex, -⟩ := Chain.exists_indexOf? hids hfollows.1.1
    by_cases hj : i < j
    · have hposition := w.front_le_position env
      refine Or.inl ⟨?_, _, _, hleft'⟩
      rw [Walk.front_following hcursor hindex]
      omega
    · obtain ⟨config, hsound⟩ := he.1
      obtain ⟨ops₁, p₁, hbefore, hconsult⟩ := hfinds creator _ hcursor
      obtain ⟨hmatched, ⟨j', hindex', hbehind⟩ | ⟨x, hx, hmatches, rfl⟩⟩ :=
        exists_of_consult hsound rfl (hleft.trans hbefore) hconsult
      · rw [hindex] at hindex'
        cases hindex'
        exact absurd hbehind hj
      · exact Or.inr ⟨hmatched, x, hx, hmatches, j, hindex, Nat.not_lt.mp hj⟩

/-- A walk that was led back has been so from then on. -/
theorem Walk.LedBack.next (h : w.LedBack env pkt e i) (hnext : w.next env pkt = .inl w') :
    w'.LedBack env pkt e i := by
  obtain ⟨⟨ops, hleft⟩, -⟩ := Walk.next_footprint (G := fun _ => True) (fun _ _ _ => trivial) hnext
  exact ⟨hleft.direction h.matched, h.found⟩

/-- **The rule that decides** stands behind the position, unless state has led the walk back. -/
theorem Walk.Ahead.run (hids : (env.chain.rules.map Rule.id).Nodup)
    (he : e.Within (env.InService e)) (hw : w.Underway env pkt e) (h : w.Ahead env pkt e i)
    {rule : Rule} (hrule : (Walk.run env pkt w).1.rule = some rule) :
    env.chain.Behind i rule ∨ (Walk.run env pkt w).1.direction.isSome = true ∧
      e.HoldsUpTo env.chain pkt.flow env.now i := by
  obtain ⟨w', ⟨hw', hstate⟩, hlast⟩ := Walk.run_spec
    (P := fun w => w.Underway env pkt e ∧ (w.Ahead env pkt e i ∨ w.LedBack env pkt e i))
    (fun w w' hP hnext => ⟨hP.1.next he hnext, hP.2.elim
      (fun h => Walk.ahead_next hids he hP.1 h hnext) fun h => Or.inr (h.next hnext)⟩)
    ⟨hw, Or.inl h⟩
  rcases hstate with hahead | hback
  · generalize Walk.run env pkt w = done at hlast hrule
    rcases Walk.last_cases hlast with ⟨j, -, -, rfl⟩ | ⟨rule', is, verdict, hbody, -, rfl⟩
    · cases hrule
    · cases hrule
      exact Or.inl (hahead.behind hids hw' hbody)
  · obtain ⟨ops, p, hleft, -, hdirection⟩ :=
      Walk.last_footprint (G := fun _ => True) (fun _ _ _ => trivial) hlast
    have hmatched := hleft.direction hback.matched
    rw [← hdirection (by rw [hrule]; rfl)] at hmatched
    exact Or.inr ⟨hmatched, hback.found⟩

end

/-! ## Packets that come back -/

/-- **Does one rule stand strictly behind another?** -/
def Chain.Advances (c : Chain) (old new : Rule) : Prop :=
  ∃ i, c.indexOf? old = some i ∧ c.Behind i new

namespace Firewall

/-- **Does a packet that comes back match state from before?** The check matches state, and the
table has live state for the flow, of a rule that stands where the packet comes from or before. -/
def Returns (fw : Firewall) (pkt : Packet) (old : Rule) : Prop :=
  (fw.check pkt (some old)).1.direction.isSome = true ∧
    ∃ i, fw.chain.indexOf? old = some i ∧ fw.engine.HoldsUpTo fw.chain pkt.flow fw.now i

/-- **The rule that decides a packet that comes back** stands strictly behind the one that it comes
back with, unless the packet matches state from before. -/
theorem Coherent.check_advances {known : List Rule} {fw : Firewall} (h : Coherent known fw)
    (honePass : fw.config.onePass = false) {pkt : Packet} {old new : Rule}
    (hold : old ∈ fw.chain.rules) (hrule : (fw.check pkt (some old)).1.rule = some new) :
    fw.chain.Advances old new ∨ fw.Returns pkt old := by
  obtain ⟨i, hindex, -⟩ := Chain.exists_indexOf? h.ids hold
  have hvalid : (fw.engine.roster.status old.id).invalid = false :=
    Bool.eq_false_iff.mpr fun hinvalid => (h.invalid old (h.members old hold)).mp hinvalid hold
  have hstart : startOf fw.surroundings pkt (some old) fw.engine.roster =
      .inl (fw.chain.continueAt old) := by
    simp only [startOf, surroundings, honePass, hvalid, Bool.false_eq_true, if_false]
  let w : Walk := ⟨.standing (fw.chain.continueAt old), { engine := fw.engine }⟩
  have hahead : w.Ahead fw.surroundings pkt fw.engine i :=
    ⟨Chain.lt_continueAt_of_indexOf? hindex, [], [], .refl _⟩
  cases hgenerated : pkt.generated with
  | true =>
    have hnone : (fw.check pkt (some old)).1.rule = none := by
      simp only [Firewall.check, evaluate, hgenerated, if_true]
    rw [hnone] at hrule
    cases hrule
  | false =>
    have hrun : (fw.check pkt (some old)).1 = (Walk.run fw.surroundings pkt w).1 := by
      simp only [Firewall.check, evaluate, hgenerated, Bool.false_eq_true, if_false, hstart]
      rfl
    unfold Returns
    rw [hrun] at hrule ⊢
    have hbound := hahead.run h.ids h.within (Walk.Underway.start pkt _) hrule
    rcases hbound with hbehind | hreturns
    · exact Or.inl ⟨i, hindex, hbehind⟩
    · exact Or.inr ⟨hreturns.1, i, hindex, hreturns.2⟩

end Firewall

namespace Session

/-- A rule that hands a packet out is the one that decides it, and stands in the chain. -/
theorem decides_of_handsOut {s : Session} (h : s.Reachable fun rule _ => rule.createsState = true)
    {pkt : Packet} {back : Option Rule} {r : Rule}
    (hout : s.handsOut (.process pkt back) = some r) :
    (s.firewall.check pkt back).1.rule = some r ∧ r ∈ s.firewall.chain.rules := by
  obtain ⟨request, hrequest, hr⟩ := Option.bind_eq_some_iff.mp hout
  obtain ⟨r', hrule, hr', -⟩ := Firewall.exists_of_handOut hrequest
  obtain rfl : r' = r := Option.some.inj (hr'.symm.trans hr)
  obtain ⟨last, hcoherent, horderly⟩ := h.orderly fair_creates
  rcases Firewall.check_decided hcoherent horderly pkt back with ⟨r, hdecides, hservice, -⟩ |
    ⟨hnone, -⟩
  · obtain rfl : r = r' := Option.some.inj (hdecides.symm.trans hrule)
    exact ⟨hrule, hservice.1⟩
  · rw [hnone] at hrule
    cases hrule

/-- **A packet is handed out by these rules one after the other**, by a firewall with this chain. It
comes back each time with the rule that has handed it out, and never matches state from before. What
happens to the firewall while the packet is away is left open, and so is what happens to the
packet. -/
inductive HandedOn (c : Chain) : Option Rule → List Rule → Prop
  | rests (back : Option Rule) : HandedOn c back []
  | goesOn {s : Session} (h : s.Reachable fun rule _ => rule.createsState = true)
      (hchain : s.firewall.chain = c) (honePass : s.firewall.config.onePass = false) {pkt : Packet}
      {back : Option Rule} {r : Rule} (hout : s.handsOut (.process pkt back) = some r)
      (hback : ∀ old ∈ back, ¬ s.firewall.Returns pkt old) {rs : List Rule}
      (hrest : HandedOn c (some r) rs) : HandedOn c back (r :: rs)

/-- The first position behind the rule with which a packet comes back, if it does. -/
def past (c : Chain) (back : Option Rule) : Nat := ((back.bind c.indexOf?).map (· + 1)).getD 0

/-- Each time there are fewer positions left. -/
theorem HandedOn.past_add_length_le {c : Chain} {back : Option Rule} {rs : List Rule}
    (h : HandedOn c back rs) (hback : ∀ old ∈ back, old ∈ c.rules) :
    past c back + rs.length ≤ c.length := by
  induction h with
  | rests back =>
    unfold past
    cases hindex : back.bind c.indexOf? with
    | none => exact Nat.zero_le _
    | some i =>
      obtain ⟨old, -, hi⟩ := Option.bind_eq_some_iff.mp hindex
      exact Chain.lastPosition?_lt hi
  | @goesOn s h hchain honePass pkt back r hout hnever rs hrest ih =>
    obtain ⟨hrule, hmem⟩ := decides_of_handsOut h hout
    obtain ⟨default, hcoherent⟩ := h.coherent fair_creates
    subst hchain
    obtain ⟨j, hindex, -⟩ := Chain.exists_indexOf? hcoherent.ids hmem
    have hrest := ih fun old hold => by cases hold; exact hmem
    have hpast : past s.firewall.chain (some r) = j + 1 := by simp [past, hindex]
    have hbefore : past s.firewall.chain back ≤ j := by
      cases back with
      | none => exact Nat.zero_le j
      | some old =>
        rcases hcoherent.check_advances honePass (hback old rfl) hrule with
          ⟨i, hold, j', hindex', hlt⟩ | hreturns
        · rw [hindex] at hindex'
          cases hindex'
          have hpast : past s.firewall.chain (some old) = i + 1 := by simp [past, hold]
          omega
        · exact absurd hreturns (hnever old rfl)
    rw [List.length_cons]
    omega

/-- **Packets that come back make progress**, with a chain that stays the same. If a packet is
handed out again, then by a rule that stands strictly behind the one that it came back with, unless
it has matched state from before. A packet that never does is handed out at most as often as there
are rules. -/
theorem reinjection_advances (c : Chain) :
    (∀ (s : Session) (pkt : Packet) (old new : Rule),
      s.Reachable (fun rule _ => rule.createsState = true) → s.firewall.chain = c →
      s.firewall.config.onePass = false → old ∈ c.rules →
      s.handsOut (.process pkt (some old)) = some new →
        c.Advances old new ∨ s.firewall.Returns pkt old) ∧
    ∀ rs, HandedOn c none rs → rs.length ≤ c.length := by
  refine ⟨fun s pkt old new h hchain honePass hold hout => ?_, fun rs h => ?_⟩
  · obtain ⟨default, hcoherent⟩ := h.coherent fair_creates
    subst hchain
    exact hcoherent.check_advances honePass hold (decides_of_handsOut h hout).1
  · have hle := h.past_add_length_le fun old hold => by cases hold
    exact Nat.le_trans (Nat.le_add_left _ _) hle

/-- A packet is diverted by one rule, and when it comes back by the next one. -/
theorem reinjection_advances_diverted :
    let pkt : Packet :=
      { flow := ⟨1, 2, 3, 4, Protocol.udp, 0⟩, direction := .inbound, length := 40 }
    let s := opened.run [.add ((diverter 1 100).image 0), .add ((diverter 2 200).image 0)]
    s.Reachable (fun rule _ => rule.createsState = true) ∧ s.firewall.config.onePass = false ∧
      diverter 1 100 ∈ s.firewall.chain.rules ∧
      s.handsOut (.process pkt (some (diverter 1 100))) = some (diverter 2 200) ∧
      s.firewall.chain.Advances (diverter 1 100) (diverter 2 200) ∧
      HandedOn s.firewall.chain none [diverter 1 100, diverter 2 200] ∧
      [diverter 1 100, diverter 2 200].length ≤ s.firewall.chain.length := by
  intro pkt s
  have hs : s.Reachable fun rule _ => rule.createsState = true :=
    opened_reachable.run (by simp [Allows])
  have honePass : s.firewall.config.onePass = false := by decide +kernel
  have hmem : diverter 1 100 ∈ s.firewall.chain.rules := by decide +kernel
  have hfirst : s.handsOut (.process pkt none) = some (diverter 1 100) := by
    simp only [handsOut, Firewall.check, evaluate, Walk.run_eq_runFor 2]
    decide +kernel
  have hsecond : s.handsOut (.process pkt (some (diverter 1 100))) = some (diverter 2 200) := by
    simp only [handsOut, Firewall.check, evaluate, Walk.run_eq_runFor 2]
    decide +kernel
  have hnone : s.firewall.engine.states.entries = [] := by decide +kernel
  have hnever : ¬ s.firewall.Returns pkt (diverter 1 100) := by
    rintro ⟨-, i, -, x, hx, -⟩
    rw [hnone] at hx
    exact absurd hx List.not_mem_nil
  obtain ⟨hadvances, hbounded⟩ := reinjection_advances s.firewall.chain
  have hhanded : HandedOn s.firewall.chain none [diverter 1 100, diverter 2 200] :=
    .goesOn hs rfl honePass hfirst (by simp)
      (.goesOn hs rfl honePass hsecond (fun old hold => by cases hold; exact hnever) (.rests _))
  exact ⟨hs, honePass, hmem, hsecond,
    (hadvances s pkt _ _ hs rfl honePass hmem hsecond).resolve_right hnever, hhanded,
    hbounded _ hhanded⟩

/-- **A packet may come back for ever.** A rule keeps state for the packet and hands it out. When
the packet comes back, the next rule finds the state, and the first one hands the packet out again:
four times here, with three rules. -/
theorem reinjection_returns :
    let keeper : Rule :=
      { id := 1, number := 100, words := [291, 292, 65838], actionOffset := 2,
        insns := [⟨.probeState, .none⟩, ⟨.keepState, .none⟩, ⟨.act (.pipe 1), .none⟩],
        actionIndex := 2, logBudget := 0 }
    let pkt : Packet :=
      { flow := ⟨1, 2, 1, 4, Protocol.udp, 0⟩, direction := .inbound, length := 40 }
    let again := Operation.process pkt (some keeper)
    let s := opened.run [
      .add (RuleDraft.assemble
        { number := 100, conditions := [⟨.keepState, .none⟩], action := .act (.pipe 1) }),
      .add (RuleDraft.assemble { number := 200, action := .act .checkState }),
      .process pkt none]
    s.Reachable (fun rule _ => rule.createsState = true) ∧ s.firewall.config.onePass = false ∧
      keeper ∈ s.firewall.chain.rules ∧ s.firewall.chain.length = 3 ∧
      s.handsOut again = some keeper ∧
      (s.run [again]).handsOut again = some keeper ∧
      (s.run [again, again]).handsOut again = some keeper ∧
      (s.run [again, again, again]).handsOut again = some keeper ∧
      ¬ s.firewall.chain.Advances keeper keeper := by
  intro keeper pkt again s
  have hs : s.Reachable fun rule _ => rule.createsState = true :=
    opened_reachable.run (by simp [Allows])
  have hnot : ¬ s.firewall.chain.Advances keeper keeper := by
    rintro ⟨i, hi, j, hj, hlt⟩
    rw [hi] at hj
    cases hj
    exact absurd hlt (Nat.lt_irrefl i)
  refine ⟨hs, ?_, ?_, ?_, ?_, ?_, ?_, ?_, hnot⟩ <;>
    simp only [s, again, run, List.foldl, step, handsOut, Firewall.process, Firewall.check,
      evaluate, Walk.run_eq_runFor 3] <;>
    decide +kernel

end Session

end PacketFilter
