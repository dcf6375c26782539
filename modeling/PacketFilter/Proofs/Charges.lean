import PacketFilter.Proofs.Coherence.Run
import PacketFilter.Proofs.Front

/-!
# How often a packet is accounted to a rule

A walk leaves each rule that it charges behind, so that it charges a rule once on each pass along
the chain. There is a second pass only if state is found, and it begins at the action part of the
rule that created the state: of the rules charged before, those that stand there or behind may be
charged again.

Main statements: `Walk.run_adds`, how often a walk charges a rule; **`charges_le_two`**, in every
session a packet is accounted to a rule at most twice, and at most once unless the walk of the
packet falls back onto the rule; `charged_twice`, a rule that a walk falls back onto.
-/

namespace PacketFilter

/-! ## Falling back -/

/-- Steps of a walk, as many as there may be. -/
abbrev Walk.Leads (env : Surroundings) (pkt : Packet) : Walk → Walk → Prop :=
  Relation.ReflTransGen fun w w' => w.next env pkt = .inl w'

/-- **A walk falls back onto a position**: state has been found behind it, and the rule that created
the state stands there or before. -/
def Walk.FallsOnto (env : Surroundings) (q : Nat) (w : Walk) : Prop :=
  ∃ creator i j, w.cursor = .following creator i ∧ env.chain.indexOf? creator = some j ∧
    j ≤ q ∧ q < i

/-- **A packet falls back onto a rule** on its way along the chain. -/
def Firewall.FallsOnto (fw : Firewall) (pkt : Packet) (resume : Option Rule) (r : Rule) : Prop :=
  pkt.generated = false ∧ ∃ start w q,
    startOf fw.surroundings pkt resume fw.engine.roster = .inl start ∧
    Walk.Leads fw.surroundings pkt ⟨.standing start, { engine := fw.engine }⟩ w ∧
    fw.chain.indexOf? r = some q ∧ w.FallsOnto fw.surroundings q

/-! ## Walks -/

/-- How often a walk may still charge the rule at a position, as long as it finds no state. -/
def Walk.chargesLeft (env : Surroundings) (q : Nat) (w : Walk) : Nat :=
  if w.front env ≤ q then 1 else 0

section

variable {env : Surroundings} {pkt : Packet} {e : Engine} {w w' : Walk} {r : Rule} {q : Nat}

theorem Walk.chargesLeft_of_le (h : w.front env ≤ q) : w.chargesLeft env q = 1 := if_pos h

theorem Walk.chargesLeft_of_lt (h : q < w.front env) : w.chargesLeft env q = 0 :=
  if_neg (Nat.not_le.mpr h)

theorem Walk.chargesLeft_le (env : Surroundings) (q : Nat) (w : Walk) :
    w.chargesLeft env q ≤ 1 := by
  unfold Walk.chargesLeft
  split <;> omega

/-- A front that does not go back leaves no more to charge. -/
theorem Walk.chargesLeft_anti (h : w.front env ≤ w'.front env) :
    w'.chargesLeft env q ≤ w.chargesLeft env q := by
  by_cases hq : w'.front env ≤ q
  · rw [Walk.chargesLeft_of_le hq, Walk.chargesLeft_of_le (Nat.le_trans h hq)]
  · rw [Walk.chargesLeft_of_lt (Nat.not_le.mp hq)]
    exact Nat.zero_le _

/-- The next step charges the rule at a position at most as often as the walk may still do so. -/
theorem Walk.count_charged_le (pkt : Packet) (hids : (env.chain.rules.map Rule.id).Nodup)
    (hq : env.chain.indexOf? r = some q) (w : Walk) :
    ((w.charged env pkt).map Rule.id).count r.id ≤ w.chargesLeft env q := by
  rcases w.charged_eq env pkt with hnone | ⟨rule, is, hbody, hone⟩
  · rw [hnone]
    exact Nat.zero_le _
  · rw [hone, List.map_singleton, List.count_singleton]
    by_cases hid : rule.id = r.id
    · have hindex : env.chain.indexOf? rule = some q := by rw [← hq, Chain.indexOf?, hid]; rfl
      rw [Walk.chargesLeft_of_le (Walk.front_le_of_body hids hbody hindex)]
      split <;> omega
    · rw [if_neg (by simpa using hid)]
      exact Nat.zero_le _

/-- **What a step charges, and what is left to charge then.** Where a step finds state and does not
fall back, nothing more is left than before. -/
theorem Walk.chargesLeft_next (hids : (env.chain.rules.map Rule.id).Nodup)
    (hmem : ∀ rule is, w.body? env = some (rule, is) → rule ∈ env.chain.rules)
    (hq : env.chain.indexOf? r = some q)
    (hcreator : ∀ creator i, w'.cursor = .following creator i → creator ∈ env.chain.rules)
    (hnext : w.next env pkt = .inl w') :
    ((w.charged env pkt).map Rule.id).count r.id + w'.chargesLeft env q ≤ w.chargesLeft env q ∧
        w'.progress.lookupsLeft ≤ w.progress.lookupsLeft ∨
      w.charged env pkt = [] ∧ w'.progress.lookupsLeft < w.progress.lookupsLeft ∧
        w'.FallsOnto env q := by
  have hcount := w.count_charged_le pkt hids hq
  have hlookups : w'.progress.lookupsLeft ≤ w.progress.lookupsLeft := by
    obtain ⟨⟨ops, hleft⟩, -⟩ :=
      Walk.next_footprint (G := fun _ => True) (fun _ _ _ => trivial) hnext
    have := hleft.lookups
    omega
  rcases Walk.front_next hids hmem hnext with ⟨hnone, hfront⟩ |
    ⟨rule, i, hone, hindex, hi, hbehind⟩ | ⟨creator, hcursor, hnone, hfewer⟩
  · rw [hnone]
    refine Or.inl ⟨?_, hlookups⟩
    rw [List.map_nil, List.count_nil, Nat.zero_add]
    exact Walk.chargesLeft_anti hfront
  · refine Or.inl ⟨?_, hlookups⟩
    by_cases hid : rule.id = r.id
    · -- The rule is left behind.
      obtain rfl : i = q := by
        have hsame : env.chain.indexOf? rule = env.chain.indexOf? r := by
          rw [Chain.indexOf?, hid]
          rfl
        exact Option.some.inj (hindex.symm.trans (hsame.trans hq))
      rw [Walk.chargesLeft_of_lt hbehind]
      exact hcount
    · rw [hone, List.map_singleton, List.count_singleton, if_neg (by simpa using hid),
        Nat.zero_add]
      exact Walk.chargesLeft_anti (Nat.le_of_lt (Nat.lt_of_le_of_lt hi hbehind))
  · obtain ⟨j, hindex, -⟩ := Chain.exists_indexOf? hids (hcreator creator _ hcursor)
    by_cases hfalls : j ≤ q ∧ q < w.cursor.position
    · exact Or.inr ⟨hnone, hfewer, creator, _, j, hcursor, hindex, hfalls.1, hfalls.2⟩
    · refine Or.inl ⟨?_, hlookups⟩
      rw [hnone, List.map_nil, List.count_nil, Nat.zero_add]
      have hposition := w.front_le_position env
      by_cases hfront : w.front env ≤ q
      · rw [Walk.chargesLeft_of_le hfront]
        exact w'.chargesLeft_le env q
      · have hbehind : q < w'.front env := by
          rw [Walk.front_following hcursor hindex]
          omega
        rw [Walk.chargesLeft_of_lt hbehind]
        exact Nat.zero_le _

/-- **How often a walk charges a rule**: once if that is still ahead, and once more if it finds
state; but not the second time unless it falls back onto the rule. -/
theorem Walk.run_adds (hids : (env.chain.rules.map Rule.id).Nodup)
    (he : e.Within (env.InService e)) (hid : r.id < e.roster.nextId)
    (hq : env.chain.indexOf? r = some q) (hw : w.Underway env pkt e) :
    ∃ n, (w.progress.engine.roster.status r.id).Adds pkt.length n
        ((Walk.run env pkt w).2.roster.status r.id) ∧
      n ≤ w.chargesLeft env q + w.progress.lookupsLeft ∧
      (n ≤ w.chargesLeft env q ∨ ∃ w', w.Leads env pkt w' ∧ w'.FallsOnto env q) := by
  fun_induction Walk.run env pkt w with
  | case1 w result hnext =>
    obtain ⟨ops, p, hleft, hengine, -⟩ :=
      Walk.last_footprint (G := fun _ => True) (fun _ _ _ => trivial) hnext
    have hcount := w.count_charged_le pkt hids hq
    rw [← hengine]
    refine ⟨_, hleft.charges.adds r.id ?_, Nat.le_add_right_of_le hcount, Or.inl hcount⟩
    rw [(Effects.standing hw.effects).nextId]
    exact hid
  | case2 w w' hnext ih =>
    obtain ⟨⟨ops, hleft⟩, -⟩ :=
      Walk.next_footprint (G := fun _ => True) (fun _ _ _ => trivial) hnext
    have hw' := hw.next he hnext
    obtain ⟨n, hadds, hle, hfalls⟩ := ih hw'
    have hstep := hleft.charges.adds r.id (by rw [(Effects.standing hw.effects).nextId]; exact hid)
    have hmem : ∀ rule is, w.body? env = some (rule, is) → rule ∈ env.chain.rules :=
      fun rule is hbody => (hw.inService hbody).1
    have hcreator : ∀ creator i, w'.cursor = .following creator i → creator ∈ env.chain.rules := by
      intro creator i hcursor
      have hfollows := hw'.follows
      rw [hcursor] at hfollows
      exact hfollows.1.1
    refine ⟨_, hstep.trans hadds, ?_⟩
    rcases Walk.chargesLeft_next hids hmem hq hcreator hnext with ⟨hcharges, hlookups⟩ |
      ⟨hnone, hfewer, hfallsHere⟩
    · refine ⟨by omega, hfalls.imp (fun h => by omega) ?_⟩
      rintro ⟨w₁, hleads, hw₁⟩
      exact ⟨w₁, .head hnext hleads, hw₁⟩
    · have hone := w'.chargesLeft_le env q
      rw [hnone, List.map_nil, List.count_nil]
      exact ⟨by omega, Or.inr ⟨w', .single hnext, hfallsHere⟩⟩

end

/-! ## Packets -/

/-- How often a packet is accounted to a rule of the chain. -/
theorem Firewall.Coherent.check_adds {known : List Rule} {fw : Firewall} (h : Coherent known fw)
    (pkt : Packet) (resume : Option Rule) {r : Rule} (hr : r ∈ fw.chain.rules) :
    ∃ n, (fw.status r).Adds pkt.length n ((fw.check pkt resume).2.status r) ∧ n ≤ 2 ∧
      (¬ fw.FallsOnto pkt resume r → n ≤ 1) := by
  have hid : r.id < fw.engine.roster.nextId := h.lists.id_lt (h.members r hr)
  obtain ⟨q, hq, -⟩ := Chain.exists_indexOf? h.ids hr
  show ∃ n, (fw.engine.roster.status r.id).Adds pkt.length n
    ((evaluate fw.surroundings pkt resume fw.engine).2.roster.status r.id) ∧ _
  unfold evaluate
  cases hgenerated : pkt.generated with
  | true =>
    rw [if_pos rfl]
    exact ⟨0, .refl _, by omega, fun _ => by omega⟩
  | false =>
    rw [if_neg Bool.false_ne_true]
    cases hstart : startOf fw.surroundings pkt resume fw.engine.roster with
    | inr outcome => exact ⟨0, .refl _, by omega, fun _ => by omega⟩
    | inl start =>
      let w : Walk := ⟨.standing start, { engine := fw.engine }⟩
      have hw : w.Underway fw.surroundings pkt fw.engine := Walk.Underway.start pkt start
      obtain ⟨n, hadds, hle, honce⟩ := Walk.run_adds h.ids h.within hid hq hw
      have hcharges : w.chargesLeft fw.surroundings q ≤ 1 := w.chargesLeft_le _ q
      have hlookups : w.progress.lookupsLeft = 1 := rfl
      refine ⟨n, hadds, by omega, fun hnot => ?_⟩
      rcases honce with honce | ⟨w', hleads, hfalls⟩
      · omega
      · exact absurd ⟨hgenerated, start, w', q, hstart, hleads, hq, hfalls⟩ hnot

namespace Session

/-- **A packet is accounted to a rule at most twice**, and at most once unless its walk falls back
onto the rule. -/
theorem charges_le_two {s : Session} (h : s.Reachable fun rule _ => rule.createsState = true)
    (pkt : Packet) (resume : Option Rule) {r : Rule} (hr : r ∈ s.firewall.chain.rules) :
    ∃ n, (s.firewall.status r).Adds pkt.length n ((s.firewall.check pkt resume).2.status r) ∧
      n ≤ 2 ∧ (¬ s.firewall.FallsOnto pkt resume r → n ≤ 1) := by
  obtain ⟨default, hcoherent⟩ := h.coherent fair_creates
  exact hcoherent.check_adds pkt resume hr

/-- Packets that come in skip the rule that keeps state. The rule behind it counts packets, and the
last one looks state up. -/
def skipping : Session :=
  opened.run [
    .add (RuleDraft.assemble
      { number := 100, conditions := [⟨.inbound, .none⟩], action := .act (.skipTo 300) }),
    .add (RuleDraft.assemble
      { number := 200, conditions := [⟨.keepState, .none⟩], action := .act .count }),
    .add (RuleDraft.assemble { number := 300, action := .act .count }),
    .add (RuleDraft.assemble { number := 400, action := .act .checkState })]

theorem skipping_reachable : skipping.Reachable fun rule _ => rule.createsState = true :=
  opened_reachable.run (by simp [Allows])

/-- The rule of number 300. -/
def counter : Rule :=
  { id := 3, number := 300, words := [300], actionOffset := 0,
    insns := [⟨.act .count, .none⟩], actionIndex := 0, logBudget := 0 }

/-- A packet of one flow, either way. -/
def along (direction : Direction) : Packet :=
  { flow := ⟨1, 2, 1, 4, Protocol.udp, 0⟩, direction, length := 40 }

theorem charges_le_two_outbound :
    counter ∈ skipping.firewall.chain.rules ∧
      ∃ n, (skipping.firewall.status counter).Adds 40 n
          ((skipping.firewall.check (along .outbound) none).2.status counter) ∧ n ≤ 2 ∧
        (¬ skipping.firewall.FallsOnto (along .outbound) none counter → n ≤ 1) := by
  have hmem : counter ∈ skipping.firewall.chain.rules := by decide +kernel
  exact ⟨hmem, charges_le_two skipping_reachable (along .outbound) none hmem⟩

/-- **A rule may be charged twice.** A packet that goes out creates state; one that comes in is
counted, finds the state, and is led back to be counted again. -/
theorem charged_twice :
    let s := skipping.step (.check (along .outbound) none)
    let s' := s.step (.check (along .inbound) none)
    s.Reachable (fun rule _ => rule.createsState = true) ∧
      counter ∈ s.firewall.chain.rules ∧
      (s.firewall.status counter).packets = 1 ∧ (s'.firewall.status counter).packets = 3 ∧
      (s.firewall.status counter).bytes = 40 ∧ (s'.firewall.status counter).bytes = 120 ∧
      ¬ ((s'.firewall.status counter).packets ≤ (s.firewall.status counter).packets + 1 ∧
        (s'.firewall.status counter).bytes ≤ (s.firewall.status counter).bytes + 40) := by
  intro s s'
  refine ⟨skipping_reachable.step _ trivial, ?_⟩
  simp only [s, s', skipping, run, List.foldl, step, Firewall.check, evaluate,
    Walk.run_eq_runFor 8]
  decide +kernel

end Session

end PacketFilter
