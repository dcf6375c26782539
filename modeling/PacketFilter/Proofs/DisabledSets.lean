import PacketFilter.Proofs.Order

/-!
# Disabled sets are invisible

To a packet it makes no difference whether the rules of disabled sets are passed over or are not in
the chain. Positions differ between the two chains, but not what is left from corresponding ones on:
there the shorter chain has what remains of the longer one without those rules. A walk along the
longer chain takes one step more for each rule that it passes over, and the other walk waits.

Numbers do not descend along a chain, so that behind a skip, or behind the number at which a packet
starts, exactly those rules are left that are numbered high enough. Leaving out the others and
leaving out the rules of disabled sets can be exchanged. A hit leads to no rule of a disabled set,
as such a rule has no entries in the table.

Main statements: `rest_continueAt_restrict`, what is left behind a rule in the shorter chain;
`Walk.next_mirrors`, a step along the longer chain is a step along the shorter one or none;
`evaluate_enabledOnly`, both evaluations come to the same; **`disabled_sets_invisible`**, in every
session that is so, with all that the firewall does about a packet.
-/

namespace PacketFilter

/-! ## Chains without some of their rules -/

/-- If an element that fails has only such behind it, leaving out the first ones is leaving out all
that fail. -/
theorem dropWhile_eq_filter {α : Type} {p : α → Bool} :
    ∀ {xs : List α}, xs.Pairwise (fun a b => p b = true → p a = true) →
      xs.dropWhile p = xs.filter fun x => !p x
  | [], _ => rfl
  | x :: xs, h => by
    obtain ⟨hx, hxs⟩ := List.pairwise_cons.mp h
    cases hp : p x with
    | true =>
      rw [List.dropWhile_cons_of_pos hp, List.filter_cons_of_neg (by simp [hp])]
      exact dropWhile_eq_filter hxs
    | false =>
      rw [List.dropWhile_cons_of_neg (by simp [hp]), List.filter_cons_of_pos (by simp [hp])]
      have hall : ∀ y ∈ xs, (!p y) = true := by
        intro y hy
        cases hpy : p y with
        | false => rfl
        | true =>
          rw [hx y hy hpy] at hp
          cases hp
      rw [List.filter_eq_self.mpr hall]

/-- Along rules in order, leaving out those that are not numbered high enough can be exchanged with
leaving out others. -/
theorem filter_dropWhile_number {rules : List Rule} (h : rules.Pairwise Rule.Precedes)
    (keep : Rule → Bool) {p : UInt16 → Bool} (hp : ∀ m n, m ≤ n → p m = true → p n = true) :
    (rules.filter keep).dropWhile (fun x => !p x.number) =
      (rules.dropWhile fun x => !p x.number).filter keep := by
  have hdrop : ∀ xs : List Rule, xs.Pairwise Rule.Precedes →
      xs.dropWhile (fun x => !p x.number) = xs.filter fun x => !!p x.number := by
    intro xs hxs
    refine dropWhile_eq_filter (hxs.imp fun {a b} hab hb => ?_)
    cases ha : p a.number with
    | false => rfl
    | true =>
      rw [hp _ _ hab.number_le ha] at hb
      cases hb
  rw [hdrop _ (h.filter keep), hdrop _ h, List.filter_filter, List.filter_filter]
  exact List.filter_congr fun x _ => Bool.and_comm _ _

theorem Rule.goesOnWith_filter (r : Rule) {behind : List Rule} (h : behind.Pairwise Rule.Precedes)
    (keep : Rule → Bool) :
    r.goesOnWith (behind.filter keep) = (r.goesOnWith behind).filter keep := by
  unfold Rule.goesOnWith
  split
  · rename_i target _
    refine filter_dropWhile_number h keep (p := fun n => decide (target ≤ n)) ?_
    intro m n hmn hm
    exact decide_eq_true (UInt16.le_trans (of_decide_eq_true hm) hmn)
  · rfl

namespace Chain

variable {c : Chain} {keep : Rule → Bool} {last : Rule}

/-- The rules of a chain that meet a condition. -/
def restrict (c : Chain) (keep : Rule → Bool) : Chain := ⟨c.rules.filter keep, c.generation⟩

/-- What is left behind a rule that is in both chains and does not decide. -/
theorem rest_continueAt_restrict (h : c.InOrder last) {r : Rule} (hr : r ∈ c.rules)
    (hkeep : keep r = true) :
    (c.restrict keep).rest ((c.restrict keep).continueAt r) =
      (c.rest (c.continueAt r)).filter keep := by
  obtain ⟨before, behind, hsplit⟩ := List.append_of_mem hr
  have hrestricted : (c.restrict keep).rules = before.filter keep ++ r :: behind.filter keep := by
    rw [restrict, hsplit, List.filter_append, List.filter_cons_of_pos hkeep]
  have hids : ((c.restrict keep).rules.map Rule.id).Nodup :=
    h.ids.sublist (List.filter_sublist.map _)
  have hbehind : behind.Pairwise Rule.Precedes := by
    have hascending := h.ascending
    rw [hsplit, List.pairwise_append] at hascending
    exact (List.pairwise_cons.mp hascending.2.1).2
  rw [rest_continueAt hids hrestricted, rest_continueAt h.ids hsplit, r.goesOnWith_filter hbehind]

/-- What is left behind a number. -/
theorem rest_firstAfter?_restrict (h : c.InOrder last) {n : UInt16} {i i' : Nat}
    (hi : c.firstAfter? n = some i) (hi' : (c.restrict keep).firstAfter? n = some i') :
    (c.restrict keep).rest i' = (c.rest i).filter keep := by
  rw [rest_firstAfter? hi, rest_firstAfter? hi']
  refine filter_dropWhile_number h.ascending keep (p := fun m => decide (n < m)) ?_
  intro a b hab ha
  exact decide_eq_true (UInt16.lt_of_lt_of_le (of_decide_eq_true ha) hab)

end Chain

/-! ## Surroundings without disabled sets -/

namespace Surroundings

/-- Is the set of a rule enabled? -/
def enables (env : Surroundings) (roster : Roster) (r : Rule) : Bool :=
  !env.disabled.has (roster.setOf r)

/-- The same surroundings with only the rules in the chain whose sets are enabled, and no set
disabled. -/
def enabledOnly (env : Surroundings) (roster : Roster) : Surroundings :=
  { env with chain := env.chain.restrict (env.enables roster), disabled := 0 }

end Surroundings

section

variable {env : Surroundings} {pkt : Packet} {e : Engine} {last : Rule} {w w' : Walk} {rule : Rule}
  {is : List Insn}

/-- A rule in service is in both chains. -/
theorem Surroundings.InService.enables (h : env.InService e rule) :
    env.enables e.roster rule = true := congrArg not h.2

/-- Running instructions looks neither at the chain nor at the mask. -/
theorem runInsns_enabledOnly (roster : Roster) (is : List Insn) (skipping : Bool) (p : Progress) :
    runInsns (env.enabledOnly roster) pkt rule is skipping p =
      runInsns env pkt rule is skipping p := by
  induction is generalizing skipping p with
  | nil => rfl
  | cons i is ih =>
    have hexamine : examine (env.enabledOnly roster) pkt rule i.command p =
      examine env pkt rule i.command p := rfl
    cases skipping with
    | true => exact ih i.isOr p
    | false => simp only [runInsns, hexamine, ih]

/-! ## Walks along both chains -/

/-- **Corresponding positions**: from the first one on the shorter chain has left what the longer
one has from the second one on, without the rules of disabled sets. -/
def Surroundings.Corresponds (env : Surroundings) (roster : Roster) (i' i : Nat) : Prop :=
  (env.enabledOnly roster).chain.rest i' = (env.chain.rest i).filter (env.enables roster)

/-- Cursors at corresponding positions. Behind a hit it is the next positions that correspond. -/
inductive Cursor.Mirrors (env : Surroundings) (roster : Roster) : Cursor → Cursor → Prop
  | standing {i' i : Nat} (h : env.Corresponds roster i' i) :
      Mirrors env roster (.standing i') (.standing i)
  | following {rule : Rule} {i' i : Nat} (h : env.Corresponds roster (i' + 1) (i + 1)) :
      Mirrors env roster (.following rule i') (.following rule i)

theorem Cursor.Mirrors.of_standing {roster : Roster} {cursor : Cursor} {i : Nat}
    (h : cursor.Mirrors env roster (.standing i)) :
    ∃ i', cursor = .standing i' ∧ env.Corresponds roster i' i := by
  cases h with
  | standing h => exact ⟨_, rfl, h⟩

/-- **Walks that correspond**: they have made the same progress, and come to corresponding
positions. -/
structure Walk.Mirrors (env : Surroundings) (roster : Roster) (w' w : Walk) : Prop where
  progress : w'.progress = w.progress
  cursor : w'.cursor.Mirrors env roster w.cursor

/-- The walks run the same rule, and the next positions correspond. -/
theorem Walk.Mirrors.body (hw : w.Underway env pkt e) (hm : w'.Mirrors env e.roster w)
    (hbody : w.body? env = some (rule, is)) :
    w'.body? (env.enabledOnly e.roster) = some (rule, is) ∧
      env.Corresponds e.roster (w'.cursor.position + 1) (w.cursor.position + 1) := by
  obtain ⟨cursor, p⟩ := w
  obtain ⟨cursor', p'⟩ := w'
  obtain ⟨hprogress, hcursor⟩ := hm
  obtain rfl : p' = p := hprogress
  cases hcursor with
  | following h => exact ⟨hbody, h⟩
  | @standing i' i h =>
    rcases Walk.of_body hbody with ⟨_, hcursor, hget, -, rfl⟩ | ⟨_, hcursor, -⟩
    · cases hcursor
      have hkeep := (hw.inService hbody).enables
      rw [Surroundings.Corresponds, Chain.rest_of_get? hget, List.filter_cons_of_pos hkeep] at h
      have hget' := Chain.get?_of_rest h
      rw [Chain.rest_of_get? hget'] at h
      have hmask : (env.enabledOnly e.roster).disabled.has (p'.engine.roster.setOf rule) = false :=
        Word.hasBit_zero _
      refine ⟨?_, (List.cons.inj h).2⟩
      simp only [Walk.body?, hget', if_neg (Bool.eq_false_iff.mp hmask)]
    · cases hcursor

/-- What a rule that is in both chains leads to. -/
theorem settle_mirrors (pkt : Packet) (horder : env.chain.InOrder last)
    (hrule : env.InService e rule) {i' i : Nat}
    (h : env.Corresponds e.roster (i' + 1) (i + 1)) (result : RuleResult × Progress) :
    (∃ done, settle env pkt rule i result = .inr done ∧
      settle (env.enabledOnly e.roster) pkt rule i' result = .inr done) ∨
    ∃ w w', settle env pkt rule i result = .inl w ∧
      settle (env.enabledOnly e.roster) pkt rule i' result = .inl w' ∧
      w'.Mirrors env e.roster w := by
  obtain ⟨kind, p⟩ := result
  cases kind with
  | nextRule => exact Or.inr ⟨_, _, rfl, rfl, rfl, .standing h⟩
  | goOn =>
    refine Or.inr ⟨_, _, rfl, rfl, rfl, .standing ?_⟩
    exact Chain.rest_continueAt_restrict horder hrule.1 hrule.enables
  | follow creator => exact Or.inr ⟨_, _, rfl, rfl, rfl, .following h⟩
  | decided verdict => exact Or.inl ⟨_, rfl, rfl⟩

/-- **A step along the longer chain is a step along the shorter one**, or none if it passes over a
rule. -/
theorem Walk.next_mirrors (horder : env.chain.InOrder last) (hw : w.Underway env pkt e)
    (hm : w'.Mirrors env e.roster w) :
    (∃ done, w.next env pkt = .inr done ∧ w'.next (env.enabledOnly e.roster) pkt = .inr done) ∨
    ∃ v, w.next env pkt = .inl v ∧ (w'.Mirrors env e.roster v ∨
      ∃ v', w'.next (env.enabledOnly e.roster) pkt = .inl v' ∧ v'.Mirrors env e.roster v) := by
  rcases w.next_cases env pkt with ⟨i, hcursor, hget, hnext⟩ |
    ⟨i, rule, hcursor, hget, hdisabled, -, hnext⟩ | ⟨rule, is, hbody, hnext⟩
  · -- Nothing is left of either chain.
    obtain ⟨i', hcursor', hleft⟩ := Cursor.Mirrors.of_standing (hcursor ▸ hm.cursor)
    rw [Surroundings.Corresponds, Chain.rest_eq_nil_iff.mpr hget, List.filter_nil,
      Chain.rest_eq_nil_iff] at hleft
    refine Or.inl ⟨_, hnext, ?_⟩
    simp only [Walk.next, hcursor', hleft, hm.progress]
  · -- The rule that is passed over is not in the shorter chain.
    obtain ⟨i', hcursor', hleft⟩ := Cursor.Mirrors.of_standing (hcursor ▸ hm.cursor)
    rw [(Effects.standing hw.effects).setOf_eq] at hdisabled
    have hout : ¬ env.enables e.roster rule = true := by simp [Surroundings.enables, hdisabled]
    rw [Surroundings.Corresponds, Chain.rest_of_get? hget, List.filter_cons_of_neg hout] at hleft
    exact Or.inr ⟨_, hnext, Or.inl ⟨hm.progress, hcursor' ▸ .standing hleft⟩⟩
  · obtain ⟨hbody', hsucc⟩ := hm.body hw hbody
    have hnext' := Walk.next_of_body pkt hbody'
    rw [runInsns_enabledOnly, hm.progress] at hnext'
    rw [hnext, hnext']
    rcases settle_mirrors pkt horder (hw.inService hbody) hsucc
      (runInsns env pkt rule is false w.progress) with hdone | ⟨v, v', h, h', hv⟩
    · exact Or.inl hdone
    · exact Or.inr ⟨v, h, Or.inr ⟨v', h', hv⟩⟩

/-- **Walks along both chains come to the same.** -/
theorem Walk.run_mirrors (horder : env.chain.InOrder last) (he : e.Within (env.InService e))
    (hw : w.Underway env pkt e) (hm : w'.Mirrors env e.roster w) :
    Walk.run (env.enabledOnly e.roster) pkt w' = Walk.run env pkt w := by
  fun_induction Walk.run env pkt w generalizing w' with
  | case1 w done hnext =>
    rcases Walk.next_mirrors horder hw hm with ⟨done', h, h'⟩ | ⟨v, h, -⟩
    · obtain rfl : done = done' := Sum.inr.inj (hnext.symm.trans h)
      exact Walk.run_of_next_inr h'
    · rw [hnext] at h
      cases h
  | case2 w v hnext ih =>
    have hv := hw.next he hnext
    rcases Walk.next_mirrors horder hw hm with ⟨done, h, -⟩ | ⟨v₁, h, hstep⟩
    · rw [hnext] at h
      cases h
    · obtain rfl : v = v₁ := Sum.inl.inj (hnext.symm.trans h)
      rcases hstep with hm' | ⟨v', h', hm'⟩
      · exact ih hv hm'
      · exact (Walk.run_of_next_inl h').trans (ih hv hm')

/-! ## Evaluations -/

/-- **A packet starts at corresponding positions**, or comes to the same without. -/
theorem startOf_enabledOnly (horder : env.chain.InOrder last)
    (hlast : env.enables e.roster last = true) {resume : Option Rule}
    (hresume : ∀ r ∈ resume, env.InService e r) :
    (∃ i i', startOf env pkt resume e.roster = .inl i ∧
      startOf (env.enabledOnly e.roster) pkt resume e.roster = .inl i' ∧
      env.Corresponds e.roster i' i) ∨
    ∃ outcome, startOf env pkt resume e.roster = .inr outcome ∧
      startOf (env.enabledOnly e.roster) pkt resume e.roster = .inr outcome := by
  unfold startOf
  cases resume with
  | some r =>
    have hr : env.InService e r := hresume r rfl
    by_cases honePass : env.onePass = true
    · exact Or.inr ⟨_, if_pos honePass, if_pos honePass⟩
    · by_cases hinvalid : (e.roster.status r.id).invalid = true
      · exact Or.inr ⟨_, (if_neg honePass).trans (if_pos hinvalid),
          (if_neg honePass).trans (if_pos hinvalid)⟩
      · refine Or.inl ⟨_, _, (if_neg honePass).trans (if_neg hinvalid),
          (if_neg honePass).trans (if_neg hinvalid), ?_⟩
        exact Chain.rest_continueAt_restrict horder hr.1 hr.enables
  | none =>
    cases htag : pkt.divertTag with
    | none => exact Or.inl ⟨0, 0, rfl, rfl, rfl⟩
    | some tag =>
      by_cases hle : defaultRuleNumber ≤ tag
      · exact Or.inr ⟨_, if_pos hle, if_pos hle⟩
      · have hne : tag ≠ defaultRuleNumber := fun heq => hle (UInt16.le_of_eq heq.symm)
        have horder' : (env.enabledOnly e.roster).chain.InOrder last := horder.filter hlast rfl
        obtain ⟨i, hi⟩ := horder.exists_firstAfter? hne
        obtain ⟨i', hi'⟩ := horder'.exists_firstAfter? hne
        simp only [if_neg hle, hi, hi']
        exact Or.inl ⟨i, i', rfl, rfl, Chain.rest_firstAfter?_restrict horder hi hi'⟩

/-- **It makes no difference to an evaluation** whether rules of disabled sets are in the chain. -/
theorem evaluate_enabledOnly (horder : env.chain.InOrder last)
    (hlast : env.enables e.roster last = true) (he : e.Within (env.InService e))
    {resume : Option Rule} (hresume : ∀ r ∈ resume, env.InService e r) :
    evaluate (env.enabledOnly e.roster) pkt resume e = evaluate env pkt resume e := by
  unfold evaluate
  by_cases hgenerated : pkt.generated = true
  · rw [if_pos hgenerated, if_pos hgenerated]
  · rw [if_neg hgenerated, if_neg hgenerated]
    rcases startOf_enabledOnly horder hlast hresume with ⟨i, i', h, h', hstart⟩ | ⟨outcome, h, h'⟩
    · rw [h, h']
      exact Walk.run_mirrors horder he (Walk.Underway.start pkt i) ⟨rfl, .standing hstart⟩
    · rw [h, h']

end

/-! ## Firewalls -/

namespace Firewall

/-- The same firewall with only the rules in the chain whose sets are enabled, and no set
disabled. -/
def enabledOnly (fw : Firewall) : Firewall :=
  { fw with
    chain := fw.chain.restrict fun r => !fw.disabled.has (fw.setOf r)
    disabled := 0 }

variable {fw : Firewall} {last : Rule} {accepted : List Rule}

/-- **It makes no difference to a packet** whether rules of disabled sets are in the chain. -/
theorem check_enabledOnly (hc : Coherent (last :: accepted) fw) (h : Orderly last accepted fw)
    (pkt : Packet) {resume : Option Rule}
    (hresume : ∀ r ∈ resume, r ∈ fw.chain.rules ∧ fw.disabled.has (fw.setOf r) = false) :
    fw.enabledOnly.check pkt resume =
      ((fw.check pkt resume).1, (fw.check pkt resume).2.enabledOnly) := by
  have hlast : fw.surroundings.enables fw.engine.roster last = true := congrArg not h.enabled
  have hevaluate : evaluate fw.enabledOnly.surroundings pkt resume fw.enabledOnly.engine =
      evaluate fw.surroundings pkt resume fw.engine :=
    evaluate_enabledOnly h.order hlast hc.within hresume
  -- The packet moves no rule between sets, so that the same rules are left out after it.
  have hsets : ∀ r, (fw.check pkt resume).2.setOf r = fw.setOf r :=
    (hc.check_standing pkt resume).setOf_eq
  have hafter : (fw.check pkt resume).2.enabledOnly = { fw.enabledOnly with
      engine := (fw.check pkt resume).2.engine
      undecided := (fw.check pkt resume).2.undecided } := by
    simp only [enabledOnly, hsets]
    rfl
  rw [hafter]
  unfold check
  rw [hevaluate]
  rfl

theorem process_enabledOnly (hc : Coherent (last :: accepted) fw) (h : Orderly last accepted fw)
    (pkt : Packet) {resume : Option Rule}
    (hresume : ∀ r ∈ resume, r ∈ fw.chain.rules ∧ fw.disabled.has (fw.setOf r) = false) :
    fw.enabledOnly.process pkt resume =
      ((fw.process pkt resume).1, (fw.process pkt resume).2.enabledOnly) := by
  unfold process
  rw [check_enabledOnly hc h pkt hresume]
  simp only
  cases handOut? pkt (fw.check pkt resume).1 with
  | none => rfl
  | some request => rfl

end Firewall

namespace Session

variable {s : Session}

/-- **Disabled sets are invisible.** In every session a packet is dealt with as if the rules of
disabled sets were not in the chain, unless it comes back with such a rule or with one that has been
deleted: the verdict, the rule that decides and the direction in which state is matched are the
same, and so are afterwards all counters, the state table, the messages, and the requests made.
Whatever random draws give, the same number is made of them. -/
theorem disabled_sets_invisible (h : s.Reachable fun rule _ => rule.createsState = true)
    (pkt : Packet) (resume : Option Rule) (hresume : ∀ r ∈ resume,
      r ∈ s.firewall.chain.rules ∧ s.firewall.disabled.has (s.firewall.setOf r) = false) :
    s.firewall.enabledOnly.check pkt resume =
        ((s.firewall.check pkt resume).1, (s.firewall.check pkt resume).2.enabledOnly) ∧
      s.firewall.enabledOnly.process pkt resume =
        ((s.firewall.process pkt resume).1, (s.firewall.process pkt resume).2.enabledOnly) := by
  obtain ⟨last, hc, horderly⟩ := h.orderly fair_creates
  exact ⟨Firewall.check_enabledOnly hc horderly pkt hresume,
    Firewall.process_enabledOnly hc horderly pkt hresume⟩

/-- A packet comes back behind a rule that has handed it out; the next rule is in a disabled set. -/
theorem disabled_rule_invisible :
    let diverter := diverter 1 100
    let denier : RuleDraft := { number := 200, set := 3, action := .act .deny }
    let accepter : RuleDraft := { number := 300, action := .act .accept }
    let pkt : Packet :=
      { flow := ⟨1, 2, 3, 4, Protocol.udp, 0⟩, direction := .inbound, length := 40 }
    let s := opened.run
      [.add (diverter.image 0), .add denier.assemble, .add accepter.assemble, .setEnable 8 0]
    (s.firewall.chain.length = 4 ∧ s.firewall.enabledOnly.chain.length = 3) ∧
      s.firewall.enabledOnly.check pkt (some diverter) =
        ((s.firewall.check pkt (some diverter)).1,
          (s.firewall.check pkt (some diverter)).2.enabledOnly) := by
  intro diverter denier accepter pkt s
  have hreachable : s.Reachable fun rule _ => rule.createsState = true :=
    opened_reachable.run (by simp [Allows])
  have hdiverter : diverter ∈ s.firewall.chain.rules ∧
      s.firewall.disabled.has (s.firewall.setOf diverter) = false := by decide +kernel
  have hinvisible := disabled_sets_invisible hreachable pkt (some diverter) fun r hr =>
    Option.mem_some.mp hr ▸ hdiverter
  exact ⟨by decide +kernel, hinvisible.1⟩

end Session

end PacketFilter
