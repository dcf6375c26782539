import PacketFilter.Proofs.Order

/-!
# Verdicts and the rules behind them

`Action.Prescribes` says which verdict an action stands for: the spec of what a rule does with a
packet, read off its action alone. A rule that decides gives that verdict, or it asked for state
that was refused, and denies the packet. Actions that only count or skip stand for no verdict.

A packet may come to a rule behind a hit, where neither its conditions nor its set are looked at.
That the rule is in service even so is what state and rules agree on.

Main statements: `runInsns_decided`, what instructions that decide come to; `evaluate_decided`, what
an evaluation comes to; **`verdict_backed`**, in every session each verdict is backed by a rule in
service.
-/

namespace PacketFilter

/-! ## What actions prescribe -/

/-- **The verdict that an action prescribes** for a packet, which may have matched state. The reply
direction of a forwarded flow is not forwarded again, and what cannot be answered is not rejected
but denied. -/
inductive Action.Prescribes (pkt : Packet) (direction : Option MatchDirection) :
    Action → Verdict → Prop
  | accept : Prescribes pkt direction .accept .accept
  | deny : Prescribes pkt direction .deny .deny
  | answered {code : UInt16} (h : pkt.mayAnswer code = true) :
      Prescribes pkt direction (.reject code) (.reject code)
  | suppressed {code : UInt16} (h : pkt.mayAnswer code = false) :
      Prescribes pkt direction (.reject code) .deny
  | pipe {id : UInt16} : Prescribes pkt direction (.pipe id) (.shape id true)
  | queue {id : UInt16} : Prescribes pkt direction (.queue id) (.shape id false)
  | divert {target : UInt16} : Prescribes pkt direction (.divert target) (.divert target)
  | tee {target : UInt16} : Prescribes pkt direction (.tee target) (.tee target)
  | forward {address : Ipv4} {target : UInt16} (hlayer2 : pkt.layer2 = false)
      (h : direction ≠ some .reverse) :
      Prescribes pkt direction (.forward address target) (.forward address target)
  | returned {address : Ipv4} {target : UInt16} (hlayer2 : pkt.layer2 = false)
      (h : direction = some .reverse) : Prescribes pkt direction (.forward address target) .accept

/-- Does the action decide? Counting, skipping and looking for state do not. -/
def Action.decides : Action → Bool
  | .count | .skipTo _ | .checkState => false
  | _ => true

theorem Action.Prescribes.decides {pkt : Packet} {direction : Option MatchDirection} {a : Action}
    {v : Verdict} (h : a.Prescribes pkt direction v) : a.decides = true := by
  cases h <;> rfl

section

variable {env : Surroundings} {pkt : Packet} {rule : Rule} {G : Rule → Prop} {v : Verdict}

/-- Carrying out an action decides only as it prescribes. -/
theorem perform_prescribes {a : Action} {p : Progress}
    (h : (perform env pkt rule a p).1 = .decided v) :
    a.Prescribes pkt (perform env pkt rule a p).2.direction v := by
  cases a with
  | reject code =>
    simp only [perform] at h ⊢
    by_cases hanswer : pkt.mayAnswer code = true
    · rw [if_pos hanswer] at h
      cases h
      exact .answered hanswer
    · rw [if_neg hanswer] at h
      cases h
      exact .suppressed (Bool.eq_false_iff.mpr hanswer)
  | forward address target =>
    simp only [perform] at h ⊢
    by_cases hlayer2 : pkt.layer2 = true
    · rw [if_pos hlayer2] at h
      cases h
    · rw [if_neg hlayer2] at h ⊢
      have hlayer2 : pkt.layer2 = false := Bool.eq_false_iff.mpr hlayer2
      by_cases hreverse : p.direction = some .reverse
      · rw [if_pos hreverse] at h ⊢
        cases h
        exact .returned hlayer2 hreverse
      · rw [if_neg hreverse] at h ⊢
        cases h
        exact .forward hlayer2 hreverse
  | checkState => cases h
  | count => cases h
  | skipTo target => cases h
  | accept => cases h; exact .accept
  | deny => cases h; exact .deny
  | pipe id => cases h; exact .pipe
  | queue id => cases h; exact .queue
  | divert target => cases h; exact .divert
  | tee target => cases h; exact .tee

/-! ## State that is refused -/

/-- If no state is created, the table has refused it. -/
theorem exists_of_createState_eq_false {request : StateRequest} {e : Engine}
    (h : (createState env pkt rule request e).1 = false) :
    ∃ why, (e.states.install (e.roster.status rule.id).stateEnabled rule request pkt env.now).1 =
      .error why := by
  unfold createState at h
  simp only at h
  split at h
  · cases h
  · rename_i why hwhy
    exact ⟨why, hwhy⟩

/-- **State was refused to a rule** in an evaluation that led from one engine to another: after some
effects of rules in service the rule asked for state, the table refused it, and with that the
evaluation was at its end. -/
def StateRefused (env : Surroundings) (pkt : Packet) (rule : Rule) (start finish : Engine) : Prop :=
  ∃ request ∈ rule.requests, ∃ e why, Effects env pkt (env.InService start) start e ∧
    (e.states.install (e.roster.status rule.id).stateEnabled rule request pkt env.now).1 =
      .error why ∧
    finish = (createState env pkt rule request e).2.count rule pkt env.now

/-! ## Running instructions -/

/-- An instruction that decides is an action, or has asked for state in vain. -/
theorem examine_decided {c : Command} {p : Progress}
    (h : (examine env pkt rule c p).1 = .ends (.decided v)) :
    (∃ a, c = .act a ∧ a.Prescribes pkt (examine env pkt rule c p).2.direction v) ∨
      v = .deny ∧ ∃ request, c.request? = some request ∧
        (createState env pkt rule request p.engine).1 = false ∧
        (examine env pkt rule c p).2.engine = (createState env pkt rule request p.engine).2 := by
  unfold examine at h ⊢
  split at h
  case h_1 | h_2 => split at h <;> cases h
  case h_3 | h_4 =>
    split at h
    · cases h
    · rename_i engine hcreate
      cases h
      refine Or.inr ⟨rfl, _, rfl, congrArg Prod.fst hcreate, ?_⟩
      simp only [hcreate]
  case h_5 => cases h
  case h_6 a _ =>
    have hperform : (perform env pkt rule a p).1 = .decided v := by simpa using h
    exact Or.inl ⟨a, rfl, perform_prescribes hperform⟩
  case h_7 => cases h

/-- **Instructions of a rule that decide** carry out an action as it prescribes, or ask for state in
vain. -/
theorem runInsns_decided (hrule : G rule) {is : List Insn} (his : ∀ i ∈ is, i ∈ rule.insns)
    {skipping : Bool} {p : Progress} (hp : p.engine.Within G)
    (h : (runInsns env pkt rule is skipping p).1 = .decided v) :
    (∃ i ∈ is, ∃ a, i.command = .act a ∧
      a.Prescribes pkt (runInsns env pkt rule is skipping p).2.direction v) ∨
    v = .deny ∧ ∃ request ∈ rule.requests, ∃ e, Effects env pkt G p.engine e ∧
      (createState env pkt rule request e).1 = false ∧
      (runInsns env pkt rule is skipping p).2.engine = (createState env pkt rule request e).2 := by
  induction is generalizing skipping p with
  | nil => cases h
  | cons i is ih =>
    -- What the instructions behind this one come to, once it has had its effects.
    have hrest : ∀ {skipping : Bool} {p' : Progress}, Effects env pkt G p.engine p'.engine →
        (runInsns env pkt rule is skipping p').1 = .decided v →
        (∃ j ∈ i :: is, ∃ a, j.command = .act a ∧
          a.Prescribes pkt (runInsns env pkt rule is skipping p').2.direction v) ∨
        v = .deny ∧ ∃ request ∈ rule.requests, ∃ e, Effects env pkt G p.engine e ∧
          (createState env pkt rule request e).1 = false ∧
          (runInsns env pkt rule is skipping p').2.engine =
            (createState env pkt rule request e).2 := by
      intro skipping p' heffects h
      rcases ih (fun j hj => his j (List.mem_cons_of_mem i hj)) (Effects.within heffects hp) h with
        ⟨j, hj, hact⟩ | ⟨hv, request, hrequest, e, hmore, hrefused⟩
      · exact Or.inl ⟨j, List.mem_cons_of_mem i hj, hact⟩
      · exact Or.inr ⟨hv, request, hrequest, e, heffects.trans hmore, hrefused⟩
    cases skipping with
    | true => exact hrest Relation.ReflTransGen.refl h
    | false =>
      have hrequest : ∀ request, i.command.request? = some request → request ∈ rule.requests :=
        fun request heq => List.mem_filterMap.mpr ⟨i, his i List.mem_cons_self, heq⟩
      have heffects := (examine_effects env pkt hrule hrequest p hp).1
      have hdecided := @examine_decided env pkt rule v i.command p
      simp only [runInsns] at h ⊢
      split at h
      · rename_i result p' heq
        rw [heq] at hdecided
        rcases hdecided (congrArg Examined.ends h) with ⟨a, ha, hact⟩ |
          ⟨hv, request, hsome, hrefused⟩
        · exact Or.inl ⟨i, List.mem_cons_self, a, ha, hact⟩
        · exact Or.inr ⟨hv, request, hrequest request hsome, p.engine, Relation.ReflTransGen.refl,
            hrefused⟩
      · rename_i b p' heq
        rw [heq] at heffects
        split at h
        · rename_i hsatisfied
          rw [if_pos hsatisfied]
          exact hrest heffects h
        · rename_i hsatisfied
          rw [if_neg hsatisfied]
          split at h
          · rename_i hor
            rw [if_pos hor]
            exact hrest heffects h
          · cases h

/-! ## Evaluations -/

variable {e : Engine} {resume : Option Rule}

/-- **A walk names a rule only for a decision of that rule**, which is in service. -/
theorem run_decided (he : e.Within (env.InService e)) (hacts : ∀ r ∈ env.chain.rules, r.ActsLast)
    {w : Walk} (hw : w.Underway env pkt e) :
    (∃ r, (Walk.run env pkt w).1.rule = some r ∧ env.InService e r ∧
      (r.action.Prescribes pkt (Walk.run env pkt w).1.direction (Walk.run env pkt w).1.verdict ∨
        (Walk.run env pkt w).1.verdict = .deny ∧
          StateRefused env pkt r e (Walk.run env pkt w).2)) ∨
    (Walk.run env pkt w).1.rule = none ∧ (Walk.run env pkt w).1.verdict = .deny := by
  obtain ⟨w', hw', hlast⟩ := hw.run he
  generalize Walk.run env pkt w = done at hlast
  rcases Walk.last_cases hlast with ⟨i, -, -, rfl⟩ | ⟨rule, is, v, hbody, hdecided, rfl⟩
  · exact Or.inr ⟨rfl, rfl⟩
  · have hrule := hw'.inService hbody
    have hmem := Walk.mem_of_body hbody
    refine Or.inl ⟨rule, rfl, hrule, ?_⟩
    rcases runInsns_decided hrule hmem (Effects.within hw'.effects he) hdecided with
      ⟨i, hi, a, ha, hprescribes⟩ | ⟨hv, request, hrequest, e', heffects, hrefused, hengine⟩
    · left
      rw [(hacts rule hrule.1).eq_action (hmem i hi) ha] at hprescribes
      exact hprescribes
    · obtain ⟨why, hwhy⟩ := exists_of_createState_eq_false hrefused
      refine Or.inr ⟨hv, request, hrequest, e', why, hw'.effects.trans heffects, hwhy, ?_⟩
      simp only [hengine]

/-- A packet that does not walk is accepted if it comes back and need not go on, and denied
otherwise. No rule has decided that. -/
theorem startOf_eq_inr {roster : Roster} {outcome : Outcome}
    (h : startOf env pkt resume roster = .inr outcome) :
    outcome.rule = none ∧
      outcome.verdict = if resume.isSome && env.onePass then .accept else .deny := by
  unfold startOf at h
  split at h
  · by_cases honePass : env.onePass = true
    · rw [if_pos honePass] at h
      cases h
      exact ⟨rfl, by simp [honePass]⟩
    · rw [if_neg honePass] at h
      split at h
      · cases h
        exact ⟨rfl, by simp [honePass]⟩
      · cases h
  · split at h
    · split at h
      · cases h
        exact ⟨rfl, rfl⟩
      · split at h
        · cases h
        · cases h
          exact ⟨rfl, rfl⟩
    · cases h

/-- A packet that walks does not come back to be accepted at once. -/
theorem onePass_of_startOf_eq_inl {roster : Roster} {i : Nat}
    (h : startOf env pkt resume roster = .inl i) : (resume.isSome && env.onePass) = false := by
  unfold startOf at h
  split at h
  · by_cases honePass : env.onePass = true
    · rw [if_pos honePass] at h
      cases h
    · simp [honePass]
  · rfl

/-- **What an evaluation comes to**: a decision of a rule in service, or no rule has decided, and
the packet is accepted if it is this host's own or need not go on, and denied otherwise. -/
theorem evaluate_decided (he : e.Within (env.InService e))
    (hacts : ∀ r ∈ env.chain.rules, r.ActsLast) {outcome : Outcome} {e' : Engine}
    (h : evaluate env pkt resume e = (outcome, e')) :
    (∃ r, outcome.rule = some r ∧ env.InService e r ∧
      (r.action.Prescribes pkt outcome.direction outcome.verdict ∨
        outcome.verdict = .deny ∧ StateRefused env pkt r e e')) ∨
    outcome.rule = none ∧ outcome.verdict =
      if pkt.generated || (resume.isSome && env.onePass) then .accept else .deny := by
  unfold evaluate at h
  by_cases hgenerated : pkt.generated = true
  · rw [if_pos hgenerated] at h
    cases h
    exact Or.inr ⟨rfl, by simp [hgenerated]⟩
  · rw [if_neg hgenerated] at h
    have hgenerated : pkt.generated = false := Bool.eq_false_iff.mpr hgenerated
    rw [hgenerated, Bool.false_or]
    cases hstart : startOf env pkt resume e.roster with
    | inr outcome' =>
      rw [hstart] at h
      cases h
      exact Or.inr (startOf_eq_inr hstart)
    | inl i =>
      rw [hstart] at h
      simp only at h
      have hrun := run_decided he hacts (Walk.Underway.start pkt i)
      rw [h] at hrun
      rw [onePass_of_startOf_eq_inl hstart]
      exact hrun

end

/-! ## Sessions -/

namespace Firewall

/-- **A rule backs the outcome of a packet**: it is in the chain, has not been removed, its set is
enabled, and the verdict is what its action prescribes, or the packet is denied because the rule was
refused state. -/
structure Backs (fw : Firewall) (pkt : Packet) (resume : Option Rule) (outcome : Outcome)
    (r : Rule) : Prop where
  installed : r ∈ fw.chain.rules
  valid : (fw.status r).invalid = false
  enabled : fw.disabled.has (fw.setOf r) = false
  grounds : r.action.Prescribes pkt outcome.direction outcome.verdict ∨
    outcome.verdict = .deny ∧
      StateRefused fw.surroundings pkt r fw.engine (fw.check pkt resume).2.engine
  /-- An action that does not decide has a packet denied only so. -/
  refused : r.action.decides = false → outcome.verdict = .deny ∧
    StateRefused fw.surroundings pkt r fw.engine (fw.check pkt resume).2.engine

/-- **What a packet comes to** at a firewall whose chain is in order. -/
theorem check_decided {last : Rule} {accepted : List Rule} {fw : Firewall}
    (hc : Coherent (last :: accepted) fw) (h : Orderly last accepted fw) (pkt : Packet)
    (resume : Option Rule) :
    (∃ r, (fw.check pkt resume).1.rule = some r ∧ fw.surroundings.InService fw.engine r ∧
      (r.action.Prescribes pkt (fw.check pkt resume).1.direction (fw.check pkt resume).1.verdict ∨
        (fw.check pkt resume).1.verdict = .deny ∧
          StateRefused fw.surroundings pkt r fw.engine (fw.check pkt resume).2.engine)) ∨
    (fw.check pkt resume).1.rule = none ∧ (fw.check pkt resume).1.verdict =
      if pkt.generated || (resume.isSome && fw.config.onePass) then .accept else .deny := by
  have hdone : evaluate fw.surroundings pkt resume fw.engine =
      ((fw.check pkt resume).1, (fw.check pkt resume).2.engine) := rfl
  exact evaluate_decided hc.within (fun r hr => h.actsLast (hc.members r hr)) hdone

end Firewall

namespace Session

open Firewall

variable {s : Session}

/-- **Every verdict is backed by a rule in service.** In every session, whatever packet comes and
whatever rule it comes back with: if the outcome names a rule, that rule backs it, and if it names
none, the packet is accepted if it is this host's own or need not go on, and denied otherwise. -/
theorem verdict_backed (h : s.Reachable fun rule _ => rule.createsState = true) (pkt : Packet)
    (resume : Option Rule) :
    let outcome := (s.firewall.check pkt resume).1
    match outcome.rule with
    | some r => s.firewall.Backs pkt resume outcome r
    | none => outcome.verdict =
        if pkt.generated || (resume.isSome && s.firewall.config.onePass) then .accept
        else .deny := by
  intro outcome
  obtain ⟨last, hc, horderly⟩ := h.orderly fair_creates
  rcases check_decided hc horderly pkt resume with
    ⟨r, hrule, hservice, hgrounds⟩ | ⟨hrule, hverdict⟩
  · rw [show outcome.rule = some r from hrule]
    refine ⟨hservice.1, ?_, hservice.2, hgrounds, fun hcounts => ?_⟩
    · exact Bool.eq_false_iff.mpr fun hinvalid =>
        (hc.invalid r (hc.members r hservice.1)).mp hinvalid hservice.1
    · rcases hgrounds with hprescribes | hrefused
      · rw [hprescribes.decides] at hcounts
        cases hcounts
      · exact hrefused
  · rw [show outcome.rule = none from hrule]
    exact hverdict

/-- A rule forwards the packets of a flow, of which it keeps state; a reply that a rule in front of
it matches to that state goes where it would have gone. -/
theorem verdict_backed_reply :
    let keeper : Rule :=
      { id := 2, number := 100, words := [292, 5243442, 7], actionOffset := 1,
        insns := [⟨.keepState, .none⟩, ⟨.act (.forward 7 80), .none⟩], actionIndex := 1,
        logBudget := 0 }
    let checker : RuleDraft := { number := 50, action := .act .checkState }
    let pkt : Packet :=
      { flow := ⟨1, 2, 3, 4, Protocol.udp, 0⟩, direction := .inbound, length := 40 }
    let reply : Packet :=
      { flow := ⟨2, 1, 4, 3, Protocol.udp, 0⟩, direction := .outbound, length := 40 }
    let s := opened.run [.add checker.assemble, .add (keeper.image 0), .process pkt none]
    let outcome : Outcome := ⟨.accept, some keeper, some .reverse⟩
    s.Reachable (fun rule _ => rule.createsState = true) ∧
      (s.firewall.check reply none).1 = outcome ∧
      s.firewall.Backs reply none outcome keeper := by
  intro keeper checker pkt reply s outcome
  have hreachable : s.Reachable fun rule _ => rule.createsState = true :=
    opened_reachable.run (by simp [Allows])
  have hcheck : (s.firewall.check reply none).1 = outcome := by
    simp only [s, run, List.foldl, step, Firewall.process, Firewall.check, evaluate,
      Walk.run_eq_runFor 4]
    decide +kernel
  have hbacked := verdict_backed hreachable reply none
  rw [hcheck] at hbacked
  exact ⟨hreachable, hcheck, hbacked⟩

end Session

end PacketFilter
