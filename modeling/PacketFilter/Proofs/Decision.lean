import PacketFilter.Proofs.Verdict

/-!
# Every packet that walks is decided

A walk never comes to the end of the chain: the rule that stands there is in service and decides
every packet. From any other rule on there are positions left, whether the walk goes on behind it,
skips, follows a hit, or begins behind it because it has handed the packet out. Only the default
rule has no position behind it, and it has no state and hands no packet out.

So nothing that packets do is written to the log as an error.

Main statements: `Walk.next_inside`, a step leads to a position of the chain; `Walk.run_decides`, a
walk is decided by a rule; `check_decides`, what that means for a packet; **`decided_of_honest`**,
in every session in which packets come back only with rules that handed packets out, a packet that
is left to the rules is decided by one, and no error is logged.
-/

namespace PacketFilter

/-! ## The rule at the end -/

/-- The default rule decides every packet that comes to it. -/
theorem Rule.terminal_decides (env : Surroundings) (pkt : Packet) (id : Nat) (accepts : Bool)
    (p : Progress) : ∃ v, runInsns env pkt (.terminal id accepts) (Rule.terminal id accepts).insns
      false p = (.decided v, p) := by
  cases accepts with
  | true => exact ⟨.accept, rfl⟩
  | false => exact ⟨.deny, rfl⟩

/-- The default rule accepts or denies. -/
theorem Rule.terminal_prescribes {pkt : Packet} {direction : Option MatchDirection} {v : Verdict}
    {id : Nat} {accepts : Bool}
    (h : (Rule.terminal id accepts).action.Prescribes pkt direction v) :
    v = .accept ∨ v = .deny := by
  cases accepts with
  | true =>
    cases h
    exact Or.inl rfl
  | false =>
    cases h
    exact Or.inr rfl

/-- **A chain that ends**: it is in order, and the default rule at its end is in service. -/
structure Surroundings.Closed (env : Surroundings) (e : Engine) (last : Rule) : Prop where
  order : env.chain.InOrder last
  terminal : ∃ accepts, last = .terminal 0 accepts
  enabled : env.disabled.has (e.roster.setOf last) = false

/-! ## Walks -/

/-- Is a cursor at a position of the chain, with another one behind it if it follows a hit? -/
def Cursor.Inside (c : Chain) : Cursor → Prop
  | .standing i => i < c.length
  | .following _ i => i + 1 < c.length

section

variable {env : Surroundings} {pkt : Packet} {e : Engine} {last : Rule} {w w' : Walk} {rule : Rule}
  {is : List Insn}

/-- The last rule has no state, and decides where a walk comes to it. -/
theorem Walk.Underway.isDefault_eq_false (hclosed : env.Closed e last) (hw : w.Underway env pkt e)
    (hbody : w.body? env = some (rule, is))
    (hnot : ∀ v, (PacketFilter.runInsns env pkt rule is false w.progress).1 ≠ .decided v) :
    rule.isDefault = false := by
  by_contra hdefault
  rw [Bool.not_eq_false] at hdefault
  have hlast := hclosed.order.eq_last (hw.inService hbody).1 hdefault
  obtain ⟨accepts, rfl⟩ := hclosed.terminal
  subst hlast
  rcases Walk.of_body hbody with ⟨i, -, -, -, rfl⟩ | ⟨i, hcursor, -⟩
  · obtain ⟨v, hdecides⟩ := Rule.terminal_decides env pkt 0 accepts w.progress
    exact hnot v (congrArg Prod.fst hdecides)
  · have hfollows := hw.follows
    rw [hcursor] at hfollows
    have hcreates : (Rule.terminal 0 accepts).createsState = true := hfollows.2
    rw [Rule.createsState_terminal] at hcreates
    cases hcreates

/-- **A step leads to a position of the chain.** -/
theorem Walk.next_inside (hclosed : env.Closed e last) (hw : w.Underway env pkt e)
    (hin : w.cursor.Inside env.chain) (hnext : w.next env pkt = .inl w') :
    w'.cursor.Inside env.chain := by
  rcases Walk.step_cases hnext with ⟨i, rule, -, hget, hdisabled, rfl⟩ |
    ⟨rule, is, hbody, -, hcursor⟩
  · -- The last rule is not passed over.
    have hrule : rule.isDefault = false := by
      by_contra hdefault
      rw [Bool.not_eq_false] at hdefault
      rw [hclosed.order.eq_last (List.mem_of_getElem? hget) hdefault,
        (Effects.standing hw.effects).setOf_eq, hclosed.enabled] at hdisabled
      cases hdisabled
    exact hclosed.order.succ_lt hget hrule
  · have hrule : rule.isDefault = false := by
      refine hw.isDefault_eq_false hclosed hbody ?_
      intro v hdecided
      rcases hcursor with ⟨hresult, -⟩ | ⟨hresult, -⟩ | ⟨creator, hresult, -⟩ <;>
        · rw [hdecided] at hresult
          cases hresult
    have hsucc : w.cursor.position + 1 < env.chain.length := by
      rcases Walk.of_body hbody with ⟨i, hw, hget, -, -⟩ | ⟨i, hw, -⟩
      · rw [hw]
        exact hclosed.order.succ_lt hget hrule
      · rw [hw] at hin ⊢
        exact hin
    rcases hcursor with ⟨-, hcursor⟩ | ⟨-, hcursor⟩ | ⟨creator, -, hcursor⟩
    · rw [hcursor]
      exact hsucc
    · rw [hcursor]
      exact hclosed.order.continueAt_lt (hw.inService hbody).1 hrule
    · rw [hcursor]
      exact hsucc

/-- **A walk is decided by a rule**, and logs no error. -/
theorem Walk.run_decides (hclosed : env.Closed e last) (he : e.Within (env.InService e))
    (hw : w.Underway env pkt e) (hin : w.cursor.Inside env.chain) :
    (Walk.run env pkt w).1.rule.isSome = true ∧
      e.Logs (·.level ≠ .error) (Walk.run env pkt w).2 := by
  have hstep : ∀ w w' : Walk, w.Underway env pkt e ∧ w.cursor.Inside env.chain →
      w.next env pkt = .inl w' → w'.Underway env pkt e ∧ w'.cursor.Inside env.chain := by
    rintro w w' ⟨hw, hin⟩ hnext
    exact ⟨hw.next he hnext, Walk.next_inside hclosed hw hin hnext⟩
  obtain ⟨w', ⟨hw', hin'⟩, hlast⟩ := Walk.run_spec hstep ⟨hw, hin⟩
  generalize Walk.run env pkt w = done at hlast
  rcases Walk.last_cases hlast with ⟨i, hcursor, hget, -⟩ | ⟨rule, is, v, hbody, -, rfl⟩
  · rw [hcursor] at hin'
    have hin' : i < env.chain.rules.length := hin'
    rw [Chain.get?, List.getElem?_eq_getElem hin'] at hget
    cases hget
  · have heffects := (hw'.runInsns he hbody).1.tail (Effect.count _ rule (hw'.inService hbody))
    exact ⟨rfl, Effects.logs heffects⟩

end

/-! ## Packets -/

namespace Firewall

/-- **Is a packet left to the rules?** Not if it is this host's own, if it comes back and need not
go on or its rule has been deleted, or if it is tagged with the number of the default rule. -/
def LeftToRules (fw : Firewall) (pkt : Packet) (resume : Option Rule) : Prop :=
  pkt.generated = false ∧
    match resume with
    | some r => fw.config.onePass = false ∧ r ∈ fw.chain.rules
    | none => pkt.divertTag ≠ some defaultRuleNumber

variable {fw : Firewall} {last : Rule} {accepted : List Rule}

theorem Orderly.closed (h : Orderly last accepted fw) : fw.surroundings.Closed fw.engine last :=
  ⟨h.order, h.terminal, h.enabled⟩

/-- Where a packet that is left to the rules starts: at a position of the chain. No other packet
starts. -/
theorem startOf_leftToRules (hc : Coherent (last :: accepted) fw) (h : Orderly last accepted fw)
    {pkt : Packet} (hgenerated : pkt.generated = false) {resume : Option Rule}
    (hresume : ∀ r ∈ resume, r ∈ accepted) :
    (∃ i, startOf fw.surroundings pkt resume fw.engine.roster = .inl i ∧ i < fw.chain.length ∧
      fw.LeftToRules pkt resume) ∨
    ∃ outcome, startOf fw.surroundings pkt resume fw.engine.roster = .inr outcome ∧
      outcome.rule = none ∧ ¬ fw.LeftToRules pkt resume := by
  unfold startOf LeftToRules
  cases resume with
  | some r =>
    have hr : r ∈ last :: accepted := List.mem_cons_of_mem last (hresume r rfl)
    have hinvalid : (fw.engine.roster.status r.id).invalid = true ↔ r ∉ fw.chain.rules :=
      hc.invalid r hr
    simp only
    by_cases honePass : fw.config.onePass = true
    · refine Or.inr ⟨_, if_pos honePass, rfl, fun hleft => ?_⟩
      rw [honePass] at hleft
      cases hleft.2.1
    · rw [if_neg (show ¬ fw.surroundings.onePass = true from honePass)]
      by_cases hmem : r ∈ fw.chain.rules
      · rw [if_neg fun h => hinvalid.mp h hmem]
        have hdefault := (h.checked r (hresume r rfl)).2
        exact Or.inl ⟨_, rfl, h.order.continueAt_lt hmem hdefault, hgenerated,
          Bool.eq_false_iff.mpr honePass, hmem⟩
      · rw [if_pos (hinvalid.mpr hmem)]
        exact Or.inr ⟨_, rfl, rfl, fun hleft => hmem hleft.2.2⟩
  | none =>
    simp only
    cases htag : pkt.divertTag with
    | none =>
      exact Or.inl ⟨0, rfl, List.length_pos_of_mem h.order.last_mem, hgenerated, by simp⟩
    | some tag =>
      simp only
      by_cases hle : defaultRuleNumber ≤ tag
      · rw [if_pos hle, UInt16.le_antisymm (le_defaultRuleNumber tag) hle]
        exact Or.inr ⟨_, rfl, rfl, fun hleft => hleft.2 rfl⟩
      · rw [if_neg hle]
        have hne : tag ≠ defaultRuleNumber := fun heq => hle (UInt16.le_of_eq heq.symm)
        obtain ⟨i, hi⟩ := h.order.exists_firstAfter? hne
        have hfirst : fw.surroundings.chain.firstAfter? tag = some i := hi
        rw [hfirst]
        refine Or.inl ⟨i, rfl, Chain.firstAfter?_lt hi, hgenerated, fun heq => hne ?_⟩
        exact Option.some.inj heq

/-- **A packet is decided by a rule exactly if it is left to the rules**, and no error is logged. It
may come back with any rule that was ever accepted. -/
theorem check_decides (hc : Coherent (last :: accepted) fw) (h : Orderly last accepted fw)
    (pkt : Packet) {resume : Option Rule} (hresume : ∀ r ∈ resume, r ∈ accepted) :
    ((fw.check pkt resume).1.rule.isSome = true ↔ fw.LeftToRules pkt resume) ∧
      fw.engine.Logs (·.level ≠ .error) (fw.check pkt resume).2.engine := by
  show ((evaluate fw.surroundings pkt resume fw.engine).1.rule.isSome = true ↔ _) ∧
    fw.engine.Logs _ (evaluate fw.surroundings pkt resume fw.engine).2
  unfold evaluate
  cases hgenerated : pkt.generated with
  | true =>
    rw [if_pos rfl]
    have hnot : ¬ fw.LeftToRules pkt resume := by
      rintro ⟨hleft, -⟩
      rw [hleft] at hgenerated
      cases hgenerated
    exact ⟨iff_of_false Bool.false_ne_true hnot, .of_eq rfl⟩
  | false =>
    rw [if_neg Bool.false_ne_true]
    rcases startOf_leftToRules hc h hgenerated hresume with ⟨i, hstart, hlt, hleft⟩ |
      ⟨outcome, hstart, hrule, hnot⟩
    · rw [hstart]
      obtain ⟨hsome, hlogs⟩ := Walk.run_decides h.closed hc.within
        (Walk.Underway.start pkt i) hlt
      exact ⟨iff_of_true hsome hleft, hlogs⟩
    · rw [hstart]
      have hnone : ¬ outcome.rule.isSome = true := by simp [hrule]
      exact ⟨iff_of_false hnone hnot, .of_eq rfl⟩

/-- A packet that is handed out comes back with the rule that decided, and was neither accepted nor
denied. -/
theorem exists_of_handOut {pkt : Packet} {outcome : Outcome} {request : PacketRequest}
    (h : handOut? pkt outcome = some request) :
    ∃ r, outcome.rule = some r ∧ request.rule? = some r ∧ outcome.verdict ≠ .accept ∧
      outcome.verdict ≠ .deny := by
  unfold handOut? at h
  split at h
  · cases h
  · rename_i r hrule
    refine ⟨r, hrule, ?_⟩
    split at h
    case h_4 => cases h
    all_goals
      rename_i hverdict
      cases h
      rw [hverdict]
      exact ⟨rfl, by simp, by simp⟩

end Firewall

/-! ## Sessions -/

namespace Session

open Firewall

variable {grants : Rule → StateRequest → Prop} {tokens : List Rule} {s : Session}

/-- A rule that hands a packet out has been accepted. -/
theorem mem_accepted_of_handsOut {last : Rule}
    (hc : Firewall.Coherent (last :: s.accepted) s.firewall)
    (h : Orderly last s.accepted s.firewall)
    {op : Operation} {r : Rule} (hout : s.handsOut op = some r) : r ∈ s.accepted := by
  cases op with
  | process pkt resume =>
    obtain ⟨request, hrequest, hr⟩ := Option.bind_eq_some_iff.mp hout
    obtain ⟨r', hrule, hr', haccept, hdeny⟩ := exists_of_handOut hrequest
    obtain rfl : r' = r := Option.some.inj (hr'.symm.trans hr)
    rcases check_decided hc h pkt resume with ⟨r, hr, hservice, hgrounds⟩ | ⟨hnone, -⟩
    · obtain rfl : r = r' := Option.some.inj (hr.symm.trans hrule)
      rcases hgrounds with hprescribes | ⟨hdenied, -⟩
      · rcases List.mem_cons.mp (hc.members r hservice.1) with rfl | hmem
        · obtain ⟨accepts, rfl⟩ := h.terminal
          rcases Rule.terminal_prescribes hprescribes with hverdict | hverdict
          · exact absurd hverdict haccept
          · exact absurd hverdict hdeny
        · exact hmem
      · exact absurd hdenied hdeny
    · rw [hnone] at hrule
      cases hrule
  | _ => cases hout

/-- **Rules that have handed packets out have been accepted.** -/
theorem Honest.mem_accepted (hfair : Fair grants) (h : s.Honest grants tokens) :
    ∀ r ∈ tokens, r ∈ s.accepted := by
  induction h with
  | start hnew =>
    intro r hr
    exact absurd hr List.not_mem_nil
  | step h op hop hback ih =>
    intro r hr
    refine mem_accepted_step ?_ op
    rcases List.mem_append.mp hr with hr | hr
    · exact ih r hr
    · obtain ⟨last, hc, horderly⟩ := h.reachable.orderly hfair
      exact mem_accepted_of_handsOut hc horderly (by simpa using hr)

/-- **No error is logged.** -/
theorem Honest.quiet (hfair : Fair grants) (h : s.Honest grants tokens) :
    ∀ m ∈ s.firewall.engine.log, m.level ≠ .error := by
  induction h with
  | start hnew =>
    unfold Firewall.new at hnew
    split at hnew
    · cases hnew
    · cases hnew
      intro m hm
      rw [List.mem_singleton.mp hm]
      simp [LogMessage.level]
  | @step tokens s h op hop hback ih =>
    obtain ⟨last, hc, horderly⟩ := h.reachable.orderly hfair
    have hcheck : ∀ pkt resume, op.back? = resume →
        ∀ m ∈ (s.firewall.check pkt resume).2.engine.log, m.level ≠ .error := by
      rintro pkt resume rfl
      have hresume : ∀ r ∈ op.back?, r ∈ s.accepted := fun r hr =>
        h.mem_accepted hfair r (hback r hr)
      exact (check_decides hc horderly pkt hresume).2.forall_mem ih
    rcases administered_step hc horderly.order op with
      ⟨pkt, resume, rfl | rfl⟩ | rfl | hadministered
    · exact hcheck pkt resume rfl
    · obtain ⟨requests, hprocess⟩ := s.firewall.process_eq_check pkt resume
      have hlog : (s.step (.process pkt resume)).firewall.engine.log =
          (s.firewall.check pkt resume).2.engine.log := by
        show (s.firewall.process pkt resume).2.engine.log = _
        rw [hprocess]
      rw [hlog]
      exact hcheck pkt resume rfl
    · intro m hm
      exact absurd hm List.not_mem_nil
    · have hnotes : s.firewall.engine.Logs (·.level ≠ .error) (s.step op).firewall.engine :=
        hadministered.notes.mono fun m hm => by simp [hm]
      exact hnotes.forall_mem ih

/-- **Every packet that is left to the rules is decided by one, and no error is logged**, in every
session in which packets come back only with rules that have handed packets out. -/
theorem decided_of_honest (h : s.Honest (fun rule _ => rule.createsState = true) tokens)
    (pkt : Packet) (resume : Option Rule) (hresume : ∀ r ∈ resume, r ∈ tokens) :
    (∀ m ∈ s.firewall.engine.log, m.level ≠ .error) ∧
      (∀ m ∈ (s.firewall.check pkt resume).2.engine.log, m.level ≠ .error) ∧
      (∀ flow, .undecided flow ∉ (s.firewall.check pkt resume).2.engine.log) ∧
      ((s.firewall.check pkt resume).1.rule.isSome = true ↔ s.firewall.LeftToRules pkt resume) := by
  obtain ⟨last, hc, horderly⟩ := h.reachable.orderly fair_creates
  have hquiet := h.quiet fair_creates
  obtain ⟨hdecides, hlogs⟩ := check_decides hc horderly pkt fun r hr =>
    h.mem_accepted fair_creates r (hresume r hr)
  have hchecked := hlogs.forall_mem hquiet
  exact ⟨hquiet, hchecked, fun flow hmem => hchecked _ hmem rfl, hdecides⟩

/-- A packet skips to a rule that hands it out; when it comes back, the set of that rule is
disabled. -/
theorem decided_behind_divert :
    let diverter := diverter 2 200
    let skipper : RuleDraft := { number := 100, action := .act (.skipTo 150) }
    let pkt : Packet :=
      { flow := ⟨1, 2, 3, 4, Protocol.udp, 0⟩, direction := .inbound, length := 40 }
    let away := opened.run [.add skipper.assemble, .add (diverter.image 3), .process pkt none]
    let s := away.step (.setEnable 8 0)
    s.Honest (fun rule _ => rule.createsState = true) [diverter] ∧
      s.firewall.LeftToRules pkt (some diverter) ∧
      (s.firewall.check pkt (some diverter)).1.rule.isSome = true := by
  intro diverter skipper pkt away s
  have hout : (opened.run [.add skipper.assemble, .add (diverter.image 3)]).handsOut
      (.process pkt none) = some diverter := by
    simp only [run, List.foldl, step, handsOut, Firewall.check, evaluate, Walk.run_eq_runFor 3]
    decide +kernel
  have hadded : (opened.run [.add skipper.assemble, .add (diverter.image 3)]).Honest
      (fun rule _ => rule.createsState = true) [] :=
    (opened_honest.step (.add skipper.assemble) trivial (by simp [Operation.back?])).step
      (.add (diverter.image 3)) trivial (by simp [Operation.back?])
  have haway := hadded.step (.process pkt none) trivial (by simp [Operation.back?])
  rw [hout] at haway
  have hs : s.Honest (fun rule _ => rule.createsState = true) [diverter] :=
    haway.step (.setEnable 8 0) trivial (by simp [Operation.back?])
  have hdecided := decided_of_honest hs pkt (some diverter) (by simp)
  have hleft : s.firewall.LeftToRules pkt (some diverter) := by
    unfold LeftToRules
    simp only [s, away, run, List.foldl, step, Firewall.process, Firewall.check, evaluate,
      Walk.run_eq_runFor 3]
    decide +kernel
  exact ⟨hs, hleft, hdecided.2.2.2.mpr hleft⟩

end Session

end PacketFilter
