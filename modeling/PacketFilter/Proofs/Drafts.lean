import PacketFilter.Proofs.Grammar

/-!
# Drafts are rules

A draft lists instructions, and assembling it counts their words: the action offset is the number
of words before the action part. What is checked when the image is submitted is read from the words
again. The two agree because an instruction takes as many words as it is written in, so that the
action part is found at its offset whatever stands before it.

Main statements: `Insn.placedFrom_append`, where instructions lie that are written behind others;
`Rule.budgetOf_cases`, what the log budget is; `RuleDraft.assemble_grammatical`, an assembled draft
is in the grammar; **`RuleDraft.ofImage_assemble`**, every well-formed draft is accepted, and the
rule has the instructions that were asked for.
-/

namespace PacketFilter

/-! ## Positions -/

namespace Insn

theorem encodeAll_append (is js : List Insn) :
    encodeAll (is ++ js) = encodeAll is ++ encodeAll js := List.flatMap_append

theorem encodeAll_cons (i : Insn) (is : List Insn) :
    encodeAll (i :: is) = i.encode ++ encodeAll is := List.flatMap_cons

theorem placedFrom_append (is js : List Insn) (pos : Nat) :
    placedFrom pos (is ++ js) =
      placedFrom pos is ++ placedFrom (pos + (encodeAll is).length) js := by
  induction is generalizing pos with
  | nil => rfl
  | cons i is ih =>
    rw [List.cons_append, placedFrom, ih, encodeAll_cons, List.length_append, Nat.add_assoc]
    rfl

/-- A command that words can carry is an instruction without modifiers. -/
theorem wellFormed_plain {c : Command} (h : c.WellFormed) : WellFormed ⟨c, .none⟩ :=
  ⟨h, show Flags.isKnown (.none : Modifiers) = true by decide⟩

/-- Being placed does not change instructions. -/
theorem map_placedFrom (is : List Insn) (pos : Nat) : (placedFrom pos is).map Prod.snd = is := by
  induction is generalizing pos with
  | nil => rfl
  | cons i is ih => rw [placedFrom, List.map_cons, ih]

theorem length_placedFrom (is : List Insn) (pos : Nat) :
    (placedFrom pos is).length = is.length := by
  rw [← List.length_map, map_placedFrom]

end Insn

/-! ## The log budget -/

/-- **The log budget of instructions**: that of the first log instruction, or the one from the
settings if it leaves it open, and none without a log instruction. -/
theorem Rule.budgetOf_cases (insns : List Insn) (verboseLimit : UInt32) :
    (∃ before n modifiers after, insns = before ++ ⟨.log n, modifiers⟩ :: after ∧
      (∀ i ∈ before, i.command.isLog = false) ∧
      budgetOf insns verboseLimit = if n = 0 then verboseLimit else n) ∨
    (∀ i ∈ insns, i.command.isLog = false) ∧ budgetOf insns verboseLimit = 0 := by
  induction insns with
  | nil => exact Or.inr ⟨fun i hi => absurd hi List.not_mem_nil, rfl⟩
  | cons i insns ih =>
    obtain ⟨command, modifiers⟩ := i
    cases hlog : command.isLog with
    | true =>
      obtain ⟨n, rfl⟩ := isLog_iff.mp hlog
      exact Or.inl ⟨[], n, modifiers, insns, rfl, fun i hi => absurd hi List.not_mem_nil, rfl⟩
    | false =>
      -- An instruction in front that is no log instruction leaves the budget as it is.
      have hbudget : budgetOf (⟨command, modifiers⟩ :: insns) verboseLimit =
          budgetOf insns verboseLimit := by
        cases command with
        | log n => cases hlog
        | _ => rfl
      rw [hbudget]
      rcases ih with ⟨before, n, modifiers', after, rfl, hbefore, hvalue⟩ | ⟨hnone, hvalue⟩
      · refine Or.inl ⟨⟨command, modifiers⟩ :: before, n, modifiers', after, rfl, ?_, hvalue⟩
        exact List.forall_mem_cons.mpr ⟨hlog, hbefore⟩
      · exact Or.inr ⟨List.forall_mem_cons.mpr ⟨hlog, hnone⟩, hvalue⟩

/-! ## Drafts -/

namespace RuleDraft

/-- **A well-formed draft**: its instructions are well formed, only its action is an action, number
and set are ones that users may give, and the action offset can tell how many words come before the
action part. -/
structure WellFormed (d : RuleDraft) : Prop where
  number : d.number ≠ 65535
  set : d.set ≤ 30
  conditions : ∀ i ∈ d.conditions, i.WellFormed
  noAction : ∀ i ∈ d.conditions, i.command.isAction = false
  action : Insn.WellFormed ⟨d.action, .none⟩
  acts : d.action.isAction = true
  offset : (Insn.encodeAll d.guard).length ≤ 65535

instance (d : RuleDraft) : Decidable d.WellFormed :=
  decidable_of_iff
    (d.number ≠ 65535 ∧ d.set ≤ 30 ∧ (∀ i ∈ d.conditions, i.WellFormed) ∧
      (∀ i ∈ d.conditions, i.command.isAction = false) ∧ Insn.WellFormed ⟨d.action, .none⟩ ∧
      d.action.isAction = true ∧ (Insn.encodeAll d.guard).length ≤ 65535)
    ⟨fun ⟨h₁, h₂, h₃, h₄, h₅, h₆, h₇⟩ => ⟨h₁, h₂, h₃, h₄, h₅, h₆, h₇⟩,
      fun h => ⟨h.number, h.set, h.conditions, h.noAction, h.action, h.acts, h.offset⟩⟩

variable {d : RuleDraft}

/-- The guard has the conditions, and nothing else but a look for state. -/
theorem forall_mem_guard {P : Insn → Prop} (hprobe : P ⟨.probeState, .none⟩)
    (h : ∀ i ∈ d.conditions, P i) : ∀ i ∈ d.guard, P i := by
  unfold guard
  split
  · exact List.forall_mem_cons.mpr ⟨hprobe, h⟩
  · exact h

/-- The action part is log instructions and the action. -/
theorem exists_actionPart_eq (d : RuleDraft) :
    ∃ logs, d.actionPart = logs ++ [⟨d.action, .none⟩] ∧
      ∀ i ∈ logs, ∃ budget, i = ⟨.log budget, .none⟩ := by
  unfold actionPart
  cases d.log with
  | none => exact ⟨[], rfl, fun i hi => absurd hi List.not_mem_nil⟩
  | some budget =>
    exact ⟨[⟨.log budget, .none⟩], rfl, fun i hi => ⟨budget, List.mem_singleton.mp hi⟩⟩

theorem actionPart_ne_nil (d : RuleDraft) : d.actionPart ≠ [] := by
  obtain ⟨logs, hpart, -⟩ := d.exists_actionPart_eq
  rw [hpart]
  exact List.append_ne_nil_of_right_ne_nil _ (List.cons_ne_nil _ _)

namespace WellFormed

theorem guard_wellFormed (h : d.WellFormed) : ∀ i ∈ d.guard, i.WellFormed :=
  forall_mem_guard (Insn.wellFormed_plain trivial) h.conditions

theorem actionPart_wellFormed (h : d.WellFormed) : ∀ i ∈ d.actionPart, i.WellFormed := by
  obtain ⟨logs, hpart, hlogs⟩ := d.exists_actionPart_eq
  rw [hpart]
  intro i hi
  rcases List.mem_append.mp hi with hi | hi
  · obtain ⟨budget, rfl⟩ := hlogs i hi
    exact Insn.wellFormed_plain trivial
  · exact List.mem_singleton.mp hi ▸ h.action

/-- The guard has no action. -/
theorem countP_guard (h : d.WellFormed) : d.guard.countP (·.command.isAction) = 0 := by
  rw [List.countP_eq_zero]
  intro i hi
  rw [Bool.not_eq_true]
  exact forall_mem_guard (P := fun i => i.command.isAction = false) rfl h.noAction i hi

theorem countP_actionPart (h : d.WellFormed) : d.actionPart.countP (·.command.isAction) = 1 := by
  obtain ⟨logs, hpart, hlogs⟩ := d.exists_actionPart_eq
  have hnone : logs.countP (·.command.isAction) = 0 := by
    rw [List.countP_eq_zero]
    intro i hi
    obtain ⟨budget, rfl⟩ := hlogs i hi
    exact Bool.false_ne_true
  rw [hpart, List.countP_append, hnone, List.countP_singleton, if_pos h.acts]

/-- The words of a draft are read back as its instructions, the action part behind the guard. -/
theorem decodeAll_words (h : d.WellFormed) :
    Insn.decodeAll d.assemble.words = .ok (Insn.placedFrom 0 (d.guard ++ d.actionPart)) := by
  have hwords : d.assemble.words = Insn.encodeAll (d.guard ++ d.actionPart) :=
    (Insn.encodeAll_append d.guard d.actionPart).symm
  have hall : ∀ i ∈ d.guard ++ d.actionPart, i.WellFormed := by
    intro i hi
    rcases List.mem_append.mp hi with hi | hi
    · exact h.guard_wellFormed i hi
    · exact h.actionPart_wellFormed i hi
  rw [hwords]
  exact Insn.decodeFrom_encodeAll hall 0

/-- The action offset is where the action part begins. -/
theorem toNat_actionOffset (h : d.WellFormed) :
    d.assemble.actionOffset.toNat = (Insn.encodeAll d.guard).length := by
  have hoffset := h.offset
  exact Nat.mod_eq_of_lt (by omega)

end WellFormed

/-- **An assembled draft is in the grammar**, its action part behind the guard. -/
theorem assemble_grammatical (h : d.WellFormed) :
    d.assemble.Grammatical (Insn.placedFrom 0 (d.guard ++ d.actionPart)) d.guard.length := by
  obtain ⟨logs, hpart, hlogs⟩ := d.exists_actionPart_eq
  have hinsns := Insn.map_placedFrom (d.guard ++ d.actionPart) 0
  -- What is at a position of the list is the instruction there.
  have hinsn : ∀ {j : Nat} {p : Nat} {i : Insn},
      (Insn.placedFrom 0 (d.guard ++ d.actionPart))[j]? = some (p, i) →
        (d.guard ++ d.actionPart)[j]? = some i := by
    intro j p i hj
    have hsnd := congrArg (Option.map Prod.snd) hj
    rwa [← List.getElem?_map, hinsns] at hsnd
  constructor
  case number => exact h.number
  case set => exact h.set
  case decoded => exact h.decodeAll_words
  case nonempty =>
    intro hnil
    have hdecoded := h.decodeAll_words
    rw [hnil, Insn.decodeAll, Insn.decodeFrom] at hdecoded
    have hempty : d.guard ++ d.actionPart = [] := by
      rw [← hinsns, ← Except.ok.inj hdecoded]
      rfl
    exact d.actionPart_ne_nil (List.append_eq_nil_iff.mp hempty).2
  case single =>
    have hcount : (d.guard ++ d.actionPart).countP (·.command.isAction) = 1 := by
      rw [List.countP_append, h.countP_guard, h.countP_actionPart]
    rw [← hinsns, List.countP_map] at hcount
    exact hcount
  case last =>
    have hlast : ((Insn.placedFrom 0 (d.guard ++ d.actionPart)).map Prod.snd).getLast? =
        some ⟨d.action, .none⟩ := by
      rw [hinsns, hpart, ← List.append_assoc, List.getLast?_concat]
    rw [List.getLast?_map] at hlast
    obtain ⟨⟨p, i⟩, hget, rfl⟩ := Option.map_eq_some_iff.mp hlast
    exact ⟨p, _, hget, h.acts⟩
  case start =>
    obtain ⟨i, is, hcons⟩ := List.exists_cons_of_ne_nil d.actionPart_ne_nil
    refine ⟨i, ?_⟩
    rw [Insn.placedFrom_append, h.toNat_actionOffset, hcons, Insn.placedFrom, Nat.zero_add,
      ← Insn.length_placedFrom d.guard 0, List.getElem?_append_right (Nat.le_refl _),
      Nat.sub_self, List.getElem?_cons_zero]
  case logs =>
    intro j p i hj hlt hget
    have hi := hinsn hget
    rw [Insn.length_placedFrom, hpart, List.length_append, List.length_append,
      List.length_singleton] at hlt
    rw [hpart, List.getElem?_append_right hj, List.getElem?_append_left (by omega)] at hi
    obtain ⟨budget, rfl⟩ := hlogs i (List.mem_of_getElem? hi)
    exact ⟨budget, rfl⟩

/-! ## What is made of a draft -/

/-- **The rule means what was drafted**: it has the conditions, behind a look for state if one of
them creates state, and in front of the log instruction, if one was asked for, and the action. -/
structure Drafted (d : RuleDraft) (verboseLimit : UInt32) (rule : Rule) : Prop where
  /-- Taken out again, it is the image that was submitted. -/
  image : rule.image d.set = d.assemble
  stateful : (∃ i ∈ d.conditions, i.command.createsState = true) →
    rule.insns = ⟨.probeState, .none⟩ :: (d.conditions ++ rule.actionPart)
  stateless : (∀ i ∈ d.conditions, i.command.createsState = false) →
    rule.insns = d.conditions ++ rule.actionPart
  logged : ∀ budget, d.log = some budget →
    rule.actionPart = [⟨.log budget, .none⟩, ⟨d.action, .none⟩]
  unlogged : d.log = none → rule.actionPart = [⟨d.action, .none⟩]
  /-- The budget is that of the first log instruction, or the one from the settings if it is zero,
  or zero without a log instruction. -/
  budget :
    (∃ before n modifiers after, rule.insns = before ++ ⟨.log n, modifiers⟩ :: after ∧
      (∀ i ∈ before, i.command.isLog = false) ∧
      rule.logBudget = if n = 0 then verboseLimit else n) ∨
    (∀ i ∈ rule.insns, i.command.isLog = false) ∧ rule.logBudget = 0

/-- The guard looks for state exactly if one of the conditions creates it. -/
theorem guard_of_exists (h : ∃ i ∈ d.conditions, i.command.createsState = true) :
    d.guard = ⟨.probeState, .none⟩ :: d.conditions := if_pos (List.any_eq_true.mpr h)

theorem guard_of_forall (h : ∀ i ∈ d.conditions, i.command.createsState = false) :
    d.guard = d.conditions := by
  refine if_neg fun hany => ?_
  obtain ⟨i, hi, hcreates⟩ := List.any_eq_true.mp hany
  rw [h i hi] at hcreates
  cases hcreates

/-- **Every well-formed draft is accepted**, under any id and with any settings, and the rule means
what was drafted. -/
theorem ofImage_assemble (h : d.WellFormed) (id : Nat) (verboseLimit : UInt32) :
    ∃ rule, Rule.ofImage id d.assemble verboseLimit = .ok rule ∧ d.Drafted verboseLimit rule := by
  refine ⟨_, Rule.ofImage_eq_ok_iff.mpr ⟨_, _, assemble_grammatical h, rfl⟩, ?_⟩
  have hinsns := Insn.map_placedFrom (d.guard ++ d.actionPart) 0
  rw [hinsns]
  have hpart : Rule.actionPart ⟨id, d.assemble.number, d.assemble.words, d.assemble.actionOffset,
      d.guard ++ d.actionPart, d.guard.length,
      Rule.budgetOf (d.guard ++ d.actionPart) verboseLimit⟩ = d.actionPart := List.drop_left
  constructor
  case image => rfl
  case stateful =>
    intro hcreates
    rw [hpart]
    show d.guard ++ d.actionPart = _
    rw [guard_of_exists hcreates, List.cons_append]
  case stateless =>
    intro hnone
    rw [hpart]
    show d.guard ++ d.actionPart = _
    rw [guard_of_forall hnone]
  case logged =>
    intro budget hlog
    rw [hpart, actionPart, hlog]
  case unlogged =>
    intro hlog
    rw [hpart, actionPart, hlog]
  case budget => exact Rule.budgetOf_cases (d.guard ++ d.actionPart) verboseLimit

/-- A rule that keeps state, logs on the way, and logs again before it acts. -/
theorem ofImage_assemble_logger :
    let d : RuleDraft :=
      { number := 100
        conditions := [⟨.log 0, .none⟩, ⟨.inbound, Modifiers.negated⟩, ⟨.keepState, .none⟩]
        log := some 3
        action := .act (.skipTo 200) }
    d.WellFormed ∧ ∃ rule, Rule.ofImage 7 d.assemble 50 = .ok rule ∧ d.Drafted 50 rule ∧
      rule.insns = [⟨.probeState, .none⟩, ⟨.log 0, .none⟩, ⟨.inbound, Modifiers.negated⟩,
        ⟨.keepState, .none⟩, ⟨.log 3, .none⟩, ⟨.act (.skipTo 200), .none⟩] ∧
      rule.logBudget = 50 := by
  intro d
  have hd : d.WellFormed := by decide
  obtain ⟨rule, hrule, hdrafted⟩ := ofImage_assemble hd 7 50
  have hinsns := hdrafted.stateful ⟨⟨.keepState, .none⟩, by decide, rfl⟩
  rw [hdrafted.logged 3 rfl] at hinsns
  refine ⟨hd, rule, hrule, hdrafted, hinsns, ?_⟩
  obtain ⟨placed, k, -, hmade⟩ := Rule.ofImage_eq_ok_iff.mp hrule
  have hbudget : rule.logBudget = Rule.budgetOf rule.insns 50 := by rw [hmade]
  rw [hbudget, hinsns]
  decide

end RuleDraft

end PacketFilter
