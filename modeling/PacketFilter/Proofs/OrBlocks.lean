import Mathlib.Data.List.DropRight
import Mathlib.Data.List.SplitBy
import PacketFilter.Evaluation
import PacketFilter.Proofs.Rule

/-!
# Or-blocks

The conditions of a rule are a conjunction of disjunctions: an instruction that is joined with the
next one belongs to one block with it, and a block holds if one of its members is satisfied. The
instructions are run in one pass, which keeps nothing of that but whether it is passing over the
rest of a block.

A rule is accepted also if its last condition is joined with the instruction behind it, which is the
action. That block then lies open when the action is reached, and the action is taken for one of its
members: it is passed over where a member of the open block is satisfied, and carried out where none
is.

Main statements: `closed_of_mem_orBlocks`, the blocks of conditions of which the last is not joined;
`runInsns_conditions`, one pass over any conditions; **`acts_iff_orBlocks`**, a rule whose last
block is closed acts if and only if every block holds; **`satisfied_acts_unless_open`**, a rule all
of whose conditions are satisfied does not act if its last block is open.
-/

namespace PacketFilter

/-! ## Blocks -/

namespace Insn

/-- The or-blocks of instructions: each goes up to the first that is not joined with the next. -/
def orBlocks (insns : List Insn) : List (List Insn) := insns.splitBy fun i _ => i.isOr

/-- Members that are joined, and the one that ends the block. -/
def IsClosed (block : List Insn) : Prop :=
  ∃ joined last, block = joined ++ [last] ∧ (∀ i ∈ joined, i.isOr = true) ∧ last.isOr = false

/-- The instructions that are joined with the one behind them all, if there is one. -/
def openBlock (insns : List Insn) : List Insn := insns.rtakeWhile Insn.isOr

/-- The instructions up to the last one that is not joined with the next. -/
def closedPart (insns : List Insn) : List Insn := insns.rdropWhile Insn.isOr

/-- **Blocks are closed** where the last instruction is not joined. -/
theorem closed_of_mem_orBlocks {insns : List Insn} (hlast : ∀ i ∈ insns.getLast?, i.isOr = false)
    {block : List Insn} (hblock : block ∈ orBlocks insns) : IsClosed block := by
  rcases List.eq_nil_or_concat block with rfl | ⟨joined, last, rfl⟩
  · exact absurd hblock (List.nil_notMem_splitBy _ _)
  rw [List.concat_eq_append] at hblock ⊢
  have hchain := List.isChain_of_mem_splitBy hblock
  have hblocks := List.isChain_getLast_head_splitBy (fun i _ => Insn.isOr i) insns
  obtain ⟨before, behind, hsplit⟩ := List.append_of_mem hblock
  have hflatten := List.flatten_splitBy (fun i _ => Insn.isOr i) insns
  unfold orBlocks at hsplit
  rw [hsplit] at hblocks hflatten
  refine ⟨joined, last, rfl, fun i hi => ?_, ?_⟩
  · obtain ⟨k, hk, rfl⟩ := List.getElem_of_mem hi
    have hjoined := List.isChain_iff_getElem.mp hchain k (by simp; omega)
    simpa [List.getElem_append_left hk] using hjoined
  · cases behind with
    | nil =>
      refine hlast last ?_
      rw [← hflatten]
      simp
    | cons next behind =>
      obtain ⟨-, ⟨_, _, hends⟩, -⟩ := List.isChain_append_cons_cons.mp hblocks
      simpa using hends

theorem closedPart_append_openBlock (insns : List Insn) :
    closedPart insns ++ openBlock insns = insns := List.rdropWhile_append_rtakeWhile

theorem isOr_of_mem_openBlock {insns : List Insn} {i : Insn} (hi : i ∈ openBlock insns) :
    i.isOr = true := List.mem_rtakeWhile_imp hi

/-- The closed part ends in an instruction that is not joined. -/
theorem isOr_of_getLast?_closedPart {insns : List Insn} :
    ∀ i ∈ (closedPart insns).getLast?, i.isOr = false := by
  intro i hi
  have hne : closedPart insns ≠ [] := by
    rintro hnil
    rw [hnil] at hi
    cases hi
  have hnot := List.rdropWhile_last_not Insn.isOr insns hne
  rw [List.getLast?_eq_getLast_of_ne_nil hne, Option.mem_def, Option.some.injEq] at hi
  rw [← hi]
  exact Bool.eq_false_iff.mpr hnot

/-- No block is open where the last instruction is not joined. -/
theorem openBlock_eq_nil_iff (insns : List Insn) :
    openBlock insns = [] ↔ ∀ i ∈ insns.getLast?, i.isOr = false := by
  unfold openBlock
  rw [List.rtakeWhile_eq_nil_iff]
  constructor
  · intro h i hi
    obtain ⟨hne, rfl⟩ := List.mem_getLast?_eq_getLast hi
    exact Bool.eq_false_iff.mpr (h hne)
  · intro h hne
    exact Bool.eq_false_iff.mp (h _ (List.getLast_mem_getLast? hne))

end Insn

/-! ## Running conditions -/

/-- The progress after so many more draws, with nothing else done. -/
def Progress.drawing (p : Progress) (n : Nat) : Progress :=
  { p with engine := { p.engine with drawn := p.engine.drawn + n } }

theorem Progress.drawing_drawing (p : Progress) (m n : Nat) :
    (p.drawing m).drawing n = p.drawing (m + n) := by
  simp only [drawing, Nat.add_assoc]

/-- The number of draws that instructions ask for. -/
def drawsOf (insns : List Insn) : Nat := insns.countP (·.command.isRandom)

theorem drawsOf_append (insns insns' : List Insn) :
    drawsOf (insns ++ insns') = drawsOf insns + drawsOf insns' := List.countP_append

theorem drawsOf_cons (i : Insn) (insns : List Insn) :
    drawsOf (i :: insns) = drawsOf [i] + drawsOf insns := drawsOf_append [i] insns

/-- Carry out the action of a rule. -/
def Rule.act (env : Surroundings) (pkt : Packet) (rule : Rule) (p : Progress) :
    RuleResult × Progress :=
  match rule.action with
  | .checkState =>
    match consult env pkt p with
    | (some creator, p) => (.follow creator, p)
    | (none, p) => (.nextRule, p)
  | a => perform env pkt rule a p

section

variable {env : Surroundings} {pkt : Packet} {rule : Rule} {sat : Insn → Bool}

/-- What the instruction that ends a rule does. -/
theorem runInsns_action (modifiers : Modifiers) (p : Progress) :
    runInsns env pkt rule [⟨.act rule.action, modifiers⟩] false p = rule.act env pkt p := by
  unfold Rule.act
  cases rule.action with
  | checkState =>
    simp only [runInsns, examine]
    cases consult env pkt p with
    | mk creator p => cases creator <;> rfl
  | _ => rfl

/-- A packet is compared with a condition, and nothing else happens. -/
theorem examine_predicate {c : Command} (hc : c.isPredicate = true) (p : Progress) :
    examine env pkt rule c p = (.holds (c.holds pkt (env.draw p.engine.drawn)),
      p.drawing (if c.isRandom then 1 else 0)) := by
  have hdraw : p.drawing (if c.isRandom then 1 else 0) =
      { p with engine := p.engine.afterDraw c } := by
    unfold Progress.drawing Engine.afterDraw
    split <;> rfl
  rw [hdraw]
  cases c with
  | probeState | keepState | limit | log | act => cases hc
  | _ => rfl

/-- **Running one condition.** -/
theorem runInsns_cons {i : Insn} (hi : i.command.isPredicate = true)
    (hsat : ∀ n, i.satisfied pkt (env.draw n) = sat i) (rest : List Insn) (p : Progress) :
    runInsns env pkt rule (i :: rest) false p =
      if sat i then runInsns env pkt rule rest i.isOr (p.drawing (drawsOf [i]))
      else if i.isOr then runInsns env pkt rule rest false (p.drawing (drawsOf [i]))
      else (.nextRule, p.drawing (drawsOf [i])) := by
  have hdraws : drawsOf [i] = if i.command.isRandom then 1 else 0 := by
    simp [drawsOf, List.countP_cons]
  rw [← hsat p.engine.drawn, hdraws, Insn.satisfied]
  simp only [runInsns, examine_predicate hi]

/-- Once a member is satisfied, the members that are joined with it are passed over. -/
theorem runInsns_skipping {joined : List Insn} (hjoined : ∀ i ∈ joined, i.isOr = true)
    (rest : List Insn) (p : Progress) :
    runInsns env pkt rule (joined ++ rest) true p = runInsns env pkt rule rest true p := by
  induction joined with
  | nil => rfl
  | cons i joined ih =>
    rw [List.cons_append, runInsns, hjoined i List.mem_cons_self]
    exact ih fun j hj => hjoined j (List.mem_cons_of_mem i hj)

/-- **Running joined conditions**: the pass is within a block behind them if one is satisfied. -/
theorem runInsns_joined {joined : List Insn} (hjoined : ∀ i ∈ joined, i.isOr = true)
    (hpred : ∀ i ∈ joined, i.command.isPredicate = true)
    (hsat : ∀ i ∈ joined, ∀ n, i.satisfied pkt (env.draw n) = sat i) (rest : List Insn)
    (p : Progress) :
    ∃ n ≤ drawsOf joined, runInsns env pkt rule (joined ++ rest) false p =
      runInsns env pkt rule rest (joined.any sat) (p.drawing n) := by
  induction joined generalizing p with
  | nil => exact ⟨0, Nat.le_refl _, rfl⟩
  | cons i joined ih =>
    have hothers : ∀ j ∈ joined, j.isOr = true := fun j hj => hjoined j (List.mem_cons_of_mem i hj)
    rw [List.cons_append, runInsns_cons (hpred i List.mem_cons_self) (hsat i List.mem_cons_self),
      hjoined i List.mem_cons_self, List.any_cons, drawsOf_cons]
    cases sat i with
    | true => exact ⟨drawsOf [i], Nat.le_add_right _ _, runInsns_skipping hothers _ _⟩
    | false =>
      obtain ⟨n, hn, hrun⟩ := ih hothers (fun j hj => hpred j (List.mem_cons_of_mem i hj))
        (fun j hj => hsat j (List.mem_cons_of_mem i hj)) (p.drawing (drawsOf [i]))
      refine ⟨drawsOf [i] + n, Nat.add_le_add_left hn _, ?_⟩
      rw [← Progress.drawing_drawing]
      exact hrun

/-- **Running a closed block**: the pass goes on behind it if a member is satisfied, and ends the
rule if none is. -/
theorem runInsns_closed {block : List Insn} (hclosed : Insn.IsClosed block)
    (hpred : ∀ i ∈ block, i.command.isPredicate = true)
    (hsat : ∀ i ∈ block, ∀ n, i.satisfied pkt (env.draw n) = sat i) (rest : List Insn)
    (p : Progress) :
    ∃ n ≤ drawsOf block, runInsns env pkt rule (block ++ rest) false p =
      if block.any sat then runInsns env pkt rule rest false (p.drawing n)
      else (.nextRule, p.drawing n) := by
  obtain ⟨joined, last, rfl, hjoined, hlast⟩ := hclosed
  have hmem : last ∈ joined ++ [last] := List.mem_append_right joined List.mem_cons_self
  obtain ⟨n, hn, hrun⟩ := runInsns_joined hjoined
    (fun i hi => hpred i (List.mem_append_left [last] hi))
    (fun i hi => hsat i (List.mem_append_left [last] hi)) (last :: rest) p
  rw [List.append_assoc, List.singleton_append, hrun, List.any_append, drawsOf_append]
  cases joined.any sat with
  | true =>
    refine ⟨n, Nat.le_trans hn (Nat.le_add_right _ _), ?_⟩
    rw [runInsns, hlast]
    rfl
  | false =>
    refine ⟨n + drawsOf [last], Nat.add_le_add_right hn _, ?_⟩
    rw [runInsns_cons (hpred last hmem) (hsat last hmem), hlast, Progress.drawing_drawing]
    simp

/-- **Running closed blocks**: the pass goes on behind them if and only if every block holds. -/
theorem runInsns_blocks {blocks : List (List Insn)} (hclosed : ∀ b ∈ blocks, Insn.IsClosed b)
    (hpred : ∀ b ∈ blocks, ∀ i ∈ b, i.command.isPredicate = true)
    (hsat : ∀ b ∈ blocks, ∀ i ∈ b, ∀ n, i.satisfied pkt (env.draw n) = sat i) (rest : List Insn)
    (p : Progress) :
    ∃ n ≤ drawsOf blocks.flatten, runInsns env pkt rule (blocks.flatten ++ rest) false p =
      if blocks.all (·.any sat) then runInsns env pkt rule rest false (p.drawing n)
      else (.nextRule, p.drawing n) := by
  induction blocks generalizing p with
  | nil => exact ⟨0, Nat.le_refl _, rfl⟩
  | cons block blocks ih =>
    obtain ⟨m, hm, hblock⟩ := runInsns_closed (hclosed block List.mem_cons_self)
      (hpred block List.mem_cons_self) (hsat block List.mem_cons_self) (blocks.flatten ++ rest) p
    have hdraws : drawsOf (block :: blocks).flatten = drawsOf block + drawsOf blocks.flatten :=
      List.countP_append
    rw [List.flatten_cons, List.append_assoc, hblock, List.all_cons, ← List.flatten_cons, hdraws]
    cases block.any sat with
    | false => exact ⟨m, Nat.le_trans hm (Nat.le_add_right _ _), rfl⟩
    | true =>
      obtain ⟨n, hn, hrun⟩ := ih (fun b hb => hclosed b (List.mem_cons_of_mem block hb))
        (fun b hb => hpred b (List.mem_cons_of_mem block hb))
        (fun b hb => hsat b (List.mem_cons_of_mem block hb)) (p.drawing m)
      refine ⟨m + n, Nat.add_le_add hm hn, ?_⟩
      rw [← Progress.drawing_drawing, Bool.true_and]
      exact hrun

variable (env rule sat) in
/-- **Running conditions, and the action behind them.** The rule acts if every closed block holds
and no member of the open one, if there is one, is satisfied. -/
theorem runInsns_conditions {conditions : List Insn}
    (hpred : ∀ i ∈ conditions, i.command.isPredicate = true)
    (hsat : ∀ i ∈ conditions, ∀ n, i.satisfied pkt (env.draw n) = sat i) (modifiers : Modifiers)
    (p : Progress) :
    ∃ n ≤ drawsOf conditions,
      runInsns env pkt rule (conditions ++ [⟨.act rule.action, modifiers⟩]) false p =
        if (Insn.orBlocks (Insn.closedPart conditions)).all (·.any sat) &&
            !(Insn.openBlock conditions).any sat then rule.act env pkt (p.drawing n)
        else (.nextRule, p.drawing n) := by
  have hsplit := Insn.closedPart_append_openBlock conditions
  have hflatten : (Insn.orBlocks (Insn.closedPart conditions)).flatten =
      Insn.closedPart conditions := List.flatten_splitBy _ _
  have hclosed : ∀ block ∈ Insn.orBlocks (Insn.closedPart conditions), block ⊆ conditions := by
    intro block hblock i hi
    rw [← hsplit, ← hflatten]
    exact List.mem_append_left _ (List.mem_flatten_of_mem hblock hi)
  have hopen : Insn.openBlock conditions ⊆ conditions := (List.rtakeWhile_suffix _ _).subset
  obtain ⟨m, hm, hblocks⟩ := runInsns_blocks
    (fun block hblock => Insn.closed_of_mem_orBlocks Insn.isOr_of_getLast?_closedPart hblock)
    (fun block hblock i hi => hpred i (hclosed block hblock hi))
    (fun block hblock i hi => hsat i (hclosed block hblock hi))
    (Insn.openBlock conditions ++ [⟨.act rule.action, modifiers⟩]) p
  obtain ⟨n, hn, hjoined⟩ := runInsns_joined (fun i => Insn.isOr_of_mem_openBlock)
    (fun i hi => hpred i (hopen hi)) (fun i hi => hsat i (hopen hi))
    [⟨.act rule.action, modifiers⟩] (p.drawing m)
  have hdraws : drawsOf conditions =
      drawsOf (Insn.closedPart conditions) + drawsOf (Insn.openBlock conditions) := by
    rw [← drawsOf_append, hsplit]
  rw [hflatten, ← List.append_assoc, hsplit] at hblocks
  rw [hblocks, hdraws]
  cases (Insn.orBlocks (Insn.closedPart conditions)).all (·.any sat) with
  | false => exact ⟨m, Nat.le_trans (hflatten ▸ hm) (Nat.le_add_right _ _), rfl⟩
  | true =>
    refine ⟨m + n, Nat.add_le_add (hflatten ▸ hm) hn, ?_⟩
    rw [if_pos rfl, hjoined, Progress.drawing_drawing, Bool.true_and]
    cases (Insn.openBlock conditions).any sat with
    | false => exact runInsns_action modifiers _
    | true => rfl

end

/-! ## Rules -/

namespace Rule

variable {id : Nat} {image : RuleImage} {verboseLimit : UInt32} {rule : Rule}

/-- **A rule acts if and only if every or-block of its conditions holds**, where all of them are
conditions on the packet and the last one is not joined. Nothing else happens but draws. -/
theorem acts_iff_orBlocks (h : ofImage id image verboseLimit = .ok rule)
    (hpred : ∀ i ∈ rule.insns.dropLast, i.command.isPredicate = true)
    (hclosed : ∀ i ∈ rule.insns.dropLast.getLast?, i.isOr = false) {env : Surroundings}
    {draw : UInt32} (hdraw : ∀ n, env.draw n = draw) (pkt : Packet) (p : Progress) :
    ∃ n ≤ drawsOf rule.insns.dropLast,
      runInsns env pkt rule rule.insns false p =
        if ∀ block ∈ Insn.orBlocks rule.insns.dropLast, ∃ i ∈ block, i.satisfied pkt draw = true
        then rule.act env pkt (p.drawing n) else (.nextRule, p.drawing n) := by
  obtain ⟨conditions, modifiers, hinsns, -⟩ := ofImage_actsLast h
  have hconditions : rule.insns.dropLast = conditions := by rw [hinsns, List.dropLast_concat]
  rw [hconditions] at hpred hclosed ⊢
  have hnil : Insn.openBlock conditions = [] := (Insn.openBlock_eq_nil_iff conditions).mpr hclosed
  have hall : Insn.closedPart conditions = conditions := by
    rw [← List.append_nil (Insn.closedPart conditions), ← hnil, Insn.closedPart_append_openBlock]
  obtain ⟨n, hn, hrun⟩ := runInsns_conditions env rule (·.satisfied pkt draw) hpred
    (fun i _ n => by rw [hdraw]) modifiers p
  refine ⟨n, hn, ?_⟩
  rw [hinsns, hrun, hnil, hall]
  simp [List.all_eq_true, List.any_eq_true]

/-- TCP or UDP, and not to port 22: of two datagrams the one to port 53 is accepted. -/
theorem acts_iff_orBlocks_datagram :
    let draft : RuleDraft :=
      { number := 100
        conditions := [⟨.protocol Protocol.tcp, Modifiers.joined⟩, ⟨.protocol Protocol.udp, .none⟩,
          ⟨.ports .destination [⟨22, 22⟩], Modifiers.negated⟩]
        action := .act .accept }
    let rule : Rule :=
      { id := 1, number := 100, words := draft.assemble.words
        actionOffset := draft.assemble.actionOffset
        insns := draft.guard ++ draft.actionPart, actionIndex := 3, logBudget := 0 }
    let env : Surroundings :=
      { chain := .new rule, disabled := 0, onePass := false, verbose := false, now := ⟨0⟩
        draw := fun _ => 5 }
    let datagram (port : UInt16) : Packet :=
      { flow := ⟨1, 2, 3, port, Protocol.udp, 0⟩, direction := .inbound, length := 40 }
    let p : Progress := { engine := default }
    ofImage 1 draft.assemble 0 = .ok rule ∧
      runInsns env (datagram 53) rule rule.insns false p = (.decided .accept, p) ∧
      runInsns env (datagram 22) rule rule.insns false p = (.nextRule, p) := by
  intro draft rule env datagram p
  have hrule : ofImage 1 draft.assemble 0 = .ok rule := by decide +kernel
  have hpred : ∀ i ∈ rule.insns.dropLast, i.command.isPredicate = true := by decide
  have hclosed : ∀ i ∈ rule.insns.dropLast.getLast?, i.isOr = false := by decide
  have hdraw : ∀ n, env.draw n = 5 := fun _ => rfl
  have hnone : drawsOf rule.insns.dropLast = 0 := by decide
  refine ⟨hrule, ?_, ?_⟩
  · obtain ⟨n, hn, hrun⟩ := acts_iff_orBlocks hrule hpred hclosed hdraw (datagram 53) p
    rw [hnone, Nat.le_zero] at hn
    rw [hrun, hn, if_pos (by decide)]
    rfl
  · obtain ⟨n, hn, hrun⟩ := acts_iff_orBlocks hrule hpred hclosed hdraw (datagram 22) p
    rw [hnone, Nat.le_zero] at hn
    rw [hrun, hn, if_neg (by decide)]
    rfl

/-- **A rule all of whose conditions are satisfied acts** if the last one, if there is one, is not
joined with the action. If it is, the rule does not act, although it matches. -/
theorem satisfied_acts_unless_open (h : ofImage id image verboseLimit = .ok rule)
    (hpred : ∀ i ∈ rule.insns.dropLast, i.command.isPredicate = true) {env : Surroundings}
    {pkt : Packet}
    (hsat : ∀ i ∈ rule.insns.dropLast, ∀ n, i.satisfied pkt (env.draw n) = true) (p : Progress) :
    ∃ n ≤ drawsOf rule.insns.dropLast,
      runInsns env pkt rule rule.insns false p =
        if ∃ i ∈ rule.insns.dropLast.getLast?, i.isOr = true then (.nextRule, p.drawing n)
        else rule.act env pkt (p.drawing n) := by
  obtain ⟨conditions, modifiers, hinsns, -⟩ := ofImage_actsLast h
  have hconditions : rule.insns.dropLast = conditions := by rw [hinsns, List.dropLast_concat]
  rw [hconditions] at hpred hsat ⊢
  obtain ⟨n, hn, hrun⟩ := runInsns_conditions env rule (fun _ => true) hpred hsat modifiers p
  refine ⟨n, hn, ?_⟩
  rw [hinsns, hrun]
  have hholds : (Insn.orBlocks (Insn.closedPart conditions)).all (·.any fun _ => true) = true := by
    rw [List.all_eq_true]
    intro block hblock
    obtain ⟨i, hi⟩ := List.exists_mem_of_ne_nil block (List.ne_nil_of_mem_splitBy hblock)
    exact List.any_eq_true.mpr ⟨i, hi, rfl⟩
  have hopen : (Insn.openBlock conditions).any (fun _ => true) = true ↔
      ∃ i ∈ conditions.getLast?, i.isOr = true := by
    rw [← not_iff_not]
    simpa [List.eq_nil_iff_forall_not_mem] using Insn.openBlock_eq_nil_iff conditions
  rw [hholds, Bool.true_and]
  by_cases hlast : ∃ i ∈ conditions.getLast?, i.isOr = true
  · rw [if_pos hlast, hopen.mpr hlast]
    rfl
  · rw [if_neg hlast, Bool.eq_false_iff.mpr fun h => hlast (hopen.mp h)]
    rfl

/-- Datagrams are denied where the condition ends its block. -/
theorem satisfied_acts_unless_open_closed :
    let draft : RuleDraft :=
      { number := 100, conditions := [⟨.inbound, Modifiers.joined⟩, ⟨.protocol Protocol.udp, .none⟩]
        action := .act .deny }
    let rule : Rule :=
      { id := 1, number := 100, words := draft.assemble.words
        actionOffset := draft.assemble.actionOffset
        insns := draft.guard ++ draft.actionPart, actionIndex := 2, logBudget := 0 }
    let env : Surroundings :=
      { chain := .new rule, disabled := 0, onePass := false, verbose := false, now := ⟨0⟩
        draw := fun n => UInt32.ofNat n }
    let datagram : Packet :=
      { flow := ⟨1, 2, 3, 4, Protocol.udp, 0⟩, direction := .inbound, length := 40 }
    let p : Progress := { engine := default }
    ofImage 1 draft.assemble 0 = .ok rule ∧
      runInsns env datagram rule rule.insns false p = (.decided .deny, p) := by
  intro draft rule env datagram p
  have hrule : ofImage 1 draft.assemble 0 = .ok rule := by decide +kernel
  have hsat : ∀ i ∈ rule.insns.dropLast, ∀ n, i.satisfied datagram (env.draw n) = true :=
    List.forall_mem_cons.mpr ⟨fun _ => rfl, List.forall_mem_singleton.mpr fun _ => rfl⟩
  have hnone : drawsOf rule.insns.dropLast = 0 := by decide
  obtain ⟨n, hn, hrun⟩ := satisfied_acts_unless_open hrule (by decide) hsat p
  rw [hnone, Nat.le_zero] at hn
  refine ⟨hrule, ?_⟩
  rw [hrun, hn, if_neg (by decide)]
  rfl

/-- A rule that denies datagrams by a condition that is joined with the action is accepted, and
passes on the datagrams. -/
theorem satisfied_rule_passes_on :
    let draft : RuleDraft :=
      { number := 100, conditions := [⟨.protocol Protocol.udp, Modifiers.joined⟩]
        action := .act .deny }
    let rule : Rule :=
      { id := 1, number := 100, words := draft.assemble.words
        actionOffset := draft.assemble.actionOffset
        insns := draft.guard ++ draft.actionPart, actionIndex := 1, logBudget := 0 }
    let env : Surroundings :=
      { chain := .new rule, disabled := 0, onePass := false, verbose := false, now := ⟨0⟩
        draw := fun _ => 5 }
    let datagram : Packet :=
      { flow := ⟨1, 2, 3, 4, Protocol.udp, 0⟩, direction := .inbound, length := 40 }
    let p : Progress := { engine := default }
    ofImage 1 draft.assemble 0 = .ok rule ∧
      (∀ i ∈ rule.insns.dropLast, i.command.isPredicate = true ∧
        ∀ draw, i.satisfied datagram draw = true) ∧
      rule.act env datagram p = (.decided .deny, p) ∧
      runInsns env datagram rule rule.insns false p = (.nextRule, p) := by
  intro draft rule env datagram p
  exact ⟨by decide +kernel, List.forall_mem_singleton.mpr ⟨rfl, fun _ => rfl⟩, rfl, rfl⟩

end Rule

end PacketFilter
