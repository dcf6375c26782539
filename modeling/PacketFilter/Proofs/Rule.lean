import PacketFilter.Rule.Basic

/-!
# Checked rules

What checking an image establishes about the rule that is made of it. A packet never meets another
action of a rule than the one at its end.

Main statements: `ofImage_eq_ok`, what an image that is accepted has passed; **`ofImage_actsLast`**,
a rule has one action, and that is its last instruction; `ActsLast.eq_action`, no other action is
met among its instructions.
-/

namespace PacketFilter

namespace Rule

/-- **A rule acts once, and last.** -/
def ActsLast (r : Rule) : Prop :=
  ∃ before modifiers, r.insns = before ++ [⟨.act r.action, modifiers⟩] ∧
    ∀ i ∈ before, i.command.isAction = false

variable {id : Nat} {image : RuleImage} {verboseLimit : UInt32} {rule : Rule}

/-- What an image that is accepted has passed, and the rule that is made of it. -/
theorem ofImage_eq_ok (h : ofImage id image verboseLimit = .ok rule) :
    image.number ≠ defaultRuleNumber ∧ image.set ≤ maxUserSet ∧
      ∃ decoded k, Insn.decodeAll image.words = .ok decoded ∧
        checkActions (decoded.map Prod.snd) = .ok () ∧
        actionStart? decoded image.actionOffset = some k ∧
        rule = ⟨id, image.number, image.words, image.actionOffset, decoded.map Prod.snd, k,
          budgetOf (decoded.map Prod.snd) verboseLimit⟩ := by
  unfold ofImage at h
  split at h
  · cases h
  · rename_i hnumber
    split at h
    · cases h
    · rename_i hset
      split at h
      · cases h
      · split at h
        · cases h
        · rename_i decoded hdecoded
          unfold ofDecoded at h
          split at h
          · cases h
          · rename_i hactions
            split at h
            · cases h
            · rename_i k hk
              cases h
              exact ⟨hnumber, UInt8.not_lt.mp hset, decoded, k, hdecoded, hactions, hk, rfl⟩

/-- Instructions that pass the check end in their only action. -/
theorem exists_of_checkActions {insns : List Insn} (h : checkActions insns = .ok ()) :
    ∃ before a modifiers, insns = before ++ [⟨.act a, modifiers⟩] ∧
      ∀ i ∈ before, i.command.isAction = false := by
  unfold checkActions at h
  split at h
  · cases h
  · rename_i only hfilter
    split at h
    · rename_i hlast
      rcases List.eq_nil_or_concat insns with rfl | ⟨before, last, rfl⟩
      · cases hfilter
      · rw [List.concat_eq_append] at hfilter hlast ⊢
        have haction : last.command.isAction = true := by simpa using hlast
        have hself : [last].filter (·.command.isAction) = [last] := by simp [haction]
        rw [List.filter_append, hself] at hfilter
        have hfilter : before.filter (·.command.isAction) ++ [last] = [] ++ [only] := hfilter
        have hnone := (List.append_inj' hfilter rfl).1
        obtain ⟨command, modifiers⟩ := last
        cases command with
        | act a =>
          refine ⟨before, a, modifiers, rfl, fun i hi => Bool.eq_false_iff.mpr fun hi' => ?_⟩
          exact List.filter_eq_nil_iff.mp hnone i hi hi'
        | _ => cases haction
    · cases h
  · cases h

/-- The action of a rule is that of its last instruction. -/
theorem action_of_append {r : Rule} {before : List Insn} {a : Action} {modifiers : Modifiers}
    (h : r.insns = before ++ [⟨.act a, modifiers⟩]) : r.action = a := by
  unfold action
  rw [h, List.getLast?_concat]

/-- **An image that is accepted makes a rule that acts once, and last.** -/
theorem ofImage_actsLast (h : ofImage id image verboseLimit = .ok rule) : rule.ActsLast := by
  obtain ⟨-, -, decoded, k, -, hactions, -, hrule⟩ := ofImage_eq_ok h
  obtain ⟨before, a, modifiers, hinsns, hbefore⟩ := exists_of_checkActions hactions
  have hinsns : rule.insns = before ++ [⟨.act a, modifiers⟩] := by
    rw [hrule]
    exact hinsns
  refine ⟨before, modifiers, ?_, hbefore⟩
  rw [action_of_append hinsns]
  exact hinsns

/-- The default rule creates no state. -/
theorem createsState_terminal (id : Nat) (accepts : Bool) :
    (terminal id accepts).createsState = false := by
  cases accepts <;> rfl

theorem terminal_actsLast (id : Nat) (accepts : Bool) : (terminal id accepts).ActsLast :=
  ⟨[], .none, rfl, fun _ hi => absurd hi List.not_mem_nil⟩

/-- No action is met among the instructions of a rule but the one at its end. -/
theorem ActsLast.eq_action {r : Rule} (h : r.ActsLast) {i : Insn} (hi : i ∈ r.insns) {a : Action}
    (ha : i.command = .act a) : a = r.action := by
  obtain ⟨before, modifiers, hinsns, hbefore⟩ := h
  rw [hinsns, List.mem_append, List.mem_singleton] at hi
  rcases hi with hi | rfl
  · have hnot := hbefore i hi
    rw [ha] at hnot
    cases hnot
  · exact (Command.act.inj ha).symm

end Rule

end PacketFilter
