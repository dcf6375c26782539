import PacketFilter.Proofs.Coherence.Service

/-!
# What administration comes to

Requests to delete rules and to change sets differ in how they say which rules they are about, and
in when they are refused. What they come to is one of two things: rules that meet a condition are
removed, or rules get other sets, or other sets are disabled, around which the rules concerned are
quiesced and resumed. What both keep, no request needs to be looked at for.

Main statements: **`handle_cases`**, what a request to delete rules or to change their sets comes
to; `setEnable_resets` and `zeroCounters_cases`, what other requests come to.
-/

namespace PacketFilter

namespace Firewall

variable {fw fw' : Firewall}

/-- Take the rules that meet a condition out of service and out of the chain. -/
def remove (fw : Firewall) (p : Rule → Bool) : Firewall :=
  fw.withdraw (fw.chain.removeWhere p).1 (fw.chain.removeWhere p).2

/-- **Rules that meet a condition are removed**, and a message may say so. -/
inductive Removes (fw : Firewall) : Firewall → Prop
  | silently (p : Rule → Bool) : Removes fw (fw.remove p)
  | noted (p : Rule → Bool) (event : AdminEvent) : Removes fw ((fw.remove p).write event)

/-- **Rules get other sets, or other sets are disabled.** -/
inductive Resets (fw : Firewall) : Firewall → Prop
  /-- Rules get sets that users may put rules into. -/
  | moves (target : Rule → UInt8) (p : Firewall → Rule → Bool) (move : UInt8 → UInt8)
      (hmove : ∀ n, n ≤ maxUserSet → move n ≤ maxUserSet) :
      Resets fw (fw.retarget fw.disabled target fun fw₁ => fw₁.mapRoster fun roster =>
        roster.updateAll (fw₁.chain.select (p fw₁)) fun s => { s with set := move s.set })
  /-- Sets are disabled, but never that of the default rule. -/
  | disables (mask : SetMask) (hmask : mask.has defaultRuleSet = false) :
      Resets fw (fw.retarget mask fw.setOf fun fw₁ => { fw₁ with disabled := mask })

/-! ## Removing rules -/

theorem deleteRule_removes {number : UInt16} (h : fw.deleteRule number = .ok fw') :
    fw.Removes fw' := by
  unfold deleteRule Chain.deleteNumber at h
  split at h
  · cases h
  · rename_i removed chain hremoved
    simp only at hremoved
    split at hremoved
    · cases hremoved
    · split at hremoved
      · cases hremoved
      · cases h
        have hsame : fw.withdraw removed chain = fw.remove fun r => r.number == number := by
          rw [remove, Except.ok.inj hremoved]
        rw [hsame]
        exact .noted _ _

theorem deleteSet_removes {set : UInt8} {n : Nat} (h : fw.deleteSet set = .ok (n, fw')) :
    fw.Removes fw' := by
  unfold deleteSet at h
  split at h
  · cases h
  · cases h
    exact .silently fun r => fw.engine.roster.setOf r == set

theorem flush_removes (fw : Firewall) : fw.Removes fw.flush.2 := .noted (fun _ => true) _

/-! ## Changing sets -/

theorem moveRule_resets {number : UInt16} {set : UInt8} {n : Nat}
    (h : fw.moveRule number set = .ok (n, fw')) : fw.Resets fw' := by
  unfold moveRule at h
  split at h
  · cases h
  · split at h
    · cases h
    · rename_i hset
      cases h
      exact .moves _ (fun _ r => r.number == number) (fun _ => set) fun _ _ => UInt8.not_lt.mp hset

theorem moveSet_resets {source target : UInt8} {n : Nat}
    (h : fw.moveSet source target = .ok (n, fw')) : fw.Resets fw' := by
  unfold moveSet at h
  split at h
  · cases h
  · split at h
    · cases h
    · rename_i htarget
      cases h
      exact .moves _ (fun fw₁ r => fw₁.setOf r == source) (fun _ => target)
        fun _ _ => UInt8.not_lt.mp htarget

theorem swapSets_resets {a b : UInt8} (h : fw.swapSets a b = .ok fw') : fw.Resets fw' := by
  unfold swapSets at h
  split at h
  · cases h
  · rename_i ha
    split at h
    · cases h
    · rename_i hb
      cases h
      refine .moves _ (fun _ _ => true) (Chain.exchanged a b) fun n hn => ?_
      unfold Chain.exchanged
      split
      · exact UInt8.not_lt.mp hb
      · split
        · exact UInt8.not_lt.mp ha
        · exact hn

theorem setEnable_resets {disable enable : SetMask}
    (h : fw.setEnable disable enable = .ok fw') : fw.Resets fw' := by
  unfold setEnable at h
  split at h
  · cases h
  · cases h
    refine .disables _ ?_
    show Word.hasBit ((fw.disabled ||| disable) &&& ~~~(enable ||| 0x80000000)) 31 = false
    simp [Word.hasBit]

/-- **What a request to delete rules or to change their sets comes to.** -/
theorem handle_cases {request : DeleteRequest} (h : fw.handle request = .ok fw') :
    fw.Removes fw' ∨ fw.Resets fw' := by
  cases request with
  | rule number => exact Or.inl (deleteRule_removes h)
  | set set =>
    obtain ⟨n, hset⟩ := exists_of_map_snd h
    exact Or.inl (deleteSet_removes hset)
  | moveRule number target =>
    obtain ⟨n, hmove⟩ := exists_of_map_snd h
    exact Or.inr (moveRule_resets hmove)
  | moveSet source target =>
    obtain ⟨n, hmove⟩ := exists_of_map_snd h
    exact Or.inr (moveSet_resets hmove)
  | swapSets a b => exact Or.inr (swapSets_resets h)

/-! ## Adding rules -/

theorem addBytes_eq_ok {bytes : List UInt8} {rule : Rule}
    (hadd : fw.addBytes bytes = .ok (rule, fw')) :
    ∃ image, fw.addImage image = .ok (rule, fw') := by
  unfold Firewall.addBytes at hadd
  split at hadd
  · cases hadd
  · exact ⟨_, hadd⟩

/-! ## Counters and state -/

/-- What clearing counters comes to. -/
theorem zeroCounters_cases {number : Option UInt16} {logOnly : Bool}
    (h : fw.zeroCounters number logOnly = .ok fw') :
    ∃ rules, fw' = fw.zeroRules rules logOnly ∨
      ∃ undecided event, fw' = { fw.zeroRules rules logOnly with undecided }.write event := by
  unfold zeroCounters at h
  simp only at h
  split at h
  · split at h
    · cases h
      exact ⟨_, Or.inr ⟨_, _, rfl⟩⟩
    · cases h
      exact ⟨_, Or.inr ⟨_, _, rfl⟩⟩
  · split at h
    · cases h
    · cases h
      exact ⟨_, Or.inl rfl⟩

/-- What asking for another number of buckets comes to. -/
theorem setBuckets_eq_ok {n : UInt32} (h : fw.setBuckets n = .ok fw') :
    fw' = { fw with engine :=
      { fw.engine with states := (fw.engine.states.apply (.setBuckets n.toNat)).2 } } := by
  unfold setBuckets at h
  split at h
  · cases h
  · rename_i states hstates
    cases h
    simp only [StateTable.apply, hstates]

end Firewall

end PacketFilter
