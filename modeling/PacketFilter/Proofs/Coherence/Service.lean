import PacketFilter.Proofs.Coherence.Basic
import PacketFilter.Proofs.StateTable.Flushing

/-!
# Rules out of service

Rules are removed, and rules come to be in a disabled set because they are moved there or because
the set is disabled. In both ways those that create state are quiesced: they are barred first, and
what they have created is dropped then, so that nothing can be created in between. Rules that come
to be in an enabled set may create state again.

Main statements: `Coherent.quiesce_restrict`, quiescing rules drops exactly what they have created;
**`Coherent.withdraw`**, removing rules keeps the agreement of state and rules;
**`Coherent.retarget`**, so does changing sets, whatever the change.
-/

namespace PacketFilter

namespace Firewall

variable {known : List Rule} {fw fw' : Firewall} {grants : Rule → StateRequest → Prop}

/-! ## Quiescing rules -/

theorem roster_flushStatesOf (fw : Firewall) (rules : List Rule) :
    (fw.flushStatesOf rules).engine.roster = fw.engine.roster := by
  unfold flushStatesOf
  simp only
  split <;> rfl

theorem chain_flushStatesOf (fw : Firewall) (rules : List Rule) :
    (fw.flushStatesOf rules).chain = fw.chain ∧
      (fw.flushStatesOf rules).disabled = fw.disabled := by
  unfold flushStatesOf
  simp only
  split <;> exact ⟨rfl, rfl⟩

theorem states_flushStatesOf (fw : Firewall) (rules : List Rule) :
    (fw.flushStatesOf rules).engine.states = (fw.engine.states.flush
      (fun e => (rules.map Rule.id).contains e.rule.id) fw.now).2 := by
  unfold flushStatesOf
  simp only
  split <;> rfl

/-- Quiescing rules keeps the chain and bars those that create state. -/
theorem quiesce_eq (fw : Firewall) (rules : List Rule) :
    (fw.quiesce rules).chain = fw.chain ∧ (fw.quiesce rules).disabled = fw.disabled ∧
      (fw.quiesce rules).engine.roster = fw.engine.roster.updateAll
        (rules.filter Rule.createsState) RuleStatus.disableState := by
  unfold quiesce
  simp only
  split
  · rename_i hempty
    rw [List.isEmpty_iff.mp hempty]
    exact ⟨rfl, rfl, rfl⟩
  · obtain ⟨hchain, hdisabled⟩ := chain_flushStatesOf
      (fw.updateRules (rules.filter Rule.createsState) RuleStatus.disableState)
      (rules.filter Rule.createsState)
    exact ⟨hchain, hdisabled, roster_flushStatesOf _ _⟩

/-- Quiescing rules creates no state. -/
theorem quiesce_states (fw : Firewall) (rules : List Rule) :
    StateTable.Steps (fw.Grants grants) fw.engine.states (fw.quiesce rules).engine.states := by
  unfold quiesce
  simp only
  split
  · exact Relation.ReflTransGen.refl
  · rw [states_flushStatesOf]
    exact StateTable.Steps.single _ (.flush _ _) fun _ _ _ _ h => by cases h

/-- What quiescing rules comes to: those of them that create state are barred, and what they have
created is gone. -/
structure Quiesced (known : List Rule) (rules : List Rule) (fw fw' : Firewall) : Prop where
  chain : fw'.chain = fw.chain
  disabled : fw'.disabled = fw.disabled
  lists : fw'.engine.roster.Lists known
  sound : ∃ config, fw'.engine.states.Sound config
  entries : ∀ e ∈ fw'.engine.states.entries, fw.Live e.rule ∧ e.rule ∉ rules
  status : ∀ r ∈ known, fw'.status r =
    if r ∈ rules ∧ r.createsState = true then (fw.status r).disableState else fw.status r

theorem Quiesced.setOf_eq {rules : List Rule} (h : Quiesced known rules fw fw') {r : Rule}
    (hr : r ∈ known) : fw'.setOf r = fw.setOf r := by
  refine (congrArg RuleStatus.set (h.status r hr)).trans ?_
  split <;> rfl

/-- The status of a rule after some rules of the chain were changed. -/
theorem Coherent.status_updateAll (h : Coherent known fw) {roster : Roster}
    (hlists : roster.Lists known) {rules : List Rule} (hrules : rules.Sublist fw.chain.rules)
    (f : RuleStatus → RuleStatus) {r : Rule} (hr : r ∈ known) :
    (roster.updateAll rules f).status r.id =
      if r ∈ rules then f (roster.status r.id) else roster.status r.id :=
  hlists.status_updateAll (fun x hx => h.members x (hrules.subset hx)) (h.nodup.sublist hrules) f hr

/-- **Quiescing rules drops exactly what they have created.** -/
theorem Coherent.quiesce_restrict (h : Coherent known fw) {rules : List Rule}
    (hrules : rules.Sublist fw.chain.rules) :
    (fw.quiesce rules).engine.states =
      fw.engine.states.restrict fun e => decide (e.rule ∉ rules) := by
  obtain ⟨config, hsound⟩ := h.sound
  -- Of rules in the chain the number says which rule it is.
  have hpicks : ∀ e ∈ fw.engine.states.entries,
      (!((rules.filter Rule.createsState).map Rule.id).contains e.rule.id) =
        decide (e.rule ∉ rules) := by
    intro e he
    have hlive := h.entries e he
    have hiff : e.rule.id ∈ (rules.filter Rule.createsState).map Rule.id ↔ e.rule ∈ rules := by
      constructor
      · intro hid
        obtain ⟨r, hr, hsame⟩ := List.mem_map.mp hid
        have hr := (List.mem_filter.mp hr).1
        have heq := h.lists.eq_of_id (h.members r (hrules.subset hr))
          (h.members _ hlive.installed) hsame
        exact heq ▸ hr
      · exact fun hr => List.mem_map_of_mem (List.mem_filter.mpr ⟨hr, hlive.creates⟩)
    by_cases hr : e.rule ∈ rules
    · rw [List.contains_iff_mem.mpr (hiff.mpr hr), decide_eq_false (not_not_intro hr)]
      rfl
    · rw [Bool.eq_false_iff.mpr fun hc => hr (hiff.mp (List.contains_iff_mem.mp hc)),
        decide_eq_true hr]
      rfl
  rw [← StateTable.restrict_congr hpicks]
  unfold Firewall.quiesce
  simp only
  split
  · rename_i hempty
    rw [List.isEmpty_iff.mp hempty]
    simp only [List.map_nil, List.contains_nil, Bool.not_false, StateTable.restrict_true]
  · rw [states_flushStatesOf]
    exact congrArg Prod.snd
      (hsound.flush_eq (fun id => ((rules.filter Rule.createsState).map Rule.id).contains id) _)

/-- Quiescing rules leaves no entry of theirs. -/
theorem Coherent.quiesce_entries (h : Coherent known fw) {rules : List Rule}
    (hrules : rules.Sublist fw.chain.rules) {e : Entry}
    (he : e ∈ (fw.quiesce rules).engine.states.entries) : fw.Live e.rule ∧ e.rule ∉ rules := by
  rw [h.quiesce_restrict hrules, StateTable.entries_restrict] at he
  obtain ⟨he, hout⟩ := List.mem_filter.mp he
  exact ⟨h.entries e he, of_decide_eq_true hout⟩

/-- **Quiescing rules** of the chain. -/
theorem Coherent.quiesce (h : Coherent known fw) {rules : List Rule}
    (hrules : rules.Sublist fw.chain.rules) : Quiesced known rules fw (fw.quiesce rules) := by
  obtain ⟨hchain, hdisabled, hroster⟩ := fw.quiesce_eq rules
  refine ⟨hchain, hdisabled, ?_, ?_, fun e he => h.quiesce_entries hrules he, fun r hr => ?_⟩
  · rw [hroster]
    exact h.lists.updateAll _ _
  · obtain ⟨config, hsound⟩ := h.sound
    have hsteps : StateTable.Steps (fw.Grants fun _ _ => False) fw.engine.states
        (fw.quiesce rules).engine.states := fw.quiesce_states rules
    exact ⟨config, hsteps.sound hsound⟩
  · have hstateful : (rules.filter Rule.createsState).Sublist fw.chain.rules :=
      List.filter_sublist.trans hrules
    unfold Firewall.status
    rw [hroster, h.status_updateAll h.lists hstateful _ hr]
    simp only [List.mem_filter]

/-! ## Removing rules -/

/-- **Removing rules** that a condition selects. -/
theorem Coherent.withdraw (h : Coherent known fw) (p : Rule → Bool) :
    Coherent known
      (fw.withdraw (fw.chain.removeWhere p).1 (fw.chain.removeWhere p).2) := by
  have hmem : ∀ r, r ∈ (fw.chain.removeWhere p).2.rules ↔
      r ∈ fw.chain.rules ∧ r ∉ fw.chain.select p := fun r => fw.chain.mem_removeWhere p
  obtain ⟨hremoved, hrest⟩ := fw.chain.removeWhere_spec p
  rw [hremoved]
  generalize (fw.chain.removeWhere p).2 = chain at hmem hrest
  unfold Firewall.withdraw
  split
  · exact h
  have hquiesced := h.quiesce (fw.chain.select_sublist p)
  generalize fw.quiesce (fw.chain.select p) = fw₁ at hquiesced
  -- Of the rules that there are or were, those selected end as removed, and the others stay as
  -- they are.
  have hstatus : ∀ r ∈ known, (({ fw₁ with chain }).updateRules (fw.chain.select p)
      RuleStatus.markInvalid).status r =
        if r ∈ fw.chain.select p then (fw₁.status r).markInvalid else fw.status r := by
    intro r hr
    refine (h.status_updateAll hquiesced.lists (fw.chain.select_sublist p)
      RuleStatus.markInvalid hr).trans ?_
    by_cases hsel : r ∈ fw.chain.select p
    · rw [if_pos hsel, if_pos hsel]
      rfl
    · rw [if_neg hsel, if_neg hsel]
      exact (hquiesced.status r hr).trans (if_neg fun hboth => hsel hboth.1)
  refine ⟨hquiesced.lists.updateAll _ _, fun r hr => h.members r ((hmem r).mp hr).1,
    hrest ▸ h.nodup.filter _, h.stateless, hquiesced.sound, fun e he => ?_,
    fun r hr hcreates => ?_, fun r hr => ?_, fun r hr hout => ?_⟩
  · obtain ⟨hlive, hnot⟩ := hquiesced.entries e he
    refine ⟨(hmem _).mpr ⟨hlive.installed, hnot⟩, hlive.creates, ?_⟩
    have hsame := (hstatus e.rule (h.members _ hlive.installed)).trans (if_neg hnot)
    refine (congrArg₂ SetMask.has hquiesced.disabled (congrArg RuleStatus.set hsame)).trans ?_
    exact hlive.enabled
  · obtain ⟨hin, hnot⟩ := (hmem r).mp hr
    have hsame := (hstatus r (h.members r hin)).trans (if_neg hnot)
    refine (congrArg RuleStatus.stateEnabled hsame).trans ((h.enabled r hin hcreates).trans ?_)
    exact (congrArg not
      (congrArg₂ SetMask.has hquiesced.disabled (congrArg RuleStatus.set hsame))).symm
  · rw [hstatus r hr]
    show _ ↔ r ∉ chain.rules
    rw [hmem]
    split
    · rename_i hsel
      simp [hsel, RuleStatus.markInvalid]
    · rename_i hsel
      rw [h.invalid r hr]
      simp [hsel]
  · rw [hstatus r hr]
    split
    · rfl
    · rename_i hsel
      exact h.barred r hr fun hin => hout ((hmem r).mpr ⟨hin, hsel⟩)

theorem withdraw_states (fw : Firewall) (removed : List Rule) (chain : Chain) :
    StateTable.Steps (fw.Grants grants) fw.engine.states
      (fw.withdraw removed chain).engine.states := by
  unfold Firewall.withdraw
  split
  · exact Relation.ReflTransGen.refl
  · exact fw.quiesce_states removed

theorem Coherent.withdraw_follows (h : Coherent known fw) (p : Rule → Bool) :
    Follows grants known fw
      (fw.withdraw (fw.chain.removeWhere p).1 (fw.chain.removeWhere p).2) :=
  ⟨h.withdraw p, fw.withdraw_states _ _⟩

theorem Coherent.deleteRule (h : Coherent known fw) {number : UInt16}
    (hdelete : fw.deleteRule number = .ok fw') : Follows grants known fw fw' := by
  unfold Firewall.deleteRule Chain.deleteNumber at hdelete
  split at hdelete
  · cases hdelete
  · rename_i removed chain hremoved
    split at hremoved
    · cases hremoved
    · simp only at hremoved
      split at hremoved
      · cases hremoved
      · cases hdelete
        simp only [Except.ok.injEq] at hremoved
        have hfollows : Follows grants known fw _ := h.withdraw_follows fun r => r.number == number
        rw [hremoved] at hfollows
        exact hfollows.write _

theorem Coherent.deleteSet (h : Coherent known fw) {set : UInt8} {n : Nat}
    (hdelete : fw.deleteSet set = .ok (n, fw')) : Follows grants known fw fw' := by
  unfold Firewall.deleteSet at hdelete
  split at hdelete
  · cases hdelete
  · cases hdelete
    exact h.withdraw_follows _

theorem Coherent.flush (h : Coherent known fw) : Follows grants known fw fw.flush.2 :=
  (h.withdraw_follows fun _ => true).write _

/-! ## Changing sets -/

/-- A change that puts the rules of the chain into the sets that they are aimed at, and changes
besides only which sets are disabled. -/
structure Retargets (known : List Rule) (mask : SetMask) (target : Rule → UInt8)
    (fw fw' : Firewall) : Prop where
  chain : fw'.chain = fw.chain
  disabled : fw'.disabled = mask
  states : fw'.engine.states = fw.engine.states
  lists : fw'.engine.roster.Lists known
  status : ∀ r ∈ known, (fw'.status r).stateEnabled = (fw.status r).stateEnabled ∧
    (fw'.status r).invalid = (fw.status r).invalid
  target : ∀ r ∈ fw.chain.rules, r.isDefault = false → fw'.setOf r = target r

/-- A rule that creates state is not the default rule. -/
theorem Coherent.isDefault_eq_false (h : Coherent known fw) {r : Rule} (hr : r ∈ known)
    (hcreates : r.createsState = true) : r.isDefault = false := by
  refine Bool.eq_false_iff.mpr fun hdefault => ?_
  rw [h.stateless r hr hdefault] at hcreates
  cases hcreates

/-- The rules of the chain that create state; none of them is marked as removed. -/
theorem Coherent.mem_stateful (h : Coherent known fw) {r : Rule} :
    r ∈ fw.chain.select (fun r => r.createsState && !(fw.status r).invalid) ↔
      r ∈ fw.chain.rules ∧ r.createsState = true := by
  rw [Chain.mem_select, Bool.and_eq_true]
  constructor
  · rintro ⟨hr, -, hcreates, -⟩
    exact ⟨hr, hcreates⟩
  · rintro ⟨hr, hcreates⟩
    have hvalid : (fw.status r).invalid = false :=
      Bool.eq_false_iff.mpr fun hinvalid => (h.invalid r (h.members r hr)).mp hinvalid hr
    exact ⟨hr, h.isDefault_eq_false (h.members r hr) hcreates, hcreates, by simp [hvalid]⟩

/-- The last part of changing sets: the rules that are in enabled sets now may create state. -/
theorem Coherent.resume (h : Coherent known fw) {mask : SetMask} {target : Rule → UInt8}
    {stateful : List Rule} (hstateful : stateful.Sublist fw.chain.rules)
    (hmem : ∀ r, r ∈ stateful ↔ r ∈ fw.chain.rules ∧ r.createsState = true) {fw₁ fw₂ : Firewall}
    (hquiesced : Quiesced known (stateful.filter fun r => mask.has (target r)) fw fw₁)
    (hchanged : Retargets known mask target fw₁ fw₂) :
    Coherent known (fw₂.updateRules (stateful.filter fun r => !mask.has (target r))
      RuleStatus.enableState) := by
  have htarget : ∀ r ∈ fw.chain.rules, r.createsState = true → fw₂.setOf r = target r :=
    fun r hr hcreates => hchanged.target r (hquiesced.chain ▸ hr)
      (h.isDefault_eq_false (h.members r hr) hcreates)
  have hstatus : ∀ r ∈ known, (fw₂.updateRules (stateful.filter fun r => !mask.has (target r))
      RuleStatus.enableState).status r =
        if r ∈ stateful.filter fun r => !mask.has (target r) then (fw₂.status r).enableState
        else fw₂.status r :=
    fun r hr => h.status_updateAll hchanged.lists (List.filter_sublist.trans hstateful) _ hr
  generalize hfw₃ : fw₂.updateRules (stateful.filter fun r => !mask.has (target r))
    RuleStatus.enableState = fw₃ at hstatus
  have hset : ∀ r ∈ known, fw₃.setOf r = fw₂.setOf r := fun r hr => by
    refine (congrArg RuleStatus.set (hstatus r hr)).trans ?_
    split <;> rfl
  have hinvalid : ∀ r ∈ known, (fw₃.status r).invalid = (fw.status r).invalid := fun r hr => by
    rw [hstatus r hr]
    refine Eq.trans ?_ ((hchanged.status r hr).2.trans ?_)
    · split <;> rfl
    · rw [hquiesced.status r hr]
      split <;> rfl
  have hdisabled : fw₃.disabled = mask := hfw₃ ▸ hchanged.disabled
  have hchain : fw₃.chain = fw.chain := hfw₃ ▸ hchanged.chain.trans hquiesced.chain
  have hstates : fw₃.engine.states = fw₁.engine.states := hfw₃ ▸ hchanged.states
  have hlists : fw₃.engine.roster.Lists known := hfw₃ ▸ hchanged.lists.updateAll _ _
  refine ⟨hlists, hchain ▸ h.members, hchain ▸ h.nodup, h.stateless,
    hstates ▸ hquiesced.sound, fun e he => ?_, fun r hr hcreates => ?_, fun r hr => ?_,
    fun r hr hout => ?_⟩
  · obtain ⟨hlive, hnot⟩ := hquiesced.entries e (hstates ▸ he)
    refine ⟨hchain ▸ hlive.installed, hlive.creates, ?_⟩
    rw [hset _ (h.members _ hlive.installed), htarget _ hlive.installed hlive.creates, hdisabled]
    refine Bool.eq_false_iff.mpr fun hmask => ?_
    exact hnot (List.mem_filter.mpr ⟨(hmem _).mpr ⟨hlive.installed, hlive.creates⟩, hmask⟩)
  · have hr : r ∈ fw.chain.rules := hchain ▸ hr
    have hknown := h.members r hr
    have hin := (hmem r).mpr ⟨hr, hcreates⟩
    rw [hstatus r hknown, hset r hknown, htarget r hr hcreates, hdisabled]
    cases hmask : mask.has (target r) with
    | true =>
      rw [if_neg (by simp [hmask]), (hchanged.status r hknown).1, hquiesced.status r hknown,
        if_pos ⟨List.mem_filter.mpr ⟨hin, hmask⟩, hcreates⟩]
      rfl
    | false =>
      rw [if_pos (List.mem_filter.mpr ⟨hin, by simp [hmask]⟩)]
      rfl
  · rw [hinvalid r hr, h.invalid r hr, hchain]
  · have hout : r ∉ fw.chain.rules := hchain ▸ hout
    have hnot : ∀ q : Rule → Bool, r ∉ stateful.filter q := fun q hin =>
      hout ((hmem r).mp (List.mem_filter.mp hin).1).1
    rw [hstatus r hr, if_neg (hnot _), (hchanged.status r hr).1, hquiesced.status r hr,
      if_neg fun hboth => hnot _ hboth.1]
    exact h.barred r hr hout

/-- **Changing sets.** Rules that come to be in a disabled set are quiesced before, and those that
come to be in an enabled one may create state after. -/
theorem Coherent.retarget (h : Coherent known fw) {mask : SetMask} {target : Rule → UInt8}
    {change : Firewall → Firewall}
    (hchange : ∀ fw₁ : Firewall, fw₁.chain = fw.chain → fw₁.disabled = fw.disabled →
      fw₁.engine.roster.Lists known → (∀ r ∈ known, fw₁.setOf r = fw.setOf r) →
      Retargets known mask target fw₁ (change fw₁)) :
    Coherent known (fw.retarget mask target change) := by
  have hstateful := fw.chain.select_sublist fun r => r.createsState && !(fw.status r).invalid
  have hdisabled : ((fw.chain.select fun r => r.createsState && !(fw.status r).invalid).filter
      fun r => mask.has (target r)).Sublist fw.chain.rules := List.filter_sublist.trans hstateful
  have hquiesced := h.quiesce hdisabled
  exact h.resume hstateful (fun r => h.mem_stateful) hquiesced (hchange _ hquiesced.chain
    hquiesced.disabled hquiesced.lists fun r hr => hquiesced.setOf_eq hr)

/-- Putting rules into a set, or exchanging sets, as a change of the roster. -/
theorem Retargets.of_updateAll (hmembers : ∀ r ∈ fw.chain.rules, r ∈ known)
    (hnodup : fw.chain.rules.Nodup) (hlists : fw.engine.roster.Lists known) (p : Rule → Bool)
    (move : UInt8 → UInt8) {target : Rule → UInt8}
    (htarget : ∀ r ∈ fw.chain.rules, target r = if p r then move (fw.setOf r) else fw.setOf r) :
    Retargets known fw.disabled target fw (fw.mapRoster fun roster =>
      roster.updateAll (fw.chain.select p) fun s => { s with set := move s.set }) := by
  have hselected : ∀ r ∈ fw.chain.select p, r ∈ known := fun r hr =>
    hmembers r ((fw.chain.mem_select p).mp hr).1
  have hstatus : ∀ r ∈ known, (fw.mapRoster fun roster => roster.updateAll (fw.chain.select p)
      fun s => { s with set := move s.set }).status r =
        if r ∈ fw.chain.select p then { fw.status r with set := move (fw.setOf r) }
        else fw.status r :=
    fun r hr => hlists.status_updateAll hselected (hnodup.sublist (fw.chain.select_sublist p)) _ hr
  refine ⟨rfl, rfl, rfl, hlists.updateAll _ _, fun r hr => ?_, fun r hr hdefault => ?_⟩
  · rw [hstatus r hr]
    split <;> exact ⟨rfl, rfl⟩
  · refine (congrArg RuleStatus.set (hstatus r (hmembers r hr))).trans ?_
    rw [htarget r hr]
    by_cases hp : p r = true
    · rw [if_pos ((fw.chain.mem_select p).mpr ⟨hr, hdefault, hp⟩), if_pos hp]
    · rw [if_neg fun hin => hp ((fw.chain.mem_select p).mp hin).2.2, if_neg hp]
      rfl

theorem retarget_states {mask : SetMask} {target : Rule → UInt8} {change : Firewall → Firewall}
    (hchange : ∀ fw₁ : Firewall, (change fw₁).engine.states = fw₁.engine.states) :
    StateTable.Steps (fw.Grants grants) fw.engine.states
      (fw.retarget mask target change).engine.states := by
  unfold Firewall.retarget
  simp only
  generalize (fw.chain.select fun r => r.createsState && !(fw.status r).invalid).filter
    (fun r => mask.has (target r)) = disabled
  show StateTable.Steps (fw.Grants grants) fw.engine.states
    (change (fw.quiesce disabled)).engine.states
  rw [hchange]
  exact fw.quiesce_states disabled

/-- Moving rules between sets by a change of their statuses. -/
theorem Coherent.retarget_select (h : Coherent known fw) (p : Firewall → Rule → Bool)
    (move : UInt8 → UInt8) {target : Rule → UInt8}
    (hp : ∀ fw₁ : Firewall, (∀ r ∈ known, fw₁.setOf r = fw.setOf r) → ∀ r ∈ known,
      p fw₁ r = p fw r)
    (htarget : ∀ r ∈ fw.chain.rules, target r = if p fw r then move (fw.setOf r) else fw.setOf r) :
    Follows grants known fw (fw.retarget fw.disabled target fun fw₁ =>
      fw₁.mapRoster fun roster =>
        roster.updateAll (fw₁.chain.select (p fw₁)) fun s => { s with set := move s.set }) := by
  refine ⟨h.retarget fun fw₁ hchain hdisabled hlists hsets => ?_, retarget_states fun _ => rfl⟩
  rw [← hdisabled]
  refine Retargets.of_updateAll (hchain ▸ h.members) (hchain ▸ h.nodup) hlists (p fw₁) move ?_
  intro r hr
  have hr : r ∈ fw.chain.rules := hchain ▸ hr
  rw [htarget r hr, hp fw₁ hsets r (h.members r hr), hsets r (h.members r hr)]

theorem Coherent.moveRule (h : Coherent known fw) {number : UInt16} {set : UInt8} {n : Nat}
    (hmove : fw.moveRule number set = .ok (n, fw')) : Follows grants known fw fw' := by
  unfold Firewall.moveRule at hmove
  split at hmove
  · cases hmove
  · split at hmove
    · cases hmove
    · cases hmove
      refine h.retarget_select (fun _ r => r.number == number) (fun _ => set)
        (fun _ _ _ _ => rfl) fun r _ => ?_
      simp only [beq_iff_eq]

theorem Coherent.moveSet (h : Coherent known fw) {source goal : UInt8} {n : Nat}
    (hmove : fw.moveSet source goal = .ok (n, fw')) : Follows grants known fw fw' := by
  unfold Firewall.moveSet at hmove
  split at hmove
  · cases hmove
  · split at hmove
    · cases hmove
    · cases hmove
      refine h.retarget_select (fun fw₁ r => fw₁.setOf r == source) (fun _ => goal)
        (fun fw₁ hsets r hr => by simp only [hsets r hr]) fun r _ => ?_
      simp only [beq_iff_eq]

theorem Coherent.swapSets (h : Coherent known fw) {a b : UInt8}
    (hswap : fw.swapSets a b = .ok fw') : Follows grants known fw fw' := by
  unfold Firewall.swapSets at hswap
  split at hswap
  · cases hswap
  · split at hswap
    · cases hswap
    · cases hswap
      exact h.retarget_select (fun _ _ => true) (Chain.exchanged a b) (fun _ _ _ _ => rfl)
        fun r _ => rfl

theorem Coherent.setEnable (h : Coherent known fw) {disable enable : SetMask}
    (hset : fw.setEnable disable enable = .ok fw') : Follows grants known fw fw' := by
  unfold Firewall.setEnable at hset
  split at hset
  · cases hset
  · cases hset
    refine ⟨h.retarget fun fw₁ hchain _ hlists hsets => ?_, retarget_states fun _ => rfl⟩
    refine ⟨rfl, rfl, rfl, hlists, fun r _ => ⟨rfl, rfl⟩, fun r hr _ => ?_⟩
    exact hsets r (h.members r (hchain ▸ hr))

/-- A request that also says how many rules it was about. -/
theorem exists_of_map_snd {result : Except ControlError (Nat × Firewall)}
    (h : result.map Prod.snd = .ok fw') : ∃ n, result = .ok (n, fw') := by
  cases result with
  | error e => cases h
  | ok counted =>
    cases h
    exact ⟨counted.1, rfl⟩

/-- Requests to delete rules or to change their sets. -/
theorem Coherent.handle (h : Coherent known fw) {request : DeleteRequest}
    (hrequest : fw.handle request = .ok fw') : Follows grants known fw fw' := by
  cases request with
  | rule number => exact h.deleteRule hrequest
  | set set =>
    obtain ⟨n, hset⟩ := exists_of_map_snd hrequest
    exact h.deleteSet hset
  | moveRule number target =>
    obtain ⟨n, hmove⟩ := exists_of_map_snd hrequest
    exact h.moveRule hmove
  | moveSet source target =>
    obtain ⟨n, hmove⟩ := exists_of_map_snd hrequest
    exact h.moveSet hmove
  | swapSets a b => exact h.swapSets hrequest

end Firewall

end PacketFilter
