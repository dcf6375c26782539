import PacketFilter.Proofs.Administration
import PacketFilter.Proofs.Coherence.Run

/-!
# The chain stays in order

Rules come and go between those that are there, and the default rule is left at the end by all that
administration does. It stays in its own set, which no mask of disabled sets ever has, so that it is
always in service. What administration writes to the log are its own notes.

Main statements: `administered_step`, what an operation that is no packet does; **`step_orderly`**,
every operation keeps the order; **`Reachable.orderly`**, in every session the chain is in order,
the default rule ends it and is in service, and every other rule was checked.
-/

namespace PacketFilter

/-! ## Rosters -/

namespace Roster

/-- Updates that keep the set of a rule, of as many rules as there may be. -/
theorem setOf_updateAll {f : RuleStatus → RuleStatus} (hf : ∀ s, (f s).set = s.set)
    (rules : List Rule) (roster : Roster) (r : Rule) :
    (roster.updateAll rules f).setOf r = roster.setOf r := by
  induction rules generalizing roster with
  | nil => rfl
  | cons x rules ih =>
    refine (ih (roster.update x.id f)).trans ?_
    unfold setOf
    rcases roster.status_update x.id r.id f with h | ⟨-, h⟩
    · rw [h]
    · rw [h, hf]

end Roster

namespace Firewall

/-- Quiescing rules moves none of them to another set. -/
theorem setOf_quiesce (fw : Firewall) (rules : List Rule) (r : Rule) :
    (fw.quiesce rules).engine.roster.setOf r = fw.engine.roster.setOf r := by
  rw [(fw.quiesce_eq rules).2.2]
  exact Roster.setOf_updateAll (f := RuleStatus.disableState) (fun _ => rfl) _ _ r

/-! ## What administration does -/

variable {last : Rule} {fw fw' fw'' : Firewall}

/-- **What administration does** to a firewall whose chain is in order: the order stays, the last
rule stays in its set, which is not disabled, and the log gets notes of administration only. -/
structure Administered (last : Rule) (fw fw' : Firewall) : Prop where
  order : fw'.chain.InOrder last
  home : fw'.setOf last = fw.setOf last
  unmasked : fw.disabled.has defaultRuleSet = false → fw'.disabled.has defaultRuleSet = false
  notes : fw.engine.Logs (·.level = .note) fw'.engine

namespace Administered

/-- What changes no chain, mask, set or log. -/
theorem of_eq (h : fw.chain.InOrder last) (hchain : fw'.chain = fw.chain)
    (hdisabled : fw'.disabled = fw.disabled) (hset : fw'.setOf last = fw.setOf last)
    (hlog : fw'.engine.log = fw.engine.log) : Administered last fw fw' :=
  ⟨hchain ▸ h, hset, fun hunmasked => hdisabled ▸ hunmasked, .of_eq hlog⟩

theorem trans (h : Administered last fw fw') (h' : Administered last fw' fw'') :
    Administered last fw fw'' :=
  ⟨h'.order, h'.home.trans h.home, fun hunmasked => h'.unmasked (h.unmasked hunmasked),
    h.notes.trans h'.notes⟩

theorem write (h : Administered last fw fw') (event : AdminEvent) :
    Administered last fw (fw'.write event) :=
  h.trans ⟨h.order, rfl, fun hunmasked => hunmasked, .write rfl⟩

end Administered

variable (h : fw.chain.InOrder last)
include h

theorem updateRules_administered (rules : List Rule) {f : RuleStatus → RuleStatus}
    (hf : ∀ s, (f s).set = s.set) : Administered last fw (fw.updateRules rules f) :=
  .of_eq h rfl rfl (Roster.setOf_updateAll hf rules _ last) rfl

theorem flushStatesOf_administered (rules : List Rule) :
    Administered last fw (fw.flushStatesOf rules) := by
  unfold flushStatesOf
  simp only
  split
  · exact .of_eq h rfl rfl rfl rfl
  · refine Administered.write ?_ _
    exact .of_eq h rfl rfl rfl rfl

theorem quiesce_administered (rules : List Rule) : Administered last fw (fw.quiesce rules) := by
  unfold quiesce
  simp only
  split
  · exact .of_eq h rfl rfl rfl rfl
  · have hbarred := updateRules_administered h (rules.filter Rule.createsState)
      (f := RuleStatus.disableState) fun _ => rfl
    exact hbarred.trans (flushStatesOf_administered hbarred.order _)

theorem Removes.administered (hremoves : fw.Removes fw') : Administered last fw fw' := by
  have hremove : ∀ p, Administered last fw (fw.remove p) := by
    intro p
    unfold remove withdraw
    split
    · exact .of_eq h rfl rfl rfl rfl
    · have hquiesced := quiesce_administered h (fw.chain.removeWhere p).1
      have hremoved : Administered last (fw.quiesce (fw.chain.removeWhere p).1)
          { fw.quiesce (fw.chain.removeWhere p).1 with chain := (fw.chain.removeWhere p).2 } :=
        ⟨h.removeWhere p, rfl, fun hunmasked => hunmasked, .of_eq rfl⟩
      exact (hquiesced.trans hremoved).trans
        (updateRules_administered hremoved.order _ fun _ => rfl)
  cases hremoves with
  | silently p => exact hremove p
  | noted p event => exact (hremove p).write event

theorem retarget_administered {mask : SetMask} {target : Rule → UInt8}
    {change : Firewall → Firewall}
    (hchange : ∀ fw₁ : Firewall, fw₁.chain.InOrder last → Administered last fw₁ (change fw₁)) :
    Administered last fw (fw.retarget mask target change) := by
  unfold retarget
  simp only
  generalize (fw.chain.select fun r => r.createsState && !(fw.status r).invalid).filter
    (fun r => mask.has (target r)) = disabled
  have hquiesced := quiesce_administered h disabled
  have hchanged := hchange _ hquiesced.order
  exact (hquiesced.trans hchanged).trans
    (updateRules_administered hchanged.order _ fun _ => rfl)

/-- Moving rules between sets moves the last rule nowhere. -/
theorem mapRoster_administered (p : Rule → Bool) (move : UInt8 → UInt8) :
    Administered last fw (fw.mapRoster fun roster =>
      roster.updateAll (fw.chain.select p) fun s => { s with set := move s.set }) := by
  refine .of_eq h rfl rfl ?_ rfl
  refine congrArg RuleStatus.set (Roster.status_updateAll_of_not_mem _ fun r hr hid => ?_)
  obtain ⟨hr, hdefault, -⟩ := (Chain.mem_select _ _).mp hr
  rw [h.eq_of_id hr h.last_mem hid, h.isDefault] at hdefault
  cases hdefault

theorem Resets.administered (hresets : fw.Resets fw') : Administered last fw fw' := by
  cases hresets with
  | moves target p move =>
    exact retarget_administered h fun fw₁ h₁ => mapRoster_administered h₁ (p fw₁) move
  | disables mask hmask =>
    exact retarget_administered h fun fw₁ h₁ => ⟨h₁, rfl, fun _ => hmask, .of_eq rfl⟩

theorem zeroCounters_administered {number : Option UInt16} {logOnly : Bool}
    (hzero : fw.zeroCounters number logOnly = .ok fw') : Administered last fw fw' := by
  have hzeroed : ∀ rules, Administered last fw (fw.zeroRules rules logOnly) := fun rules =>
    .of_eq h rfl rfl ((zeroRules_standing fw rules logOnly).setOf_eq last) rfl
  obtain ⟨rules, rfl | ⟨undecided, event, rfl⟩⟩ := zeroCounters_cases hzero
  · exact hzeroed rules
  · refine Administered.write ((hzeroed rules).trans ?_) _
    exact .of_eq (hzeroed rules).order rfl rfl rfl rfl

theorem setBuckets_administered {n : UInt32} (hset : fw.setBuckets n = .ok fw') :
    Administered last fw fw' := by
  rw [setBuckets_eq_ok hset]
  exact .of_eq h rfl rfl rfl rfl

omit h

/-- A rule that is accepted has been checked. -/
theorem addImage_checked {image : RuleImage} {rule : Rule}
    (hadd : fw.addImage image = .ok (rule, fw')) : rule.ActsLast ∧ rule.isDefault = false := by
  unfold Firewall.addImage at hadd
  simp only at hadd
  split at hadd
  · cases hadd
  · rename_i himage
    cases hadd
    exact ⟨Rule.ofImage_actsLast himage, (ofImage_spec himage).2.2⟩

/-- A new rule is put into its place, and has no part in what is known of the last one. -/
theorem Coherent.addImage_administered {accepted : List Rule}
    (hc : Coherent (last :: accepted) fw) (h : fw.chain.InOrder last) {image : RuleImage}
    {rule : Rule} (hadd : fw.addImage image = .ok (rule, fw')) : Administered last fw fw' := by
  obtain ⟨hid, hdefault, status, -, -, rfl⟩ := addImage_spec hadd
  refine Administered.write ?_ _
  refine ⟨h.insert hdefault fun x hx => ?_, ?_, fun hunmasked => hunmasked, .of_eq rfl⟩
  · rw [hid]
    exact hc.lists.id_lt (hc.members x hx)
  · exact congrArg RuleStatus.set
      (Roster.status_add_of_lt (hc.lists.id_lt List.mem_cons_self) status)

/-! ## Sessions -/

/-- **A firewall in order**: a default rule that accepts or denies ends the chain, its set is
enabled, and the rules that were accepted have been checked. -/
structure Orderly (last : Rule) (accepted : List Rule) (fw : Firewall) : Prop where
  terminal : ∃ accepts, last = .terminal 0 accepts
  checked : ∀ r ∈ accepted, r.ActsLast ∧ r.isDefault = false
  order : fw.chain.InOrder last
  home : fw.setOf last = defaultRuleSet
  unmasked : fw.disabled.has defaultRuleSet = false

namespace Orderly

variable {accepted : List Rule}

/-- The last rule is in service. -/
theorem enabled (h : Orderly last accepted fw) : fw.disabled.has (fw.setOf last) = false := by
  rw [h.home]
  exact h.unmasked

/-- Every rule that there is or was acts once, and last. -/
theorem actsLast (h : Orderly last accepted fw) {r : Rule} (hr : r ∈ last :: accepted) :
    r.ActsLast := by
  rcases List.mem_cons.mp hr with rfl | hr
  · obtain ⟨accepts, rfl⟩ := h.terminal
    exact Rule.terminal_actsLast 0 accepts
  · exact (h.checked r hr).1

/-- A new firewall. -/
theorem new {name : String} {config : Config} {now : Moment} {draw : Nat → UInt32}
    (hnew : Firewall.new name config now draw = .ok fw) :
    Orderly (.terminal 0 config.acceptByDefault) [] fw := by
  unfold Firewall.new at hnew
  split at hnew
  · cases hnew
  · cases hnew
    exact ⟨⟨_, rfl⟩, fun _ hr => absurd hr List.not_mem_nil, Chain.InOrder.new rfl, rfl,
      Word.hasBit_zero _⟩

end Orderly

end Firewall

namespace Session

open Firewall

variable {grants : Rule → StateRequest → Prop} {s : Session} {last : Rule}

/-- The rules that an operation adds to those accepted were added to the chain. -/
theorem accepted_step (op : Operation) {r : Rule} (hr : r ∈ (s.step op).accepted) :
    r ∈ s.accepted ∨ ∃ image fw', s.firewall.addImage image = .ok (r, fw') := by
  have hproceed : ∀ result, r ∈ (s.proceed result).accepted → r ∈ s.accepted := by
    intro result hr
    rwa [accepted_proceed] at hr
  cases op with
  | add image =>
    rcases mem_accepted_accept.mp hr with hr | ⟨fw', hadd⟩
    · exact Or.inl hr
    · exact Or.inr ⟨image, fw', hadd⟩
  | addBytes bytes =>
    rcases mem_accepted_accept.mp hr with hr | ⟨fw', hadd⟩
    · exact Or.inl hr
    · obtain ⟨image, hadd⟩ := addBytes_eq_ok hadd
      exact Or.inr ⟨image, fw', hadd⟩
  | change request => exact Or.inl (hproceed _ hr)
  | setEnable disable enable => exact Or.inl (hproceed _ hr)
  | zeroCounters number logOnly => exact Or.inl (hproceed _ hr)
  | setBuckets n => exact Or.inl (hproceed _ hr)
  | _ => exact Or.inl hr

/-- The rules that an operation adds to those accepted have been checked. -/
theorem checked_step (op : Operation) {r : Rule} (hr : r ∈ (s.step op).accepted) :
    r ∈ s.accepted ∨ r.ActsLast ∧ r.isDefault = false := by
  rcases accepted_step op hr with hr | ⟨image, fw', hadd⟩
  · exact Or.inl hr
  · exact Or.inr (addImage_checked hadd)

/-- **What an operation does** that is no packet and does not take the messages. -/
theorem administered_step (hc : Firewall.Coherent (last :: s.accepted) s.firewall)
    (h : s.firewall.chain.InOrder last) (op : Operation) :
    (∃ pkt resume, op = .check pkt resume ∨ op = .process pkt resume) ∨ op = .drain ∨
      Administered last s.firewall (s.step op).firewall := by
  have hproceed : ∀ result : Except ControlError Firewall,
      (∀ fw', result = .ok fw' → Administered last s.firewall fw') →
        Administered last s.firewall (s.proceed result).firewall := by
    intro result hresult
    cases result with
    | error e => exact .of_eq h rfl rfl rfl rfl
    | ok fw' => exact hresult fw' rfl
  have haccept : ∀ result : Except ControlError (Rule × Firewall),
      (∀ rule fw', result = .ok (rule, fw') → Administered last s.firewall fw') →
        Administered last s.firewall (s.accept result).firewall := by
    intro result hresult
    cases result with
    | error e => exact .of_eq h rfl rfl rfl rfl
    | ok added => exact hresult added.1 added.2 rfl
  cases op with
  | check pkt resume => exact Or.inl ⟨pkt, resume, Or.inl rfl⟩
  | process pkt resume => exact Or.inl ⟨pkt, resume, Or.inr rfl⟩
  | drain => exact Or.inr (Or.inl rfl)
  | add image => exact Or.inr (Or.inr (haccept _ fun _ _ hadd => hc.addImage_administered h hadd))
  | addBytes bytes =>
    refine Or.inr (Or.inr (haccept _ fun _ _ hadd => ?_))
    obtain ⟨image, hadd⟩ := addBytes_eq_ok hadd
    exact hc.addImage_administered h hadd
  | change request =>
    refine Or.inr (Or.inr (hproceed _ fun fw' hrequest => ?_))
    rcases handle_cases hrequest with hremoves | hresets
    · exact hremoves.administered h
    · exact hresets.administered h
  | flush => exact Or.inr (Or.inr ((flush_removes s.firewall).administered h))
  | setEnable disable enable =>
    exact Or.inr (Or.inr (hproceed _ fun _ hset => (setEnable_resets hset).administered h))
  | zeroCounters number logOnly =>
    exact Or.inr (Or.inr (hproceed _ fun _ hzero => zeroCounters_administered h hzero))
  | setBuckets n =>
    exact Or.inr (Or.inr (hproceed _ fun _ hset => setBuckets_administered h hset))
  | _ => exact Or.inr (Or.inr (.of_eq h rfl rfl rfl rfl))

/-- **Every operation keeps the order.** -/
theorem step_orderly (hc : Firewall.Coherent (last :: s.accepted) s.firewall)
    (h : Orderly last s.accepted s.firewall) (op : Operation) :
    Orderly last (s.step op).accepted (s.step op).firewall := by
  have hchecked : ∀ r ∈ (s.step op).accepted, r.ActsLast ∧ r.isDefault = false := by
    intro r hr
    rcases checked_step op hr with hr | hr
    · exact h.checked r hr
    · exact hr
  have hsame : (s.step op).firewall.chain.InOrder last →
      (s.step op).firewall.setOf last = s.firewall.setOf last →
      (s.step op).firewall.disabled.has defaultRuleSet = false →
        Orderly last (s.step op).accepted (s.step op).firewall := by
    intro horder hhome hunmasked
    exact ⟨h.terminal, hchecked, horder, hhome.trans h.home, hunmasked⟩
  rcases administered_step hc h.order op with ⟨pkt, resume, rfl | rfl⟩ | rfl | hadministered
  · exact hsame h.order ((hc.check_standing pkt resume).setOf_eq last) h.unmasked
  · obtain ⟨requests, hprocess⟩ := s.firewall.process_eq_check pkt resume
    have hfirewall : (s.step (.process pkt resume)).firewall =
      (s.firewall.process pkt resume).2 := rfl
    rw [hfirewall, hprocess] at hsame ⊢
    exact hsame h.order ((hc.check_standing pkt resume).setOf_eq last) h.unmasked
  · exact hsame h.order rfl h.unmasked
  · exact hsame hadministered.order hadministered.home (hadministered.unmasked h.unmasked)

/-- **In every session the chain is in order**, and state and rules agree. -/
theorem Reachable.orderly (hfair : Fair grants) (h : Reachable grants s) :
    ∃ last, Firewall.Coherent (last :: s.accepted) s.firewall ∧
      Orderly last s.accepted s.firewall := by
  induction h with
  | start hnew => exact ⟨_, coherent_new hnew, Orderly.new hnew⟩
  | step _ op hop ih =>
    obtain ⟨last, hcoherent, horderly⟩ := ih
    exact ⟨last, (step_follows hfair hcoherent op hop).coherent,
      step_orderly hcoherent horderly op⟩

end Session

end PacketFilter
