import PacketFilter.Proofs.Administration
import PacketFilter.Proofs.Coherence.Run

/-!
# What administration drops

Rules go out of service because they are removed, or because they come to be in a disabled set.
What they have created goes with them, and nothing else does.

Which rules will be out of service is worked out before the change is made. That the prediction is
right needs no second look at the sets: afterwards state and rules agree, so that a rule in service
may create state, and those that were picked are barred from it.

Main statement: **`administration_drops`**, what is left after a request that takes rules out of
service is exactly what the rules in service then have created.
-/

namespace PacketFilter

/-! ## Rules in service -/

namespace Firewall

/-- Is the rule in the chain, and its set enabled? -/
def serves (fw : Firewall) (r : Rule) : Bool :=
  decide (r ∈ fw.chain.rules) && !fw.disabled.has (fw.setOf r)

variable {known : List Rule} {fw fw' : Firewall}

/-- The rules in service are those that may create state, if they create any. -/
theorem Coherent.serves_eq (h : Coherent known fw) {r : Rule} (hr : r ∈ known)
    (hcreates : r.createsState = true) : fw.serves r = (fw.status r).stateEnabled := by
  unfold serves
  by_cases hin : r ∈ fw.chain.rules
  · rw [h.enabled r hin hcreates, decide_eq_true hin, Bool.true_and]
  · rw [h.barred r hr hin, decide_eq_false hin, Bool.false_and]

theorem Live.serves {r : Rule} (h : fw.Live r) : fw.serves r = true := by
  simp only [Firewall.serves, h.installed, h.enabled, decide_true, Bool.not_false, Bool.and_self]

/-- **The state table keeps exactly what rules in service have created.** -/
structure DropsState (fw fw' : Firewall) : Prop where
  table : fw'.engine.states = fw.engine.states.restrict fun e => fw'.serves e.rule
  count : fw'.stateCount +
    (fw.engine.states.entries.filter fun e => !fw'.serves e.rule).length = fw.stateCount

/-- If what some rules have created is dropped, and these are barred from creating state
afterwards, then what is left is what rules in service have created. -/
theorem Coherent.dropsState (h : Coherent known fw) (h' : Coherent known fw') {rules : List Rule}
    (hstates : fw'.engine.states = fw.engine.states.restrict fun e => decide (e.rule ∉ rules))
    (hbarred : ∀ r ∈ rules, r ∈ known → r.createsState = true →
      (fw'.status r).stateEnabled = false) : DropsState fw fw' := by
  obtain ⟨config, hsound⟩ := h.sound
  have hserves : ∀ e ∈ fw.engine.states.entries, decide (e.rule ∉ rules) = fw'.serves e.rule := by
    intro e he
    have hlive := h.entries e he
    have hknown := h.members _ hlive.installed
    by_cases hr : e.rule ∈ rules
    · rw [h'.serves_eq hknown hlive.creates, hbarred _ hr hknown hlive.creates]
      exact decide_eq_false (not_not_intro hr)
    · have hstays : e ∈ fw'.engine.states.entries := by
        rw [hstates, StateTable.entries_restrict]
        exact List.mem_filter.mpr ⟨he, decide_eq_true hr⟩
      rw [(h'.entries e hstays).serves, decide_eq_true hr]
  have htable := hstates.trans (StateTable.restrict_congr hserves)
  refine ⟨htable, ?_⟩
  unfold stateCount
  rw [htable]
  exact hsound.count_restrict fun e => fw'.serves e.rule

/-! ## Removing rules -/

theorem states_withdraw (fw : Firewall) (p : Rule → Bool) :
    (fw.remove p).engine.states = (fw.quiesce (fw.chain.select p)).engine.states := by
  unfold remove withdraw
  rw [(fw.chain.removeWhere_spec p).1]
  split
  · rename_i hempty
    rw [List.isEmpty_iff.mp hempty]
    rfl
  · rfl

theorem chain_remove (fw : Firewall) (p : Rule → Bool) {r : Rule} (hr : r ∈ fw.chain.select p) :
    r ∉ (fw.remove p).chain.rules := by
  have hout : r ∉ (fw.chain.removeWhere p).2.rules := fun hin =>
    ((fw.chain.mem_removeWhere p).mp hin).2 hr
  unfold remove withdraw
  rw [(fw.chain.removeWhere_spec p).1]
  split
  · rename_i hempty
    rw [List.isEmpty_iff.mp hempty] at hr
    exact absurd hr List.not_mem_nil
  · exact hout

/-- Removing rules drops exactly what they have created. -/
theorem Coherent.remove_drops (h : Coherent known fw) (p : Rule → Bool) :
    DropsState fw (fw.remove p) := by
  have h' : Coherent known (fw.remove p) := h.withdraw p
  refine h.dropsState h' ((fw.states_withdraw p).trans
    (h.quiesce_restrict (fw.chain.select_sublist p))) fun r hr hknown _ => ?_
  exact h'.barred r hknown (fw.chain_remove p hr)

theorem Coherent.removes_drops (h : Coherent known fw) (hremoves : fw.Removes fw') :
    DropsState fw fw' := by
  cases hremoves with
  | silently p => exact h.remove_drops p
  | noted p event => exact ⟨(h.remove_drops p).table, (h.remove_drops p).count⟩

/-! ## Changing sets -/

/-- A change of sets that does not touch who may create state. -/
structure KeepsBars (known : List Rule) (change : Firewall → Firewall) : Prop where
  states : ∀ fw, (change fw).engine.states = fw.engine.states
  lists : ∀ fw, fw.engine.roster.Lists known → (change fw).engine.roster.Lists known
  status : ∀ fw, fw.engine.roster.Lists known → fw.chain.rules.Nodup →
    (∀ r ∈ fw.chain.rules, r ∈ known) → ∀ r ∈ known,
      ((change fw).status r).stateEnabled = (fw.status r).stateEnabled

/-- Rules that come to be in a disabled set are barred, and what they have created is dropped. -/
theorem Coherent.retarget_drops (h : Coherent known fw) {mask : SetMask} {target : Rule → UInt8}
    {change : Firewall → Firewall} (hchange : KeepsBars known change)
    (h' : Coherent known (fw.retarget mask target change)) :
    DropsState fw (fw.retarget mask target change) := by
  have hstateful := fw.chain.select_sublist fun r => r.createsState && !(fw.status r).invalid
  have hdisabled : ((fw.chain.select fun r => r.createsState && !(fw.status r).invalid).filter
      fun r => mask.has (target r)).Sublist fw.chain.rules := List.filter_sublist.trans hstateful
  have hquiesced := h.quiesce hdisabled
  refine h.dropsState h' ((hchange.states _).trans (h.quiesce_restrict hdisabled))
    fun r hr hknown hcreates => ?_
  have hmask := (List.mem_filter.mp hr).2
  have hnodup := h.nodup
  have hmembers := h.members
  rw [← hquiesced.chain] at hnodup hmembers
  -- It is barred, the change does not lift that, and it is not among those that may create again.
  refine (congrArg RuleStatus.stateEnabled (h.status_updateAll (hchange.lists _ hquiesced.lists)
    (List.filter_sublist.trans hstateful) RuleStatus.enableState hknown)).trans ?_
  rw [if_neg fun hin => by simp [hmask] at hin]
  refine (hchange.status _ hquiesced.lists hnodup hmembers r hknown).trans ?_
  rw [hquiesced.status r hknown, if_pos ⟨hr, hcreates⟩]
  rfl

theorem Coherent.resets_drops (h : Coherent known fw) (h' : Coherent known fw')
    (hresets : fw.Resets fw') : DropsState fw fw' := by
  cases hresets with
  | moves target p move hmove =>
    refine h.retarget_drops ⟨fun _ => rfl, fun fw₁ hlists => hlists.updateAll _ _,
      fun fw₁ hlists hnodup hmembers r hr => ?_⟩ h'
    refine (congrArg RuleStatus.stateEnabled (hlists.status_updateAll (fun x hx =>
      hmembers x ((fw₁.chain.mem_select (p fw₁)).mp hx).1)
      (hnodup.sublist (fw₁.chain.select_sublist (p fw₁))) _ hr)).trans ?_
    split <;> rfl
  | disables mask hmask =>
    exact h.retarget_drops ⟨fun _ => rfl, fun _ hlists => hlists, fun _ _ _ _ _ _ => rfl⟩ h'

/-! ## In every session -/

/-- **Requests that may take rules out of service**, and what they lead to if they are not
refused. -/
inductive Administers (fw : Firewall) : Firewall → Prop
  /-- Rules are deleted or moved, or sets are exchanged. -/
  | change {fw' : Firewall} (request : DeleteRequest) (h : fw.handle request = .ok fw') :
      Administers fw fw'
  /-- All rules but the default one are deleted. -/
  | flush : Administers fw fw.flush.2
  /-- Sets are disabled and enabled. -/
  | setEnable {fw' : Firewall} (disable enable : SetMask)
      (h : fw.setEnable disable enable = .ok fw') : Administers fw fw'

theorem Coherent.administers_drops (h : Coherent known fw) (hadmin : fw.Administers fw') :
    DropsState fw fw' := by
  cases hadmin with
  | change request hrequest =>
    have hfollows : Follows (fun rule _ => rule.createsState = true) known fw fw' :=
      h.handle hrequest
    rcases handle_cases hrequest with hremoves | hresets
    · exact h.removes_drops hremoves
    · exact h.resets_drops hfollows.coherent hresets
  | flush => exact h.removes_drops fw.flush_removes
  | setEnable disable enable hset =>
    have hfollows : Follows (fun rule _ => rule.createsState = true) known fw fw' :=
      h.setEnable hset
    exact h.resets_drops hfollows.coherent (setEnable_resets hset)

end Firewall

/-- **Administration drops exactly the state that it must.** -/
theorem administration_drops {s : Session}
    (h : s.Reachable fun rule _ => rule.createsState = true) {fw : Firewall}
    (hadmin : s.firewall.Administers fw) : s.firewall.DropsState fw := by
  obtain ⟨default, hcoherent⟩ := h.coherent Session.fair_creates
  exact hcoherent.administers_drops hadmin

/-- A rule keeps state, and another one, of set 1, has a connection under a limit. When set 1 is
disabled, that connection and its parent go. -/
theorem administration_drops_disabled_set :
    let limiter : RuleDraft := { Session.limiter with set := 1 }
    let packet (port : UInt16) : Packet :=
      { flow := ⟨1, 2, port, 4, Protocol.udp, 0⟩, direction := .inbound, length := 40 }
    let s := Session.opened.run [.add Session.keeper.assemble, .process (packet 1) none,
      .add limiter.assemble, .process (packet 2) none]
    let fw := (s.step (.setEnable 2 0)).firewall
    s.Reachable (fun rule _ => rule.createsState = true) ∧ s.firewall.stateCount = 3 ∧
      s.firewall.Administers fw ∧ s.firewall.DropsState fw ∧ fw.stateCount = 1 := by
  intro limiter packet s fw
  have hreachable : s.Reachable fun rule _ => rule.createsState = true :=
    Session.opened_reachable.run (by simp [Session.Allows])
  have hadmin : s.firewall.Administers fw := .setEnable 2 0 (by rfl)
  refine ⟨hreachable, ?_, hadmin, administration_drops hreachable hadmin, ?_⟩
  · simp only [s, Session.run, List.foldl, Session.step, Firewall.process, Firewall.check, evaluate,
      Walk.run_eq_runFor 3]
    decide +kernel
  · simp only [fw, s, Session.run, List.foldl, Session.step, Firewall.process, Firewall.check,
      evaluate, Walk.run_eq_runFor 3]
    decide +kernel

end PacketFilter
