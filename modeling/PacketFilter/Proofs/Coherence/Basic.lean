import Mathlib.Data.List.Nodup
import PacketFilter.Proofs.Chain
import PacketFilter.Proofs.Rule
import PacketFilter.Proofs.Session
import PacketFilter.Proofs.Walks

/-!
# State and rules agree

The chain, the standing of the rules, the mask of disabled sets and the state table are changed one
after another. `Coherent` says how they agree between operations: an entry of the table is of a rule
in the chain whose set is enabled, a rule of the chain may create state exactly if its set is
enabled, and the rules marked as removed are those that are no longer in the chain.

This module has the operations that take no rule out of service: packets, timers, new rules,
counters, and requests for state on behalf of rules that may have been removed, which are refused
by the mark that such a rule bears.

Main statements: `Coherent.of_standing`, what changes the standing of no rule keeps the agreement;
`Coherent.check`, a packet does, and `Coherent.addImage`, a new rule does.
-/

namespace PacketFilter

/-! ## Rosters -/

/-- A roster lists the rules there are or were, each under its own number. -/
def Roster.Lists (roster : Roster) (known : List Rule) : Prop :=
  known.map Rule.id = List.range roster.nextId

namespace Roster.Lists

variable {roster : Roster} {known : List Rule}

theorem id_lt (h : roster.Lists known) {r : Rule} (hr : r ∈ known) : r.id < roster.nextId := by
  have hid : r.id ∈ known.map Rule.id := List.mem_map_of_mem hr
  rw [h] at hid
  exact List.mem_range.mp hid

theorem nodup_ids (h : roster.Lists known) : (known.map Rule.id).Nodup := by
  rw [h]
  exact List.nodup_range

theorem eq_of_id (h : roster.Lists known) {r r' : Rule} (hr : r ∈ known) (hr' : r' ∈ known)
    (hid : r.id = r'.id) : r = r' :=
  List.inj_on_of_nodup_map h.nodup_ids hr hr' hid

theorem updateAll (h : roster.Lists known) (rules : List Rule) (f : RuleStatus → RuleStatus) :
    (roster.updateAll rules f).Lists known := by
  rw [Roster.Lists, nextId_updateAll]
  exact h

/-- The status of a rule after an update of several. -/
theorem status_updateAll (h : roster.Lists known) {rules : List Rule}
    (hrules : ∀ r ∈ rules, r ∈ known) (hnodup : rules.Nodup) (f : RuleStatus → RuleStatus)
    {r : Rule} (hr : r ∈ known) :
    (roster.updateAll rules f).status r.id =
      if r ∈ rules then f (roster.status r.id) else roster.status r.id := by
  split
  · rename_i hmem
    refine status_updateAll_of_mem roster ?_ hmem (h.id_lt hr)
    exact hnodup.map_on fun x hx y hy hid => h.eq_of_id (hrules x hx) (hrules y hy) hid
  · rename_i hnot
    refine status_updateAll_of_not_mem roster fun x hx hid => hnot ?_
    exact h.eq_of_id (hrules x hx) hr hid ▸ hx

end Roster.Lists

/-! ## Coherence -/

namespace Firewall

/-- May the rule have entries in the state table? It must be in the chain, create state, and be in
an enabled set. -/
structure Live (fw : Firewall) (r : Rule) : Prop where
  installed : r ∈ fw.chain.rules
  creates : r.createsState = true
  enabled : fw.disabled.has (fw.setOf r) = false

/-- **The parts of a firewall agree.** -/
structure Coherent (known : List Rule) (fw : Firewall) : Prop where
  lists : fw.engine.roster.Lists known
  members : ∀ r ∈ fw.chain.rules, r ∈ known
  nodup : fw.chain.rules.Nodup
  /-- The rule that ends the chain creates no state. -/
  stateless : ∀ r ∈ known, r.isDefault = true → r.createsState = false
  sound : ∃ config, fw.engine.states.Sound config
  entries : ∀ e ∈ fw.engine.states.entries, fw.Live e.rule
  enabled : ∀ r ∈ fw.chain.rules, r.createsState = true →
    (fw.status r).stateEnabled = !fw.disabled.has (fw.setOf r)
  invalid : ∀ r ∈ known, (fw.status r).invalid = true ↔ r ∉ fw.chain.rules
  barred : ∀ r ∈ known, r ∉ fw.chain.rules → (fw.status r).stateEnabled = false

/-- Which requests for state the table may have to deal with: those of rules in the chain that are
not barred from creating state, if `grants` allows them. -/
def Grants (grants : Rule → StateRequest → Prop) (fw : Firewall) (rule : Rule)
    (request : StateRequest) : Prop :=
  rule ∈ fw.chain.rules ∧ grants rule request ∧ (fw.status rule).stateEnabled = true

variable {known : List Rule} {fw fw' : Firewall}

/-- A rule of the chain that may create state is in an enabled set. -/
theorem Coherent.live (h : Coherent known fw) {r : Rule} (hr : r ∈ fw.chain.rules)
    (hcreates : r.createsState = true) (henabled : (fw.status r).stateEnabled = true) :
    fw.Live r := by
  refine ⟨hr, hcreates, ?_⟩
  have := h.enabled r hr hcreates
  rw [henabled] at this
  simpa using this.symm

/-- No two rules of the chain have one id. -/
theorem Coherent.ids (h : Coherent known fw) : (fw.chain.rules.map Rule.id).Nodup :=
  h.nodup.map_on fun x hx y hy => h.lists.eq_of_id (h.members x hx) (h.members y hy)

theorem standing_eq {r r' : RuleStatus} (h : r'.standing = r.standing) :
    r'.set = r.set ∧ r'.stateEnabled = r.stateEnabled ∧ r'.invalid = r.invalid := by
  simpa [RuleStatus.standing] using h

variable {grants : Rule → StateRequest → Prop}

/-- What changes no standing, and creates state only as it may, keeps the agreement. -/
theorem Coherent.of_standing (h : Coherent known fw)
    (hgrants : ∀ rule request, grants rule request → rule.createsState = true)
    (hchain : fw'.chain = fw.chain) (hdisabled : fw'.disabled = fw.disabled)
    (hroster : Roster.SameStanding fw.engine.roster fw'.engine.roster)
    (hstates : StateTable.Steps (fw.Grants grants) fw.engine.states fw'.engine.states) :
    Coherent known fw' := by
  have hsame : ∀ r, (fw'.status r).set = (fw.status r).set ∧
      (fw'.status r).stateEnabled = (fw.status r).stateEnabled ∧
      (fw'.status r).invalid = (fw.status r).invalid :=
    fun r => standing_eq (hroster.standing r.id)
  have hset : ∀ r, fw'.setOf r = fw.setOf r := fun r => (hsame r).1
  obtain ⟨config, hsound⟩ := h.sound
  refine ⟨?_, hchain ▸ h.members, hchain ▸ h.nodup, h.stateless, ⟨config, hstates.sound hsound⟩,
    fun e he => ?_, fun r hr hcreates => ?_, fun r hr => ?_, fun r hr hout => ?_⟩
  · rw [Roster.Lists, hroster.nextId]
    exact h.lists
  · have hlive := hstates.forall hsound (Entry.kept_rule fw.Live) (fun rule request hgrant =>
      Entry.admitted_rule (h.live hgrant.1 (hgrants rule request hgrant.2.1) hgrant.2.2) request)
      h.entries e he
    exact ⟨hchain ▸ hlive.installed, hlive.creates, by rw [hdisabled, hset]; exact hlive.enabled⟩
  · rw [(hsame r).2.1, hdisabled, hset]
    exact h.enabled r (hchain ▸ hr) hcreates
  · rw [(hsame r).2.2, hchain]
    exact h.invalid r hr
  · rw [(hsame r).2.1]
    exact h.barred r hr (hchain ▸ hout)

/-- What an operation leads to: the parts agree again, and the state table was changed only by
operations of its own that create state as they may. -/
structure Follows (grants : Rule → StateRequest → Prop) (known : List Rule)
    (fw fw' : Firewall) : Prop where
  coherent : Coherent known fw'
  states : StateTable.Steps (fw.Grants grants) fw.engine.states fw'.engine.states

/-- What rules ask for themselves is granted, and nothing is granted to rules that ask for none. -/
structure Fair (grants : Rule → StateRequest → Prop) : Prop where
  own : ∀ rule request, request ∈ rule.requests → grants rule request
  creates : ∀ rule request, grants rule request → rule.createsState = true

/-- What leaves the standing of all rules as it is. -/
theorem Coherent.follows (h : Coherent known fw) (hfair : Fair grants)
    (hchain : fw'.chain = fw.chain) (hdisabled : fw'.disabled = fw.disabled)
    (hroster : Roster.SameStanding fw.engine.roster fw'.engine.roster)
    (hstates : StateTable.Steps (fw.Grants grants) fw.engine.states fw'.engine.states) :
    Follows grants known fw fw' :=
  ⟨h.of_standing hfair.creates hchain hdisabled hroster hstates, hstates⟩

/-- Writing a message changes nothing else. -/
theorem Follows.write (h : Follows grants known fw fw') (event : AdminEvent) :
    Follows grants known fw (fw'.write event) := by
  obtain ⟨⟨h₁, h₂, h₃, h₄, h₅, h₆, h₇, h₈, h₉⟩, hstates⟩ := h
  exact ⟨⟨h₁, h₂, h₃, h₄, h₅, fun e he => ⟨(h₆ e he).1, (h₆ e he).2, (h₆ e he).3⟩, h₇, h₈, h₉⟩,
    hstates⟩

/-! ## Packets and timers -/

/-- What the state table holds was created by rules in service. -/
theorem Coherent.within (h : Coherent known fw) :
    fw.engine.Within (fw.surroundings.InService fw.engine) :=
  ⟨h.sound, fun e he =>
    ⟨⟨(h.entries e he).installed, (h.entries e he).enabled⟩, (h.entries e he).creates⟩⟩

/-- A packet is dealt with by effects of the rules in service. -/
theorem Coherent.check_effects (h : Coherent known fw) (pkt : Packet) (resume : Option Rule) :
    ∃ e, Effects fw.surroundings pkt (fw.surroundings.InService fw.engine) fw.engine e ∧
      (fw.check pkt resume).2.engine.roster = e.roster ∧
      (fw.check pkt resume).2.engine.states = e.states := by
  obtain ⟨e, heffects, heq⟩ := evaluate_effects fw.surroundings pkt resume h.within
  refine ⟨e, heffects, ?_⟩
  show (evaluate fw.surroundings pkt resume fw.engine).2.roster = e.roster ∧
    (evaluate fw.surroundings pkt resume fw.engine).2.states = e.states
  rcases heq with heq | heq <;> rw [heq] <;> exact ⟨rfl, rfl⟩

/-- A packet changes the standing of no rule. -/
theorem Coherent.check_standing (h : Coherent known fw) (pkt : Packet) (resume : Option Rule) :
    Roster.SameStanding fw.engine.roster (fw.check pkt resume).2.engine.roster := by
  obtain ⟨e, heffects, hroster, -⟩ := h.check_effects pkt resume
  rw [hroster]
  exact Effects.standing heffects

/-- What a packet does to the state table. -/
theorem Coherent.check_states (h : Coherent known fw)
    (hown : ∀ rule request, request ∈ rule.requests → grants rule request) (pkt : Packet)
    (resume : Option Rule) :
    StateTable.Steps (fw.Grants grants) fw.engine.states
      (fw.check pkt resume).2.engine.states := by
  obtain ⟨e, heffects, -, hstates⟩ := h.check_effects pkt resume
  rw [hstates]
  exact (Effects.states heffects).mono fun rule request hgrant =>
    ⟨hgrant.1.1, hown rule request hgrant.2.1, hgrant.2.2⟩

/-- Handing a packet out is a request and nothing else. -/
theorem process_eq_check (fw : Firewall) (pkt : Packet) (resume : Option Rule) :
    ∃ requests, (fw.process pkt resume).2 = { (fw.check pkt resume).2 with
      engine := { (fw.check pkt resume).2.engine with requests } } := by
  unfold process
  simp only
  split
  · exact ⟨_, rfl⟩
  · exact ⟨_, rfl⟩

theorem tick_states (fw : Firewall) :
    StateTable.Steps (fw.Grants grants) fw.engine.states fw.tick.2.engine.states :=
  (StateTable.Steps.single _ (.sweep fw.now) fun _ _ _ _ h => by cases h).trans
    (StateTable.Steps.single _ (.probe fw.now) fun _ _ _ _ h => by cases h)

/-- A request for state on behalf of a rule that there is or was: a removed rule is barred. -/
theorem Coherent.install_states (h : Coherent known fw) {rule : Rule} (hrule : rule ∈ known)
    {request : StateRequest} (hgrants : grants rule request) (pkt : Packet) (now : Moment) :
    StateTable.Steps (fw.Grants grants) fw.engine.states
      (fw.install rule request pkt now).engine.states := by
  refine Relation.ReflTransGen.single (StateTable.Step.apply fw.engine.states
    (.install (fw.status rule).stateEnabled rule request pkt now) ?_)
  intro rule' request' pkt' now' heq
  simp only [TableOp.install.injEq] at heq
  obtain ⟨henabled, rfl, rfl, -, -⟩ := heq
  refine ⟨Classical.byContradiction fun hout => ?_, hgrants, henabled⟩
  rw [h.barred rule hrule hout] at henabled
  cases henabled

theorem Coherent.check (h : Coherent known fw) (hfair : Fair grants) (pkt : Packet)
    (resume : Option Rule) : Follows grants known fw (fw.check pkt resume).2 :=
  h.follows hfair rfl rfl (h.check_standing pkt resume) (h.check_states hfair.own pkt resume)

theorem Coherent.process (h : Coherent known fw) (hfair : Fair grants) (pkt : Packet)
    (resume : Option Rule) : Follows grants known fw (fw.process pkt resume).2 := by
  obtain ⟨requests, hprocess⟩ := fw.process_eq_check pkt resume
  have hstanding := h.check_standing pkt resume
  rw [hprocess]
  exact h.follows hfair rfl rfl hstanding (h.check_states hfair.own pkt resume)

theorem Coherent.tick (h : Coherent known fw) (hfair : Fair grants) :
    Follows grants known fw fw.tick.2 :=
  h.follows hfair rfl rfl (Roster.SameStanding.refl _) fw.tick_states

theorem Coherent.install (h : Coherent known fw) (hfair : Fair grants) {rule : Rule}
    (hrule : rule ∈ known) {request : StateRequest} (hgrants : grants rule request) (pkt : Packet)
    (now : Moment) : Follows grants known fw (fw.install rule request pkt now) :=
  h.follows hfair rfl rfl (Roster.SameStanding.refl _) (h.install_states hrule hgrants pkt now)

/-! ## Adding rules -/

/-- An image that is accepted makes a rule of the next number, which is not the default rule. -/
theorem ofImage_spec {id : Nat} {image : RuleImage} {verboseLimit : UInt32} {rule : Rule}
    (h : Rule.ofImage id image verboseLimit = .ok rule) :
    rule.id = id ∧ rule.number = image.number ∧ rule.isDefault = false := by
  obtain ⟨hnumber, -, decoded, k, -, -, -, rfl⟩ := Rule.ofImage_eq_ok h
  exact ⟨rfl, rfl, by simpa [Rule.isDefault] using hnumber⟩

/-- A rule that is added comes into the chain and onto the roster, valid, and barred from creating
state exactly if its set is disabled. -/
theorem addImage_spec {image : RuleImage} {rule : Rule} (h : fw.addImage image = .ok (rule, fw')) :
    rule.id = fw.engine.roster.nextId ∧ rule.isDefault = false ∧
      ∃ status : RuleStatus, status.invalid = false ∧
        status.stateEnabled = (!fw.disabled.has status.set) ∧
        fw' = ({ fw with
          chain := (fw.chain.insert rule).2
          engine := { fw.engine with roster := fw.engine.roster.add status } } : Firewall).write
            (.ruleAdded rule) := by
  unfold Firewall.addImage at h
  generalize (if image.number = 0 then { image with number := fw.nextNumber } else image) = image
    at h
  simp only at h
  split at h
  · cases h
  · rename_i himage
    simp only [Except.ok.injEq, Prod.mk.injEq] at h
    obtain ⟨rfl, rfl⟩ := h
    obtain ⟨hid, -, hdefault⟩ := ofImage_spec himage
    refine ⟨hid, hdefault, _, ?_, ?_, rfl⟩
    · split <;> rfl
    · cases hdisabled : fw.disabled.has image.set with
      | true => exact (congrArg not hdisabled).symm
      | false => exact (congrArg not hdisabled).symm

/-- **Adding a rule.** In a disabled set it is barred from the start. -/
theorem Coherent.addImage (h : Coherent known fw) {image : RuleImage} {rule : Rule}
    (hadd : fw.addImage image = .ok (rule, fw')) : Coherent (known ++ [rule]) fw' := by
  obtain ⟨hid, hdefault, status, hvalid, henabled, rfl⟩ := addImage_spec hadd
  have hnew : rule ∉ known := fun hmem => by
    have := h.lists.id_lt hmem
    omega
  have hperm := fw.chain.perm_insert rule
  have hmem : ∀ r, r ∈ (fw.chain.insert rule).2.rules ↔ r = rule ∨ r ∈ fw.chain.rules :=
    fun r => hperm.mem_iff.trans List.mem_cons
  have hself : (fw.engine.roster.add status).status rule.id = status := by
    rw [hid]
    exact Roster.status_add_self _ _
  have hold : ∀ r ∈ known, (fw.engine.roster.add status).status r.id = fw.status r :=
    fun r hr => Roster.status_add_of_lt (h.lists.id_lt hr) status
  refine ⟨?_, fun r hr => ?_, ?_, fun r hr hisDefault => ?_, h.sound, fun e he => ?_,
    fun r hr hcreates => ?_, fun r hr => ?_, fun r hr hout => ?_⟩
  · show (known ++ [rule]).map Rule.id = List.range (fw.engine.roster.add status).nextId
    rw [Roster.nextId_add, List.range_succ, List.map_append, h.lists, List.map_singleton, hid]
  · rcases (hmem r).mp hr with rfl | hr
    · exact List.mem_append_right _ List.mem_cons_self
    · exact List.mem_append_left _ (h.members r hr)
  · refine hperm.nodup_iff.mpr (List.nodup_cons.mpr ⟨fun hin => ?_, h.nodup⟩)
    exact hnew (h.members _ hin)
  · rcases List.mem_append.mp hr with hr | hr
    · exact h.stateless r hr hisDefault
    · rw [List.mem_singleton.mp hr, hdefault] at hisDefault
      cases hisDefault
  · have hlive := h.entries e he
    refine ⟨(hmem _).mpr (Or.inr hlive.installed), hlive.creates, ?_⟩
    show fw.disabled.has ((fw.engine.roster.add status).status e.rule.id).set = false
    rw [hold _ (h.members _ hlive.installed)]
    exact hlive.enabled
  · show ((fw.engine.roster.add status).status r.id).stateEnabled =
      !fw.disabled.has ((fw.engine.roster.add status).status r.id).set
    rcases (hmem r).mp hr with rfl | hr
    · rw [hself]
      exact henabled
    · rw [hold r (h.members r hr)]
      exact h.enabled r hr hcreates
  · show ((fw.engine.roster.add status).status r.id).invalid = true ↔
      r ∉ (fw.chain.insert rule).2.rules
    rw [hmem]
    rcases List.mem_append.mp hr with hr | hr
    · have hne : r ≠ rule := fun heq => hnew (heq ▸ hr)
      rw [hold r hr, h.invalid r hr]
      simp only [hne, false_or]
    · obtain rfl := List.mem_singleton.mp hr
      rw [hself, hvalid]
      simp
  · show ((fw.engine.roster.add status).status r.id).stateEnabled = false
    rcases List.mem_append.mp hr with hr | hr
    · rw [hold r hr]
      exact h.barred r hr fun hin => hout ((hmem r).mpr (Or.inr hin))
    · exact absurd ((hmem r).mpr (Or.inl (List.mem_singleton.mp hr))) hout

/-- A rule that is added has no entries. -/
theorem Coherent.addImage_follows (h : Coherent known fw) {image : RuleImage} {rule : Rule}
    (hadd : fw.addImage image = .ok (rule, fw')) : Follows grants (known ++ [rule]) fw fw' := by
  refine ⟨h.addImage hadd, ?_⟩
  obtain ⟨-, -, status, -, -, rfl⟩ := addImage_spec hadd
  exact Relation.ReflTransGen.refl

theorem Coherent.addBytes_follows (h : Coherent known fw) {bytes : List UInt8} {rule : Rule}
    (hadd : fw.addBytes bytes = .ok (rule, fw')) : Follows grants (known ++ [rule]) fw fw' := by
  unfold Firewall.addBytes at hadd
  split at hadd
  · cases hadd
  · exact h.addImage_follows hadd

/-! ## Counters and state -/

theorem zeroRules_standing (fw : Firewall) (rules : List Rule) (logOnly : Bool) :
    Roster.SameStanding fw.engine.roster (fw.zeroRules rules logOnly).engine.roster := by
  show Roster.SameStanding fw.engine.roster (rules.foldl (fun roster r =>
    roster.update r.id (·.zero r.logBudget logOnly)) fw.engine.roster)
  generalize fw.engine.roster = roster
  induction rules generalizing roster with
  | nil => exact Roster.SameStanding.refl _
  | cons r rules ih =>
    refine (Roster.SameStanding.update roster r.id ?_).trans (ih _)
    unfold RuleStatus.zero
    split <;> rfl

theorem Coherent.zeroCounters (h : Coherent known fw) (hfair : Fair grants)
    {number : Option UInt16} {logOnly : Bool}
    (hzero : fw.zeroCounters number logOnly = .ok fw') : Follows grants known fw fw' := by
  unfold Firewall.zeroCounters at hzero
  split at hzero
  · have hstanding := fw.zeroRules_standing fw.chain.rules logOnly
    simp only at hzero
    split at hzero
    · cases hzero
      exact h.follows hfair rfl rfl hstanding Relation.ReflTransGen.refl
    · cases hzero
      exact h.follows hfair rfl rfl hstanding Relation.ReflTransGen.refl
  · simp only at hzero
    split at hzero
    · cases hzero
    · cases hzero
      exact h.follows hfair rfl rfl (fw.zeroRules_standing _ logOnly) Relation.ReflTransGen.refl

theorem Coherent.flushStates (h : Coherent known fw) (hfair : Fair grants) :
    Follows grants known fw fw.flushStates.2 :=
  h.follows hfair rfl rfl (Roster.SameStanding.refl _)
    (StateTable.Steps.single _ (.flushAll fw.now) fun _ _ _ _ h => by cases h)

theorem Coherent.setBuckets (h : Coherent known fw) (hfair : Fair grants) {n : UInt32}
    (hset : fw.setBuckets n = .ok fw') : Follows grants known fw fw' := by
  unfold Firewall.setBuckets at hset
  split at hset
  · cases hset
  · rename_i states hstates
    cases hset
    have happly : (fw.engine.states.apply (.setBuckets n.toNat)).2 = states := by
      simp only [StateTable.apply, hstates]
    refine h.follows hfair rfl rfl (Roster.SameStanding.refl _) ?_
    rw [← happly]
    exact StateTable.Steps.single _ _ fun _ _ _ _ h => by cases h

/-! ## New firewalls -/

theorem entries_new {name : String} {config : Config} {now : Moment} {draw : Nat → UInt32}
    (hnew : Firewall.new name config now draw = .ok fw) : fw.engine.states.entries = [] := by
  unfold Firewall.new at hnew
  split at hnew
  · cases hnew
  · cases hnew
    exact StateTable.entries_new config.stateConfig (draw 0)

/-- A new firewall. -/
theorem coherent_new {name : String} {config : Config} {now : Moment} {draw : Nat → UInt32}
    (hnew : Firewall.new name config now draw = .ok fw) :
    Coherent [.terminal 0 config.acceptByDefault] fw := by
  have hempty := entries_new hnew
  unfold Firewall.new at hnew
  split at hnew
  · cases hnew
  · rename_i hcheck
    cases hnew
    have hsound := StateTable.Sound.new config.stateConfig (draw 0)
      (config.validBuckets_of_check hcheck)
    have hdefault := Rule.createsState_terminal 0 config.acceptByDefault
    refine ⟨rfl, fun r hr => hr, List.nodup_singleton _, fun r hr _ => ?_, ⟨_, hsound⟩,
      fun e he => ?_, fun r hr hcreates => ?_, fun r hr => ?_, fun r hr hout => absurd hr hout⟩
    · rw [List.mem_singleton.mp hr, hdefault]
    · rw [hempty] at he
      exact absurd he List.not_mem_nil
    · rw [List.mem_singleton.mp hr, hdefault] at hcreates
      cases hcreates
    · refine ⟨fun hinvalid => ?_, fun hout => absurd hr hout⟩
      rw [List.mem_singleton.mp hr] at hinvalid
      cases hinvalid

end Firewall

end PacketFilter
