import PacketFilter.Proofs.Jumps
import PacketFilter.Proofs.Order

/-!
# The chain over whole sessions

Whatever is done to a firewall, its chain is a sequence of rules in ascending order that the default
rule ends. What administration can do to it is little: add one rule in its place, or remove some.
All else, refused requests and changes of sets among it, leaves the chain as it is, so that a
generation tells whether anything that was looked up in the chain still holds.

Main statements: `settles_step`, what any operation does to chain, settings and sets;
`Reachable.numbered`, rules have numbers and sets that users may give; `Reachable.settings`, the
settings pass their check; **`Remembers.valid`**, no jump that is remembered has gone stale;
**`chain_of_reachable`**, what holds of the chain in every session.
-/

namespace PacketFilter

/-! ## Sets of users -/

/-- A number that no rule has yet. -/
theorem Roster.status_of_le {roster : Roster} {id : Nat} (h : roster.nextId ≤ id) :
    roster.status id = default := by
  have hnone : roster.statuses[id]? = none := Array.getElem?_eq_none h
  rw [status, Array.getD_eq_getD_getElem?, hnone, Option.getD_none]

/-- Is every rule but the first of the roster in a set that users may put rules into? -/
def Roster.UserSets (roster : Roster) : Prop :=
  ∀ id, id ≠ 0 → (roster.status id).set ≤ maxUserSet

namespace Roster.UserSets

variable {roster roster' : Roster}

/-- Updates that put rules into such sets only. -/
theorem updateAll (h : roster.UserSets) {f : RuleStatus → RuleStatus}
    (hf : ∀ s, s.set ≤ maxUserSet → (f s).set ≤ maxUserSet) (rules : List Rule) :
    (roster.updateAll rules f).UserSets := by
  induction rules generalizing roster with
  | nil => exact h
  | cons r rules ih =>
    refine ih fun id hid => ?_
    rcases roster.status_update r.id id f with hsame | ⟨-, hnew⟩
    · rw [hsame]
      exact h id hid
    · rw [hnew]
      exact hf _ (h id hid)

theorem of_standing (h : roster.UserSets) (hsame : roster.SameStanding roster') :
    roster'.UserSets := by
  intro id hid
  have hset : (roster'.status id).set = (roster.status id).set :=
    congrArg Prod.fst (hsame.standing id)
  rw [hset]
  exact h id hid

theorem add (h : roster.UserSets) {s : RuleStatus} (hs : s.set ≤ maxUserSet) :
    (roster.add s).UserSets := by
  intro id hid
  rcases Nat.lt_trichotomy id roster.nextId with hlt | rfl | hgt
  · rw [status_add_of_lt hlt]
    exact h id hid
  · rw [status_add_self]
    exact hs
  · rw [status_of_le (by rw [nextId_add]; omega)]
    decide

/-- The roster of a single rule. -/
theorem single (s : RuleStatus) : (({} : Roster).add s).UserSets := by
  intro id hid
  rw [status_of_le (by rw [nextId_add]; exact Nat.pos_of_ne_zero hid)]
  decide

end Roster.UserSets

/-! ## What operations do to the chain -/

namespace Firewall

variable {fw fw' fw'' : Firewall} {last : Rule}

/-- **What an operation does to the chain** and to what decides about numbers and sets: the chain
stays or changes its membership, the settings stay, and rules stay in sets of users. -/
structure Settles (fw fw' : Firewall) : Prop where
  chain : fw.chain.Evolves fw'.chain
  config : fw'.config = fw.config
  sets : fw.engine.roster.UserSets → fw'.engine.roster.UserSets

namespace Settles

/-- What leaves the chain and the standing of all rules as they are. -/
theorem of_standing (hchain : fw'.chain = fw.chain) (hconfig : fw'.config = fw.config)
    (hroster : Roster.SameStanding fw.engine.roster fw'.engine.roster) : Settles fw fw' :=
  ⟨.inl hchain, hconfig, fun h => h.of_standing hroster⟩

theorem refl (fw : Firewall) : Settles fw fw := .of_standing rfl rfl (.refl _)

theorem write (h : Settles fw fw') (event : AdminEvent) : Settles fw (fw'.write event) :=
  ⟨h.chain, h.config, h.sets⟩

/-- What comes after something that leaves the chain as it is. -/
theorem after (h' : Settles fw' fw'') (h : Settles fw fw') (hchain : fw'.chain = fw.chain) :
    Settles fw fw'' :=
  ⟨hchain ▸ h'.chain, h'.config.trans h.config, fun hsets => h'.sets (h.sets hsets)⟩

end Settles

theorem updateRules_settles (fw : Firewall) (rules : List Rule) {f : RuleStatus → RuleStatus}
    (hf : ∀ s, (f s).set = s.set) : Settles fw (fw.updateRules rules f) :=
  ⟨.inl rfl, rfl, fun h => h.updateAll (fun s hs => (hf s).symm ▸ hs) rules⟩

theorem flushStatesOf_settles (fw : Firewall) (rules : List Rule) :
    Settles fw (fw.flushStatesOf rules) := by
  unfold flushStatesOf
  simp only
  split
  · exact .of_standing rfl rfl (.refl _)
  · exact .of_standing rfl rfl (.refl _)

theorem quiesce_settles (fw : Firewall) (rules : List Rule) : Settles fw (fw.quiesce rules) := by
  unfold quiesce
  simp only
  split
  · exact .refl fw
  · have hbarred := fw.updateRules_settles (rules.filter Rule.createsState)
      (f := RuleStatus.disableState) fun _ => rfl
    exact (flushStatesOf_settles _ _).after hbarred rfl

/-- Removing rules. -/
theorem Removes.settles (h : fw.Removes fw') : Settles fw fw' := by
  have hremove : ∀ p, Settles fw (fw.remove p) := by
    intro p
    have hevolves := Chain.Evolves.removeWhere fw.chain p
    have hquiesced := fw.quiesce_settles (fw.chain.removeWhere p).1
    unfold remove withdraw
    split
    · exact .refl fw
    · generalize fw.quiesce (fw.chain.removeWhere p).1 = fw₁ at hquiesced
      refine ⟨hevolves, hquiesced.config, fun hsets => ?_⟩
      exact (hquiesced.sets hsets).updateAll (f := RuleStatus.markInvalid) (fun _ hs => hs) _
  cases h with
  | silently p => exact hremove p
  | noted p event => exact (hremove p).write event

/-- Changing sets. -/
theorem retarget_settles (fw : Firewall) {mask : SetMask} {target : Rule → UInt8}
    {change : Firewall → Firewall} (hchange : ∀ fw₁, Settles fw₁ (change fw₁))
    (hchain : ∀ fw₁, (change fw₁).chain = fw₁.chain) :
    Settles fw (fw.retarget mask target change) := by
  unfold retarget
  simp only
  generalize (fw.chain.select fun r => r.createsState && !(fw.status r).invalid).filter
    (fun r => mask.has (target r)) = disabled
  have hquiesced := fw.quiesce_settles disabled
  have hsame := (fw.quiesce_eq disabled).1
  have hchanged := (hchange (fw.quiesce disabled)).after hquiesced hsame
  have hchain' := (hchain (fw.quiesce disabled)).trans hsame
  generalize change (fw.quiesce disabled) = fw₂ at hchanged hchain'
  refine Settles.after ?_ hchanged hchain'
  exact updateRules_settles fw₂ _ (f := RuleStatus.enableState) fun _ => rfl

/-- Changing sets leaves the chain as it is. -/
theorem Resets.settles (h : fw.Resets fw') : Settles fw fw' ∧ fw'.chain = fw.chain := by
  have hchain : ∀ {mask target} {change : Firewall → Firewall},
      (∀ fw₁, (change fw₁).chain = fw₁.chain) →
        (fw.retarget mask target change).chain = fw.chain :=
    fun hsame => (hsame _).trans (fw.quiesce_eq _).1
  cases h with
  | moves target p move hmove =>
    refine ⟨fw.retarget_settles (fun fw₁ => ?_) fun _ => rfl, hchain fun _ => rfl⟩
    exact ⟨.inl rfl, rfl, fun hsets => hsets.updateAll (fun _ hs => hmove _ hs) _⟩
  | disables mask =>
    refine ⟨fw.retarget_settles (fun fw₁ => ?_) fun _ => rfl, hchain fun _ => rfl⟩
    exact .of_standing rfl rfl (.refl _)

theorem zeroCounters_settles {number : Option UInt16} {logOnly : Bool}
    (hzero : fw.zeroCounters number logOnly = .ok fw') : Settles fw fw' := by
  obtain ⟨rules, rfl | ⟨undecided, event, rfl⟩⟩ := zeroCounters_cases hzero
  · exact .of_standing rfl rfl (fw.zeroRules_standing rules logOnly)
  · exact .of_standing rfl rfl (fw.zeroRules_standing rules logOnly)

theorem setBuckets_settles {n : UInt32} (hset : fw.setBuckets n = .ok fw') : Settles fw fw' := by
  rw [setBuckets_eq_ok hset]
  exact .of_standing rfl rfl (.refl _)

/-! ## Numbers -/

/-- A step that a configuration may have. -/
def FitStep (step : UInt16) : Prop := step ≠ 0 ∧ step ≤ Config.maxAutoincStep

/-- The next number is not zero, and no number in use is higher. -/
theorem nextNumber_spec (fw : Firewall) (hstep : FitStep fw.config.autoincStep) :
    fw.nextNumber ≠ 0 ∧ fw.chain.lastNumber?.getD 0 ≤ fw.nextNumber := by
  obtain ⟨hpos, hle⟩ := hstep
  unfold nextNumber
  generalize fw.config.autoincStep = step at hpos hle
  generalize fw.chain.lastNumber?.getD 0 = highest
  have hpos : step.toNat ≠ 0 := fun hzero => hpos (UInt16.toNat_inj.mp hzero)
  have hle : step.toNat ≤ 1000 := UInt16.le_iff_toNat_le.mp hle
  have hroom : (defaultRuleNumber - step).toNat = 65535 - step.toNat :=
    UInt16.toNat_sub_of_le _ _ (le_defaultRuleNumber step)
  simp only
  split
  · rename_i hlt
    have hlt := UInt16.lt_iff_toNat_lt.mp hlt
    have hsum : (highest + step).toNat = highest.toNat + step.toNat := by
      rw [UInt16.toNat_add, Nat.mod_eq_of_lt (by omega)]
    refine ⟨fun hzero => ?_, UInt16.le_iff_toNat_le.mpr (by omega)⟩
    have hzero : (highest + step).toNat = 0 := congrArg UInt16.toNat hzero
    omega
  · rename_i hge
    refine ⟨?_, UInt16.le_refl _⟩
    rintro rfl
    have hlt : (0 : UInt16).toNat < (defaultRuleNumber - step).toNat := by
      rw [hroom]
      simp only [UInt16.toNat_zero]
      omega
    exact hge (UInt16.lt_iff_toNat_lt.mpr hlt)

/-- **A rule that is added** is put into its place in the chain, under the number that was asked for
or the next one if none was. -/
theorem addImage_settles {image : RuleImage} {rule : Rule}
    (hadd : fw.addImage image = .ok (rule, fw')) :
    rule.number = (if image.number = 0 then fw.nextNumber else image.number) ∧
      fw'.chain = (fw.chain.insert rule).2 ∧ Settles fw fw' := by
  unfold Firewall.addImage at hadd
  have hnumber : (if image.number = 0 then { image with number := fw.nextNumber } else image).number
      = if image.number = 0 then fw.nextNumber else image.number := by
    by_cases hzero : image.number = 0
    · rw [if_pos hzero, if_pos hzero]
    · rw [if_neg hzero, if_neg hzero]
  generalize (if image.number = 0 then { image with number := fw.nextNumber } else image) = numbered
    at hadd hnumber
  simp only at hadd
  split at hadd
  · cases hadd
  · rename_i himage
    cases hadd
    have hset : numbered.set ≤ maxUserSet := (Rule.ofImage_eq_ok himage).2.1
    refine ⟨(ofImage_spec himage).2.1.trans hnumber, rfl, Settles.write ?_ _⟩
    refine ⟨.insert fw.chain rule, rfl, fun hsets => hsets.add ?_⟩
    split <;> exact hset

/-- **A rule that is added without a number** is put right before the last. -/
theorem addImage_unnumbered (h : fw.chain.InOrder last) (hstep : FitStep fw.config.autoincStep)
    {image : RuleImage} (hnumber : image.number = 0) {rule : Rule}
    (hadd : fw.addImage image = .ok (rule, fw')) :
    ∃ front, fw'.chain.rules = front ++ [rule, last] := by
  obtain ⟨hnext, hchain, -⟩ := addImage_settles hadd
  rw [if_pos hnumber] at hnext
  have hhighest : ∀ x ∈ fw.chain.rules, x.isDefault = false → x.number ≤ rule.number := by
    intro x hx hdefault
    obtain ⟨n, hn, hle⟩ := h.number_le_lastNumber? hx hdefault
    have hle' := (nextNumber_spec fw hstep).2
    rw [hn, Option.getD_some] at hle'
    rw [hnext]
    exact UInt16.le_trans hle hle'
  obtain ⟨front, -, hinsert⟩ := h.insert_highest (addImage_checked hadd).2 hhighest
  exact ⟨front, by rw [hchain, hinsert]⟩

/-- The last rule does not skip. -/
theorem Orderly.lt_of_skipTo {accepted : List Rule} (h : Orderly last accepted fw) {i : Nat}
    {r : Rule} {target : UInt16} (hget : fw.chain.get? i = some r)
    (hskip : r.action = .skipTo target) : i + 1 < fw.chain.length := by
  refine h.order.succ_lt hget (Bool.eq_false_iff.mpr fun hdefault => ?_)
  have hr : r = last := h.order.eq_last (List.mem_of_getElem? hget) hdefault
  obtain ⟨accepts, hlast⟩ := h.terminal
  rw [hr, hlast] at hskip
  cases accepts <;> cases hskip

/-- A new firewall has a step that its configuration may have. -/
theorem fitStep_new {name : String} {config : Config} {now : Moment} {draw : Nat → UInt32}
    (hnew : Firewall.new name config now draw = .ok fw) : FitStep fw.config.autoincStep := by
  unfold Firewall.new at hnew
  split at hnew
  · cases hnew
  · rename_i hcheck
    cases hnew
    have hacceptable := config.check_eq_ok_iff.mp hcheck
    exact ⟨hacceptable.step_ne, hacceptable.step_le⟩

end Firewall

/-! ## Sessions -/

/-- Does the operation change sets and nothing else? -/
def Operation.changesSets : Operation → Bool
  | .change (.moveRule _ _) | .change (.moveSet _ _) | .change (.swapSets _ _)
  | .setEnable _ _ => true
  | _ => false

/-- The image that an operation asks to add, if its bytes are one. -/
def Operation.image? : Operation → Option RuleImage
  | .add image => some image
  | .addBytes bytes => (Wire.ruleImage.decode bytes).toOption
  | _ => none

namespace Session

open Firewall

variable {grants : Rule → StateRequest → Prop} {s : Session} {last : Rule}

/-- **What any operation does** to chain, settings and sets. -/
theorem settles_step (hc : Firewall.Coherent (last :: s.accepted) s.firewall) (op : Operation) :
    Settles s.firewall (s.step op).firewall := by
  have hproceed : ∀ result : Except ControlError Firewall,
      (∀ fw', result = .ok fw' → Settles s.firewall fw') →
        Settles s.firewall (s.proceed result).firewall := by
    intro result hresult
    cases result with
    | error e => exact .refl _
    | ok fw' => exact hresult fw' rfl
  have haccept : ∀ result : Except ControlError (Rule × Firewall),
      (∀ rule fw', result = .ok (rule, fw') →
        ∃ image, s.firewall.addImage image = .ok (rule, fw')) →
        Settles s.firewall (s.accept result).firewall := by
    intro result hresult
    cases result with
    | error e => exact .refl _
    | ok added =>
      obtain ⟨image, hadd⟩ := hresult added.1 added.2 rfl
      exact (addImage_settles hadd).2.2
  cases op with
  | check pkt resume => exact .of_standing rfl rfl (hc.check_standing pkt resume)
  | process pkt resume =>
    have hstanding := hc.check_standing pkt resume
    obtain ⟨requests, hprocess⟩ := s.firewall.process_eq_check pkt resume
    show Settles s.firewall (s.firewall.process pkt resume).2
    rw [hprocess]
    exact .of_standing rfl rfl hstanding
  | add image => exact haccept _ fun _ _ hadd => ⟨image, hadd⟩
  | addBytes bytes => exact haccept _ fun _ _ hadd => addBytes_eq_ok hadd
  | change request =>
    refine hproceed _ fun fw' hrequest => ?_
    rcases handle_cases hrequest with hremoves | hresets
    · exact hremoves.settles
    · exact hresets.settles.1
  | flush => exact (flush_removes _).settles
  | setEnable disable enable => exact hproceed _ fun _ hset => (setEnable_resets hset).settles.1
  | zeroCounters number logOnly => exact hproceed _ fun _ hzero => zeroCounters_settles hzero
  | setBuckets n => exact hproceed _ fun _ hset => setBuckets_settles hset
  | _ => exact .of_standing rfl rfl (.refl _)

/-- **Rules have numbers and sets that users may give.** -/
structure Numbered (s : Session) : Prop where
  step : FitStep s.firewall.config.autoincStep
  numbers : ∀ r ∈ s.accepted, r.number ≠ 0
  sets : s.firewall.engine.roster.UserSets

theorem Numbered.next (h : s.Numbered)
    (hc : Firewall.Coherent (last :: s.accepted) s.firewall) (op : Operation) :
    (s.step op).Numbered := by
  have hsettles := settles_step hc op
  refine ⟨?_, fun r hr => ?_, hsettles.sets h.sets⟩
  · rw [hsettles.config]
    exact h.step
  · rcases accepted_step op hr with hr | ⟨image, fw', hadd⟩
    · exact h.numbers r hr
    · rw [(addImage_settles hadd).1]
      split
      · exact (nextNumber_spec _ h.step).1
      · rename_i hnumber
        exact hnumber

theorem Reachable.numbered (hfair : Fair grants) (h : Reachable grants s) : s.Numbered := by
  induction h with
  | start hnew =>
    refine ⟨fitStep_new hnew, fun r hr => absurd hr List.not_mem_nil, ?_⟩
    unfold Firewall.new at hnew
    split at hnew
    · cases hnew
    · cases hnew
      exact .single _
  | step h op hop ih =>
    obtain ⟨last, hcoherent, -⟩ := h.orderly hfair
    exact ih.next hcoherent op

/-- **In every session the settings pass their check**, and the state table is in order by them. -/
theorem Reachable.settings (hfair : Fair grants) (h : Reachable grants s) :
    s.firewall.config.check = .ok () ∧
      s.firewall.engine.states.Sound s.firewall.config.stateConfig := by
  induction h with
  | @start name config now draw fw hnew =>
    unfold Firewall.new at hnew
    split at hnew
    · cases hnew
    · rename_i hcheck
      cases hnew
      exact ⟨hcheck, .new config.stateConfig _ (config.validBuckets_of_check hcheck)⟩
  | step h op hop ih =>
    obtain ⟨last, hcoherent, -⟩ := h.orderly hfair
    rw [(settles_step hcoherent op).config]
    exact ⟨ih.1, (step_follows hfair hcoherent op hop).states.sound ih.2⟩

/-! ## Jumps that are remembered -/

/-- **The sessions in which jumps are looked up** at any time, with what is remembered of them. -/
inductive Remembers (grants : Rule → StateRequest → Prop) : Session → Chain.Memo → Prop
  | start {name : String} {config : Config} {now : Moment} {draw : Nat → UInt32} {fw : Firewall}
      (h : Firewall.new name config now draw = .ok fw) :
      Remembers grants { firewall := fw } (.fresh fw.chain)
  | ask {s : Session} {m : Chain.Memo} (h : Remembers grants s m) (i : Nat) :
      Remembers grants s (s.firewall.chain.ask m i).2
  | step {s : Session} {m : Chain.Memo} (h : Remembers grants s m) (op : Operation)
      (hop : s.Allows grants op) :
      Remembers grants (s.step op) (m.follow s.firewall.chain (s.step op).firewall.chain)

theorem Remembers.reachable {m : Chain.Memo} (h : Remembers grants s m) : Reachable grants s := by
  induction h with
  | start hnew => exact .start hnew
  | ask _ _ ih => exact ih
  | step _ op hop ih => exact ih.step op hop

/-- Jumps may be looked up in every session. -/
theorem Reachable.remembers (h : Reachable grants s) : ∃ m, Remembers grants s m := by
  induction h with
  | start hnew => exact ⟨_, .start hnew⟩
  | step _ op hop ih =>
    obtain ⟨m, hm⟩ := ih
    exact ⟨_, hm.step op hop⟩

/-- **No jump that is remembered has gone stale.** -/
theorem Remembers.valid (hfair : Fair grants) {m : Chain.Memo} (h : Remembers grants s m) :
    m.Valid s.firewall.chain := by
  induction h with
  | start hnew => exact Chain.Memo.valid_fresh _
  | ask _ i ih => exact (ih.ask i).2
  | step h op hop ih =>
    obtain ⟨last, hcoherent, -⟩ := h.reachable.orderly hfair
    exact ih.follow (settles_step hcoherent op).chain

/-! ## What holds of the chain -/

/-- Is the operation refused? -/
def Refuses (s : Session) : Operation → Prop
  | .add image => ∃ e, s.firewall.addImage image = .error e
  | .addBytes bytes => ∃ e, s.firewall.addBytes bytes = .error e
  | .change request => ∃ e, s.firewall.handle request = .error e
  | .setEnable disable enable => ∃ e, s.firewall.setEnable disable enable = .error e
  | .zeroCounters number logOnly => ∃ e, s.firewall.zeroCounters number logOnly = .error e
  | .setBuckets n => ∃ e, s.firewall.setBuckets n = .error e
  | _ => False

/-- A refused operation changes nothing. -/
theorem step_of_refuses {op : Operation} (h : s.Refuses op) : s.step op = s := by
  cases op with
  | add image | addBytes bytes =>
    obtain ⟨e, he⟩ := h
    simp only [step, he, accept]
  | change request =>
    obtain ⟨e, he⟩ := h
    simp only [step, he, proceed]
  | setEnable disable enable =>
    obtain ⟨e, he⟩ := h
    simp only [step, he, proceed]
  | zeroCounters number logOnly =>
    obtain ⟨e, he⟩ := h
    simp only [step, he, proceed]
  | setBuckets n =>
    obtain ⟨e, he⟩ := h
    simp only [step, he, proceed]
  | _ => exact h.elim

/-- A change of sets leaves the chain as it is. -/
theorem chain_of_changesSets {op : Operation} (h : op.changesSets = true) :
    (s.step op).firewall.chain = s.firewall.chain := by
  have hproceed : ∀ result : Except ControlError Firewall,
      (∀ fw', result = .ok fw' → fw'.chain = s.firewall.chain) →
        (s.proceed result).firewall.chain = s.firewall.chain := by
    intro result hresult
    cases result with
    | error e => rfl
    | ok fw' => exact hresult fw' rfl
  cases op with
  | setEnable disable enable => exact hproceed _ fun _ hset => (setEnable_resets hset).settles.2
  | change request =>
    cases request with
    | rule number => cases h
    | set set => cases h
    | moveRule number target =>
      refine hproceed _ fun _ hrequest => ?_
      obtain ⟨n, hmove⟩ := exists_of_map_snd hrequest
      exact (moveRule_resets hmove).settles.2
    | moveSet source target =>
      refine hproceed _ fun _ hrequest => ?_
      obtain ⟨n, hmove⟩ := exists_of_map_snd hrequest
      exact (moveSet_resets hmove).settles.2
    | swapSets a b => exact hproceed _ fun _ hswap => (swapSets_resets hswap).settles.2
  | _ => cases h

/-- **What holds of the chain of a session.** -/
structure ChainSound (grants : Rule → StateRequest → Prop) (s : Session) : Prop where
  /-- The default rule ends the chain, in its own set. All other rules have numbers and sets that
  users may give. -/
  ends : ∃ front last, s.firewall.chain.rules = front ++ [last] ∧
    last.number = 65535 ∧ s.firewall.setOf last = 31 ∧
    ∀ r ∈ front, 1 ≤ r.number ∧ r.number ≤ 65534 ∧ s.firewall.setOf r ≤ 30
  /-- Numbers ascend, and of rules of the same number the one that was accepted first is first. -/
  ascending : s.firewall.chain.rules.Pairwise Rule.Precedes
  seniority : s.accepted.Pairwise fun a b => a.id < b.id
  ids : (s.firewall.chain.rules.map Rule.id).Nodup
  indexOf? : ∀ i r, s.firewall.chain.get? i = some r → s.firewall.chain.indexOf? r = some i
  /-- A rule that skips goes on at the first later rule that is numbered high enough. -/
  skips : ∀ i r target, s.firewall.chain.get? i = some r → r.action = .skipTo target →
    IsLeast {j | i < j ∧ ∃ x, s.firewall.chain.get? j = some x ∧ target ≤ x.number}
      (s.firewall.chain.next i)
  /-- Any other rule goes on at the next position. -/
  advances : ∀ i r, s.firewall.chain.get? i = some r → (∀ target, r.action ≠ .skipTo target) →
    s.firewall.chain.next i = i + 1
  inside : ∀ i, i + 1 < s.firewall.chain.length →
    s.firewall.chain.next i < s.firewall.chain.length
  /-- Jumps may be looked up at any time, -/
  lookups : ∃ m, Remembers grants s m
  /-- and what has been looked up before makes no difference. -/
  remembered : ∀ m, Remembers grants s m → ∀ i,
    (s.firewall.chain.ask m i).1 = s.firewall.chain.next i
  /-- A rule that is accepted without a number is put right before the default rule. -/
  unnumbered : ∀ op image rule, op.image? = some image → image.number = 0 →
    (s.step op).accepted = s.accepted ++ [rule] →
    ∃ front last, (s.step op).firewall.chain.rules = front ++ [rule, last] ∧ last.isDefault = true
  /-- An operation that changes the membership makes a new generation, -/
  changed : ∀ op, ¬ (s.step op).firewall.chain.rules.Perm s.firewall.chain.rules →
    (s.step op).firewall.chain.generation = s.firewall.chain.generation + 1
  /-- and one that does not leaves the chain as it is, -/
  unchanged : ∀ op, (s.step op).firewall.chain.rules.Perm s.firewall.chain.rules →
    (s.step op).firewall.chain = s.firewall.chain
  /-- among them those that are refused and those that change sets. -/
  kept : ∀ op, s.Refuses op ∨ op.changesSets = true →
    (s.step op).firewall.chain = s.firewall.chain

/-- An operation that asks to add an image, whether it comes as bytes or not. -/
theorem step_of_image? {op : Operation} {image : RuleImage} (h : op.image? = some image) :
    s.step op = s.accept (s.firewall.addImage image) := by
  cases op with
  | add image' =>
    cases h
    rfl
  | addBytes bytes =>
    have h : (Wire.ruleImage.decode bytes).toOption = some image := h
    cases hdecode : Wire.ruleImage.decode bytes with
    | error e =>
      rw [hdecode] at h
      cases h
    | ok image' =>
      rw [hdecode] at h
      cases h
      simp only [step, addBytes, hdecode]
  | _ => cases h

/-- The rules of the chain but the last have numbers and sets that users may give. -/
theorem Numbered.rule (h : s.Numbered) (hc : Firewall.Coherent (last :: s.accepted) s.firewall)
    (ho : Orderly last s.accepted s.firewall) {r : Rule} (hr : r ∈ s.firewall.chain.rules)
    (hdefault : r.isDefault = false) :
    1 ≤ r.number ∧ r.number ≤ 65534 ∧ s.firewall.setOf r ≤ 30 := by
  have hne : r ≠ last := by
    rintro rfl
    rw [ho.order.isDefault] at hdefault
    cases hdefault
  have haccepted : r ∈ s.accepted :=
    (List.mem_cons.mp (hc.members r hr)).resolve_left hne
  refine ⟨?_, ?_, h.sets r.id fun hid => hne ?_⟩
  · have hpos : r.number.toNat ≠ 0 := fun hzero =>
      h.numbers r haccepted (UInt16.toNat_inj.mp hzero)
    exact UInt16.le_iff_toNat_le.mpr (Nat.pos_of_ne_zero hpos)
  · have hnot : r.number ≠ defaultRuleNumber := by simpa [Rule.isDefault] using hdefault
    have hne : r.number.toNat ≠ 65535 := fun heq => hnot (UInt16.toNat_inj.mp heq)
    have hlt := r.number.toNat_lt
    exact UInt16.le_iff_toNat_le.mpr (show r.number.toNat ≤ 65534 by omega)
  · obtain ⟨accepts, hlast⟩ := ho.terminal
    refine ho.order.eq_of_id hr ho.order.last_mem (hid.trans ?_)
    rw [hlast]
    rfl

/-- **In every session the chain is sound**, whatever has been done in whatever order. -/
theorem chain_of_reachable (h : Reachable (fun rule _ => rule.createsState = true) s) :
    s.ChainSound fun rule _ => rule.createsState = true := by
  obtain ⟨last, hc, ho⟩ := h.orderly fair_creates
  have hnumbered := h.numbered fair_creates
  refine
    { ends := ?_, ascending := ho.order.ascending, seniority := ?_, ids := ho.order.ids
      indexOf? := fun i r hget => Chain.indexOf?_of_get? ho.order.ids hget
      skips := fun i r target hget hskip =>
        ho.order.next_isLeast hget hskip (ho.lt_of_skipTo hget hskip)
      advances := fun i r hget hskip => Chain.next_of_no_skip hget hskip
      inside := fun i hi => ho.order.next_lt hi
      lookups := h.remembers
      remembered := fun m hm i => ((hm.valid fair_creates).ask i).1
      unnumbered := fun op image rule himage hnumber haccepted => ?_
      changed := fun op hperm => ?_, unchanged := fun op hperm => ?_, kept := fun op hop => ?_ }
  · obtain ⟨front, hfront, hnot⟩ := ho.order.ends
    refine ⟨front, last, hfront, Rule.number_of_isDefault ho.order.isDefault, ho.home, ?_⟩
    intro r hr
    exact hnumbered.rule hc ho (hfront ▸ List.mem_append_left _ hr) (hnot r hr)
  · have hids : (s.accepted.map Rule.id).Pairwise (· < ·) := by
      have hlists := hc.lists
      rw [Roster.Lists, List.map_cons] at hlists
      have hrange := List.pairwise_lt_range (n := s.firewall.engine.roster.nextId)
      rw [← hlists] at hrange
      exact (List.pairwise_cons.mp hrange).2
    exact List.pairwise_map.mp hids
  · rw [step_of_image? himage] at haccepted ⊢
    cases hadd : s.firewall.addImage image with
    | error e =>
      rw [hadd] at haccepted
      exact absurd haccepted (by simp [accept])
    | ok added =>
      obtain ⟨added, fw'⟩ := added
      rw [hadd] at haccepted
      obtain rfl : added = rule := by simpa [accept] using haccepted
      obtain ⟨front, hfront⟩ := addImage_unnumbered ho.order hnumbered.step hnumber hadd
      exact ⟨front, last, hfront, ho.order.isDefault⟩
  · rcases (settles_step hc op).chain with hsame | ⟨hnext, -⟩
    · rw [hsame] at hperm
      exact absurd (List.Perm.refl _) hperm
    · exact hnext
  · rcases (settles_step hc op).chain with hsame | ⟨-, hchanged⟩
    · exact hsame
    · exact absurd hperm hchanged
  · rcases hop with hrefused | hsets
    · rw [step_of_refuses hrefused]
    · exact chain_of_changesSets hsets

/-- A rule that skips, one that is skipped, and one without a number that comes to be the target;
then a change of sets, which makes no new generation. -/
theorem chain_of_three :
    let s := opened.run [.add ⟨100, 0, 0, [0x012c012d]⟩, .add ⟨200, 0, 0, [0x00000129]⟩,
      .add ⟨0, 0, 0, [0x00000129]⟩, .change (.moveRule 200 5)]
    s.Reachable (fun rule _ => rule.createsState = true) ∧
      s.ChainSound (fun rule _ => rule.createsState = true) ∧
      s.firewall.chain.rules.map Rule.number = [100, 200, 300, 65535] ∧
      s.firewall.chain.next 0 = 2 ∧ s.firewall.chain.generation = 3 := by
  intro s
  have hreachable : s.Reachable (fun rule _ => rule.createsState = true) :=
    opened_reachable.run (by simp [Allows])
  exact ⟨hreachable, chain_of_reachable hreachable, by decide +kernel⟩

end Session

end PacketFilter
