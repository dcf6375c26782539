import PacketFilter.Proofs.ChainHistory
import PacketFilter.Proofs.Grammar
import PacketFilter.Proofs.Renaming
import PacketFilter.Proofs.Verdict
import PacketFilter.Proofs.Wire

/-!
# Dump and reload

The rules that a firewall reports can be added to a new firewall with the same settings, in the
order in which they are reported. None is refused, since each of them was accepted before, has a
number, and is in a set that users may give; and each is put right before the default rule, since
the chain ascends. With the same sets disabled the new firewall decides packets as the old one does,
whatever the old one has been through, if its state table is empty.

Main statements: `Reachable.ending`, the default rule is what the settings ask for, and
`Reachable.made`, every other rule was made of an image under the same settings; `Loaded.add`, the
next rule is copied, and `Loaded.addEach`, so are all that are left; `Loaded.decidesAlike`, a chain
of copies decides alike; **`reload_reproduces`**, the rules of any session are reproduced.
-/

namespace PacketFilter

/-- Two lists are the same under two functions if their members are, one by one. -/
theorem map_eq_map_iff_forall₂ {α β γ : Type} {f : α → γ} {g : β → γ} {xs : List α} {ys : List β} :
    xs.map f = ys.map g ↔ List.Forall₂ (fun a b => f a = g b) xs ys := by
  rw [← List.forall₂_map_right_iff, ← List.forall₂_map_left_iff, List.forall₂_eq_eq_eq]

/-- A rule that is taken out is accepted again under the same settings, and is the same rule. -/
theorem Rule.ofImage_image_self {id : Nat} {image : RuleImage} {verboseLimit : UInt32} {rule : Rule}
    (h : ofImage id image verboseLimit = .ok rule) {set : UInt8} (hset : set ≤ maxUserSet)
    (id' : Nat) : ofImage id' (rule.image set) verboseLimit = .ok { rule with id := id' } := by
  have hbudget : rule.logBudget = budgetOf rule.insns verboseLimit := by
    obtain ⟨placed, k, -, rfl⟩ := ofImage_eq_ok_iff.mp h
    rfl
  rw [ofImage_image h hset, ← hbudget]

namespace Firewall

variable {fw fw' : Firewall}

/-! ## What becomes of a firewall -/

/-- Add rules one after another, in a form in which they may come, and say what they have become.
The first that is refused ends it. -/
def addEach {α : Type} (add : Firewall → α → Except ControlError (Rule × Firewall)) :
    Firewall → List α → Except ControlError (List Rule × Firewall)
  | fw, [] => .ok ([], fw)
  | fw, x :: xs =>
    match add fw x with
    | .error e => .error e
    | .ok (rule, fw₁) =>
      match addEach add fw₁ xs with
      | .error e => .error e
      | .ok (rules, fw₂) => .ok (rule :: rules, fw₂)

/-- The rules that the firewall reports, without the default rule. -/
def dump (fw : Firewall) : List RuleImage :=
  (fw.ruleSnapshot.rules.filter fun r => !r.isDefault).map RuleReport.image

/-- What the firewall reports of the rules of its chain, without their counters. -/
def listing (fw : Firewall) : List RuleImage := fw.ruleSnapshot.rules.map RuleReport.image

/-- The firewall as it stands at this moment, with this value for every random draw. -/
def frozen (fw : Firewall) (now : Moment) (value : UInt32) : Firewall :=
  { fw with now, draw := fun _ => value }

/-- **Do two firewalls decide a packet alike?** At one moment and with one value for the random
draws, their verdicts are the same, and it is the rules at one position of the chains that decide,
or none in both. -/
def DecidesAlike (fw fw' : Firewall) (pkt : Packet) (now : Moment) (value : UInt32) : Prop :=
  let outcome := ((fw.frozen now value).check pkt none).1
  let outcome' := ((fw'.frozen now value).check pkt none).1
  outcome'.verdict = outcome.verdict ∧
    (outcome.rule = none ∧ outcome'.rule = none ∨
      ∃ i r r', outcome.rule = some r ∧ fw.chain.get? i = some r ∧
        outcome'.rule = some r' ∧ fw'.chain.get? i = some r')

/-- **A firewall is reproduced**: what it reports is added to a fresh one, and then the same sets
are disabled. -/
structure Reproduced (fw fresh : Firewall) (added : List Rule) (loaded restored : Firewall) :
    Prop where
  /-- No rule is refused, -/
  adds : fresh.addEach addImage fw.dump = .ok (added, loaded)
  /-- also if they come as bytes, -/
  sent : (∀ image ∈ fw.dump, image.Fits) →
    fresh.addEach addBytes (fw.dump.map Wire.ruleImage.write) = .ok (added, loaded)
  /-- each keeps its number, -/
  numbers : added.map Rule.number = fw.dump.map RuleImage.number
  /-- and the chains are the same. -/
  listing : loaded.listing = fw.listing
  /-- The sets can be disabled, -/
  restores : loaded.setEnable fw.disabled 0 = .ok restored
  disabled : restored.disabled = fw.disabled
  /-- which leaves the chain as it is. -/
  stays : restored.listing = fw.listing
  /-- Packets that do not come back are decided alike. -/
  decides : fw.stateCount = 0 → ∀ pkt now value, fw.DecidesAlike restored pkt now value

/-! ## Adding what is reported -/

/-- It makes no difference whether rules come as bytes. -/
theorem addEach_write {images : List RuleImage} (h : ∀ image ∈ images, image.Fits) :
    fw.addEach addBytes (images.map Wire.ruleImage.write) = fw.addEach addImage images := by
  induction images generalizing fw with
  | nil => rfl
  | cons image images ih =>
    have hrest := fun x hx => h x (List.mem_cons_of_mem image hx)
    simp only [List.map_cons, addEach, fw.addBytes_write (h image List.mem_cons_self), ih hrest]

/-- What adding a rule comes to: it is put into its place in the chain, and into its set. -/
structure Adds (fw fw' : Firewall) (rule : Rule) (set : UInt8) : Prop where
  config : fw'.config = fw.config
  disabled : fw'.disabled = fw.disabled
  states : fw'.engine.states = fw.engine.states
  chain : fw'.chain = (fw.chain.insert rule).2
  listed : rule.id < fw'.engine.roster.nextId
  set : fw'.setOf rule = set
  others : ∀ r, r.id < fw.engine.roster.nextId →
    r.id < fw'.engine.roster.nextId ∧ fw'.setOf r = fw.setOf r

/-- **A rule that is reported is added again**, under its number and in its set. -/
theorem addImage_image {id : Nat} {image : RuleImage} {rule : Rule}
    (h : Rule.ofImage id image fw.config.verboseLimit = .ok rule) (hnumber : rule.number ≠ 0)
    {set : UInt8} (hset : set ≤ maxUserSet) :
    ∃ rule' fw', fw.addImage (rule.image set) = .ok (rule', fw') ∧
      rule' = { rule with id := rule'.id } ∧ fw.Adds fw' rule' set := by
  have hasked : ¬(rule.image set).number = 0 := hnumber
  simp only [addImage, if_neg hasked, Rule.ofImage_image_self h hset]
  refine ⟨_, _, rfl, rfl, rfl, rfl, rfl, rfl, ?_, ?_, fun r hr => ⟨?_, ?_⟩⟩
  · exact Nat.lt_of_lt_of_eq (Nat.lt_succ_self _) (Roster.nextId_add _ _).symm
  · refine (congrArg RuleStatus.set (Roster.status_add_self _ _)).trans ?_
    split <;> rfl
  · exact Nat.lt_of_lt_of_eq (Nat.lt_succ_of_lt hr) (Roster.nextId_add _ _).symm
  · exact congrArg RuleStatus.set (Roster.status_add_of_lt hr _)

/-! ## Disabling sets again -/

/-- Where nothing is disabled, disabling sets disables these. The set of the default rule is not
among them. -/
theorem mask_eq_self {mask : SetMask} (h : mask.has defaultRuleSet = false) :
    ((0 : SetMask) ||| mask) &&& ~~~((0 : SetMask) ||| 0x80000000) = mask := by
  have h31 : mask.toBitVec.getLsbD 31 = false := h
  have htop : ((0 : SetMask) ||| 0x80000000).toBitVec = BitVec.twoPow 32 31 := rfl
  apply UInt32.toBitVec_inj.mp
  refine BitVec.eq_of_getLsbD_eq fun i hi => ?_
  rw [UInt32.zero_or, UInt32.toBitVec_and, UInt32.toBitVec_not, htop, BitVec.getLsbD_and,
    BitVec.getLsbD_not, BitVec.getLsbD_twoPow]
  by_cases hlast : i = 31
  · rw [hlast, h31, Bool.false_and]
  · simp [hi, Ne.symm hlast]

/-- Disabling sets moves no rule to another set. -/
theorem setOf_retarget {mask : SetMask} {target : Rule → UInt8} {change : Firewall → Firewall}
    (hchange : ∀ fw₁, (change fw₁).engine.roster = fw₁.engine.roster) (r : Rule) :
    (fw.retarget mask target change).engine.roster.nextId = fw.engine.roster.nextId ∧
      (fw.retarget mask target change).setOf r = fw.setOf r := by
  unfold retarget
  simp only
  generalize (fw.chain.select fun r => r.createsState && !(fw.status r).invalid).filter
    (fun r => mask.has (target r)) = barred
  unfold setOf updateRules
  simp only [hchange]
  constructor
  · rw [Roster.nextId_updateAll, (fw.quiesce_eq barred).2.2, Roster.nextId_updateAll]
  · rw [Roster.setOf_updateAll (f := RuleStatus.enableState) fun _ => rfl, fw.setOf_quiesce]

/-- **Where nothing is disabled, any sets but that of the default rule can be**, and these are
disabled then. The chain stays, and rules stay in their sets. -/
theorem setEnable_of_all {mask : SetMask} (hall : fw.disabled = 0)
    (hmask : mask.has defaultRuleSet = false) :
    ∃ fw', fw.setEnable mask 0 = .ok fw' ∧ fw'.disabled = mask ∧ fw'.chain = fw.chain ∧
      fw'.config = fw.config ∧ ∀ r, fw'.engine.roster.nextId = fw.engine.roster.nextId ∧
        fw'.setOf r = fw.setOf r := by
  have hset : fw.setEnable mask 0 =
      .ok (fw.retarget mask fw.setOf fun fw₁ => { fw₁ with disabled := mask }) := by
    unfold setEnable
    simp only [hmask, hall, mask_eq_self hmask]
    rfl
  obtain ⟨hsettles, hchain⟩ := (setEnable_resets hset).settles
  exact ⟨_, hset, rfl, hchain, hsettles.config, setOf_retarget fun _ => rfl⟩

/-! ## Copies -/

/-- Is the second rule, on the roster of the second firewall, the first one under another id, and in
the same set? -/
structure Copies (fw fw' : Firewall) (r r' : Rule) : Prop where
  rule : r' = { r with id := r'.id }
  listed : r'.id < fw'.engine.roster.nextId
  set : fw'.setOf r' = fw.setOf r

/-- Copies look the same from outside. -/
theorem Copies.image {r r' : Rule} (h : fw.Copies fw' r r') :
    (fw.reportRule r).image = (fw'.reportRule r').image := by
  show r.image (fw.setOf r) = r'.image (fw'.setOf r')
  rw [h.set, h.rule]
  rfl

theorem Copies.number {r r' : Rule} (h : fw.Copies fw' r r') : r.number = r'.number := by
  rw [h.rule]

/-- The chain of the second firewall is a copy of that of the first. -/
def Copied (fw fw' : Firewall) : Prop :=
  List.Forall₂ (fw.Copies fw') fw.chain.rules fw'.chain.rules

namespace Copied

theorem listing (h : fw.Copied fw') : fw'.listing = fw.listing := by
  have hmap : ∀ fw : Firewall, fw.listing = fw.chain.rules.map fun r => (fw.reportRule r).image :=
    fun fw => List.map_map
  rw [hmap, hmap]
  exact (map_eq_map_iff_forall₂.mpr (h.imp fun _ _ => Copies.image)).symm

/-- Other ids are all that makes a difference. -/
theorem exists_rename (h : fw.Copied fw') (hids : (fw.chain.rules.map Rule.id).Nodup)
    (hids' : (fw'.chain.rules.map Rule.id).Nodup) :
    ∃ σ : Equiv.Perm Nat, fw'.chain.rules = fw.chain.rules.map (Rule.rename σ) := by
  have hlength : (fw.chain.rules.map Rule.id).length = (fw'.chain.rules.map Rule.id).length := by
    rw [List.length_map, List.length_map, h.length_eq]
  obtain ⟨σ, hσ⟩ := exists_perm_map_eq hids hids' hlength
  refine ⟨σ, ?_⟩
  rw [List.map_map] at hσ
  have hrenames : List.Forall₂ (fun r r' => r.rename σ = id r') fw.chain.rules fw'.chain.rules := by
    refine List.Forall₂.mp (fun r r' hid hcopies => ?_) (map_eq_map_iff_forall₂.mp hσ) h
    have hid : σ r.id = r'.id := hid
    rw [Rule.rename, hid]
    exact hcopies.rule.symm
  rw [map_eq_map_iff_forall₂.mpr hrenames, List.map_id]

/-- Where a chain is copied, the rules are in the same sets. -/
theorem setOf_rename (h : fw.Copied fw') {σ : Equiv.Perm Nat}
    (hσ : fw'.chain.rules = fw.chain.rules.map (Rule.rename σ)) :
    ∀ r ∈ fw.chain.rules, fw'.setOf (r.rename σ) = fw.setOf r := by
  unfold Copied at h
  rw [hσ, List.forall₂_map_right_iff, List.forall₂_same] at h
  exact fun r hr => (h r hr).set

end Copied

end Firewall

/-- A table without entries is like a new one. -/
theorem StateTable.Sound.refines_empty {config : StateConfig} {t : StateTable}
    (h : t.Sound config) (hempty : t.entries = []) : t.Refines { config } := by
  obtain ⟨⟨config', entries⟩, hrefines, hsound⟩ := h
  have hentries : entries = [] := by
    have hperm := hrefines.entries_perm
    rw [hempty] at hperm
    exact hperm.symm.eq_nil
  obtain rfl : config' = config := hsound.settings
  rw [hentries] at hrefines
  exact hrefines

namespace Session

open Firewall

variable {grants : Rule → StateRequest → Prop} {s g : Session}

/-! ## What was accepted -/

/-- The default rule that the settings ask for. -/
def ending (s : Session) : Rule := .terminal 0 s.firewall.config.acceptByDefault

/-- **The default rule is what the settings ask for**, at the end of a chain in order. -/
theorem Reachable.ending (hfair : Fair grants) (h : Reachable grants s) :
    Firewall.Coherent (s.ending :: s.accepted) s.firewall ∧
      Orderly s.ending s.accepted s.firewall := by
  induction h with
  | @start name config now draw fw hnew =>
    have hconfig : fw.config = config := by
      unfold Firewall.new at hnew
      split at hnew
      · cases hnew
      · cases hnew
        rfl
    unfold Session.ending
    rw [hconfig]
    exact ⟨coherent_new hnew, Orderly.new hnew⟩
  | @step s h op hop ih =>
    obtain ⟨hc, ho⟩ := ih
    have hsame : (s.step op).ending = s.ending := by
      unfold Session.ending
      rw [(settles_step hc op).config]
    rw [hsame]
    exact ⟨(step_follows hfair hc op hop).coherent, step_orderly hc ho op⟩

/-- **Every rule that was accepted was made of an image** under the settings that there are. -/
theorem Reachable.made (hfair : Fair grants) (h : Reachable grants s) : ∀ r ∈ s.accepted,
    ∃ id image, Rule.ofImage id image s.firewall.config.verboseLimit = .ok r := by
  induction h with
  | start hnew => exact fun r hr => absurd hr List.not_mem_nil
  | step h op hop ih =>
    intro r hr
    rw [(settles_step (h.ending hfair).1 op).config]
    rcases accepted_step op hr with hr | ⟨image, fw', hadd⟩
    · exact ih r hr
    · unfold Firewall.addImage at hadd
      simp only at hadd
      split at hadd
      · cases hadd
      · rename_i hmade
        cases hadd
        exact ⟨_, _, hmade⟩

/-- A rule of the chain may be submitted again as it is reported. -/
theorem Reachable.acceptable (hfair : Fair grants) (h : Reachable grants s) {r : Rule}
    (hr : r ∈ s.firewall.chain.rules) (hdefault : r.isDefault = false) :
    (∃ id image, Rule.ofImage id image s.firewall.config.verboseLimit = .ok r) ∧
      r.number ≠ 0 ∧ s.firewall.setOf r ≤ maxUserSet := by
  obtain ⟨hc, ho⟩ := h.ending hfair
  obtain ⟨hpos, -, hset⟩ := (h.numbered hfair).rule hc ho hr hdefault
  refine ⟨?_, ?_, hset⟩
  · rcases List.mem_cons.mp (hc.members r hr) with rfl | haccepted
    · rw [ho.order.isDefault] at hdefault
      cases hdefault
    · exact h.made hfair r haccepted
  · intro hzero
    rw [hzero] at hpos
    exact absurd hpos (by decide)

/-! ## Copying the chain -/

/-- **How far a session is loaded** with the rules of another: it has copies of those in front,
right before the default rule, and its state table is empty. -/
structure Loaded (s g : Session) (front copies : List Rule) : Prop where
  reachable : g.Reachable fun rule _ => rule.createsState = true
  config : g.firewall.config = s.firewall.config
  rules : g.firewall.chain.rules = copies ++ [s.ending]
  copies : List.Forall₂ (s.firewall.Copies g.firewall) front copies
  empty : g.firewall.engine.states.entries = []

namespace Loaded

variable {front copies : List Rule}

theorem ending_eq (h : Loaded s g front copies) : g.ending = s.ending := by
  unfold Session.ending
  rw [h.config]

variable (hs : s.Reachable fun rule _ => rule.createsState = true)
include hs

/-- No rule that has been copied is numbered higher than the next one, since the chain ascends. -/
theorem number_le (h : Loaded s g front copies) {r : Rule} {behind : List Rule}
    (hsplit : s.firewall.chain.rules = front ++ r :: behind) {x : Rule}
    (hx : x ∈ g.firewall.chain.rules) (hdefault : x.isDefault = false) : x.number ≤ r.number := by
  obtain ⟨-, ho⟩ := hs.ending fair_creates
  rw [h.rules, List.mem_append, List.mem_singleton] at hx
  rcases hx with hx | rfl
  · have hnumbers : front.map Rule.number = copies.map Rule.number :=
      map_eq_map_iff_forall₂.mpr (h.copies.imp fun _ _ => Copies.number)
    obtain ⟨y, hy, hyx⟩ := List.mem_map.mp (hnumbers ▸ List.mem_map_of_mem hx)
    have hascending := ho.order.ascending
    rw [hsplit, List.pairwise_append] at hascending
    rw [← hyx]
    exact (hascending.2.2 y hy r List.mem_cons_self).number_le
  · rw [ho.order.isDefault] at hdefault
    cases hdefault

/-- **The next rule is copied** behind those that have been. -/
theorem add (h : Loaded s g front copies) {r : Rule} {behind : List Rule}
    (hsplit : s.firewall.chain.rules = front ++ r :: behind) (hdefault : r.isDefault = false) :
    ∃ r' g', g.firewall.addImage (r.image (s.firewall.setOf r)) = .ok (r', g'.firewall) ∧
      Loaded s g' (front ++ [r]) (copies ++ [r']) ∧
      g'.firewall.disabled = g.firewall.disabled := by
  obtain ⟨-, ho⟩ := h.reachable.ending fair_creates
  have hr : r ∈ s.firewall.chain.rules := hsplit ▸ List.mem_append_right _ List.mem_cons_self
  obtain ⟨⟨id, image, hmade⟩, hnumber, hset⟩ := hs.acceptable fair_creates hr hdefault
  rw [← h.config] at hmade
  obtain ⟨r', fw', hadd, hcopy, hadds⟩ := addImage_image hmade hnumber hset
  have hstep : g.step (.add (r.image (s.firewall.setOf r))) = ⟨fw', g.accepted ++ [r']⟩ := by
    simp only [step, hadd, accept]
  have hhighest : ∀ x ∈ g.firewall.chain.rules, x.isDefault = false → x.number ≤ r'.number := by
    intro x hx hnot
    rw [hcopy]
    exact h.number_le hs hsplit hx hnot
  obtain ⟨front', hrules, hinsert⟩ := ho.order.insert_highest (addImage_checked hadd).2 hhighest
  rw [h.ending_eq] at hrules hinsert
  obtain rfl : front' = copies := List.append_cancel_right (hrules.symm.trans h.rules)
  refine ⟨r', ⟨fw', g.accepted ++ [r']⟩, hadd, ?_, hadds.disabled⟩
  constructor
  case reachable => exact hstep ▸ h.reachable.step (.add _) trivial
  case config => exact hadds.config.trans h.config
  case rules =>
    show fw'.chain.rules = _
    rw [hadds.chain, hinsert, List.append_assoc]
    rfl
  case copies =>
    refine List.rel_append (h.copies.imp fun x x' hx => ?_) (.cons ⟨hcopy, hadds.listed, ?_⟩ .nil)
    · obtain ⟨hlisted, hsame⟩ := hadds.others x' hx.listed
      exact ⟨hx.rule, hlisted, hsame.trans hx.set⟩
    · exact hadds.set
  case empty =>
    show fw'.engine.states.entries = []
    rw [hadds.states]
    exact h.empty

/-- **All rules that are left are copied**, one after another. -/
theorem addEach (h : Loaded s g front copies) {rest : List Rule}
    (hsplit : s.firewall.chain.rules = front ++ rest ++ [s.ending])
    (hdefault : ∀ r ∈ rest, r.isDefault = false) :
    ∃ added g', g.firewall.addEach addImage (rest.map fun r => r.image (s.firewall.setOf r)) =
        .ok (added, g'.firewall) ∧
      Loaded s g' (front ++ rest) (copies ++ added) ∧
      g'.firewall.disabled = g.firewall.disabled := by
  induction rest generalizing g front copies with
  | nil =>
    refine ⟨[], g, rfl, ?_, rfl⟩
    rw [List.append_nil, List.append_nil]
    exact h
  | cons r rest ih =>
    have hhere : s.firewall.chain.rules = front ++ r :: (rest ++ [s.ending]) := by
      rw [hsplit, List.append_assoc, List.cons_append]
    obtain ⟨r', g₁, hadd, h₁, hdisabled₁⟩ := h.add hs hhere (hdefault r List.mem_cons_self)
    have hthere : s.firewall.chain.rules = front ++ [r] ++ rest ++ [s.ending] := by
      rw [hhere]
      simp
    obtain ⟨added, g₂, hrest, h₂, hdisabled₂⟩ :=
      ih h₁ hthere fun x hx => hdefault x (List.mem_cons_of_mem r hx)
    refine ⟨r' :: added, g₂, ?_, ?_, hdisabled₂.trans hdisabled₁⟩
    · simp only [List.map_cons, Firewall.addEach, hadd, hrest]
    · rw [List.append_assoc, List.append_assoc] at h₂
      exact h₂

/-- Once all rules but the default one have been copied, the chain has. -/
theorem copied (h : Loaded s g front copies)
    (hsplit : s.firewall.chain.rules = front ++ [s.ending]) : s.firewall.Copied g.firewall := by
  obtain ⟨-, ho⟩ := hs.ending fair_creates
  obtain ⟨hcg, hog⟩ := h.reachable.ending fair_creates
  rw [h.ending_eq] at hcg hog
  unfold Copied
  rw [hsplit, h.rules]
  refine List.rel_append h.copies (.cons ⟨rfl, ?_, ?_⟩ .nil)
  · exact hcg.lists.id_lt List.mem_cons_self
  · rw [hog.home, ho.home]

/-- **The same sets can be disabled then.** -/
theorem restore (h : Loaded s g front copies) (hall : g.firewall.disabled = 0) :
    ∃ g', g.firewall.setEnable s.firewall.disabled 0 = .ok g'.firewall ∧
      g'.firewall.disabled = s.firewall.disabled ∧ Loaded s g' front copies := by
  obtain ⟨-, ho⟩ := hs.ending fair_creates
  obtain ⟨hcg, -⟩ := h.reachable.ending fair_creates
  obtain ⟨fw', hset, hdisabled, hchain, hconfig, hsame⟩ := setEnable_of_all hall ho.unmasked
  have hstep : g.step (.setEnable s.firewall.disabled 0) = ⟨fw', g.accepted⟩ := by
    simp only [step, hset, proceed]
  refine ⟨⟨fw', g.accepted⟩, hset, hdisabled, ?_⟩
  constructor
  case reachable => exact hstep ▸ h.reachable.step (.setEnable _ _) trivial
  case config => exact hconfig.trans h.config
  case rules =>
    show fw'.chain.rules = _
    rw [hchain]
    exact h.rules
  case copies =>
    refine h.copies.imp fun x x' hx => ⟨hx.rule, ?_, (hsame x').2.trans hx.set⟩
    exact Nat.lt_of_lt_of_eq hx.listed (hsame x').1.symm
  case empty =>
    -- Nothing is granted meanwhile, so that no entry comes into an empty table.
    have hsteps : StateTable.Steps (g.firewall.Grants fun _ _ => False)
        g.firewall.engine.states fw'.engine.states := (hcg.setEnable hset).states
    have hnone := hsteps.forall (h.reachable.settings fair_creates).2 (P := fun _ => False)
      ⟨fun _ => id, fun _ => id⟩ (fun _ _ hgrants => hgrants.2.1.elim)
      (by rw [h.empty]; exact fun _ he => absurd he List.not_mem_nil)
    exact List.eq_nil_iff_forall_not_mem.mpr hnone

/-- Where the same sets are disabled and neither state table has entries, ids are all that tells one
engine from the other. -/
theorem exists_alike (h : Loaded s g front copies)
    (hsplit : s.firewall.chain.rules = front ++ [s.ending])
    (hdisabled : g.firewall.disabled = s.firewall.disabled)
    (hcount : s.firewall.stateCount = 0) :
    ∃ σ : Equiv.Perm Nat,
      g.firewall.chain.rules = s.firewall.chain.rules.map (Rule.rename σ) ∧
        s.firewall.engine.Alike σ s.firewall.chain.rules g.firewall.engine := by
  obtain ⟨hc, -⟩ := hs.ending fair_creates
  obtain ⟨hcg, -⟩ := h.reachable.ending fair_creates
  have hcopied := h.copied hs hsplit
  obtain ⟨σ, hσ⟩ := hcopied.exists_rename hc.ids hcg.ids
  have hsets := hcopied.setOf_rename hσ
  refine ⟨σ, hσ, ⟨{ config := s.firewall.config.stateConfig }, ?_, ?_⟩, hsets, ?_⟩
  · obtain ⟨l, hrefines, hsound⟩ := (hs.settings fair_creates).2
    refine StateTable.Sound.refines_empty ⟨l, hrefines, hsound⟩ ?_
    have hlength := hrefines.entries_perm.length_eq
    rw [← hrefines.count] at hlength
    exact List.eq_nil_of_length_eq_zero (hlength.trans hcount)
  · rw [← h.config]
    exact (h.reachable.settings fair_creates).2.refines_empty h.empty
  · intro r hr hcreates
    have hr' : r.rename σ ∈ g.firewall.chain.rules := hσ ▸ List.mem_map_of_mem hr
    have henabled' := hcg.enabled (r.rename σ) hr' hcreates
    rw [hdisabled, hsets r hr] at henabled'
    exact henabled'.trans (hc.enabled r hr hcreates).symm

/-- **A chain of copies decides alike**, if the same sets are disabled and neither state table has
entries. -/
theorem decidesAlike (h : Loaded s g front copies)
    (hsplit : s.firewall.chain.rules = front ++ [s.ending])
    (hdisabled : g.firewall.disabled = s.firewall.disabled) (hcount : s.firewall.stateCount = 0)
    (pkt : Packet) (now : Moment) (value : UInt32) :
    s.firewall.DecidesAlike g.firewall pkt now value := by
  obtain ⟨hc, ho⟩ := hs.ending fair_creates
  obtain ⟨σ, hσ, halike⟩ := h.exists_alike hs hsplit hdisabled hcount
  have henv : (s.firewall.frozen now value).surroundings.Alike σ
      (g.firewall.frozen now value).surroundings := ⟨hσ, hdisabled, rfl, fun _ _ => rfl⟩
  have hsame : ((g.firewall.frozen now value).check pkt none).1 =
      ((s.firewall.frozen now value).check pkt none).1.rename σ :=
    evaluate_alike henv hc.within halike pkt
  have hwithin : s.firewall.engine.Within
      ((s.firewall.frozen now value).surroundings.InService s.firewall.engine) := hc.within
  have hdone : evaluate (s.firewall.frozen now value).surroundings pkt none s.firewall.engine =
      (((s.firewall.frozen now value).check pkt none).1, _) := rfl
  have hdecided := evaluate_decided hwithin (fun r hr => ho.actsLast (hc.members r hr)) hdone
  unfold DecidesAlike
  simp only [hsame]
  refine ⟨rfl, ?_⟩
  rcases hdecided with ⟨r, hrule, hservice, -⟩ | ⟨hrule, -⟩
  · obtain ⟨i, hi⟩ := List.mem_iff_getElem?.mp hservice.1
    refine Or.inr ⟨i, r, r.rename σ, hrule, hi, ?_, ?_⟩
    · exact congrArg (Option.map (Rule.rename σ)) hrule
    · rw [Chain.get?_rename hσ]
      exact congrArg (Option.map (Rule.rename σ)) hi
  · exact Or.inl ⟨hrule, congrArg (Option.map (Rule.rename σ)) hrule⟩

end Loaded

/-! ## Dump and reload -/

/-- A new firewall is loaded with nothing. -/
theorem loaded_new {name : String} {now : Moment} {draw : Nat → UInt32} {fresh : Firewall}
    (hnew : Firewall.new name s.firewall.config now draw = .ok fresh) :
    Loaded s { firewall := fresh } [] [] ∧ fresh.disabled = 0 := by
  have hstart : Reachable (fun rule _ => rule.createsState = true) { firewall := fresh } :=
    .start hnew
  have hempty := entries_new hnew
  unfold Firewall.new at hnew
  split at hnew
  · cases hnew
  · cases hnew
    exact ⟨⟨hstart, rfl, rfl, .nil, hempty⟩, rfl⟩

/-- What a firewall reports but the default rule. -/
theorem dump_eq {fw : Firewall} {front : List Rule} {last : Rule}
    (hsplit : fw.chain.rules = front ++ [last]) (hfront : ∀ r ∈ front, r.isDefault = false)
    (hlast : last.isDefault = true) : fw.dump = front.map fun r => r.image (fw.setOf r) := by
  have hreported : front.filter (fun r => !r.isDefault) = front := by
    refine List.filter_eq_self.mpr fun r hr => ?_
    rw [hfront r hr]
    rfl
  have hkept : fw.chain.rules.filter (fun r => !r.isDefault) = front := by
    rw [hsplit, List.filter_append, hreported, List.filter_singleton, hlast]
    exact List.append_nil front
  have hreports : fw.ruleSnapshot.rules.filter (fun r => !r.isDefault) =
      (fw.chain.rules.filter fun r => !r.isDefault).map fw.reportRule := List.filter_map
  rw [dump, hreports, hkept, List.map_map]
  rfl

/-- **Dump and reload reproduces the rules.** Whatever has been done in a session, what its firewall
reports can be added to any new firewall with the same settings. -/
theorem reload_reproduces (hs : s.Reachable fun rule _ => rule.createsState = true) (name : String)
    (now : Moment) (draw : Nat → UInt32) :
    ∃ fresh added loaded restored,
      Firewall.new name s.firewall.config now draw = .ok fresh ∧
        s.firewall.Reproduced fresh added loaded restored := by
  obtain ⟨-, ho⟩ := hs.ending fair_creates
  obtain ⟨front, hsplit, hfront⟩ := ho.order.ends
  have hdump := dump_eq hsplit hfront ho.order.isDefault
  obtain ⟨fresh, hnew⟩ : ∃ fresh, Firewall.new name s.firewall.config now draw = .ok fresh := by
    unfold Firewall.new
    rw [(hs.settings fair_creates).1]
    exact ⟨_, rfl⟩
  obtain ⟨hstart, hall⟩ := loaded_new hnew
  obtain ⟨added, g, hadds, hloaded, hsame⟩ := hstart.addEach hs hsplit hfront
  rw [← hdump] at hadds
  obtain ⟨g', hset, hdisabled, hrestored⟩ := hloaded.restore hs (hsame.trans hall)
  refine ⟨fresh, added, g.firewall, g'.firewall, hnew, ?_⟩
  constructor
  case adds => exact hadds
  case sent =>
    intro hfits
    rw [addEach_write hfits]
    exact hadds
  case numbers =>
    rw [hdump, List.map_map]
    exact (map_eq_map_iff_forall₂.mpr (hloaded.copies.imp fun _ _ => Copies.number)).symm
  case listing => exact (hloaded.copied hs hsplit).listing
  case restores => exact hset
  case disabled => exact hdisabled
  case stays => exact (hrestored.copied hs hsplit).listing
  case decides =>
    intro hcount pkt now value
    exact hrestored.decidesAlike hs hsplit hdisabled hcount pkt now value

/-- A rule that has been removed, one that would keep state but is in a disabled set, and one that
was added last and comes first. -/
theorem reload_reproduces_disabled :
    let s := opened.run [.add ⟨300, 0, 0, [297]⟩, .setEnable 32 0, .add ⟨100, 5, 1, [292, 297]⟩,
      .add ⟨50, 0, 0, [297]⟩, .change (.rule 300)]
    s.Reachable (fun rule _ => rule.createsState = true) ∧
      s.firewall.dump = [⟨50, 0, 0, [297]⟩, ⟨100, 5, 1, [292, 297]⟩] ∧
      s.firewall.disabled = 32 ∧ s.firewall.stateCount = 0 ∧
      ∃ fresh added loaded restored,
        Firewall.new "again" s.firewall.config ⟨7⟩ (fun _ => 11) = .ok fresh ∧
          s.firewall.Reproduced fresh added loaded restored := by
  intro s
  have hs : s.Reachable fun rule _ => rule.createsState = true :=
    opened_reachable.run (by simp [Allows])
  have hdump : s.firewall.dump = [⟨50, 0, 0, [297]⟩, ⟨100, 5, 1, [292, 297]⟩] := by
    decide +kernel
  exact ⟨hs, hdump, by decide +kernel, by decide +kernel,
    reload_reproduces hs "again" ⟨7⟩ fun _ => 11⟩

end Session

end PacketFilter
