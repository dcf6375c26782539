import PacketFilter.Proofs.ChainHistory
import PacketFilter.Proofs.MatchLines

/-!
# Log budgets over whole sessions

A rule gets its log budget when it is installed, and gets it back when its counters are cleared, or
its budget alone. In between nothing but its own log instructions uses it up: other rules, requests
to change the chain or the sets, and requests that are refused leave it as it is, and messages that
are taken out of the log in between do not matter.

Main statements: `log_step`, the messages that an operation writes are what it adds to the log;
`step_cases`, what an operation has to do with log instructions; `step_renewing`, what one does that
renews a budget; `Renewed.whole`, a budget that has just been renewed is whole;
**`log_keeps_budget`**, what is logged about a rule from one renewal of its budget to the next.
-/

namespace PacketFilter

/-! ## Administration -/

namespace Roster

/-- Updates that leave the log budget of a rule alone, of as many rules as there may be. -/
theorem logLeft_updateAll {f : RuleStatus → RuleStatus} (hf : ∀ s, (f s).logLeft = s.logLeft)
    (rules : List Rule) (roster : Roster) (id : Nat) :
    ((roster.updateAll rules f).status id).logLeft = (roster.status id).logLeft := by
  induction rules generalizing roster with
  | nil => rfl
  | cons x rules ih =>
    refine (ih (roster.update x.id f)).trans ?_
    rcases roster.status_update x.id id f with h | ⟨-, h⟩ <;> rw [h]
    exact hf _

end Roster

namespace Firewall

variable {known : List Rule} {fw fw' : Firewall} {r rule : Rule}

theorem updateRules_silent (fw : Firewall) (rules : List Rule) {f : RuleStatus → RuleStatus}
    (hf : ∀ s, (f s).logLeft = s.logLeft) : fw.engine.Silent r (fw.updateRules rules f).engine :=
  ⟨Nat.le_of_eq (Roster.nextId_updateAll _ _ _).symm, Roster.logLeft_updateAll hf _ _ _, .of_eq rfl⟩

theorem write_silent (fw : Firewall) (event : AdminEvent) :
    fw.engine.Silent r (fw.write event).engine := .write _ rfl

theorem flushStatesOf_silent (fw : Firewall) (rules : List Rule) :
    fw.engine.Silent r (fw.flushStatesOf rules).engine := by
  unfold flushStatesOf
  simp only
  split
  · exact .of_eq rfl rfl
  · refine .trans ?_ (write_silent _ _)
    exact .of_eq rfl rfl

theorem quiesce_silent (fw : Firewall) (rules : List Rule) :
    fw.engine.Silent r (fw.quiesce rules).engine := by
  unfold quiesce
  simp only
  split
  · exact .refl _
  · refine .trans ?_ (flushStatesOf_silent _ _)
    exact fw.updateRules_silent _ fun _ => rfl

/-- Removing rules. -/
theorem Removes.silent (h : fw.Removes fw') : fw.engine.Silent r fw'.engine := by
  have hremove : ∀ p, fw.engine.Silent r (fw.remove p).engine := by
    intro p
    unfold remove withdraw
    split
    · exact .refl _
    · exact (fw.quiesce_silent _).trans (updateRules_silent _ _ fun _ => rfl)
  cases h with
  | silently p => exact hremove p
  | noted p event => exact (hremove p).trans (write_silent _ event)

/-- Changing sets. -/
theorem Resets.silent (h : fw.Resets fw') : fw.engine.Silent r fw'.engine := by
  have hretarget : ∀ {mask target} {change : Firewall → Firewall},
      (∀ fw₁ : Firewall, fw₁.engine.Silent r (change fw₁).engine) →
        fw.engine.Silent r (fw.retarget mask target change).engine :=
    fun hchange => ((fw.quiesce_silent _).trans (hchange _)).trans
      (updateRules_silent _ _ fun _ => rfl)
  cases h with
  | moves target p move hmove =>
    exact hretarget fun fw₁ => fw₁.updateRules_silent (fw₁.chain.select (p fw₁)) fun _ => rfl
  | disables mask => exact hretarget fun _ => .of_eq rfl rfl

theorem setBuckets_silent {n : UInt32} (h : fw.setBuckets n = .ok fw') :
    fw.engine.Silent r fw'.engine := by
  rw [setBuckets_eq_ok h]
  exact .of_eq rfl rfl

/-- A rule that is added gets a status with its whole budget. -/
theorem addImage_budget {image : RuleImage} (hadd : fw.addImage image = .ok (rule, fw')) :
    ∃ status : RuleStatus, status.logLeft = rule.logBudget ∧
      fw'.engine = ({ fw.engine with roster := fw.engine.roster.add status } : Engine).write
        (.administrative fw.name (.ruleAdded rule)) := by
  unfold Firewall.addImage at hadd
  generalize (if image.number = 0 then { image with number := fw.nextNumber } else image) = image
    at hadd
  simp only at hadd
  split at hadd
  · cases hadd
  · cases hadd
    refine ⟨_, ?_, rfl⟩
    split <;> rfl

/-- Adding another rule. -/
theorem addImage_silent (hid : r.id < fw.engine.roster.nextId) {image : RuleImage}
    (hadd : fw.addImage image = .ok (rule, fw')) : fw.engine.Silent r fw'.engine := by
  obtain ⟨status, -, hengine⟩ := addImage_budget hadd
  have hadded : fw.engine.Silent r { fw.engine with roster := fw.engine.roster.add status } := by
    refine ⟨?_, congrArg RuleStatus.logLeft (Roster.status_add_of_lt hid status), .of_eq rfl⟩
    exact Nat.le_of_lt (Nat.lt_of_lt_of_eq (Nat.lt_succ_self _) (Roster.nextId_add _ _).symm)
  rw [hengine]
  exact hadded.trans (.write _ rfl)

/-- A rule that is added has its whole budget. -/
theorem addImage_logLeft {image : RuleImage} (hadd : fw.addImage image = .ok (rule, fw')) :
    (fw'.status rule).logLeft = rule.logBudget := by
  obtain ⟨status, hbudget, hengine⟩ := addImage_budget hadd
  rw [Firewall.status, hengine, (addImage_spec hadd).1, ← hbudget]
  exact congrArg RuleStatus.logLeft (Roster.status_add_self _ status)

/-! ## Clearing counters -/

/-- The rules that a request to clear counters covers. -/
def covered (fw : Firewall) : Option UInt16 → List Rule
  | none => fw.chain.rules
  | some n => fw.chain.rules.filter fun r => r.number == n

theorem covered_subset (fw : Firewall) (number : Option UInt16) :
    ∀ r ∈ fw.covered number, r ∈ fw.chain.rules := by
  cases number with
  | none => exact fun _ hr => hr
  | some n => exact fun _ hr => List.mem_of_mem_filter hr

/-- Clearing the counters of rules, or their budgets only, gives back the budgets of these rules and
of no others. -/
theorem logLeft_zeroRules (fw : Firewall) {rules : List Rule}
    (hrules : ∀ x ∈ rules, x.id = r.id → x = r) (logOnly : Bool)
    (hid : r.id < fw.engine.roster.nextId) :
    ((fw.zeroRules rules logOnly).status r).logLeft =
      if r ∈ rules then r.logBudget else (fw.status r).logLeft := by
  unfold Firewall.status zeroRules mapRoster
  simp only
  generalize fw.engine.roster = roster at hid
  induction rules generalizing roster with
  | nil => rfl
  | cons x rules ih =>
    have ih := ih (fun y hy => hrules y (List.mem_cons_of_mem x hy))
      (roster.update x.id (·.zero x.logBudget logOnly)) (by rwa [Roster.nextId_update])
    refine ih.trans ?_
    by_cases hx : x.id = r.id
    · obtain rfl := hrules x List.mem_cons_self hx
      rw [Roster.status_update_self hid, if_pos List.mem_cons_self]
      cases logOnly <;> exact ite_self _
    · have hother : r ≠ x := fun heq => hx (congrArg Rule.id heq.symm)
      rw [Roster.status_update_of_ne (Ne.symm hx)]
      simp only [List.mem_cons, hother, false_or]

/-- What clearing counters does to the engine, besides giving back the budgets. -/
theorem zeroCounters_covered {number : Option UInt16} {logOnly : Bool}
    (h : fw.zeroCounters number logOnly = .ok fw') :
    fw'.engine.roster = (fw.zeroRules (fw.covered number) logOnly).engine.roster ∧
      fw.engine.Logs (·.subject? = none) fw'.engine := by
  unfold zeroCounters at h
  cases number with
  | none =>
    simp only at h
    split at h <;> cases h
    · exact ⟨rfl, .write rfl⟩
    · exact ⟨rfl, .write rfl⟩
  | some n =>
    simp only at h
    split at h
    · cases h
    · cases h
      exact ⟨rfl, .of_eq rfl⟩

theorem zeroCounters_silent (hrules : ∀ x ∈ fw.chain.rules, x.id = r.id → x = r)
    (hid : r.id < fw.engine.roster.nextId) {number : Option UInt16} {logOnly : Bool}
    (hzero : fw.zeroCounters number logOnly = .ok fw') (hout : r ∉ fw.covered number) :
    fw.engine.Silent r fw'.engine := by
  obtain ⟨hroster, hlogs⟩ := zeroCounters_covered hzero
  have hleft := fw.logLeft_zeroRules
    (fun x hx => hrules x (fw.covered_subset number x hx)) logOnly hid
  rw [if_neg hout] at hleft
  refine ⟨?_, ?_, hlogs⟩
  · rw [hroster]
    exact Nat.le_of_eq (fw.zeroRules_standing _ logOnly).nextId.symm
  · rw [hroster]
    exact hleft

/-- A request to clear counters that covers a rule is not refused, and gives back its budget. -/
theorem zeroCounters_logLeft (hrules : ∀ x ∈ fw.chain.rules, x.id = r.id → x = r)
    (hid : r.id < fw.engine.roster.nextId) {number : Option UInt16} (logOnly : Bool)
    (hin : r ∈ fw.covered number) :
    ∃ fw', fw.zeroCounters number logOnly = .ok fw' ∧ (fw'.status r).logLeft = r.logBudget := by
  have hok : ∃ fw', fw.zeroCounters number logOnly = .ok fw' := by
    unfold zeroCounters
    cases number with
    | none => cases logOnly <;> exact ⟨_, rfl⟩
    | some n =>
      have hsome : (fw.chain.rules.filter fun r => r.number == n).isEmpty = false :=
        List.isEmpty_eq_false_iff_exists_mem.mpr ⟨r, hin⟩
      simp only [hsome, Bool.false_eq_true, if_false]
      exact ⟨_, rfl⟩
  obtain ⟨fw', hzero⟩ := hok
  refine ⟨fw', hzero, ?_⟩
  have hleft := fw.logLeft_zeroRules
    (fun x hx => hrules x (fw.covered_subset number x hx)) logOnly hid
  rw [if_pos hin] at hleft
  rw [Firewall.status, (zeroCounters_covered hzero).1]
  exact hleft

end Firewall

/-! ## Sessions -/

namespace Session

open Firewall

/-- Does the operation renew the log budget of a rule? It installs the rule, or it covers the rule
when it clears counters or budgets. -/
def Renews (s : Session) (r : Rule) : Operation → Prop
  | .add image => ∃ fw, s.firewall.addImage image = .ok (r, fw)
  | .addBytes bytes => ∃ fw, s.firewall.addBytes bytes = .ok (r, fw)
  | .zeroCounters number _ => r ∈ s.firewall.covered number
  | _ => False

/-- **The sessions in which the log budget of a rule has just been renewed**: the rule has come with
the firewall, or the last operation renews its budget. -/
inductive Renewed (grants : Rule → StateRequest → Prop) (r : Rule) : Session → Prop
  | opened {name : String} {config : Config} {now : Moment} {draw : Nat → UInt32} {fw : Firewall}
      (h : Firewall.new name config now draw = .ok fw) (hr : r ∈ fw.chain.rules) :
      Renewed grants r { firewall := fw }
  | renewed {s : Session} (h : Reachable grants s) (op : Operation) (hop : s.Renews r op) :
      Renewed grants r (s.step op)

/-- Does none of the operations renew the log budget of a rule? -/
def Spares (r : Rule) : Session → List Operation → Prop
  | _, [] => True
  | s, op :: ops => ¬ s.Renews r op ∧ (s.step op).Spares r ops

/-- The instructions that an operation executes. -/
def executes (s : Session) : Operation → List Execution
  | .check pkt resume | .process pkt resume =>
    executed s.firewall.surroundings pkt resume s.firewall.engine
  | _ => []

/-- The instructions that operations execute, one operation after another. -/
def executed : Session → List Operation → List Execution
  | _, [] => []
  | s, op :: ops => s.executes op ++ (s.step op).executed ops

/-- The messages that an operation writes: what is in the log behind what was there before. -/
def writes (s : Session) (op : Operation) : List LogMessage :=
  (s.step op).firewall.engine.log.drop s.firewall.engine.log.length

/-- The messages that operations write, whether or not they are taken out of the log in between. -/
def written : Session → List Operation → List LogMessage
  | _, [] => []
  | s, op :: ops => s.writes op ++ (s.step op).written ops

variable {grants : Rule → StateRequest → Prop} {s : Session} {last r : Rule}

/-- The messages that an operation writes are what it adds to the log, unless it takes them all. -/
theorem log_step (h : Reachable grants s) (hfair : Fair grants) {op : Operation}
    (hop : op ≠ .drain) :
    (s.step op).firewall.engine.log = s.firewall.engine.log ++ s.writes op := by
  obtain ⟨last, hc, horderly⟩ := h.orderly hfair
  have hcheck : ∀ pkt resume, s.firewall.engine.Logs (fun _ => True)
      (s.firewall.check pkt resume).2.engine := by
    intro pkt resume
    obtain ⟨e, heffects, heq⟩ := evaluate_effects s.firewall.surroundings pkt resume hc.within
    have hlogs := (Effects.logs heffects).mono (Q := fun _ => True) fun _ _ => trivial
    show s.firewall.engine.Logs (fun _ => True)
      (evaluate s.firewall.surroundings pkt resume s.firewall.engine).2
    rcases heq with heq | heq <;> rw [heq]
    · exact hlogs
    · exact hlogs.trans (.write trivial)
  have hgrows : s.firewall.engine.Logs (fun _ => True) (s.step op).firewall.engine := by
    rcases administered_step hc horderly.order op with ⟨pkt, resume, rfl | rfl⟩ | rfl | hadmin
    · exact hcheck pkt resume
    · obtain ⟨requests, hprocess⟩ := s.firewall.process_eq_check pkt resume
      show s.firewall.engine.Logs _ (s.firewall.process pkt resume).2.engine
      rw [hprocess]
      exact hcheck pkt resume
    · exact absurd rfl hop
    · exact hadmin.notes.mono fun _ _ => trivial
  obtain ⟨ms, hlog, -⟩ := hgrows
  rw [writes, hlog, List.drop_left]

/-! ## One operation -/

/-- No other rule of the chain has the id of a rule that was accepted. -/
theorem eq_of_id (hc : Firewall.Coherent (last :: s.accepted) s.firewall)
    (hr : r ∈ last :: s.accepted) : ∀ x ∈ s.firewall.chain.rules, x.id = r.id → x = r :=
  fun x hx hid => hc.lists.eq_of_id (hc.members x hx) hr hid

/-- **What an operation does** that renews no budget: it classifies a packet, or executes nothing
and has nothing to do with log instructions, unless it takes the messages. -/
theorem step_cases (hc : Firewall.Coherent (last :: s.accepted) s.firewall)
    (hr : r ∈ last :: s.accepted) (op : Operation) (hop : ¬ s.Renews r op) :
    (∃ pkt resume requests,
      s.executes op =
        PacketFilter.executed s.firewall.surroundings pkt resume s.firewall.engine ∧
      (s.step op).firewall.engine =
        { (s.firewall.check pkt resume).2.engine with requests }) ∨
    s.executes op = [] ∧
      (op = .drain ∨ s.firewall.engine.Silent r (s.step op).firewall.engine) := by
  have hid := hc.lists.id_lt hr
  have hproceed : ∀ result : Except ControlError Firewall,
      (∀ fw', result = .ok fw' → s.firewall.engine.Silent r fw'.engine) →
        s.firewall.engine.Silent r (s.proceed result).firewall.engine := by
    intro result hresult
    cases result with
    | error e => exact .refl _
    | ok fw' => exact hresult fw' rfl
  have haccept : ∀ result : Except ControlError (Rule × Firewall),
      (∀ rule fw', result = .ok (rule, fw') →
        ∃ image, s.firewall.addImage image = .ok (rule, fw')) →
        s.firewall.engine.Silent r (s.accept result).firewall.engine := by
    intro result hresult
    cases result with
    | error e => exact .refl _
    | ok added =>
      obtain ⟨image, hadd⟩ := hresult added.1 added.2 rfl
      exact addImage_silent hid hadd
  cases op with
  | check pkt resume => exact Or.inl ⟨pkt, resume, _, rfl, rfl⟩
  | process pkt resume =>
    obtain ⟨requests, hprocess⟩ := s.firewall.process_eq_check pkt resume
    exact Or.inl ⟨pkt, resume, requests, rfl, congrArg Firewall.engine hprocess⟩
  | drain => exact Or.inr ⟨rfl, Or.inl rfl⟩
  | add image => exact Or.inr ⟨rfl, Or.inr (haccept _ fun _ _ hadd => ⟨image, hadd⟩)⟩
  | addBytes bytes => exact Or.inr ⟨rfl, Or.inr (haccept _ fun _ _ hadd => addBytes_eq_ok hadd)⟩
  | change request =>
    refine Or.inr ⟨rfl, Or.inr (hproceed _ fun fw' hrequest => ?_)⟩
    rcases handle_cases hrequest with hremoves | hresets
    · exact hremoves.silent
    · exact hresets.silent
  | flush => exact Or.inr ⟨rfl, Or.inr (flush_removes s.firewall).silent⟩
  | setEnable disable enable =>
    exact Or.inr ⟨rfl, Or.inr (hproceed _ fun _ hset => (setEnable_resets hset).silent)⟩
  | zeroCounters number logOnly =>
    exact Or.inr ⟨rfl, Or.inr (hproceed _ fun _ hzero =>
      zeroCounters_silent (eq_of_id hc hr) hid hzero hop)⟩
  | setBuckets n => exact Or.inr ⟨rfl, Or.inr (hproceed _ fun _ hset => setBuckets_silent hset)⟩
  | _ => exact Or.inr ⟨rfl, Or.inr (.of_eq rfl rfl)⟩

/-- What is in the log behind what was there before is what an operation writes. -/
theorem writes_eq {ms : List LogMessage} {op : Operation}
    (h : (s.step op).firewall.engine.log = s.firewall.engine.log ++ ms) : s.writes op = ms := by
  rw [writes, h, List.drop_left]

/-- Taking the messages writes none. -/
theorem writes_drain (s : Session) : s.writes .drain = [] := List.drop_nil

/-- An operation that installs a rule writes nothing about rules that match, and leaves the whole
budget. -/
theorem step_installing {op : Operation} {image : RuleImage} {fw : Firewall}
    (hadd : s.firewall.addImage image = .ok (r, fw))
    (hstep : s.step op = ⟨fw, s.accepted ++ [r]⟩) :
    (∀ m ∈ s.writes op, m.subject? = none) ∧ r ∈ (s.step op).accepted ∧
      ((s.step op).firewall.status r).logLeft = r.logBudget := by
  obtain ⟨status, -, hengine⟩ := addImage_budget hadd
  have hlog : (s.step op).firewall.engine.log =
      s.firewall.engine.log ++ [.administrative s.firewall.name (.ruleAdded r)] := by
    rw [hstep]
    exact congrArg Engine.log hengine
  rw [writes_eq hlog, hstep]
  exact ⟨fun m hm => List.mem_singleton.mp hm ▸ rfl, List.mem_append_right _ List.mem_cons_self,
    addImage_logLeft hadd⟩

/-- **An operation that renews the budget of a rule** executes nothing, writes nothing about rules
that match, and leaves the whole budget. -/
theorem step_renewing (hc : Firewall.Coherent (last :: s.accepted) s.firewall) {op : Operation}
    (hop : s.Renews r op) :
    s.executes op = [] ∧ (∀ m ∈ s.writes op, m.subject? = none) ∧
      r ∈ last :: (s.step op).accepted ∧
      ((s.step op).firewall.status r).logLeft = r.logBudget := by
  cases op with
  | add image =>
    obtain ⟨fw, hadd⟩ := hop
    have hstep : s.step (.add image) = ⟨fw, s.accepted ++ [r]⟩ := by
      simp only [step, hadd, accept]
    obtain ⟨hwrites, hr, hleft⟩ := step_installing hadd hstep
    exact ⟨rfl, hwrites, List.mem_cons_of_mem last hr, hleft⟩
  | addBytes bytes =>
    obtain ⟨fw, hbytes⟩ := hop
    obtain ⟨image, hadd⟩ := addBytes_eq_ok hbytes
    have hstep : s.step (.addBytes bytes) = ⟨fw, s.accepted ++ [r]⟩ := by
      simp only [step, hbytes, accept]
    obtain ⟨hwrites, hr, hleft⟩ := step_installing hadd hstep
    exact ⟨rfl, hwrites, List.mem_cons_of_mem last hr, hleft⟩
  | zeroCounters number logOnly =>
    have hr := hc.members r (s.firewall.covered_subset number r hop)
    obtain ⟨fw, hzero, hleft⟩ :=
      zeroCounters_logLeft (eq_of_id hc hr) (hc.lists.id_lt hr) logOnly hop
    have hstep : s.step (.zeroCounters number logOnly) = { s with firewall := fw } := by
      simp only [step, hzero, proceed]
    obtain ⟨ms, hlog, hms⟩ := (zeroCounters_covered hzero).2
    refine ⟨rfl, ?_, by rw [hstep]; exact hr, ?_⟩
    · rw [writes_eq (by rw [hstep]; exact hlog)]
      exact hms
    · rw [hstep]
      exact hleft
  | _ => exact hop.elim

/-- **What an operation writes about a rule**, with logging on, and what is left of the quota. To a
rule without a budget it is all the same whether the budget is renewed. -/
theorem step_metered (hc : Firewall.Coherent (last :: s.accepted) s.firewall)
    (hr : r ∈ last :: s.accepted) (hon : s.firewall.config.verbose = true) {op : Operation}
    (hop : r.logBudget = 0 ∨ ¬ s.Renews r op) :
    Metered r (s.firewall.engine.quota r) (Execution.lines r (s.executes op)) (s.writes op) ∧
      (s.step op).firewall.engine.quota r =
        (s.firewall.engine.quota r).after (Execution.lines r (s.executes op)).length := by
  by_cases hrenews : s.Renews r op
  · have hzero := hop.resolve_right (not_not_intro hrenews)
    obtain ⟨hnone, hwrites, -, -⟩ := step_renewing hc hrenews
    have hendless : ∀ e : Engine, e.quota r = none := fun e => if_pos hzero
    rw [hnone, hendless, hendless]
    exact ⟨.of_others fun m hm => LogMessage.subject?_ne (hwrites m hm), rfl⟩
  have hmeters : s.firewall.engine.Meters r (Execution.lines r (s.executes op))
      (s.step op).firewall.engine ∨ op = .drain := by
    rcases step_cases hc hr op hrenews with ⟨pkt, resume, requests, hexecutes, hengine⟩ |
      ⟨hnone, hdrain | hsilent⟩
    · have hcheck : s.firewall.engine.Meters r _ (s.firewall.check pkt resume).2.engine :=
        evaluate_meters hon (eq_of_id hc hr) hc.within (hc.lists.id_lt hr) pkt resume
      rw [hexecutes, hengine]
      exact Or.inl (hcheck.silent (.of_eq rfl rfl))
    · exact Or.inr hdrain
    · rw [hnone]
      exact Or.inl (.of_silent hsilent)
  rcases hmeters with hmeters | rfl
  · obtain ⟨ms, hlog, hms⟩ := hmeters.log
    exact ⟨(writes_eq hlog).symm ▸ hms, hmeters.quota⟩
  · rw [writes_drain]
    exact ⟨.nil r _, (Quota.after_zero _).symm⟩

/-- **What an operation does with logging off.** A whole budget stays whole. -/
theorem step_off (hc : Firewall.Coherent (last :: s.accepted) s.firewall)
    (hr : r ∈ last :: s.accepted) (hoff : s.firewall.config.verbose = false) (op : Operation) :
    (∀ m ∈ s.writes op, m.subject? = none) ∧
      ((s.firewall.status r).logLeft = r.logBudget →
        ((s.step op).firewall.status r).logLeft = r.logBudget) := by
  by_cases hrenews : s.Renews r op
  · obtain ⟨-, hwrites, -, hleft⟩ := step_renewing hc hrenews
    exact ⟨hwrites, fun _ => hleft⟩
  have hsilent : s.firewall.engine.Silent r (s.step op).firewall.engine ∨ op = .drain := by
    rcases step_cases hc hr op hrenews with ⟨pkt, resume, requests, -, hengine⟩ |
      ⟨-, hdrain | hsilent⟩
    · have hcheck : s.firewall.engine.Silent r (s.firewall.check pkt resume).2.engine :=
        evaluate_silent hoff hc.within pkt resume
      rw [hengine]
      exact Or.inl (hcheck.trans (.of_eq rfl rfl))
    · exact Or.inr hdrain
    · exact Or.inl hsilent
  rcases hsilent with hsilent | rfl
  · obtain ⟨ms, hlog, hms⟩ := hsilent.logs
    exact ⟨(writes_eq hlog).symm ▸ hms, hsilent.left.trans⟩
  · rw [writes_drain]
    exact ⟨fun _ hm => absurd hm List.not_mem_nil, id⟩

/-! ## Whole runs -/

/-- An operation that may be tried keeps what is known of a session. -/
theorem coherent_step (hc : Firewall.Coherent (last :: s.accepted) s.firewall)
    (hr : r ∈ last :: s.accepted) {op : Operation}
    (hop : s.Allows (fun rule _ => rule.createsState = true) op) :
    Firewall.Coherent (last :: (s.step op).accepted) (s.step op).firewall ∧
      r ∈ last :: (s.step op).accepted ∧
      (s.step op).firewall.config.verbose = s.firewall.config.verbose := by
  refine ⟨(step_follows fair_creates hc op hop).coherent, ?_,
    congrArg Config.verbose (settles_step hc op).config⟩
  rcases List.mem_cons.mp hr with rfl | hr
  · exact List.mem_cons_self
  · exact List.mem_cons_of_mem _ (mem_accepted_step hr op)

/-- **What operations write about a rule**, with logging on. -/
theorem run_metered {ops : List Operation}
    (hc : Firewall.Coherent (last :: s.accepted) s.firewall) (hr : r ∈ last :: s.accepted)
    (hon : s.firewall.config.verbose = true)
    (hops : s.AllowsAll (fun rule _ => rule.createsState = true) ops)
    (hspares : r.logBudget = 0 ∨ s.Spares r ops) :
    Metered r (s.firewall.engine.quota r) (Execution.lines r (s.executed ops))
      (s.written ops) := by
  induction ops generalizing s with
  | nil => exact .nil r _
  | cons op ops ih =>
    obtain ⟨hallowed, hops⟩ := hops
    obtain ⟨hfirst, hquota⟩ := step_metered hc hr hon (hspares.imp_right And.left)
    obtain ⟨hc', hr', hverbose⟩ := coherent_step hc hr hallowed
    have hrest := ih hc' hr' (hverbose.trans hon) hops (hspares.imp_right And.right)
    rw [hquota] at hrest
    rw [executed, Execution.lines_append]
    exact hfirst.append hrest

/-- **What operations do with logging off.** -/
theorem run_off {ops : List Operation}
    (hc : Firewall.Coherent (last :: s.accepted) s.firewall) (hr : r ∈ last :: s.accepted)
    (hoff : s.firewall.config.verbose = false)
    (hops : s.AllowsAll (fun rule _ => rule.createsState = true) ops)
    (hwhole : (s.firewall.status r).logLeft = r.logBudget) :
    (∀ m ∈ s.written ops, m.subject? = none) ∧
      ((s.run ops).firewall.status r).logLeft = r.logBudget := by
  induction ops generalizing s with
  | nil => exact ⟨fun _ hm => absurd hm List.not_mem_nil, hwhole⟩
  | cons op ops ih =>
    obtain ⟨hallowed, hops⟩ := hops
    obtain ⟨hfirst, hkeeps⟩ := step_off hc hr hoff op
    obtain ⟨hc', hr', hverbose⟩ := coherent_step hc hr hallowed
    obtain ⟨hrest, hleft⟩ := ih hc' hr' (hverbose.trans hoff) hops (hkeeps hwhole)
    refine ⟨fun m hm => ?_, hleft⟩
    rcases List.mem_append.mp hm with hm | hm
    · exact hfirst m hm
    · exact hrest m hm

/-- **A budget that has just been renewed is whole.** -/
theorem Renewed.whole (h : Renewed (fun rule _ => rule.createsState = true) r s) :
    ∃ last, Firewall.Coherent (last :: s.accepted) s.firewall ∧ r ∈ last :: s.accepted ∧
      (s.firewall.status r).logLeft = r.logBudget := by
  cases h with
  | opened hnew hr =>
    have hc := coherent_new hnew
    refine ⟨_, hc, hc.members r hr, ?_⟩
    obtain rfl := List.mem_singleton.mp (hc.members r hr)
    unfold Firewall.new at hnew
    split at hnew
    · cases hnew
    · cases hnew
      rfl
  | @renewed s h op hop =>
    obtain ⟨last, hc⟩ := h.coherent fair_creates
    have hallowed : s.Allows (fun rule _ => rule.createsState = true) op := by
      cases op with
      | install rule request pkt now => exact hop.elim
      | _ => trivial
    obtain ⟨-, -, hr, hleft⟩ := step_renewing hc hop
    exact ⟨last, (step_follows fair_creates hc op hallowed).coherent, hr, hleft⟩

/-- **The log keeps to the budget of a rule**, when these instructions were executed and these
messages were written. -/
structure KeepsBudget (r : Rule) (xs : List Execution) (ms : List LogMessage) : Prop where
  /-- The match lines are those of the first log instructions of the rule. -/
  lines : ms.filter (·.isMatchOf r) = (Execution.lines r xs).take r.logBudget.toNat
  /-- There are as many of them as the budget allows, or as were asked for if those are fewer. -/
  number : ms.countP (·.isMatchOf r) = min r.logBudget.toNat (xs.countP (·.logs r))
  /-- There is one notice if the budget is used up, and otherwise none. -/
  notices : ms.count (.budgetSpent r) =
    if r.logBudget.toNat ≤ xs.countP (·.logs r) then 1 else 0
  /-- The notice is right behind the last match line that the budget allows. -/
  place : ∀ before after, ms = before ++ .budgetSpent r :: after →
    before.countP (·.isMatchOf r) = r.logBudget.toNat ∧
      ∃ earlier line, before = earlier ++ [line] ∧ line.isMatchOf r = true

/-- A log that is metered by a budget. -/
theorem KeepsBudget.of_metered {xs : List Execution} {ms : List LogMessage}
    (hpos : 0 < r.logBudget)
    (h : Metered r (some r.logBudget.toNat) (Execution.lines r xs) ms) : KeepsBudget r xs ms where
  lines := h.lines
  number := by
    rw [List.countP_eq_length_filter, h.lines, ← Execution.length_lines]
    exact List.length_take
  notices := by
    have hpos : 0 < r.logBudget.toNat := UInt32.lt_iff_toNat_lt.mp hpos
    rw [h.notices, Execution.length_lines]
    simp only [Quota.notices, hpos, true_and]
  place before after heq := by
    obtain ⟨hquota, hline⟩ := h.place before after heq
    exact ⟨(Option.some.inj hquota).symm, hline⟩

/-- **Log budgets hold over whole runs.** With logging on, what is logged about a rule from one
renewal of its budget to the next keeps to its budget, if it has one, and a rule without a budget
has all its matches logged. With logging off there are no match lines, and no budget is used up. -/
theorem log_keeps_budget (h : Renewed (fun rule _ => rule.createsState = true) r s)
    {ops : List Operation} (hops : s.AllowsAll (fun rule _ => rule.createsState = true) ops) :
    (s.firewall.config.verbose = true →
      (0 < r.logBudget → s.Spares r ops → KeepsBudget r (s.executed ops) (s.written ops)) ∧
      (r.logBudget = 0 →
        (s.written ops).filter (·.isMatchOf r) = Execution.lines r (s.executed ops) ∧
        (s.written ops).countP (·.isMatchOf r) = (s.executed ops).countP (·.logs r))) ∧
    (s.firewall.config.verbose = false →
      (∀ m ∈ s.written ops, ∀ rule, m.isMatchOf rule = false) ∧
      ((s.run ops).firewall.status r).logLeft = r.logBudget) := by
  obtain ⟨last, hc, hr, hwhole⟩ := h.whole
  refine ⟨fun hon => ⟨fun hpos hspares => ?_, fun hzero => ?_⟩, fun hoff => ?_⟩
  · have hne : r.logBudget ≠ 0 := fun hzero => absurd (hzero ▸ hpos) (by decide)
    have hquota : s.firewall.engine.quota r = some r.logBudget.toNat :=
      (if_neg hne).trans (congrArg (fun left => some left.toNat) hwhole)
    exact .of_metered hpos (hquota ▸ run_metered hc hr hon hops (Or.inr hspares))
  · have hquota : s.firewall.engine.quota r = none := if_pos hzero
    have hmetered := run_metered hc hr hon hops (Or.inl hzero)
    rw [hquota] at hmetered
    refine ⟨hmetered.lines, ?_⟩
    rw [List.countP_eq_length_filter, hmetered.lines, ← Execution.length_lines]
    rfl
  · obtain ⟨hnone, hleft⟩ := run_off hc hr hoff hops hwhole
    exact ⟨fun m hm _ => LogMessage.isMatchOf_eq_false (LogMessage.subject?_ne (hnone m hm)), hleft⟩

/-- A firewall with logging on. -/
def outspoken : Session where
  firewall :=
    (Firewall.new "fw" { verbose := true } ⟨0⟩ fun _ => 5).toOption.get (by decide +kernel)

theorem outspoken_reachable : outspoken.Reachable grants := by
  have hnew : Firewall.new "fw" { verbose := true } ⟨0⟩ (fun _ => 5) = .ok outspoken.firewall := rfl
  exact .start hnew

/-- A rule that counts packets, keeps state for them and logs two of them. -/
def reporter : Rule :=
  { id := 1, number := 100, words := [291, 292, 550, 2, 300], actionOffset := 2,
    insns := [⟨.probeState, .none⟩, ⟨.keepState, .none⟩, ⟨.log 2, .none⟩, ⟨.act .count, .none⟩],
    actionIndex := 2, logBudget := 2 }

/-- The rule logs the packet that creates state and the one that finds it, but not a third one, also
if the messages are taken in between. In a session with logging off it logs none. -/
theorem log_keeps_budget_reporter :
    let pkt : Packet :=
      { flow := ⟨1, 2, 1, 4, Protocol.udp, 0⟩, direction := .inbound, length := 40 }
    let ops : List Operation :=
      [.check pkt none, .drain, .check pkt none, .check pkt none]
    let s := outspoken.step (.add (reporter.image 0))
    let t := opened.step (.add (reporter.image 0))
    (s.Renewed (fun rule _ => rule.createsState = true) reporter ∧
      s.AllowsAll (fun rule _ => rule.createsState = true) ops ∧
      KeepsBudget reporter (s.executed ops) (s.written ops) ∧
      (s.executed ops).countP (·.logs reporter) = 3 ∧
      (s.written ops).countP (·.isMatchOf reporter) = 2) ∧
    t.Renewed (fun rule _ => rule.createsState = true) reporter ∧
      t.AllowsAll (fun rule _ => rule.createsState = true) ops ∧
      (∀ m ∈ t.written ops, ∀ rule, m.isMatchOf rule = false) ∧
      ((t.run ops).firewall.status reporter).logLeft = reporter.logBudget := by
  intro pkt ops s t
  have hinstalls : ∀ u : Session, u.accepted = [] →
      reporter ∈ (u.step (.add (reporter.image 0))).accepted →
        u.Renews reporter (.add (reporter.image 0)) := by
    intro u hempty hmem
    exact (mem_accepted_accept.mp hmem).resolve_left (hempty ▸ List.not_mem_nil)
  have hs : s.Renewed (fun rule _ => rule.createsState = true) reporter :=
    .renewed outspoken_reachable _ (hinstalls outspoken rfl (by decide +kernel))
  have ht : t.Renewed (fun rule _ => rule.createsState = true) reporter :=
    .renewed opened_reachable _ (hinstalls opened rfl (by decide +kernel))
  have hallowed : ∀ u : Session, u.AllowsAll (fun rule _ => rule.createsState = true) ops :=
    fun _ => ⟨trivial, trivial, trivial, trivial, trivial⟩
  have hspares : s.Spares reporter ops := ⟨id, id, id, id, trivial⟩
  have hkeeps : KeepsBudget reporter (s.executed ops) (s.written ops) :=
    ((log_keeps_budget hs (hallowed s)).1 (by decide +kernel)).1 (by decide) hspares
  have hasked : (s.executed ops).countP (·.logs reporter) = 3 := by
    simp only [s, ops, executed, executes, PacketFilter.executed, step, Firewall.check, evaluate,
      Walk.run_eq_runFor 3, Walk.executed_eq_executedFor 3]
    decide +kernel
  refine ⟨⟨hs, hallowed s, hkeeps, hasked, ?_⟩, ht, hallowed t,
    (log_keeps_budget ht (hallowed t)).2 (by decide +kernel)⟩
  rw [hkeeps.number, hasked]
  rfl

end Session

end PacketFilter
