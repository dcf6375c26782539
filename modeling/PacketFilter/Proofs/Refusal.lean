import PacketFilter.Proofs.ChainHistory

/-!
# Requests that are refused

Administration is described here once more, as procedures that change a firewall as they go: which
checks are made, what is changed, and in which order. A procedure may give up in the middle, and
what it has changed by then stays changed. Rules are removed from a copy of the chain and quiesced
before the copy takes the place of the chain; counters are cleared before it turns out whether there
were any.

Each procedure comes to what the operation of the same name does in one go. So none of them gives up
after it has changed something.

Main statements: `run_quiesce`, `run_removeRules` and `run_retarget`, what the common parts come to;
`AdminRequest.run_procedure`, every procedure is the operation; **`refused_unchanged`**, a request
that is refused leaves nothing behind.
-/

namespace PacketFilter

/-- A rule that has just been added is the one whose status changes under its id. -/
theorem Roster.update_add_self (roster : Roster) (s : RuleStatus) (f : RuleStatus → RuleStatus) :
    (roster.add s).update roster.nextId f = roster.add (f s) := by
  have hsize : roster.statuses.size < (roster.statuses.push s).size := by simp
  simp only [Roster.add, Roster.update, Roster.nextId]
  congr 1
  apply Array.ext_getElem?
  intro i
  grind

/-- A procedure on a firewall. If it gives up, the firewall is as far as it was changed. -/
abbrev Procedure (α : Type) := EStateM ControlError Firewall α

namespace Procedure

variable {α : Type} {fw fw' : Firewall}

/-- How a procedure ends that comes to this result and gives up with nothing changed. -/
def ending (fw : Firewall) : Except ControlError (α × Firewall) →
    EStateM.Result ControlError Firewall α
  | .ok (result, fw') => .ok result fw'
  | .error e => .error e fw

/-- The same of a result that is no more than a firewall. -/
def endingIn (fw : Firewall) (result : Except ControlError Firewall) :
    EStateM.Result ControlError Firewall Unit :=
  ending fw (result.map fun fw' => ((), fw'))

/-! ## Procedures -/

/-- Change the status of a rule. -/
def updateRule (r : Rule) (f : RuleStatus → RuleStatus) : Procedure Unit :=
  modify fun fw => fw.mapRoster fun roster => roster.update r.id f

/-- Write an administrative message. -/
def write (event : AdminEvent) : Procedure Unit := modify fun fw => fw.write event

/-- Check a rule, which gets a number first if it has none, and add it to the chain. -/
def addImage (image : RuleImage) : Procedure Rule := do
  let fw ← get
  let image := if image.number = 0 then { image with number := fw.nextNumber } else image
  match Rule.ofImage fw.engine.roster.nextId image fw.config.verboseLimit with
  | .error e => throw (.validation e)
  | .ok rule =>
    modify fun fw => fw.mapRoster fun roster => roster.add (.fresh image.set rule.logBudget)
    if fw.disabled.has image.set then updateRule rule RuleStatus.disableState else pure ()
    modify fun fw => { fw with chain := (fw.chain.insert rule).2 }
    write (.ruleAdded rule)
    return rule

/-- Add a rule that comes as bytes. -/
def addBytes (bytes : List UInt8) : Procedure Rule :=
  match Wire.ruleImage.decode bytes with
  | .error e => throw (.validation (.malformed e))
  | .ok image => addImage image

/-- Bar rules from creating state, one after another, and drop what they have created. -/
def quiesce (rules : List Rule) : Procedure Unit :=
  let stateful := rules.filter Rule.createsState
  if stateful.isEmpty then pure ()
  else do
    forM stateful fun r => updateRule r RuleStatus.disableState
    modify fun fw => fw.flushStatesOf stateful

/-- Remove the rules that are selected from a copy of the chain. They are quiesced before the copy
takes the place of the chain, and marked after it. -/
def removeRules (select : Chain → Except ControlError (List Rule × Chain)) :
    Procedure (List Rule) := do
  let fw ← get
  match select fw.chain with
  | .error e => throw e
  | .ok (removed, chain) =>
    if removed.isEmpty then return removed
    else
      quiesce removed
      modify fun fw => { fw with chain }
      forM removed fun r => updateRule r RuleStatus.markInvalid
      return removed

/-- Delete the rules of a number. -/
def deleteRule (number : UInt16) : Procedure Unit := do
  let removed ← removeRules fun chain => chain.deleteNumber number
  write (.rulesDeleted removed.length number)

/-- Delete the rules of a set, and say how many there were. -/
def deleteSet (set : UInt8) : Procedure Nat :=
  if maxUserSet < set then throw (.invalidSet set)
  else do
    let fw ← get
    let removed ← removeRules fun chain => .ok (chain.deleteSet fw.engine.roster set)
    return removed.length

/-- Change sets, or which of them are disabled, between quiescing the rules that end up in a
disabled set and letting those in an enabled one create state again. -/
def retarget (mask : SetMask) (target : Rule → UInt8) (change : Procedure α) : Procedure α := do
  let fw ← get
  let stateful := fw.chain.select fun r => r.createsState && !(fw.status r).invalid
  quiesce (stateful.filter fun r => mask.has (target r))
  let result ← change
  forM (stateful.filter fun r => !mask.has (target r)) fun r =>
    updateRule r RuleStatus.enableState
  return result

/-- Change the sets of rules, and say how many there are. -/
def move (change : Chain → Roster → Nat × Roster) : Procedure Nat := do
  let fw ← get
  let (n, roster) := change fw.chain fw.engine.roster
  set (fw.mapRoster fun _ => roster)
  return n

/-- Put the rules of a number into a set, and say how many there are. -/
def moveRule (number : UInt16) (set : UInt8) : Procedure Nat :=
  if number = defaultRuleNumber then throw .defaultRule
  else if maxUserSet < set then throw (.invalidSet set)
  else do
    let fw ← get
    retarget fw.disabled (fun r => if r.number = number then set else fw.setOf r)
      (move fun chain roster => chain.moveNumber roster number set)

/-- Put the rules of a set into another, and say how many there are. -/
def moveSet (source target : UInt8) : Procedure Nat :=
  if maxUserSet < source then throw (.invalidSet source)
  else if maxUserSet < target then throw (.invalidSet target)
  else do
    let fw ← get
    retarget fw.disabled (fun r => if fw.setOf r = source then target else fw.setOf r)
      (move fun chain roster => chain.moveSet roster source target)

/-- Exchange the members of two sets. -/
def swapSets (a b : UInt8) : Procedure Unit :=
  if maxUserSet < a then throw (.invalidSet a)
  else if maxUserSet < b then throw (.invalidSet b)
  else do
    let fw ← get
    retarget fw.disabled (fun r => Chain.exchanged a b (fw.setOf r))
      (modify fun fw => fw.mapRoster fun roster => fw.chain.swapSets roster a b)

/-- Disable some sets and enable others. -/
def setEnable (disable enable : SetMask) : Procedure Unit :=
  if disable.has defaultRuleSet then throw (.invalidSet defaultRuleSet)
  else do
    let fw ← get
    let mask := (fw.disabled ||| disable) &&& ~~~(enable ||| 0x80000000)
    retarget mask fw.setOf (modify fun fw => { fw with disabled := mask })

/-- Clear the counters of all rules, or of those of one number. That there are none of this number
is noticed afterwards. -/
def zeroCounters (number : Option UInt16) (logOnly : Bool) : Procedure Unit := do
  let fw ← get
  let zero (r : Rule) := updateRule r fun s => s.zero r.logBudget logOnly
  match number with
  | none =>
    forM fw.chain.rules zero
    if logOnly then write .budgetsReset
    else
      modify fun fw => { fw with undecided := 0 }
      write .countersCleared
  | some n =>
    let rules := fw.chain.rules.filter fun r => r.number == n
    forM rules zero
    if rules.isEmpty then throw (.ruleNotFound n) else pure ()

/-- Ask for another number of buckets. -/
def setBuckets (n : UInt32) : Procedure Unit := do
  let fw ← get
  match fw.engine.states.setBuckets n.toNat with
  | none => throw (.invalidBuckets n)
  | some states => set { fw with engine := { fw.engine with states } }

/-- Carry out a request to delete rules or to change their sets. -/
def handle : DeleteRequest → Procedure Unit
  | .rule number => deleteRule number
  | .set set => discard (deleteSet set)
  | .moveRule number target => discard (moveRule number target)
  | .moveSet source target => discard (moveSet source target)
  | .swapSets a b => swapSets a b

/-! ## What they come to -/

theorem run_updateRule (r : Rule) (f : RuleStatus → RuleStatus) (fw : Firewall) :
    (updateRule r f).run fw = .ok () (fw.mapRoster fun roster => roster.update r.id f) :=
  rfl

theorem run_write (event : AdminEvent) (fw : Firewall) :
    (write event).run fw = .ok () (fw.write event) :=
  rfl

/-- Rules are updated one after another. -/
theorem run_forM_updateRule (rules : List Rule) (f : Rule → RuleStatus → RuleStatus)
    (fw : Firewall) :
    (forM rules fun r => updateRule r (f r)).run fw =
      .ok () (fw.mapRoster fun roster =>
        rules.foldl (fun roster r => roster.update r.id (f r)) roster) := by
  induction rules generalizing fw with
  | nil => rfl
  | cons r rules ih =>
    rw [List.forM_cons, EStateM.run_bind, run_updateRule]
    exact ih _

theorem run_updateAll (rules : List Rule) (f : RuleStatus → RuleStatus) (fw : Firewall) :
    (forM rules fun r => updateRule r f).run fw = .ok () (fw.updateRules rules f) :=
  run_forM_updateRule rules (fun _ => f) fw

theorem run_quiesce (rules : List Rule) (fw : Firewall) :
    (quiesce rules).run fw = .ok () (fw.quiesce rules) := by
  unfold quiesce Firewall.quiesce
  simp only
  split
  · rfl
  · rw [EStateM.run_bind, run_updateAll]
    rfl

/-- Removing rules, unless the selection fails. -/
theorem run_removeRules (select : Chain → Except ControlError (List Rule × Chain))
    (fw : Firewall) :
    (removeRules select).run fw =
      ending fw ((select fw.chain).map fun selected =>
        (selected.1, fw.withdraw selected.1 selected.2)) := by
  unfold removeRules
  rw [EStateM.run_bind, EStateM.run_get]
  simp only
  cases select fw.chain with
  | error e => rfl
  | ok selected =>
    obtain ⟨removed, chain⟩ := selected
    simp only [Except.map, ending, Firewall.withdraw]
    by_cases hnone : removed.isEmpty = true
    · rw [if_pos hnone, if_pos hnone]
      rfl
    · rw [if_neg hnone, if_neg hnone]
      simp only [EStateM.run_bind, run_quiesce, EStateM.run_modify, run_updateAll,
        EStateM.run_pure]

/-- Changing sets, if the change itself does not fail. -/
theorem run_retarget (mask : SetMask) (target : Rule → UInt8) {change : Procedure α}
    {result : Firewall → α} {f : Firewall → Firewall}
    (hchange : ∀ fw, change.run fw = .ok (result fw) (f fw)) (fw : Firewall) :
    (retarget mask target change).run fw =
      .ok (result (fw.quiesce ((fw.chain.select fun r =>
          r.createsState && !(fw.status r).invalid).filter fun r => mask.has (target r))))
        (fw.retarget mask target f) := by
  unfold retarget Firewall.retarget
  simp only [EStateM.run_bind, EStateM.run_get, run_quiesce, hchange, run_updateAll,
    EStateM.run_pure]

theorem run_move (change : Chain → Roster → Nat × Roster) (fw : Firewall) :
    (move change).run fw =
      .ok (change fw.chain fw.engine.roster).1
        (fw.mapRoster fun roster => (change fw.chain roster).2) := by
  rfl

/-! ## Every procedure is the operation -/

theorem run_addImage (image : RuleImage) (fw : Firewall) :
    (addImage image).run fw = ending fw (fw.addImage image) := by
  unfold addImage Firewall.addImage
  rw [EStateM.run_bind, EStateM.run_get]
  simp only
  generalize (if image.number = 0 then { image with number := fw.nextNumber } else image) = numbered
  cases himage : Rule.ofImage fw.engine.roster.nextId numbered fw.config.verboseLimit with
  | error e => rfl
  | ok rule =>
    have hid : rule.id = fw.engine.roster.nextId := (Firewall.ofImage_spec himage).1
    by_cases hdisabled : fw.disabled.has numbered.set = true
    · simp only [if_pos hdisabled, EStateM.run_bind, EStateM.run_modify, run_updateRule, run_write,
        EStateM.run_pure, Firewall.mapRoster, hid, Roster.update_add_self]
      rfl
    · simp only [if_neg hdisabled]
      rfl

theorem run_addBytes (bytes : List UInt8) (fw : Firewall) :
    (addBytes bytes).run fw = ending fw (fw.addBytes bytes) := by
  unfold addBytes Firewall.addBytes
  cases Wire.ruleImage.decode bytes with
  | error e => rfl
  | ok image => exact run_addImage image fw

theorem run_deleteRule (number : UInt16) (fw : Firewall) :
    (deleteRule number).run fw = endingIn fw (fw.deleteRule number) := by
  unfold deleteRule Firewall.deleteRule
  rw [EStateM.run_bind, run_removeRules]
  cases fw.chain.deleteNumber number with
  | error e => rfl
  | ok removed => rfl

theorem run_deleteSet (set : UInt8) (fw : Firewall) :
    (deleteSet set).run fw = ending fw (fw.deleteSet set) := by
  unfold deleteSet Firewall.deleteSet
  by_cases hset : maxUserSet < set
  · rw [if_pos hset, if_pos hset]
    rfl
  · rw [if_neg hset, if_neg hset, EStateM.run_bind, EStateM.run_get]
    simp only [EStateM.run_bind, run_removeRules]
    rfl

theorem run_moveRule (number : UInt16) (set : UInt8) (fw : Firewall) :
    (moveRule number set).run fw = ending fw (fw.moveRule number set) := by
  unfold moveRule Firewall.moveRule
  by_cases hdefault : number = defaultRuleNumber
  · rw [if_pos hdefault, if_pos hdefault]
    rfl
  · rw [if_neg hdefault, if_neg hdefault]
    by_cases hset : maxUserSet < set
    · rw [if_pos hset, if_pos hset]
      rfl
    · rw [if_neg hset, if_neg hset, EStateM.run_bind, EStateM.run_get]
      simp only [run_retarget _ _ (run_move _), (fw.quiesce_eq _).1, Chain.moveNumber]
      rfl

theorem run_moveSet (source target : UInt8) (fw : Firewall) :
    (moveSet source target).run fw = ending fw (fw.moveSet source target) := by
  unfold moveSet Firewall.moveSet
  by_cases hsource : maxUserSet < source
  · rw [if_pos hsource, if_pos hsource]
    rfl
  · rw [if_neg hsource, if_neg hsource]
    by_cases htarget : maxUserSet < target
    · rw [if_pos htarget, if_pos htarget]
      rfl
    · rw [if_neg htarget, if_neg htarget, EStateM.run_bind, EStateM.run_get]
      simp only [run_retarget _ _ (run_move _), (fw.quiesce_eq _).1, Chain.moveSet,
        fw.setOf_quiesce]
      rfl

theorem run_swapSets (a b : UInt8) (fw : Firewall) :
    (swapSets a b).run fw = endingIn fw (fw.swapSets a b) := by
  unfold swapSets Firewall.swapSets
  by_cases ha : maxUserSet < a
  · rw [if_pos ha, if_pos ha]
    rfl
  · rw [if_neg ha, if_neg ha]
    by_cases hb : maxUserSet < b
    · rw [if_pos hb, if_pos hb]
      rfl
    · rw [if_neg hb, if_neg hb, EStateM.run_bind, EStateM.run_get]
      simp only [run_retarget _ _ (fun fw => EStateM.run_modify _ fw)]
      rfl

theorem run_setEnable (disable enable : SetMask) (fw : Firewall) :
    (setEnable disable enable).run fw = endingIn fw (fw.setEnable disable enable) := by
  unfold setEnable Firewall.setEnable
  by_cases hdefault : disable.has defaultRuleSet = true
  · rw [if_pos hdefault, if_pos hdefault]
    rfl
  · rw [if_neg hdefault, if_neg hdefault, EStateM.run_bind, EStateM.run_get]
    simp only [run_retarget _ _ (fun fw => EStateM.run_modify _ fw)]
    rfl

theorem run_zeroCounters (number : Option UInt16) (logOnly : Bool) (fw : Firewall) :
    (zeroCounters number logOnly).run fw = endingIn fw (fw.zeroCounters number logOnly) := by
  unfold zeroCounters Firewall.zeroCounters
  rw [EStateM.run_bind, EStateM.run_get]
  cases number with
  | none =>
    simp only [EStateM.run_bind, run_forM_updateRule]
    cases logOnly with
    | false => rfl
    | true => rfl
  | some n =>
    simp only [EStateM.run_bind, run_forM_updateRule]
    by_cases hnone : (fw.chain.rules.filter fun r => r.number == n).isEmpty = true
    · -- The loop has cleared nothing.
      rw [if_pos hnone, if_pos hnone, List.isEmpty_iff.mp hnone]
      rfl
    · rw [if_neg hnone, if_neg hnone]
      rfl

theorem run_setBuckets (n : UInt32) (fw : Firewall) :
    (setBuckets n).run fw = endingIn fw (fw.setBuckets n) := by
  unfold setBuckets Firewall.setBuckets
  rw [EStateM.run_bind, EStateM.run_get]
  cases h : fw.engine.states.setBuckets n.toNat with
  | none => simp only [h]; rfl
  | some states => simp only [h]; rfl

/-- A procedure whose result is not asked for. -/
theorem run_discard {p : Procedure α} {result : Except ControlError (α × Firewall)}
    (h : p.run fw = ending fw result) :
    (discard p).run fw = endingIn fw (result.map Prod.snd) := by
  show EStateM.map (fun _ => ()) p fw = _
  have h : p fw = ending fw result := h
  unfold EStateM.map
  rw [h]
  cases result with
  | error e => rfl
  | ok result => rfl

theorem run_handle (request : DeleteRequest) (fw : Firewall) :
    (handle request).run fw = endingIn fw (fw.handle request) := by
  cases request with
  | rule number => exact run_deleteRule number fw
  | set set => exact run_discard (run_deleteSet set fw)
  | moveRule number target => exact run_discard (run_moveRule number target fw)
  | moveSet source target => exact run_discard (run_moveSet source target fw)
  | swapSets a b => exact run_swapSets a b fw

end Procedure

/-! ## Requests -/

/-- A request of administration that may be refused. -/
inductive AdminRequest where
  | addImage (image : RuleImage)
  | addBytes (bytes : List UInt8)
  | deleteRule (number : UInt16)
  | deleteSet (set : UInt8)
  | moveRule (number : UInt16) (set : UInt8)
  | moveSet (source target : UInt8)
  | swapSets (a b : UInt8)
  | setEnable (disable enable : SetMask)
  | zeroCounters (number : Option UInt16) (logOnly : Bool)
  | setBuckets (n : UInt32)
  | handle (request : DeleteRequest)

namespace AdminRequest

/-- Carry out the request in one go, or refuse it. -/
def outcome (fw : Firewall) : AdminRequest → Except ControlError Firewall
  | addImage image => (fw.addImage image).map Prod.snd
  | addBytes bytes => (fw.addBytes bytes).map Prod.snd
  | deleteRule number => fw.deleteRule number
  | deleteSet set => (fw.deleteSet set).map Prod.snd
  | moveRule number set => (fw.moveRule number set).map Prod.snd
  | moveSet source target => (fw.moveSet source target).map Prod.snd
  | swapSets a b => fw.swapSets a b
  | setEnable disable enable => fw.setEnable disable enable
  | zeroCounters number logOnly => fw.zeroCounters number logOnly
  | setBuckets n => fw.setBuckets n
  | handle request => fw.handle request

/-- Carry out the request bit by bit. -/
def procedure : AdminRequest → Procedure Unit
  | addImage image => discard (Procedure.addImage image)
  | addBytes bytes => discard (Procedure.addBytes bytes)
  | deleteRule number => Procedure.deleteRule number
  | deleteSet set => discard (Procedure.deleteSet set)
  | moveRule number set => discard (Procedure.moveRule number set)
  | moveSet source target => discard (Procedure.moveSet source target)
  | swapSets a b => Procedure.swapSets a b
  | setEnable disable enable => Procedure.setEnable disable enable
  | zeroCounters number logOnly => Procedure.zeroCounters number logOnly
  | setBuckets n => Procedure.setBuckets n
  | handle request => Procedure.handle request

/-- The operation of a session that carries the request out. -/
def operation : AdminRequest → Operation
  | addImage image => .add image
  | addBytes bytes => .addBytes bytes
  | deleteRule number => .change (.rule number)
  | deleteSet set => .change (.set set)
  | moveRule number set => .change (.moveRule number set)
  | moveSet source target => .change (.moveSet source target)
  | swapSets a b => .change (.swapSets a b)
  | setEnable disable enable => .setEnable disable enable
  | zeroCounters number logOnly => .zeroCounters number logOnly
  | setBuckets n => .setBuckets n
  | handle request => .change request

/-- **Every procedure is the operation.** -/
theorem run_procedure (request : AdminRequest) (fw : Firewall) :
    request.procedure.run fw = Procedure.endingIn fw (request.outcome fw) := by
  cases request with
  | addImage image => exact Procedure.run_discard (Procedure.run_addImage image fw)
  | addBytes bytes => exact Procedure.run_discard (Procedure.run_addBytes bytes fw)
  | deleteRule number => exact Procedure.run_deleteRule number fw
  | deleteSet set => exact Procedure.run_discard (Procedure.run_deleteSet set fw)
  | moveRule number set => exact Procedure.run_discard (Procedure.run_moveRule number set fw)
  | moveSet source target =>
    exact Procedure.run_discard (Procedure.run_moveSet source target fw)
  | swapSets a b => exact Procedure.run_swapSets a b fw
  | setEnable disable enable => exact Procedure.run_setEnable disable enable fw
  | zeroCounters number logOnly => exact Procedure.run_zeroCounters number logOnly fw
  | setBuckets n => exact Procedure.run_setBuckets n fw
  | handle request => exact Procedure.run_handle request fw

/-- What is refused as a request is refused as an operation. -/
theorem refuses_operation {request : AdminRequest} {s : Session} {e : ControlError}
    (h : request.outcome s.firewall = .error e) : s.Refuses request.operation := by
  have hmap : ∀ {α : Type} {result : Except ControlError (α × Firewall)},
      result.map Prod.snd = .error e → ∃ e, result = .error e := by
    intro α result hresult
    cases result with
    | error e => exact ⟨e, rfl⟩
    | ok result => cases hresult
  cases request with
  | addImage image => exact hmap h
  | addBytes bytes => exact hmap h
  | _ => exact ⟨e, h⟩

end AdminRequest

namespace Session

/-- **A request that is refused leaves nothing behind.** Carried out bit by bit it is refused if and
only if it is refused in one go, for the same reason, and then nothing of the firewall differs from
what it was: not the chain or the status of a rule, not the disabled sets, the counters or the state
table, and nothing has been written or asked for. -/
theorem refused_unchanged (s : Session) (request : AdminRequest) (e : ControlError) :
    (request.outcome s.firewall = .error e ↔
      ∃ fw', request.procedure.run s.firewall = .error e fw') ∧
    (∀ fw', request.procedure.run s.firewall = .error e fw' → fw' = s.firewall) ∧
    (request.outcome s.firewall = .error e → s.step request.operation = s) := by
  have hrun := request.run_procedure s.firewall
  have hstep : request.outcome s.firewall = .error e → s.step request.operation = s :=
    fun h => step_of_refuses (AdminRequest.refuses_operation h)
  cases houtcome : request.outcome s.firewall with
  | ok fw =>
    rw [houtcome] at hrun
    have hnot : ∀ fw', request.procedure.run s.firewall ≠ .error e fw' := by
      intro fw' h
      rw [hrun] at h
      cases h
    exact ⟨⟨fun h => (by cases h), fun ⟨fw', h⟩ => absurd h (hnot fw')⟩,
      fun fw' h => absurd h (hnot fw'), fun h => (by cases h)⟩
  | error e' =>
    rw [houtcome] at hrun hstep
    refine ⟨⟨?_, ?_⟩, fun fw' h => ?_, hstep⟩
    · rintro ⟨⟩
      exact ⟨_, hrun⟩
    · rintro ⟨fw', h⟩
      rw [hrun] at h
      cases h
      rfl
    · rw [hrun] at h
      cases h
      rfl

/-- Counters to be cleared of rules of which there are none, and rules to be put into the set of the
default rule. -/
theorem refused_unchanged_missing :
    let s := opened.run [.add limiter.assemble]
    let zero := AdminRequest.zeroCounters (some 60) false
    let move := AdminRequest.handle (.moveSet 0 31)
    zero.outcome s.firewall = .error (.ruleNotFound 60) ∧
      zero.procedure.run s.firewall = .error (.ruleNotFound 60) s.firewall ∧
      s.step zero.operation = s ∧
      move.outcome s.firewall = .error (.invalidSet 31) ∧
      move.procedure.run s.firewall = .error (.invalidSet 31) s.firewall ∧
      s.step move.operation = s := by
  intro s zero move
  have hzero : zero.outcome s.firewall = .error (.ruleNotFound 60) := by
    have hnone : (s.firewall.chain.rules.filter fun r => r.number == 60) = [] := by decide +kernel
    simp only [zero, AdminRequest.outcome, Firewall.zeroCounters, hnone]
    rfl
  have hmove : move.outcome s.firewall = .error (.invalidSet 31) := rfl
  have hrefused : ∀ (request : AdminRequest) e, request.outcome s.firewall = .error e →
      request.procedure.run s.firewall = .error e s.firewall ∧ s.step request.operation = s := by
    intro request e h
    obtain ⟨hiff, hsame, hstep⟩ := refused_unchanged s request e
    obtain ⟨fw', hrun⟩ := hiff.mp h
    rw [hsame fw' hrun] at hrun
    exact ⟨hrun, hstep h⟩
  obtain ⟨hzerorun, hzerostep⟩ := hrefused zero _ hzero
  obtain ⟨hmoverun, hmovestep⟩ := hrefused move _ hmove
  exact ⟨hzero, hzerorun, hzerostep, hmove, hmoverun, hmovestep⟩

end Session

end PacketFilter
