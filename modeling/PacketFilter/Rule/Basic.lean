import PacketFilter.Rule.Image
import PacketFilter.Time
import PacketFilter.Wire.Codec

/-!
# Rules

A rule is an image that has been checked: its instructions are decoded, exactly one of them is an
action, and that one is the last. What never changes about a rule is in `Rule`. What does change,
its set, its counters and whether it may create state, is in `RuleStatus`, and a `Roster` holds
the status of every rule ever accepted under the number at which it was accepted. The filter has
both in one `Rule`, the changing part in atomic fields.

Main statements: `status_update_self` and `status_update_of_ne`, an update of one rule's status
changes that status and no other; `status_updateAll_of_mem` and `status_updateAll_of_not_mem`, the
same of several rules.
-/

namespace PacketFilter

/-! ## Checking an image -/

/-- Why an image is refused (`ValidationReason`). -/
inductive RuleError where
  /-- The bytes are not an image. -/
  | malformed (why : Wire.WireError)
  | insn (why : InsnError)
  | empty
  | missingAction
  | multipleActions (second : Opcode)
  | actionNotLast (action : Opcode)
  | badActionOffset (offset : UInt16)
  | reservedNumber
  | reservedSet (set : UInt8)
  deriving DecidableEq, Repr

/-- What is said about a refused image. -/
def RuleError.message (e : RuleError) : String :=
  "invalid rule: " ++
    match e with
    | .malformed why => "malformed rule encoding: " ++ why.message
    | .insn why => why.message
    | .empty => "empty rule"
    | .missingAction => "missing action"
    | .multipleActions op => "opcode " ++ op.name ++ ", multiple actions not allowed"
    | .actionNotLast op => "opcode " ++ op.name ++ ", action must be last opcode"
    | .badActionOffset offset =>
      "action offset " ++ toString offset.toNat ++ " does not start the action part"
    | .reservedNumber => "rule number 65535 is reserved for the default rule"
    | .reservedSet set => "set " ++ toString set.toNat ++ " is reserved"

/-- A checked rule, as it stays for as long as it exists. -/
structure Rule where
  /-- Tells rules apart; rules are numbered in the order in which they are accepted. -/
  id : Nat
  number : UInt16
  words : List Word
  actionOffset : UInt16
  insns : List Insn
  /-- The position of the action part among the instructions. -/
  actionIndex : Nat
  /-- How many matches may be logged before the counters are cleared; zero is no limit. -/
  logBudget : UInt32
  deriving DecidableEq, Repr

namespace Rule

/-- The instructions from the action part on. -/
def actionPart (r : Rule) : List Insn := r.insns.drop r.actionIndex

/-- The action. -/
def action (r : Rule) : Action :=
  match r.insns.getLast? with
  | some ⟨.act a, _⟩ => a
  | _ => .deny

/-- Is it the rule that ends every chain? -/
def isDefault (r : Rule) : Bool := r.number == defaultRuleNumber

/-- Does any instruction of the rule create state? -/
def createsState (r : Rule) : Bool := r.insns.any (·.command.createsState)

/-- The rule number in five digits and the instructions. -/
def render (r : Rule) : String :=
  " ".intercalate (zeroPadded 5 (toString r.number.toNat) :: Insn.shown r.insns)

/-- The image of the rule, in the set that it is in now (`to_ioc`). -/
def image (r : Rule) (set : UInt8) : RuleImage := ⟨r.number, set, r.actionOffset, r.words⟩

/-- The budget of the first log instruction; one that leaves it open gets `verboseLimit`
(`max_log`). -/
def budgetOf (insns : List Insn) (verboseLimit : UInt32) : UInt32 :=
  match insns.findSome? fun i => match i.command with
    | .log n => some n
    | _ => none with
  | some n => if n = 0 then verboseLimit else n
  | none => 0

/-- Where the action part begins: at the instruction at this offset, if all instructions from
there up to the action are log instructions (`act_idx`). -/
def actionStart? (decoded : List (Nat × Insn)) (offset : UInt16) : Option Nat :=
  match decoded.findIdx? (·.1 == offset.toNat) with
  | none => none
  | some k => if ((decoded.drop k).dropLast).all (·.2.command.isLog) then some k else none

/-- The action must be there, be the only one, and come last. -/
def checkActions (insns : List Insn) : Except RuleError Unit :=
  match insns.filter (·.command.isAction) with
  | [] => .error .missingAction
  | [a] =>
    if insns.getLast?.any (·.command.isAction) then .ok ()
    else .error (.actionNotLast a.command.opcode)
  | _ :: b :: _ => .error (.multipleActions b.command.opcode)

/-- The rule of decoded words: the checks of `from_ioc` behind the decoding. -/
def ofDecoded (id : Nat) (image : RuleImage) (verboseLimit : UInt32)
    (decoded : List (Nat × Insn)) : Except RuleError Rule :=
  match checkActions (decoded.map Prod.snd) with
  | .error e => .error e
  | .ok () =>
    match actionStart? decoded image.actionOffset with
    | none => .error (.badActionOffset image.actionOffset)
    | some k =>
      .ok
        { id
          number := image.number
          words := image.words
          actionOffset := image.actionOffset
          insns := decoded.map Prod.snd
          actionIndex := k
          logBudget := budgetOf (decoded.map Prod.snd) verboseLimit }

/-- Check an image (`Rule::from_ioc`). -/
def ofImage (id : Nat) (image : RuleImage) (verboseLimit : UInt32) : Except RuleError Rule :=
  if image.number = defaultRuleNumber then .error .reservedNumber
  else if maxUserSet < image.set then .error (.reservedSet image.set)
  else if image.words.isEmpty then .error .empty
  else
    match Insn.decodeAll image.words with
    | .error e => .error (.insn e)
    | .ok decoded => ofDecoded id image verboseLimit decoded

/-- The rule that ends every chain; its action is to accept or to deny (`Rule::new_default`). -/
def terminal (id : Nat) (accepts : Bool) : Rule :=
  let insn : Insn := ⟨.act (if accepts then .accept else .deny), .none⟩
  { id
    number := defaultRuleNumber
    words := insn.encode
    actionOffset := 0
    insns := [insn]
    actionIndex := 0
    logBudget := 0 }

end Rule

/-! ## What changes about a rule -/

/-- What the filter says when a rule asks whether a match may be logged. -/
inductive LogPermit where
  | log
  /-- Log, and say that it was the last time until the counters are cleared. -/
  | logLast
  | suppressed
  deriving DecidableEq, Repr

/-- The changing part of a rule. -/
structure RuleStatus where
  set : UInt8 := 0
  /-- May the rule create state? -/
  stateEnabled : Bool := true
  /-- Has the rule been removed from the chain? -/
  invalid : Bool := false
  logLeft : UInt32 := 0
  packets : UInt64 := 0
  bytes : UInt64 := 0
  /-- The second of the last match. -/
  lastMatch : UInt64 := 0
  deriving DecidableEq, Repr, Inhabited

namespace RuleStatus

/-- The status of a rule that has just been accepted. -/
def fresh (set : UInt8) (logBudget : UInt32) : RuleStatus := { set, logLeft := logBudget }

/-- Account for one packet. -/
def count (s : RuleStatus) (length : UInt16) (now : Moment) : RuleStatus :=
  { s with
    packets := s.packets + 1
    bytes := s.bytes + length.toUInt64
    lastMatch := now.seconds }

/-- Clear the counters, or the log budget only. -/
def zero (s : RuleStatus) (budget : UInt32) (logOnly : Bool) : RuleStatus :=
  if logOnly then { s with logLeft := budget }
  else { s with logLeft := budget, packets := 0, bytes := 0, lastMatch := 0 }

/-- May a match be logged (`log_permit`)? A permit is used up by asking; without a budget there is
no end. -/
def permitLog (s : RuleStatus) (budget : UInt32) : LogPermit × RuleStatus :=
  if budget = 0 then (.log, s)
  else if s.logLeft = 0 then (.suppressed, s)
  else if s.logLeft = 1 then (.logLast, { s with logLeft := 0 })
  else (.log, { s with logLeft := s.logLeft - 1 })

/-- Bar the rule from creating state. -/
def disableState (s : RuleStatus) : RuleStatus := { s with stateEnabled := false }

/-- Let the rule create state. -/
def enableState (s : RuleStatus) : RuleStatus := { s with stateEnabled := true }

/-- The rule has been removed, and will never create state again. -/
def markInvalid (s : RuleStatus) : RuleStatus := { s with stateEnabled := false, invalid := true }

end RuleStatus

/-! ## The roster -/

/-- The status of every rule ever accepted, by id. -/
structure Roster where
  statuses : Array RuleStatus := #[]
  deriving DecidableEq, Repr, Inhabited

namespace Roster

/-- The id of the rule that is accepted next. -/
def nextId (r : Roster) : Nat := r.statuses.size

/-- The status of a rule. -/
def status (r : Roster) (id : Nat) : RuleStatus := r.statuses.getD id default

/-- Add the status of a new rule. -/
def add (r : Roster) (s : RuleStatus) : Roster := ⟨r.statuses.push s⟩

/-- Change the status of one rule. -/
def update (r : Roster) (id : Nat) (f : RuleStatus → RuleStatus) : Roster :=
  ⟨r.statuses.modify id f⟩

/-- Change the status of several rules, one after another. -/
def updateAll (r : Roster) (rules : List Rule) (f : RuleStatus → RuleStatus) : Roster :=
  rules.foldl (fun r rule => r.update rule.id f) r

/-- The set that a rule is in. -/
def setOf (r : Roster) (rule : Rule) : UInt8 := (r.status rule.id).set

@[simp] theorem nextId_update (r : Roster) (id : Nat) (f : RuleStatus → RuleStatus) :
    (r.update id f).nextId = r.nextId := by
  simp [nextId, update]

@[simp] theorem nextId_add (r : Roster) (s : RuleStatus) : (r.add s).nextId = r.nextId + 1 := by
  simp [nextId, add]

/-- An update changes the status of the rule that it is about. -/
theorem status_update_self {r : Roster} {id : Nat} (h : id < r.nextId)
    (f : RuleStatus → RuleStatus) : (r.update id f).status id = f (r.status id) := by
  simp only [nextId] at h
  simp [status, update, h, Array.getElem_modify]

/-- An update changes the status of no other rule. -/
theorem status_update_of_ne {r : Roster} {id id' : Nat} (h : id' ≠ id)
    (f : RuleStatus → RuleStatus) : (r.update id f).status id' = r.status id' := by
  simp [status, update, Array.getElem?_modify, Ne.symm h]

/-- Updating several rules changes the status of no other rule. -/
theorem status_updateAll_of_not_mem {id : Nat} {f : RuleStatus → RuleStatus} :
    ∀ {rules : List Rule} (r : Roster), (∀ rule ∈ rules, rule.id ≠ id) →
      (r.updateAll rules f).status id = r.status id
  | [], _, _ => rfl
  | rule :: rules, r, h => by
    have hrest := fun x hx => h x (List.mem_cons_of_mem rule hx)
    refine (status_updateAll_of_not_mem (r.update rule.id f) hrest).trans ?_
    exact status_update_of_ne (Ne.symm (h rule List.mem_cons_self)) f

/-- Updating several rules, no two of one id, updates each of them once. -/
theorem status_updateAll_of_mem {f : RuleStatus → RuleStatus} {rule : Rule} :
    ∀ {rules : List Rule} (r : Roster), (rules.map Rule.id).Nodup → rule ∈ rules →
      rule.id < r.nextId → (r.updateAll rules f).status rule.id = f (r.status rule.id)
  | [], _, _, h, _ => absurd h List.not_mem_nil
  | first :: rules, r, hnodup, hmem, hlt => by
    obtain ⟨hfirst, hrest⟩ := List.nodup_cons.mp hnodup
    have hlt' : rule.id < (r.update first.id f).nextId := by rwa [nextId_update]
    rcases List.mem_cons.mp hmem with rfl | hmem
    · have hother : ∀ x ∈ rules, x.id ≠ rule.id := fun x hx heq =>
        hfirst (heq ▸ List.mem_map_of_mem hx)
      refine (status_updateAll_of_not_mem (r.update rule.id f) hother).trans ?_
      exact status_update_self hlt f
    · have hne : rule.id ≠ first.id := fun heq => hfirst (heq ▸ List.mem_map_of_mem hmem)
      refine (status_updateAll_of_mem (r.update first.id f) hrest hmem hlt').trans ?_
      rw [status_update_of_ne hne]

@[simp] theorem nextId_updateAll (rules : List Rule) (f : RuleStatus → RuleStatus) (r : Roster) :
    (r.updateAll rules f).nextId = r.nextId := by
  induction rules generalizing r with
  | nil => rfl
  | cons rule rules ih => exact (ih (r.update rule.id f)).trans (nextId_update r rule.id f)

/-- A new rule gets the status it is added with. -/
@[simp] theorem status_add_self (r : Roster) (s : RuleStatus) :
    (r.add s).status r.nextId = s := by
  simp [status, add, nextId]

/-- A new rule changes the status of no rule there is. -/
theorem status_add_of_lt {r : Roster} {id : Nat} (h : id < r.nextId) (s : RuleStatus) :
    (r.add s).status id = r.status id := by
  simp only [nextId] at h
  simp [status, add, Array.getElem?_push, h, Nat.ne_of_lt h]

end Roster

end PacketFilter
