import PacketFilter.Rule.Basic

/-!
# Chains of rules

The rules that packets walk along, in ascending order of number; rules of the same number stay in
the order in which they were added. A chain made by `Chain.new` ends with the default rule.

A walk moves along positions. After a rule that does not decide it goes on at the next position,
or, behind a rule that skips, at the first later rule numbered at or above the target. A `RuleChain`
remembers where its jumps lead; here `next` looks every time.

Main statements: `lt_next`, going on from a position always leads to a later one, and
`lt_continueAt`, so does going on after a rule from where it stands in the chain.
-/

namespace PacketFilter

/-- Why an administrative request is refused (`ControlError`, `ChainError`). -/
inductive ControlError where
  | ruleNotFound (number : UInt16)
  | invalidSet (set : UInt8)
  /-- The default rule cannot be deleted or moved. -/
  | defaultRule
  | validation (why : RuleError)
  | invalidBuckets (n : UInt32)
  deriving DecidableEq, Repr

/-- What is said about a refused request. -/
def ControlError.message : ControlError → String
  | .ruleNotFound n => "no rule numbered " ++ toString n.toNat
  | .invalidSet s => "invalid set " ++ toString s.toNat
  | .defaultRule => "the default rule cannot be changed"
  | .validation why => why.message
  | .invalidBuckets n => "invalid number of buckets " ++ toString n.toNat

/-- Rules in order, and how often their membership has changed (`RuleChain`). -/
structure Chain where
  rules : List Rule
  generation : Nat := 0
  deriving DecidableEq, Repr

namespace Chain

/-- The chain of a single rule. -/
def new (rule : Rule) : Chain := ⟨[rule], 0⟩

/-- The number of rules. -/
def length (c : Chain) : Nat := c.rules.length

/-- The rule at a position. -/
def get? (c : Chain) (i : Nat) : Option Rule := c.rules[i]?

/-- The default rule, if it is where it belongs. -/
def defaultRule? (c : Chain) : Option Rule := c.rules.getLast?.filter Rule.isDefault

/-! ## Positions -/

/-- The last position at which a rule with this id stands. -/
def lastPosition? (id : Nat) : List Rule → Option Nat
  | [] => none
  | r :: rs =>
    match lastPosition? id rs with
    | some i => some (i + 1)
    | none => if r.id = id then some 0 else none

/-- Where a rule stands in the chain (`index_of`). -/
def indexOf? (c : Chain) (r : Rule) : Option Nat := lastPosition? r.id c.rules

/-- The first position of a rule numbered strictly above `n` (`first_after_num`). -/
def firstAfter? (c : Chain) (n : UInt16) : Option Nat :=
  c.rules.findIdx? fun r => decide (n < r.number)

/-- Where a walk goes on after position `i` does not decide; the length of the chain if there is
nothing left (`next_rule_after`). -/
def next (c : Chain) (i : Nat) : Nat :=
  match c.get? i with
  | none => c.length
  | some r =>
    match r.action with
    | .skipTo target => i + 1 + (c.rules.drop (i + 1)).findIdx fun r => decide (target ≤ r.number)
    | _ => i + 1

/-- Where a walk goes on after a rule that may no longer be in the chain (`continue_after`). -/
def continueAt (c : Chain) (r : Rule) : Nat :=
  match c.indexOf? r with
  | some i => c.next i
  | none => (c.firstAfter? r.number).getD c.length

theorem get?_lt {c : Chain} {i : Nat} {r : Rule} (h : c.get? i = some r) : i < c.length :=
  (List.getElem?_eq_some_iff.1 h).1

theorem lastPosition?_lt {id : Nat} :
    ∀ {rs : List Rule} {i : Nat}, lastPosition? id rs = some i → i < rs.length
  | [], _, h => by simp [lastPosition?] at h
  | r :: rs, i, h => by
    simp only [lastPosition?] at h
    split at h
    · rename_i j hj
      cases h
      simpa using lastPosition?_lt hj
    · split at h
      · cases h
        exact Nat.zero_lt_succ _
      · cases h

/-- A rule's last position is not before any position at which it stands. -/
theorem le_lastPosition? :
    ∀ {rs : List Rule} {i : Nat} {r : Rule}, rs[i]? = some r →
      ∃ j, lastPosition? r.id rs = some j ∧ i ≤ j
  | [], _, _, h => by simp at h
  | r' :: rs, 0, r, h => by
    simp only [List.getElem?_cons_zero, Option.some.injEq] at h
    subst h
    simp only [lastPosition?]
    split
    · exact ⟨_, rfl, Nat.zero_le _⟩
    · exact ⟨0, by simp, Nat.le_refl _⟩
  | r' :: rs, i + 1, r, h => by
    obtain ⟨j, hj, hle⟩ := le_lastPosition? (show rs[i]? = some r by simpa using h)
    exact ⟨j + 1, by simp [lastPosition?, hj], by omega⟩

/-- Going on leads to a later position. -/
theorem lt_next {c : Chain} {i : Nat} (h : i < c.length) : i < c.next i := by
  unfold next
  split
  · exact h
  · split <;> omega

/-- Going on after a rule leads past every position at which it stands. -/
theorem lt_continueAt {c : Chain} {i : Nat} {r : Rule} (h : c.get? i = some r) :
    i < c.continueAt r := by
  obtain ⟨j, hj, hle⟩ := le_lastPosition? h
  have hlt := lt_next (c := c) (lastPosition?_lt hj)
  simp only [continueAt, indexOf?, hj]
  omega

/-! ## Membership -/

/-- Add a rule after those of the same and of smaller numbers, and say at which position. -/
def insert (c : Chain) (r : Rule) : Nat × Chain :=
  let i := (c.firstAfter? r.number).getD c.length
  (i, ⟨c.rules.insertIdx i r, c.generation + 1⟩)

/-- The highest number below that of the default rule (`last_rulenum`). -/
def lastNumber? (c : Chain) : Option UInt16 :=
  (c.rules.reverse.find? fun r => !r.isDefault).map Rule.number

/-- The rules that meet a condition, the default rule left out. -/
def select (c : Chain) (p : Rule → Bool) : List Rule := c.rules.filter fun r => !r.isDefault && p r

/-- Remove the rules that meet a condition, except the default rule. -/
def removeWhere (c : Chain) (p : Rule → Bool) : List Rule × Chain :=
  let removed := c.select p
  if removed.isEmpty then ([], c)
  else (removed, ⟨c.rules.filter fun r => !(!r.isDefault && p r), c.generation + 1⟩)

/-- Remove the rules of a number (`delete_by_number`). There must be one, and it must not be the
default rule's. -/
def deleteNumber (c : Chain) (n : UInt16) : Except ControlError (List Rule × Chain) :=
  if n = defaultRuleNumber then .error .defaultRule
  else
    let result := c.removeWhere fun r => r.number == n
    if result.1.isEmpty then .error (.ruleNotFound n) else .ok result

/-- Remove the rules of a set, which may be empty (`delete_by_set`). -/
def deleteSet (c : Chain) (roster : Roster) (set : UInt8) : List Rule × Chain :=
  c.removeWhere fun r => roster.setOf r == set

/-- Remove every rule but the default one (`RuleChain::flush`). -/
def flush (c : Chain) : List Rule × Chain := c.removeWhere fun _ => true

/-- Remove every rule, the default one last (`RuleChain::flush`). -/
def clear (c : Chain) : List Rule × Chain :=
  let result := c.flush
  (result.1 ++ result.2.rules, ⟨[], result.2.generation + 1⟩)

/-! ## Sets

Which set a rule is in is no part of the chain's shape: moves change the roster only. -/

/-- Put rules into a set. -/
def assign (roster : Roster) (rules : List Rule) (set : UInt8) : Roster :=
  roster.updateAll rules fun s => { s with set }

/-- Put the rules of a number into a set, and say how many there are (`move_rule_to_set`). -/
def moveNumber (c : Chain) (roster : Roster) (n : UInt16) (set : UInt8) : Nat × Roster :=
  let moved := c.select fun r => r.number == n
  (moved.length, assign roster moved set)

/-- Put the rules of one set into another, and say how many there are (`move_set_to_set`). -/
def moveSet (c : Chain) (roster : Roster) (source target : UInt8) : Nat × Roster :=
  let moved := c.select fun r => roster.setOf r == source
  (moved.length, assign roster moved target)

/-- The set that a rule of set `s` is in once sets `a` and `b` have changed places. -/
def exchanged (a b s : UInt8) : UInt8 := if s = a then b else if s = b then a else s

/-- Exchange the members of two sets. -/
def swapSets (c : Chain) (roster : Roster) (a b : UInt8) : Roster :=
  roster.updateAll (c.select fun _ => true) fun s => { s with set := exchanged a b s.set }

end Chain

end PacketFilter
