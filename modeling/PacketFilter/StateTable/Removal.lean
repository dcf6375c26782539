import PacketFilter.StateTable.Basic

/-!
# Removing entries

Entries are removed in two passes. The first removes entries that are no parents, and takes each
off its parent's count of children. The second removes parents that have no children left. Both
look only at the entries selected, and unless removal is forced only at those that have expired.
-/

namespace PacketFilter

namespace Entry

/-- Is the entry one that the first pass of `remove_where` removes? -/
def leaves (e : Entry) (selected : Entry → Bool) (force : Bool) (now : Moment) : Bool :=
  !e.isParent && selected e && (force || e.isExpired now)

/-- Is the entry one that the second pass removes? -/
def leavesChildless (e : Entry) (selected : Entry → Bool) (force : Bool) (now : Moment) : Bool :=
  e.isParent && e.children == 0 && selected e && (force || e.isExpired now)

/-- Take removed entries off the count of a parent (`limit_count`). -/
def release (e : Entry) (removed : List Entry) : Entry :=
  match e.role with
  | .parent n => { e with role := .parent (n - removed.countP (·.isChildOf e.rule e.flow)) }
  | _ => e

/-- Nothing but the count of children changes. -/
theorem rule_release (e : Entry) (removed : List Entry) : (e.release removed).rule = e.rule := by
  unfold release; split <;> rfl

theorem flow_release (e : Entry) (removed : List Entry) : (e.release removed).flow = e.flow := by
  unfold release; split <;> rfl

theorem isParent_release (e : Entry) (removed : List Entry) :
    (e.release removed).isParent = e.isParent := by
  unfold release; split <;> simp_all [isParent]

end Entry

namespace StateTable

/-- Remove the entries that are selected, and of those only the expired ones unless forced
(`DynTable::remove_where`). Says how many are removed. -/
def removeWhere (t : StateTable) (selected : Entry → Bool) (force : Bool) (now : Moment) :
    Nat × StateTable :=
  let removed := t.entries.filter (·.leaves selected force now)
  let first := t.mapBuckets fun b =>
    (b.filter fun e => !e.leaves selected force now).map (·.release removed)
  let childless := first.entries.countP (·.leavesChildless selected force now)
  let second := first.mapBuckets fun b => b.filter fun e => !e.leavesChildless selected force now
  let n := removed.length + childless
  (n, { second with count := t.count - n })

/-- Remove the expired entries (`age_sweep`). -/
def sweep (t : StateTable) (now : Moment) : Nat × StateTable :=
  t.removeWhere (fun _ => true) false now

/-- Remove the entries that are selected, expired or not. -/
def flush (t : StateTable) (selected : Entry → Bool) (now : Moment) : Nat × StateTable :=
  t.removeWhere selected true now

/-- Remove the entries of a rule. -/
def flushRule (t : StateTable) (rule : Rule) (now : Moment) : Nat × StateTable :=
  t.flush (fun e => e.rule.id == rule.id) now

/-- Remove all entries. -/
def flushAll (t : StateTable) (now : Moment) : Nat × StateTable := t.flush (fun _ => true) now

end StateTable

end PacketFilter
