import PacketFilter.Proofs.StateTable.FlatTable

/-!
# Entries with numbers

Two entries of a table may be alike in every field, and an entry may be changed in all that
distinguishes it. To speak of one entry over time, a `Ledger` numbers the entries in the order in
which they are created: the number comes with the entry, stays with it however it is changed, leaves
with it, and is not used again. Nothing that a table does depends on the numbers: what is decided is
decided on `Ledger.flat`, the same entries without them.

A run of a ledger also says which entries packets have matched, each by its number. Any list of
entries can be numbered as it stands (`FlatTable.numbered`), and then no number is given twice
(`Distinct`).

Main statements: `flat_apply`, an operation does to the entries what it does without the numbers;
`flat_lookup`, the entry that a packet matches is the one that the table answers; **`flat_run`**, a
run leads to the entries that it leads to without the numbers.
-/

namespace PacketFilter

/-- State kept as one list of numbered entries, the newest first. -/
structure Ledger where
  config : StateConfig
  entries : List (Nat × Entry) := []
  /-- The number that the next entry gets. -/
  next : Nat := 0

/-- Charge the packet to the first entry that it matches, and say which that is. -/
def chargeNumbered (pkt : Packet) (lifetimes : Lifetimes) (now : Moment) :
    List (Nat × Entry) → Option ((Nat × StateHit) × List (Nat × Entry))
  | [] => none
  | (i, e) :: es =>
    match e.direction? pkt.flow now with
    | some dir =>
      let e := e.charge pkt dir lifetimes now
      some ((i, ⟨e, dir⟩), (i, e) :: es)
    | none =>
      match chargeNumbered pkt lifetimes now es with
      | some (hit, es) => some (hit, (i, e) :: es)
      | none => none

namespace Ledger

variable (l : Ledger)

/-- The table without the numbers. -/
def flat : FlatTable := { config := l.config, entries := l.entries.map Prod.snd }

/-! ## What is done to numbered entries -/

/-- Keep some of the entries. -/
def keep (p : Entry → Bool) : Ledger := { l with entries := l.entries.filter fun x => p x.2 }

/-- Change entries, which keep their numbers. -/
def change (f : Entry → Entry) : Ledger :=
  { l with entries := l.entries.map fun x => (x.1, f x.2) }

/-- Put a new entry in front, with a number of its own. -/
def insert (e : Entry) : Ledger :=
  { l with entries := (l.next, e) :: l.entries, next := l.next + 1 }

/-! ## Numbers of their own -/

/-- **No number is given twice**, or will be given again. -/
structure Distinct (l : Ledger) : Prop where
  nodup : (l.entries.map Prod.fst).Nodup
  below : ∀ x ∈ l.entries, x.1 < l.next

namespace Distinct

variable {l : Ledger}

/-- Leaving out entries, and changing others where they are. -/
theorem of_sublist {es : List (Nat × Entry)} (h : l.Distinct)
    (hnumbers : (es.map Prod.fst).Sublist (l.entries.map Prod.fst)) :
    Distinct { l with entries := es } := by
  refine ⟨h.nodup.sublist hnumbers, fun x hx => ?_⟩
  obtain ⟨y, hy, hsame⟩ := List.mem_map.mp (hnumbers.subset (List.mem_map_of_mem hx))
  exact hsame ▸ h.below y hy

theorem keep (h : l.Distinct) (p : Entry → Bool) : (l.keep p).Distinct :=
  h.of_sublist (List.filter_sublist.map _)

theorem change (h : l.Distinct) (f : Entry → Entry) : (l.change f).Distinct := by
  refine h.of_sublist ?_
  rw [List.map_map]
  exact List.Sublist.refl _

theorem insert (h : l.Distinct) (e : Entry) : (l.insert e).Distinct := by
  refine ⟨List.nodup_cons.mpr ⟨fun hmem => ?_, h.nodup⟩, fun x hx => ?_⟩
  · obtain ⟨x, hx, heq⟩ := List.mem_map.mp hmem
    exact Nat.ne_of_lt (h.below x hx) heq
  · rcases List.mem_cons.mp hx with rfl | hx
    · exact Nat.lt_succ_self _
    · exact Nat.lt_succ_of_lt (h.below x hx)

end Distinct

/-! ## Operations -/

/-- Remove the entries that are selected, and of those only the expired ones unless forced. -/
def removeWhere (selected : Entry → Bool) (force : Bool) (now : Moment) : Ledger :=
  let removed := l.flat.entries.filter (·.leaves selected force now)
  ((l.keep fun e => !e.leaves selected force now).change (·.release removed)).keep
    fun e => !e.leavesChildless selected force now

/-- Find the live entry for a packet's flow and charge the packet to it. -/
def lookup (pkt : Packet) (now : Moment) : Option (Nat × StateHit) × Ledger :=
  match chargeNumbered pkt l.config.lifetimes now l.entries with
  | some (hit, entries) => (some hit, { l with entries })
  | none => (none, l)

/-- Make room for so many more entries, by removing expired ones if there is none. -/
def reserve (need : Nat) (now : Moment) : Bool × Ledger :=
  if l.flat.hasRoom need then (true, l)
  else
    let l := l.removeWhere (fun _ => true) false now
    (l.flat.hasRoom need, l)

/-- Change the parent for a rule and a key. -/
def modifyParent (rule : Rule) (key : Flow) (f : Entry → Entry) : Ledger :=
  l.change fun e => if e.isParentFor rule key then f e else e

/-- Let the parent for a rule and a key live a short while longer. -/
def touchParent (rule : Rule) (key : Flow) (now : Moment) : Ledger :=
  l.modifyParent rule key fun p => { p with expires := now.plus l.config.lifetimes.short }

/-- Make room for a connection under a key, and for its parent if there is none. -/
def openParent (rule : Rule) (key : Flow) (now : Moment) : Bool × Ledger :=
  match l.reserve (if (l.flat.parent? rule key).isSome then 1 else 2) now with
  | (false, l) => (false, l)
  | (true, l) =>
    if (l.flat.parent? rule key).isSome then (true, l.touchParent rule key now)
    else
      match l.reserve 2 now with
      | (false, l) => (false, l)
      | (true, l) => (true, (l.insert (l.flat.freshParent rule key now)).touchParent rule key now)

/-- Remove expired connections under a key if there are as many as the limit allows. -/
def makeWay (rule : Rule) (key : Flow) (limit : Nat) (now : Moment) : Ledger :=
  if limit ≤ l.flat.childrenOf rule key then l.removeWhere (·.isChildOf rule key) false now else l

/-- Put a connection under its parent. -/
def insertChild (e : Entry) (key : Flow) : Ledger :=
  (l.modifyParent e.rule key fun p => { p with role := .parent (p.children + 1) }).insert e

/-- Create state for a packet's flow on behalf of a rule, which may be barred from it. -/
def install (enabled : Bool) (rule : Rule) (request : StateRequest) (pkt : Packet)
    (now : Moment) : Ledger :=
  if !enabled then l
  else if l.flat.holdsLive pkt.flow now then l
  else
    match request with
    | .keepState =>
      match l.reserve 1 now with
      | (false, l) => l
      | (true, l) => l.insert (l.flat.freshEntry pkt .keepState rule now)
    | .limit parts connections =>
      let key := pkt.flow.limitKey parts
      match l.openParent rule key now with
      | (false, l) => l
      | (true, l) =>
        let l := l.makeWay rule key connections.toNat now
        if connections.toNat ≤ l.flat.childrenOf rule key then l
        else l.insertChild (l.flat.freshEntry pkt (.child key) rule now) key

/-- Mark the entries that are due for probes. -/
def probeDue (now : Moment) : Ledger :=
  l.change fun e => if l.flat.isDue now e then { e with probed := some now } else e

/-- Carry out an operation, and say which entry a packet has matched. -/
def apply : TableOp → Option Nat × Ledger
  | .install enabled rule request pkt now => (none, l.install enabled rule request pkt now)
  | .lookup pkt now => ((l.lookup pkt now).1.map Prod.fst, (l.lookup pkt now).2)
  | .sweep now => (none, l.removeWhere (fun _ => true) false now)
  | .flush selected now => (none, l.removeWhere selected true now)
  | .flushRule rule now => (none, l.removeWhere (fun e => e.rule.id == rule.id) true now)
  | .flushAll now => (none, l.removeWhere (fun _ => true) true now)
  | .probe now => (none, l.probeDue now)
  | .setBuckets _ | .size | .report _ => (none, l)

/-- Carry out operations one after another: which entries packets have matched, and the ledger they
lead to. -/
def run (l : Ledger) : List TableOp → List Nat × Ledger
  | [] => ([], l)
  | op :: ops =>
    let (hit, l) := l.apply op
    let (hits, l) := l.run ops
    (hit.toList ++ hits, l)

theorem run_append (ops ops' : List TableOp) :
    l.run (ops ++ ops') =
      ((l.run ops).1 ++ ((l.run ops).2.run ops').1, ((l.run ops).2.run ops').2) := by
  induction ops generalizing l with
  | nil => rfl
  | cons op ops ih => simp only [List.cons_append, run, ih, List.append_assoc]

/-! ## What making room keeps -/

section

variable {l} {P : Ledger → Prop} {now : Moment} {rule : Rule} {key : Flow}
  (hremove : ∀ l selected, P l → P (removeWhere l selected false now))
include hremove

/-- **A property that is kept when expired entries are removed** is kept when room is made. -/
theorem reserve_keeps (h : P l) (need : Nat) : P (l.reserve need now).2 := by
  unfold reserve
  split
  · exact h
  · exact hremove l _ h

theorem openParent_keeps (htouch : ∀ l, P l → P (touchParent l rule key now))
    (hinsert : ∀ l, P l → P (insert l (l.flat.freshParent rule key now))) (h : P l) :
    P (l.openParent rule key now).2 := by
  unfold openParent
  generalize (if (l.flat.parent? rule key).isSome then 1 else 2) = need
  have h₁ := reserve_keeps hremove h need
  rcases hx : l.reserve need now with ⟨ok, l₁⟩
  rw [hx] at h₁
  cases ok with
  | false => exact h₁
  | true =>
    simp only
    split
    · exact htouch l₁ h₁
    · have h₂ := reserve_keeps hremove h₁ 2
      rcases hx₂ : l₁.reserve 2 now with ⟨ok, l₂⟩
      rw [hx₂] at h₂
      cases ok with
      | false => exact h₂
      | true => exact htouch _ (hinsert l₂ h₂)

theorem makeWay_keeps (h : P l) (limit : Nat) : P (l.makeWay rule key limit now) := by
  unfold makeWay
  split
  · exact hremove l _ h
  · exact h

end

/-! ## Without the numbers -/

@[simp] theorem config_flat : l.flat.config = l.config := rfl

@[simp] theorem entries_flat : l.flat.entries = l.entries.map Prod.snd := rfl

theorem flat_keep (p : Entry → Bool) :
    (l.keep p).flat = { l.flat with entries := l.flat.entries.filter p } := by
  simp only [flat, keep, List.filter_map, Function.comp_def]

theorem flat_change (f : Entry → Entry) :
    (l.change f).flat = { l.flat with entries := l.flat.entries.map f } := by
  simp only [flat, change, List.map_map, Function.comp_def]

theorem flat_insert (e : Entry) : (l.insert e).flat = l.flat.insert e := rfl

theorem flat_removeWhere (selected : Entry → Bool) (force : Bool) (now : Moment) :
    (l.removeWhere selected force now).flat = (l.flat.removeWhere selected force now).2 := by
  unfold removeWhere
  rw [flat_keep, flat_change, flat_keep]
  rfl

/-- Charging finds the same entry, and does the same to it. -/
theorem map_chargeNumbered (pkt : Packet) (lifetimes : Lifetimes) (now : Moment)
    (es : List (Nat × Entry)) :
    (chargeNumbered pkt lifetimes now es).map (fun r => (r.1.2, r.2.map Prod.snd)) =
      chargeFirst pkt lifetimes now (es.map Prod.snd) := by
  induction es with
  | nil => rfl
  | cons x es ih =>
    simp only [chargeNumbered, List.map_cons, chargeFirst]
    cases x.2.direction? pkt.flow now with
    | some dir => rfl
    | none =>
      simp only [← ih]
      cases chargeNumbered pkt lifetimes now es <;> rfl

/-- **The entry that a packet matches** is the one that the table answers. -/
theorem flat_lookup (pkt : Packet) (now : Moment) :
    l.flat.lookup pkt now = ((l.lookup pkt now).1.map Prod.snd, (l.lookup pkt now).2.flat) := by
  unfold FlatTable.lookup lookup
  rw [config_flat, entries_flat, ← map_chargeNumbered]
  cases chargeNumbered pkt l.config.lifetimes now l.entries <;> rfl

theorem flat_reserve (need : Nat) (now : Moment) :
    l.flat.reserve need now = ((l.reserve need now).1, (l.reserve need now).2.flat) := by
  unfold FlatTable.reserve reserve
  split
  · rfl
  · rw [← flat_removeWhere]

theorem flat_modifyParent (rule : Rule) (key : Flow) (f : Entry → Entry) :
    (l.modifyParent rule key f).flat = l.flat.modifyParent rule key f :=
  l.flat_change _

theorem flat_touchParent (rule : Rule) (key : Flow) (now : Moment) :
    (l.touchParent rule key now).flat = l.flat.touchParent rule key now :=
  l.flat_modifyParent rule key _

theorem flat_openParent (rule : Rule) (key : Flow) (now : Moment) :
    l.flat.openParent rule key now =
      ((l.openParent rule key now).1, (l.openParent rule key now).2.flat) := by
  unfold FlatTable.openParent openParent
  rw [flat_reserve]
  rcases l.reserve (if (l.flat.parent? rule key).isSome then 1 else 2) now with ⟨ok, l₁⟩
  cases ok with
  | false => rfl
  | true =>
    by_cases hfound : (l₁.flat.parent? rule key).isSome = true
    · simp only [if_pos hfound, flat_touchParent]
    · simp only [if_neg hfound, flat_reserve]
      rcases l₁.reserve 2 now with ⟨ok, l₂⟩
      cases ok with
      | false => rfl
      | true => simp only [flat_touchParent, flat_insert]

theorem flat_makeWay (rule : Rule) (key : Flow) (limit : Nat) (now : Moment) :
    (l.makeWay rule key limit now).flat = l.flat.makeWay rule key limit now := by
  unfold FlatTable.makeWay makeWay
  split
  · exact l.flat_removeWhere _ false now
  · rfl

theorem flat_insertChild (e : Entry) (key : Flow) :
    (l.insertChild e key).flat = l.flat.insertChild e key := by
  unfold FlatTable.insertChild insertChild
  rw [flat_insert, flat_modifyParent]

theorem flat_install (enabled : Bool) (rule : Rule) (request : StateRequest) (pkt : Packet)
    (now : Moment) :
    (l.install enabled rule request pkt now).flat =
      (l.flat.install enabled rule request pkt now).2 := by
  unfold FlatTable.install install
  by_cases henabled : (!enabled) = true
  · simp only [if_pos henabled]
  by_cases hlive : l.flat.holdsLive pkt.flow now = true
  · simp only [if_neg henabled, if_pos hlive]
  simp only [if_neg henabled, if_neg hlive]
  cases request with
  | keepState =>
    simp only [flat_reserve]
    rcases l.reserve 1 now with ⟨ok, l₁⟩
    cases ok <;> rfl
  | limit parts connections =>
    simp only [flat_openParent]
    rcases l.openParent rule (pkt.flow.limitKey parts) now with ⟨ok, l₁⟩
    cases ok with
    | false => rfl
    | true =>
      simp only [← flat_makeWay]
      split
      · rfl
      · exact flat_insertChild _ _ _

theorem flat_probeDue (now : Moment) : (l.probeDue now).flat = (l.flat.probeDue now).2.2 :=
  l.flat_change _

/-- **An operation does to the entries what it does without the numbers.** -/
theorem flat_apply (op : TableOp) : (l.apply op).2.flat = (l.flat.apply op).2 := by
  cases op with
  | install enabled rule request pkt now => exact l.flat_install enabled rule request pkt now
  | lookup pkt now => exact (congrArg Prod.snd (l.flat_lookup pkt now)).symm
  | sweep now => exact l.flat_removeWhere _ false now
  | flush selected now => exact l.flat_removeWhere selected true now
  | flushRule rule now => exact l.flat_removeWhere _ true now
  | flushAll now => exact l.flat_removeWhere _ true now
  | probe now => exact l.flat_probeDue now
  | setBuckets n => rfl
  | size => rfl
  | report now => rfl

/-- **So does a run.** -/
theorem flat_run (ops : List TableOp) : (l.run ops).2.flat = (l.flat.run ops).2 := by
  induction ops generalizing l with
  | nil => rfl
  | cons op ops ih =>
    show ((l.apply op).2.run ops).2.flat = ((l.flat.apply op).2.run ops).2
    rw [ih, flat_apply]

end Ledger

/-! ## Giving numbers -/

namespace FlatTable

/-- The entries as they stand, with numbers. -/
def numbered (t : FlatTable) : Ledger where
  config := t.config
  entries := t.entries.zipIdx.map Prod.swap
  next := t.entries.length

@[simp] theorem flat_numbered (t : FlatTable) : t.numbered.flat = t := by
  have hentries : (t.entries.zipIdx.map Prod.swap).map Prod.snd = t.entries := by
    rw [List.map_map]
    exact List.zipIdx_map_fst 0 t.entries
  simp only [Ledger.flat, numbered, hentries]

theorem numbered_distinct (t : FlatTable) : t.numbered.Distinct := by
  have hnumbers : t.numbered.entries.map Prod.fst = List.range t.entries.length := by
    rw [numbered, List.map_map, List.range_eq_range']
    exact List.zipIdx_map_snd 0 t.entries
  refine ⟨hnumbers ▸ List.nodup_range, fun x hx => List.mem_range.mp ?_⟩
  have hmem : x.1 ∈ t.numbered.entries.map Prod.fst := List.mem_map_of_mem hx
  rwa [hnumbers] at hmem

end FlatTable

end PacketFilter
