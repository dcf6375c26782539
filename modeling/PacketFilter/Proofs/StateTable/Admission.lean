import PacketFilter.Proofs.StateTable.Entrywise
import PacketFilter.Proofs.StateTable.Idling

/-!
# When state is created

Making room removes expired entries, but only once the table is full, and it may remove the very
parent under which a connection is asked for; then room is made a second time, for two entries. What
is answered in the end depends on none of this. Call an entry reclaimable if it has expired and,
where it is a parent, no connection under it is live. There is room exactly if the entries that are
not reclaimable leave it, whatever the table held besides them, and a limit is reached exactly if so
many live connections are under the key, whatever expired ones were counted with them.

`admission` is the answer in closed form. Main statements: `sweep_eq`, making room removes what is
reclaimable; `Sound.reserve_eq` and `Sound.openParent_eq`, when there is room;
`Sound.le_makeWay_iff`, when a limit is reached; **`run_admits`**, what is answered, and what the
table holds then.
-/

namespace PacketFilter

/-! ## The answer -/

/-- The number of live connections under a rule and a key. -/
def liveUnder (es : List Entry) (rule : Rule) (key : Flow) (now : Moment) : Nat :=
  es.countP fun e => e.isChildOf rule key && !e.isExpired now

/-- Does making room remove the entry? It has expired, and if it is a parent, then no connection
under it is live. -/
def Entry.isReclaimable (e : Entry) (es : List Entry) (now : Moment) : Bool :=
  e.isExpired now && (!e.isParent || liveUnder es e.rule e.flow now == 0)

/-- The number of entries that making room leaves. -/
def lasting (es : List Entry) (now : Moment) : Nat := es.countP fun e => !e.isReclaimable es now

/-- Is there a parent for a rule and a key that making room leaves? -/
def hasLastingParent (es : List Entry) (rule : Rule) (key : Flow) (now : Moment) : Bool :=
  es.any fun p => p.isParentFor rule key && !p.isReclaimable es now

/-- The number of entries that a connection under a key needs room for: its own, and one for its
parent if none is there to stay. -/
def needUnder (es : List Entry) (rule : Rule) (key : Flow) (now : Moment) : Nat :=
  if hasLastingParent es rule key now then 1 else 2

namespace StateRequest

/-- The number of entries that a request needs room for. -/
def need (request : StateRequest) (es : List Entry) (rule : Rule) (flow : Flow) (now : Moment) :
    Nat :=
  match request with
  | .keepState => 1
  | .limit parts _ => needUnder es rule (flow.limitKey parts) now

/-- What the entry that is asked for is for. -/
def role (request : StateRequest) (flow : Flow) : EntryRole :=
  match request with
  | .keepState => .keepState
  | .limit parts _ => .child (flow.limitKey parts)

/-- **A request is served**: packets of the flow match exactly one entry, which is for what the rule
asked for. A connection under a limit has its parent. -/
def Served (request : StateRequest) (rule : Rule) (flow : Flow) (now : Moment) (es : List Entry) :
    Prop :=
  ∃ e, es.filter (fun x => (x.direction? flow now).isSome) = [e] ∧ e.flow = flow ∧ e.rule = rule ∧
    e.role = request.role flow ∧
    ∀ key, e.role = .child key → ∃ p ∈ es, p.isParentFor rule key = true

/-- It does not matter in which order the entries are. -/
theorem Served.perm {request : StateRequest} {rule : Rule} {flow : Flow} {now : Moment}
    {es es' : List Entry} (h : request.Served rule flow now es) (hperm : es.Perm es') :
    request.Served rule flow now es' := by
  obtain ⟨e, hfilter, hflow, hrule, hrole, hparent⟩ := h
  refine ⟨e, ?_, hflow, hrule, hrole, fun key hkey => ?_⟩
  · have hsame := hperm.filter fun x => (x.direction? flow now).isSome
    rw [hfilter] at hsame
    exact (List.singleton_perm.mp hsame).symm
  · obtain ⟨p, hp, hfor⟩ := hparent key hkey
    exact ⟨p, hperm.mem_iff.mp hp, hfor⟩

end StateRequest

/-- What becomes of a request for state. -/
inductive Admission where
  | barred
  /-- There is live state for the flow. -/
  | held
  | full
  | exceeded (connections : UInt16)
  | admitted
  deriving DecidableEq, Repr

/-- What is answered. -/
def Admission.answer (rule : Rule) (capacity : Nat) : Admission → Except StateError Unit
  | .barred => .error (.creationDisabled rule.number)
  | .held | .admitted => .ok ()
  | .full => .error (.capacity capacity)
  | .exceeded connections => .error (.limitExceeded connections)

/-- **What becomes of a request**, read off the entries. -/
def admission (es : List Entry) (capacity : Nat) (enabled : Bool) (rule : Rule)
    (request : StateRequest) (flow : Flow) (now : Moment) : Admission :=
  if !enabled then .barred
  else if es.any fun e => (e.direction? flow now).isSome then .held
  else if capacity < lasting es now + request.need es rule flow now then .full
  else
    match request with
    | .keepState => .admitted
    | .limit parts connections =>
      let key := flow.limitKey parts
      if es.any (·.isParentFor rule key) &&
          decide (connections.toNat ≤ liveUnder es rule key now) then .exceeded connections
      else .admitted

/-- What is under a rule and a key has its parent there. -/
theorem Accounted.exists_parent {es : List Entry} (h : Accounted es) {e : Entry} (he : e ∈ es)
    {rule : Rule} {key : Flow} (hchild : e.isChildOf rule key = true) :
    ∃ p ∈ es, p.isParentFor rule key = true := by
  obtain ⟨hrole, hid⟩ := Entry.isChildOf_iff.mp hchild
  obtain ⟨p, hp, hfor⟩ := h.parented e he key hrole
  obtain ⟨hparent, hid', hflow⟩ := Entry.isParentFor_iff.mp hfor
  exact ⟨p, hp, Entry.isParentFor_iff.mpr ⟨hparent, hid'.trans hid, hflow⟩⟩

section

variable {es : List Entry} {capacity : Nat} {rule : Rule} {request : StateRequest} {flow : Flow}
  {now : Moment} (hnone : (es.any fun e => (e.direction? flow now).isSome) = false)
include hnone

/-- Without live state for the flow, more is looked at. -/
theorem admission_ne : admission es capacity true rule request flow now ≠ .barred ∧
    admission es capacity true rule request flow now ≠ .held := by
  simp only [admission, Bool.not_true, Bool.false_eq_true, if_false, hnone]
  split
  · simp
  cases request with
  | keepState => simp
  | limit parts connections =>
    simp only
    split <;> simp

theorem admission_full (hfull : capacity < lasting es now + request.need es rule flow now) :
    admission es capacity true rule request flow now = .full := by
  simp only [admission, Bool.not_true, Bool.false_eq_true, if_false, hnone, if_pos hfull]

theorem admission_keepState (hfits : lasting es now + 1 ≤ capacity) :
    admission es capacity true rule .keepState flow now = .admitted := by
  simp only [admission, Bool.not_true, Bool.false_eq_true, if_false, hnone]
  exact if_neg (Nat.not_lt.mpr hfits)

/-- If no connections at all were allowed, there would be a difference where there is no parent. -/
theorem admission_limit {parts : LimitParts} {connections : UInt16} (haccounted : Accounted es)
    (hlimit : connections ≠ 0)
    (hfits : lasting es now + needUnder es rule (flow.limitKey parts) now ≤ capacity) :
    admission es capacity true rule (.limit parts connections) flow now =
      if connections.toNat ≤ liveUnder es rule (flow.limitKey parts) now then .exceeded connections
      else .admitted := by
  have hparent : connections.toNat ≤ liveUnder es rule (flow.limitKey parts) now →
      (es.any (·.isParentFor rule (flow.limitKey parts))) = true := by
    intro hreached
    have hallowed : 0 < connections.toNat :=
      Nat.pos_of_ne_zero fun hzero => hlimit (UInt16.toNat_inj.mp hzero)
    have hpos : 0 < liveUnder es rule (flow.limitKey parts) now := by omega
    obtain ⟨e, he, hlive⟩ := List.countP_pos_iff.mp hpos
    exact List.any_eq_true.mpr (haccounted.exists_parent he (Bool.and_eq_true_iff.mp hlive).1)
  simp only [admission, Bool.not_true, Bool.false_eq_true, if_false, hnone]
  refine (if_neg (Nat.not_lt.mpr hfits)).trans (if_congr ?_ rfl rfl)
  rw [Bool.and_eq_true_iff, decide_eq_true_iff]
  exact and_iff_right_of_imp hparent

end

/-- The order of the entries does not matter. -/
theorem admission_perm {es es' : List Entry} (h : es.Perm es') :
    admission es = admission es' := by
  have hlive : ∀ rule key now, liveUnder es rule key now = liveUnder es' rule key now :=
    fun rule key now => h.countP_eq _
  have hreclaimable : ∀ (e : Entry) now, e.isReclaimable es now = e.isReclaimable es' now :=
    fun e now => by simp only [Entry.isReclaimable, hlive]
  have hlasting : ∀ now, lasting es now = lasting es' now := fun now => by
    simp only [lasting, hreclaimable]
    exact h.countP_eq _
  have hparent : ∀ rule key now,
      hasLastingParent es rule key now = hasLastingParent es' rule key now := fun rule key now => by
    simp only [hasLastingParent, hreclaimable]
    exact h.any_eq
  have hneed : ∀ request : StateRequest, request.need es = request.need es' := fun request => by
    cases request with
    | keepState => rfl
    | limit parts connections =>
      funext rule flow now
      simp only [StateRequest.need, needUnder, hparent]
  funext capacity enabled rule request flow now
  simp only [admission, hlive, hlasting, hneed, h.any_eq]

/-! ## What making room removes -/

section

variable {es : List Entry} {now : Moment}

theorem Entry.isExpired_release (e : Entry) (removed : List Entry) (now : Moment) :
    (e.release removed).isExpired now = e.isExpired now := by
  unfold release
  split <;> rfl

/-- A connection is removed in the first pass, if at all, and is released by nothing. -/
theorem countP_remaining (selected : Entry → Bool) (rule : Rule) (key : Flow) (p : Entry → Bool) :
    (remaining es selected false now).countP (fun e => e.isChildOf rule key && p e) =
      es.countP fun e => e.isChildOf rule key && p e && !(selected e && e.isExpired now) := by
  unfold remaining afterFirstPass
  rw [List.countP_filter, List.countP_map, List.countP_filter]
  refine List.countP_congr fun e _ => ?_
  cases hchild : e.isChildOf rule key with
  | false => simp [Entry.isChildOf_release, hchild]
  | true =>
    have hparent := Entry.isParent_eq_false_of_isChildOf hchild
    simp [Entry.release_of_not_isParent hparent, Entry.leaves, Entry.leavesChildless, hchild,
      hparent]

/-- No live connection is removed. -/
theorem liveUnder_remaining (selected : Entry → Bool) (rule : Rule) (key : Flow) :
    liveUnder (remaining es selected false now) rule key now = liveUnder es rule key now := by
  unfold liveUnder
  rw [countP_remaining]
  refine List.countP_congr fun e _ => ?_
  cases e.isExpired now <;> simp

/-- Once the expired connections under a key are removed, those that are left are live. -/
theorem countP_remaining_children (rule : Rule) (key : Flow) :
    (remaining es (·.isChildOf rule key) false now).countP (·.isChildOf rule key) =
      liveUnder es rule key now := by
  have hcount : (remaining es (·.isChildOf rule key) false now).countP
      (fun e => e.isChildOf rule key && true) = _ := countP_remaining _ rule key fun _ => true
  simp only [Bool.and_true] at hcount
  rw [hcount]
  refine List.countP_congr fun e _ => ?_
  cases e.isChildOf rule key <;> simp

/-- What is left of a parent's number once the expired connections are removed. -/
theorem Accounted.children_release (h : Accounted es) {p : Entry} (hp : p ∈ es)
    (hparent : p.isParent = true) :
    (p.release (es.filter (·.leaves (fun _ => true) false now))).children =
      liveUnder es p.rule p.flow now := by
  have hcount := h.counted p hp _ (Entry.role_of_isParent hparent)
  have hsplit := List.countP_eq_countP_filter_add es (·.isChildOf p.rule p.flow)
    (·.leaves (fun _ => true) false now)
  have hlive : (es.filter fun e => !e.leaves (fun _ => true) false now).countP
      (·.isChildOf p.rule p.flow) = liveUnder es p.rule p.flow now := by
    rw [List.countP_filter]
    refine List.countP_congr fun e _ => ?_
    cases hchild : e.isChildOf p.rule p.flow with
    | false => simp
    | true => simp [Entry.leaves, Entry.isParent_eq_false_of_isChildOf hchild]
  rw [Entry.children_of_role (Entry.role_release (Entry.role_of_isParent hparent) _)]
  omega

/-- What the two passes leave of some of the entries, such as those of one bucket. -/
theorem Accounted.passes_eq (h : Accounted es) {part : List Entry} (hpart : ∀ e ∈ part, e ∈ es) :
    ((part.filter fun e => !e.leaves (fun _ => true) false now).map
      (·.release (es.filter (·.leaves (fun _ => true) false now)))).filter
        (fun e => !e.leavesChildless (fun _ => true) false now) =
      (part.filter fun e => !e.isReclaimable es now).map
        (·.release (es.filter (·.leaves (fun _ => true) false now))) := by
  rw [List.filter_map, List.filter_filter]
  refine congrArg _ (List.filter_congr fun e he => ?_)
  rw [Function.comp_apply]
  cases hparent : e.isParent with
  | false =>
    simp [Entry.leaves, Entry.leavesChildless, Entry.isReclaimable, Entry.isParent_release, hparent]
  | true =>
    have hstays : e.leaves (fun _ => true) false now = false := by simp [Entry.leaves, hparent]
    simp only [Entry.leavesChildless, Entry.isReclaimable, Entry.isParent_release,
      Entry.isExpired_release, hparent, h.children_release (hpart e he) hparent, hstays]
    cases e.isExpired now <;> simp

/-- **Making room removes what is reclaimable**, and nothing else. -/
theorem Accounted.sweep_eq (h : Accounted es) :
    PacketFilter.remaining es (fun _ => true) false now =
      (es.filter fun e => !e.isReclaimable es now).map
        (·.release (es.filter (·.leaves (fun _ => true) false now))) :=
  h.passes_eq fun _ he => he

theorem Accounted.length_sweep (h : Accounted es) :
    (PacketFilter.remaining es (fun _ => true) false now).length = lasting es now := by
  rw [h.sweep_eq, List.length_map, lasting, List.countP_eq_length_filter]

/-- What is left is not reclaimable: to make room once more removes nothing. -/
theorem Accounted.lasting_sweep (h : Accounted es) :
    lasting (PacketFilter.remaining es (fun _ => true) false now) now = lasting es now := by
  rw [← h.length_sweep]
  refine List.countP_eq_length.mpr fun e' he' => ?_
  rw [h.sweep_eq] at he'
  obtain ⟨e, he, rfl⟩ := List.mem_map.mp he'
  have hlasts := (List.mem_filter.mp he).2
  simpa only [Entry.isReclaimable, Entry.isExpired_release, Entry.isParent_release,
    Entry.rule_release, Entry.flow_release, liveUnder_remaining] using hlasts

theorem lasting_le (es : List Entry) (now : Moment) : lasting es now ≤ es.length :=
  List.countP_le_length

/-- An entry that is reclaimable takes up room. -/
theorem lasting_lt {e : Entry} (he : e ∈ es) (hreclaimable : e.isReclaimable es now = true) :
    lasting es now < es.length := by
  refine Nat.lt_of_le_of_ne (lasting_le es now) fun hall => ?_
  have hlasts := List.countP_eq_length.mp hall e he
  rw [hreclaimable] at hlasts
  cases hlasts

end

/-! ## On the list -/

namespace FlatTable

variable {config : StateConfig} {l : FlatTable} {rule : Rule} {key : Flow} {now : Moment}

/-- **There is room** if the entries that are not reclaimable leave it. -/
theorem Sound.reserve_eq (h : l.Sound config) (need : Nat) :
    (l.reserve need now).1 = decide (lasting l.entries now + need ≤ config.capacity) := by
  unfold FlatTable.reserve
  split
  · rename_i hroom
    have hroom := of_decide_eq_true hroom
    have := lasting_le l.entries now
    rw [h.settings] at hroom
    exact (decide_eq_true (by omega)).symm
  · show decide ((remaining l.entries (fun _ => true) false now).length + need ≤
      l.config.capacity) = _
    rw [h.accounted.length_sweep, h.settings]

theorem Sound.lasting_reserve (h : l.Sound config) (need : Nat) :
    lasting (l.reserve need now).2.entries now = lasting l.entries now := by
  unfold FlatTable.reserve
  split
  · rfl
  · exact h.accounted.lasting_sweep

/-- A parent is left by making room unless it is reclaimable. -/
theorem Sound.isSome_parent?_sweep (h : l.Sound config) (rule : Rule) (key : Flow) :
    ((l.removeWhere (fun _ => true) false now).2.parent? rule key).isSome =
      hasLastingParent l.entries rule key now := by
  rw [Bool.eq_iff_iff, isSome_parent?_iff]
  unfold FlatTable.removeWhere hasLastingParent
  simp only [h.accounted.sweep_eq, List.any_eq_true, List.mem_map, List.mem_filter,
    Bool.and_eq_true, Bool.not_eq_true']
  constructor
  · rintro ⟨_, ⟨p, ⟨hp, hlasts⟩, rfl⟩, hfor⟩
    rw [Entry.isParentFor_release] at hfor
    exact ⟨p, hp, hfor, hlasts⟩
  · rintro ⟨p, hp, hfor, hlasts⟩
    exact ⟨_, ⟨p, ⟨hp, hlasts⟩, rfl⟩, by rw [Entry.isParentFor_release, hfor]⟩

/-- If a parent is there and goes when room is made, then the table holds more than what lasts. -/
theorem lasting_lt_of_parent (hfound : (l.parent? rule key).isSome = true)
    (hgoes : hasLastingParent l.entries rule key now = false) :
    lasting l.entries now < l.entries.length := by
  obtain ⟨p, hp, hfor⟩ := isSome_parent?_iff.mp hfound
  have hreclaimable := List.any_eq_false.mp hgoes p hp
  simp only [hfor, Bool.true_and, Bool.not_eq_true', Bool.not_eq_false] at hreclaimable
  exact lasting_lt hp hreclaimable

/-- There is no parent to stay where there is none at all. -/
theorem hasLastingParent_eq_false (hnone : ¬ (l.parent? rule key).isSome = true) :
    hasLastingParent l.entries rule key now = false := by
  refine List.any_eq_false.mpr fun p hp hstays => hnone ?_
  exact isSome_parent?_iff.mpr ⟨p, hp, (Bool.and_eq_true_iff.mp hstays).1⟩

/-- A parent is there after room was made if nothing was removed, or if it stays. -/
theorem Sound.isSome_parent?_reserve (h : l.Sound config) (rule : Rule) (key : Flow) (need : Nat) :
    ((l.reserve need now).2.parent? rule key).isSome =
      if l.hasRoom need then (l.parent? rule key).isSome
      else hasLastingParent l.entries rule key now := by
  unfold FlatTable.reserve
  split
  · rfl
  · exact h.isSome_parent?_sweep rule key

/-- There is room for a connection under a key if there is after the first try, and after the second
unless the parent is there by then. -/
theorem fst_openParent (l : FlatTable) (rule : Rule) (key : Flow) (now : Moment) :
    (l.openParent rule key now).1 =
      let first := l.reserve (if (l.parent? rule key).isSome then 1 else 2) now
      first.1 && ((first.2.parent? rule key).isSome || (first.2.reserve 2 now).1) := by
  unfold openParent
  generalize (if (l.parent? rule key).isSome then 1 else 2) = need
  rcases l.reserve need now with ⟨ok, l₁⟩
  cases ok with
  | false => rfl
  | true =>
    simp only [Bool.true_and]
    split
    · rename_i hfound
      rw [hfound, Bool.true_or]
    · rename_i hnone
      rw [Bool.eq_false_iff.mpr hnone, Bool.false_or]
      rcases l₁.reserve 2 now with ⟨ok, l₂⟩
      cases ok <;> rfl

/-- **Room for a connection and its parent**: it does not matter when room is made, nor whether that
removes the parent that was found. -/
theorem Sound.openParent_eq (h : l.Sound config) (rule : Rule) (key : Flow) :
    (l.openParent rule key now).1 =
      decide (lasting l.entries now + needUnder l.entries rule key now ≤ config.capacity) := by
  rw [fst_openParent]
  simp only [h.reserve_eq, (h.reserve now _).reserve_eq, h.lasting_reserve,
    h.isSome_parent?_reserve]
  rw [Bool.eq_iff_iff]
  simp only [Bool.and_eq_true, Bool.or_eq_true, decide_eq_true_eq]
  unfold needUnder
  by_cases hfound : (l.parent? rule key).isSome = true
  · rw [if_pos hfound, hfound]
    by_cases hroom : l.hasRoom 1 = true
    · -- Nothing is removed. A parent that could be takes up the room of a new one.
      have hfits : l.entries.length + 1 ≤ config.capacity := h.settings ▸ of_decide_eq_true hroom
      have hle := lasting_le l.entries now
      rw [if_pos hroom]
      cases hstays : hasLastingParent l.entries rule key now with
      | true => exact and_iff_left (Or.inl rfl)
      | false =>
        have hlt := lasting_lt_of_parent hfound hstays
        rw [if_neg Bool.false_ne_true]
        omega
    · rw [if_neg hroom]
      cases hstays : hasLastingParent l.entries rule key now with
      | true => exact and_iff_left (Or.inl rfl)
      | false =>
        rw [if_neg Bool.false_ne_true]
        exact ⟨fun h => h.2.resolve_left Bool.false_ne_true, fun h => ⟨by omega, Or.inr h⟩⟩
  · rw [if_neg hfound, hasLastingParent_eq_false hfound, if_neg Bool.false_ne_true]
    exact and_iff_left_of_imp Or.inr

/-- A parent that lives for longer is still no connection. -/
theorem liveUnder_touchParent (rule' : Rule) (key' : Flow) :
    liveUnder (l.touchParent rule' key' now).entries rule key now =
      liveUnder l.entries rule key now := by
  unfold liveUnder touchParent modifyParent
  rw [List.countP_map]
  refine List.countP_congr fun e _ => ?_
  rw [Function.comp_apply]
  split
  · rename_i hfor
    have hparent := (Entry.isParentFor_iff.mp hfor).1
    show (e.isChildOf rule key && _) = true ↔ _
    rw [Entry.isChildOf_of_isParent hparent, Bool.false_and, Bool.false_and]
  · exact Iff.rfl

theorem liveUnder_openParent (rule' : Rule) (key' : Flow) :
    liveUnder (l.openParent rule' key' now).2.entries rule key now =
      liveUnder l.entries rule key now := by
  refine openParent_keeps
    (P := fun l' => liveUnder l'.entries rule key now = liveUnder l.entries rule key now)
    (fun _ selected h => (liveUnder_remaining selected rule key).trans h)
    (fun _ h => (liveUnder_touchParent rule' key').trans h) (fun _ h => Eq.trans ?_ h) rfl
  exact List.countP_cons_of_neg (by simp [freshParent, Entry.isChildOf])

/-- The number under a key is that of the connections there, whether there is a parent or not. -/
theorem Sound.childrenOf_eq (h : l.Sound config) (rule : Rule) (key : Flow) :
    l.childrenOf rule key = l.entries.countP (·.isChildOf rule key) := by
  by_cases hfound : (l.parent? rule key).isSome = true
  · obtain ⟨p, hp, hfor⟩ := isSome_parent?_iff.mp hfound
    obtain ⟨hparent, hid, hflow⟩ := Entry.isParentFor_iff.mp hfor
    rw [← h.children_eq hp hfor, h.accounted.counted p hp _ (Entry.role_of_isParent hparent), hflow]
    refine List.countP_congr fun e _ => ?_
    rw [Entry.isChildOf_iff, Entry.isChildOf_iff, hid]
  · have hnone : l.parent? rule key = none := by simpa using hfound
    rw [childrenOf, hnone]
    refine (List.countP_eq_zero.mpr fun e he hchild => hfound ?_).symm
    exact isSome_parent?_iff.mpr (h.accounted.exists_parent he hchild)

/-- **The limit is reached** if so many live connections are under the key: expired ones that are
counted with them are removed before it is said. -/
theorem Sound.le_makeWay_iff (h : l.Sound config) (rule : Rule) (key : Flow) (limit : Nat)
    (now : Moment) :
    limit ≤ (l.makeWay rule key limit now).childrenOf rule key ↔
      limit ≤ liveUnder l.entries rule key now := by
  have hle : liveUnder l.entries rule key now ≤ l.childrenOf rule key := by
    rw [h.childrenOf_eq]
    exact List.countP_mono_left fun e _ hlive => (Bool.and_eq_true_iff.mp hlive).1
  unfold FlatTable.makeWay
  split
  · rw [(h.removeWhere now _ false).childrenOf_eq]
    exact Iff.of_eq (congrArg (limit ≤ ·) (countP_remaining_children rule key))
  · omega

end FlatTable

/-! ## What the table holds then -/

theorem Entry.direction?_release (e : Entry) (removed : List Entry) (flow : Flow) (now : Moment) :
    (e.release removed).direction? flow now = e.direction? flow now := by
  simp only [direction?, isParent_release, flow_release, isExpired_release]

theorem Entry.direction?_of_isParent {e : Entry} (h : e.isParent = true) (flow : Flow)
    (now : Moment) : e.direction? flow now = none := if_pos h

namespace FlatTable

variable {config : StateConfig} {l : FlatTable} {rule : Rule} {key flow : Flow} {now : Moment}

/-- Making room makes no entry that packets of a flow could match. -/
theorem holdsLive_removeWhere (h : l.holdsLive flow now = false) (selected : Entry → Bool) :
    (l.removeWhere selected false now).2.holdsLive flow now = false := by
  refine List.any_eq_false.mpr fun e he => ?_
  obtain ⟨e₀, he₀, removed, rfl⟩ := exists_of_mem_remaining he
  rw [Entry.direction?_release]
  exact List.any_eq_false.mp h e₀ he₀

/-- Nor does changing parents, as long as they stay parents. -/
theorem holdsLive_modifyParent (h : l.holdsLive flow now = false) (rule : Rule) (key : Flow)
    {f : Entry → Entry} (hf : ∀ p : Entry, p.isParent = true → (f p).isParent = true) :
    (l.modifyParent rule key f).holdsLive flow now = false := by
  refine List.any_eq_false.mpr fun e he => ?_
  obtain ⟨e₀, he₀, rfl⟩ := List.mem_map.mp he
  split
  · rename_i hfor
    rw [Entry.direction?_of_isParent (hf e₀ (Entry.isParentFor_iff.mp hfor).1)]
    exact Bool.false_ne_true
  · exact List.any_eq_false.mp h e₀ he₀

theorem holdsLive_openParent (h : l.holdsLive flow now = false) (rule : Rule) (key : Flow) :
    (l.openParent rule key now).2.holdsLive flow now = false :=
  openParent_keeps (P := fun l => l.holdsLive flow now = false)
    (fun _ selected h => holdsLive_removeWhere h selected)
    (fun _ h => holdsLive_modifyParent h rule key fun _ hparent => hparent) (fun _ h => h) h

/-- An entry that is put where no live one of its flow is, is the only one. -/
theorem filter_insert {e : Entry} (h : l.holdsLive e.flow now = false) (hlive : e.Live now) :
    (l.insert e).entries.filter (fun x => (x.direction? e.flow now).isSome) = [e] := by
  have hmatch : (e.direction? e.flow now).isSome = true :=
    Entry.isSome_direction_iff.mpr ⟨hlive, by rw [Flow.orientation_self]; rfl⟩
  have hnone : l.entries.filter (fun x => (x.direction? e.flow now).isSome) = [] :=
    List.filter_eq_nil_iff.mpr (List.any_eq_false.mp h)
  unfold FlatTable.insert
  rw [List.filter_cons_of_pos (by exact hmatch), hnone]

/-- **A new entry is live**, if the clock has room for its first lifetime. -/
theorem live_freshEntry (hpositive : l.config.lifetimes.Positive)
    (hroom : now < now.plus l.config.lifetimes.syn) (pkt : Packet) {role : EntryRole}
    (hrole : ∀ n, role ≠ .parent n) : (l.freshEntry pkt role rule now).Live now := by
  refine ⟨Bool.eq_false_iff.mpr fun hparent => ?_,
    Entry.lt_expires_refresh hpositive hroom pkt .forward⟩
  obtain ⟨n, hn⟩ := Entry.isParent_iff.mp hparent
  rw [role_freshEntry] at hn
  exact hrole n hn

theorem Sound.answer_full (h : l.Sound config) (rule : Rule) :
    .error (.capacity l.config.capacity) = Admission.full.answer rule config.capacity := by
  rw [h.settings]
  rfl

/-- Counting a connection takes no parent away. -/
theorem isSome_parent?_modifyParent (h : (l.parent? rule key).isSome = true) (rule' : Rule)
    (key' : Flow) :
    ((l.modifyParent rule' key' fun p =>
      { p with role := .parent (p.children + 1) }).parent? rule key).isSome = true :=
  isSome_parent?_iff.mpr
    (Accounted.exists_parent_map_counting rule' key' (isSome_parent?_iff.mp h))

/-- The entry that is asked for is put into a table that has no live one of its flow. -/
theorem served_insert {request : StateRequest} {pkt : Packet} {e : Entry} (hlive : e.Live now)
    (hflow : e.flow = pkt.flow) (hrule : e.rule = rule) (hrole : e.role = request.role pkt.flow)
    (hnone : l.holdsLive pkt.flow now = false)
    (hparent : ∀ key, e.role = .child key → (l.parent? rule key).isSome = true) :
    request.Served rule pkt.flow now (l.insert e).entries := by
  refine ⟨e, ?_, hflow, hrule, hrole, fun key hkey => ?_⟩
  · rw [← hflow] at hnone ⊢
    exact filter_insert hnone hlive
  · obtain ⟨p, hp, hfor⟩ := isSome_parent?_iff.mp (hparent key hkey)
    exact ⟨p, List.mem_cons_of_mem _ hp, hfor⟩

section

variable (hpositive : config.lifetimes.Positive) (hroom : now < now.plus config.lifetimes.syn)
include hpositive hroom

/-- State is kept of a flow that has none. -/
theorem Sound.install_keepState (h : l.Sound config) (rule : Rule) (pkt : Packet)
    (hnone : l.holdsLive pkt.flow now = false) :
    let admission := admission l.entries config.capacity true rule .keepState pkt.flow now
    let (result, l') := l.install true rule .keepState pkt now
    result = admission.answer rule config.capacity ∧
      (admission = .admitted → StateRequest.keepState.Served rule pkt.flow now l'.entries) := by
  have hreserve : (l.reserve 1 now).1 = _ := h.reserve_eq 1
  have hquiet := reserve_keeps (P := fun l => l.holdsLive pkt.flow now = false)
    (fun _ selected h => holdsLive_removeWhere h selected) hnone 1
  have hsound := h.reserve now 1
  unfold FlatTable.install
  simp only [Bool.not_true, Bool.false_eq_true, if_false, hnone]
  rcases hx : l.reserve 1 now with ⟨ok, l₁⟩
  rw [hx] at hreserve hquiet hsound
  cases ok with
  | false =>
    rw [admission_full hnone (Nat.lt_of_not_le (of_decide_eq_false hreserve.symm))]
    exact ⟨hsound.answer_full rule, fun hadmitted => by cases hadmitted⟩
  | true =>
    rw [← hsound.settings] at hpositive hroom
    rw [admission_keepState hnone (of_decide_eq_true hreserve.symm)]
    refine ⟨rfl, fun _ => served_insert (live_freshEntry hpositive hroom pkt fun n hn => ?_)
      (flow_freshEntry now pkt _) (rule_freshEntry now pkt _) (role_freshEntry now pkt _) hquiet
      fun key hkey => ?_⟩
    · cases hn
    · rw [role_freshEntry] at hkey
      cases hkey

/-- A connection of a flow that has none. -/
theorem Sound.install_limit (h : l.Sound config) (rule : Rule) (parts : LimitParts)
    {connections : UInt16} (hlimit : connections ≠ 0) (pkt : Packet)
    (hnone : l.holdsLive pkt.flow now = false) :
    let request := StateRequest.limit parts connections
    let admission := admission l.entries config.capacity true rule request pkt.flow now
    let (result, l') := l.install true rule request pkt now
    result = admission.answer rule config.capacity ∧
      (admission = .admitted → request.Served rule pkt.flow now l'.entries) := by
  unfold FlatTable.install
  simp only [Bool.not_true, Bool.false_eq_true, if_false, hnone]
  generalize hkey : pkt.flow.limitKey parts = key
  have hopen : (l.openParent rule key now).1 = _ := h.openParent_eq rule key
  have hquiet := holdsLive_openParent hnone rule key
  have hlive : liveUnder (l.openParent rule key now).2.entries rule key now =
      liveUnder l.entries rule key now := liveUnder_openParent rule key
  obtain ⟨hsound, hopened⟩ := h.openParent now rule key
  rcases hx : l.openParent rule key now with ⟨ok, l₁⟩
  rw [hx] at hopen hquiet hlive hsound hopened
  subst hkey
  cases ok with
  | false =>
    rw [admission_full hnone (Nat.lt_of_not_le (of_decide_eq_false hopen.symm))]
    exact ⟨hsound.answer_full rule, fun hadmitted => by cases hadmitted⟩
  | true =>
    rw [admission_limit hnone h.accounted hlimit (of_decide_eq_true hopen.symm), ← hlive]
    obtain ⟨hparent, hroom₁⟩ := hopened rfl
    obtain ⟨hsound₂, hparent₂, -⟩ := hsound.makeWay now connections.toNat hparent hroom₁
    have hquiet₂ : (l₁.makeWay rule (pkt.flow.limitKey parts) connections.toNat now).holdsLive
        pkt.flow now = false :=
      makeWay_keeps (P := fun l => l.holdsLive pkt.flow now = false)
        (fun _ selected h => holdsLive_removeWhere h selected) hquiet connections.toNat
    have hreached :=
      hsound.le_makeWay_iff rule (pkt.flow.limitKey parts) connections.toNat now
    simp only
    generalize l₁.makeWay rule (pkt.flow.limitKey parts) connections.toNat now = l₂ at *
    by_cases hfull : connections.toNat ≤ liveUnder l₁.entries rule (pkt.flow.limitKey parts) now
    · rw [if_pos hfull, if_pos (hreached.mpr hfull)]
      exact ⟨rfl, fun hadmitted => by cases hadmitted⟩
    · rw [if_neg hfull, if_neg (mt hreached.mp hfull)]
      rw [← hsound₂.settings] at hpositive hroom
      generalize hfresh : l₂.freshEntry pkt (.child (pkt.flow.limitKey parts)) rule now = e
      have hlive' : e.Live now := by
        rw [← hfresh]
        exact live_freshEntry hpositive hroom pkt fun n hn => by cases hn
      have hrole : e.role = .child (pkt.flow.limitKey parts) := by rw [← hfresh, role_freshEntry]
      have hrule : e.rule = rule := by rw [← hfresh, rule_freshEntry]
      have hflow : e.flow = pkt.flow := by rw [← hfresh, flow_freshEntry]
      refine ⟨rfl, fun _ => served_insert hlive' hflow hrule hrole
        (holdsLive_modifyParent hquiet₂ e.rule _ fun _ _ => rfl) fun key hkey => ?_⟩
      rw [hrole, EntryRole.child.injEq] at hkey
      rw [← hkey]
      exact isSome_parent?_modifyParent hparent₂ e.rule _

/-- **What becomes of a request**, and what it leaves in the table. -/
theorem Sound.install_decides (h : l.Sound config) (enabled : Bool) (rule : Rule)
    (request : StateRequest) (pkt : Packet)
    (hlimit : ∀ parts connections, request = .limit parts connections → connections ≠ 0) :
    let admission := admission l.entries config.capacity enabled rule request pkt.flow now
    let (result, l') := l.install enabled rule request pkt now
    result = admission.answer rule config.capacity ∧
      (admission = .admitted → request.Served rule pkt.flow now l'.entries) := by
  cases enabled with
  | false => exact ⟨rfl, fun hadmitted => by cases hadmitted⟩
  | true =>
    cases hheld : l.holdsLive pkt.flow now with
    | true =>
      have hany : (l.entries.any fun e => (e.direction? pkt.flow now).isSome) = true := hheld
      simp only [FlatTable.install, PacketFilter.admission, hheld, hany, Bool.not_true,
        Bool.false_eq_true, if_false, if_true]
      exact ⟨rfl, fun hadmitted => by cases hadmitted⟩
    | false =>
      cases request with
      | keepState => exact h.install_keepState hpositive hroom rule pkt hheld
      | limit parts connections =>
        exact h.install_limit hpositive hroom rule parts (hlimit parts connections rfl) pkt hheld

end

end FlatTable

/-! ## In buckets -/

namespace StateTable

variable {config : StateConfig} {t : StateTable} {enabled : Bool} {rule : Rule}
  {request : StateRequest} {pkt : Packet} {now : Moment}

/-- Where state is not to be created, or there is some, the table stays as it is. -/
theorem Sound.install_eq_self (h : t.Sound config)
    (hkeeps : admission t.entries config.capacity enabled rule request pkt.flow now = .barred ∨
      admission t.entries config.capacity enabled rule request pkt.flow now = .held) :
    (t.install enabled rule request pkt now).2 = t := by
  cases enabled with
  | false => rfl
  | true =>
    obtain ⟨l, hrefines, -⟩ := h
    have hany : (t.entries.any fun e => (e.direction? pkt.flow now).isSome) = true := by
      cases hnone : t.entries.any fun e => (e.direction? pkt.flow now).isSome with
      | true => rfl
      | false =>
        obtain ⟨hbarred, hheld⟩ := admission_ne hnone
        exact (hkeeps.elim hbarred hheld).elim
    have hheld : t.holdsLive pkt.flow now = true := by
      rw [hrefines.holdsLive_eq, FlatTable.holdsLive, ← hrefines.entries_perm.any_eq]
      exact hany
    have hcount : t.count ≠ 0 := by
      rw [hrefines.count, ← hrefines.entries_perm.length_eq]
      obtain ⟨e, he, -⟩ := List.any_eq_true.mp hany
      exact Nat.ne_of_gt (List.length_pos_of_mem he)
    have hpending : t.takePending = t := if_pos hcount
    simp only [install, Bool.not_true, Bool.false_eq_true, if_false, hpending, hheld, if_true]

/-- **A table decides a request as its entries say.** -/
theorem Sound.install_decides (h : t.Sound config) (hpositive : config.lifetimes.Positive)
    (hroom : now < now.plus config.lifetimes.syn)
    (hlimit : ∀ parts connections, request = .limit parts connections → connections ≠ 0) :
    let admission := admission t.entries config.capacity enabled rule request pkt.flow now
    let (result, t') := t.install enabled rule request pkt now
    result = admission.answer rule config.capacity ∧
      (admission = .admitted → request.Served rule pkt.flow now t'.entries) ∧
      ∀ e ∈ t.entries, e.Live now → e ∈ t'.entries := by
  obtain ⟨l, hrefines, hsound⟩ := h
  obtain ⟨hanswer, hrefines'⟩ := hrefines.install enabled rule request pkt now
  obtain ⟨hresult, hserved⟩ :=
    hsound.install_decides hpositive hroom enabled rule request pkt hlimit
  have hperm := hrefines'.entries_perm
  rw [admission_perm hrefines.entries_perm]
  refine ⟨hanswer.trans hresult, fun hadmitted => (hserved hadmitted).perm hperm.symm,
    fun e he hlive => hperm.mem_iff.mpr ?_⟩
  exact FlatTable.mem_install (hrefines.entries_perm.mem_iff.mp he) hlive enabled rule request pkt

/-- **What becomes of a request for state**, in any table that was set up with settings that pass
their check and at any moment to which lifetimes can be added: the answer is read off the entries.
If it is that state is barred or there already, the table stays as it is; if the request is
admitted, it is served. Whatever is answered, what is live stays as it is, and the table is well
kept. -/
theorem run_admits (config : Config) (hconfig : config.check = .ok ())
    (hmax : config.maxStates.toNat ≤ 2 ^ 32 - 3) (salt : UInt32) (ops : List TableOp)
    (enabled : Bool) (rule : Rule) (request : StateRequest) (pkt : Packet) (now : Moment)
    (hlimit : ∀ parts connections, request = .limit parts connections → connections ≠ 0)
    (hnow : ∀ lifetime ∈ config.lifetimes.all,
      now.ms.toNat + lifetime.ms.toNat ≤ Moment.limit) :
    let t := ((new config.stateConfig salt).run ops).2
    let t' := (t.install enabled rule request pkt now).2
    let admission := admission t.entries config.maxStates.toNat enabled rule request pkt.flow now
    (t.install enabled rule request pkt now).1 = admission.answer rule config.maxStates.toNat ∧
      (admission = .barred ∨ admission = .held → t' = t) ∧
      (admission = .admitted → request.Served rule pkt.flow now t'.entries) ∧
      (∀ e ∈ t.entries, e.Live now → e ∈ t'.entries) ∧ t'.WellKept config := by
  have hsound := (Sound.new config.stateConfig salt (config.validBuckets_of_check hconfig)).run ops
  have hpositive := config.lifetimes_positive hconfig
  have hroom : now < now.plus config.lifetimes.syn := by
    have hsyn : config.lifetimes.syn ∈ config.lifetimes.all := by simp [Lifetimes.all]
    have hpos := hpositive _ hsyn
    have hfits := hnow _ hsyn
    rw [Moment.lt_iff, Moment.toNat_plus]
    omega
  obtain ⟨hresult, hserved, hspared⟩ := hsound.install_decides hpositive hroom hlimit
  exact ⟨hresult, fun hkeeps => hsound.install_eq_self hkeeps, hserved, hspared,
    (hsound.apply (.install enabled rule request pkt now)).wellKept hmax⟩

/-- A connection under a limit of one for each source, and fifteen seconds later an entry of another
flow. -/
def crowding : List TableOp :=
  [.install true (Rule.terminal 0 true) (.limit LimitParts.sourceAddress 1)
      { flow := ⟨1, 2, 1, 4, Protocol.udp, 0⟩, direction := .inbound, length := 40 } ⟨0⟩,
    .install true (Rule.terminal 0 true) .keepState
      { flow := ⟨1, 2, 2, 4, Protocol.udp, 0⟩, direction := .inbound, length := 40 } ⟨15000⟩]

/-- These fill a table of three. Twenty seconds from the start the connection and its parent have
expired, and another connection under the key is asked for. Making room removes both, though the
parent had been found, and there is just room for the connection and a new parent. -/
theorem run_admits_parent_removed :
    let config : Config := { maxStates := 3 }
    let rule := Rule.terminal 0 true
    let request := StateRequest.limit LimitParts.sourceAddress 1
    let pkt : Packet :=
      { flow := ⟨1, 2, 3, 4, Protocol.udp, 0⟩, direction := .inbound, length := 40 }
    let t := ((new config.stateConfig 5).run crowding).2
    t.entries.length = 3 ∧
      (t.parent? rule (pkt.flow.limitKey LimitParts.sourceAddress)).isSome = true ∧
      (t.install true rule request pkt ⟨20000⟩).1 = .ok () ∧
      request.Served rule pkt.flow ⟨20000⟩ (t.install true rule request pkt ⟨20000⟩).2.entries := by
  intro config rule request pkt t
  have hlimit : ∀ parts connections, StateRequest.limit LimitParts.sourceAddress 1 =
      .limit parts connections → connections ≠ 0 := fun parts connections h => by
    cases h
    decide
  have hadmitted : admission t.entries 3 true rule request pkt.flow ⟨20000⟩ = .admitted := by
    decide +kernel
  obtain ⟨hresult, -, hserved, -⟩ := run_admits config (by decide) (by decide) 5 crowding true
    rule request pkt ⟨20000⟩ hlimit (by decide)
  exact ⟨by decide +kernel, by decide +kernel,
    hresult.trans (congrArg (Admission.answer rule 3) hadmitted), hserved hadmitted⟩

end StateTable

end PacketFilter
