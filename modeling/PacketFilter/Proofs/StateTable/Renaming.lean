import Mathlib.Logic.Equiv.Basic
import PacketFilter.Proofs.StateTable.FlatTable

/-!
# Ids are names and nothing else

The ids of rules tell rules apart, and a state table makes no other use of them: it compares them.
If all ids are exchanged for others, in the table and in what it is asked for, it answers what it
would have answered, with the ids exchanged. Which ids rules have depends on what was added before
them, and so on the history of a firewall.

Ids are exchanged by a permutation of the numbers. There is one for any two lists of ids that name
as many rules.

Main statements: `exists_perm_map_eq`, there is a permutation that takes some ids to others;
`removeWhere_rename`, `openParent_rename`, what the parts of an operation do; **`lookup_rename`**
and **`install_rename`**, packets find state and rules create it under any names.
-/

namespace PacketFilter

/-- There is a permutation that takes the members of one list to those of another. -/
theorem exists_perm_map_eq : ∀ {xs ys : List Nat}, xs.Nodup → ys.Nodup → xs.length = ys.length →
    ∃ σ : Equiv.Perm Nat, xs.map σ = ys
  | [], [], _, _, _ => ⟨Equiv.refl Nat, rfl⟩
  | x :: xs, y :: ys, hxs, hys, hlength => by
    obtain ⟨hx, hxs⟩ := List.nodup_cons.mp hxs
    obtain ⟨hy, hys⟩ := List.nodup_cons.mp hys
    obtain ⟨σ, hσ⟩ := exists_perm_map_eq hxs hys (Nat.succ.inj hlength)
    -- What is wrong with the head is put right by a swap, which none of the others is part of.
    refine ⟨σ.trans (Equiv.swap (σ x) y), ?_⟩
    have htail : ∀ z ∈ xs, Equiv.swap (σ x) y (σ z) = σ z := by
      intro z hz
      have hne : σ z ≠ σ x := fun heq => hx (σ.injective heq ▸ hz)
      have hne' : σ z ≠ y := fun heq => hy (heq ▸ hσ ▸ List.mem_map_of_mem hz)
      exact Equiv.swap_apply_of_ne_of_ne hne hne'
    rw [List.map_cons, ← hσ]
    congr 1
    · exact Equiv.swap_apply_left (σ x) y
    · exact List.map_congr_left htail

/-! ## Rules and entries -/

variable (σ : Equiv.Perm Nat)

/-- The rule under another id. -/
def Rule.rename (r : Rule) : Rule := { r with id := σ r.id }

/-- Rules are told apart as before. -/
theorem Rule.beq_id_rename (r r' : Rule) :
    ((r.rename σ).id == (r'.rename σ).id) = (r.id == r'.id) := by
  rw [Bool.eq_iff_iff, beq_iff_eq, beq_iff_eq]
  exact σ.injective.eq_iff

/-- The entry with its rule under another id. -/
def Entry.rename (e : Entry) : Entry := { e with rule := e.rule.rename σ }

/-- The hit with its rule under another id. -/
def StateHit.rename (hit : StateHit) : StateHit := { hit with entry := hit.entry.rename σ }

/-- The table with all rules under other ids. -/
def FlatTable.rename (l : FlatTable) : FlatTable :=
  { l with entries := l.entries.map (Entry.rename σ) }

namespace Entry

variable (e : Entry) (rule : Rule) (key flow : Flow) (now : Moment)

@[simp] theorem isParent_rename : (e.rename σ).isParent = e.isParent := rfl

@[simp] theorem children_rename : (e.rename σ).children = e.children := rfl

@[simp] theorem isExpired_rename : (e.rename σ).isExpired now = e.isExpired now := rfl

@[simp] theorem direction?_rename : (e.rename σ).direction? flow now = e.direction? flow now := rfl

@[simp] theorem isParentFor_rename :
    (e.rename σ).isParentFor (rule.rename σ) key = e.isParentFor rule key := by
  show (e.isParent && (e.rule.rename σ).id == (rule.rename σ).id && e.flow == key) = _
  rw [Rule.beq_id_rename]
  rfl

@[simp] theorem isChildOf_rename :
    (e.rename σ).isChildOf (rule.rename σ) key = e.isChildOf rule key := by
  show (e.role == .child key && (e.rule.rename σ).id == (rule.rename σ).id) = _
  rw [Rule.beq_id_rename]
  rfl

/-- A packet keeps an entry alive whatever the id of its rule. -/
theorem refresh_rename (pkt : Packet) (dir : MatchDirection) (lifetimes : Lifetimes) :
    (e.rename σ).refresh pkt dir lifetimes now = (e.refresh pkt dir lifetimes now).rename σ := by
  have htrack : (e.rename σ).track = e.track := rfl
  unfold refresh
  rw [htrack]
  generalize e.track.update (dir == .forward) pkt.tcp lifetimes = updated
  obtain ⟨lifetime, track⟩ := updated
  split
  · cases lifetime <;> rfl
  · split <;> rfl

theorem charge_rename (pkt : Packet) (dir : MatchDirection) (lifetimes : Lifetimes) :
    (e.rename σ).charge pkt dir lifetimes now = (e.charge pkt dir lifetimes now).rename σ := by
  unfold charge
  rw [refresh_rename]
  rfl

theorem release_rename (removed : List Entry) :
    (e.rename σ).release (removed.map (Entry.rename σ)) = (e.release removed).rename σ := by
  have hcount : ∀ key, (removed.map (Entry.rename σ)).countP (·.isChildOf (e.rule.rename σ) key) =
      removed.countP (·.isChildOf e.rule key) := by
    intro key
    rw [List.countP_map]
    exact List.countP_congr fun x _ => by simp
  unfold release
  cases hrole : e.role with
  | parent n =>
    have hrole' : (e.rename σ).role = .parent n := hrole
    simp only [hrole']
    show ({ e.rename σ with role := _ } : Entry) = _
    rw [show (e.rename σ).rule = e.rule.rename σ from rfl, hcount]
    rfl
  | keepState =>
    have hrole' : (e.rename σ).role = .keepState := hrole
    simp only [hrole']
  | child key =>
    have hrole' : (e.rename σ).role = .child key := hrole
    simp only [hrole']

end Entry

/-- A packet is charged to the same entry. -/
theorem chargeFirst_rename (pkt : Packet) (lifetimes : Lifetimes) (now : Moment)
    (es : List Entry) :
    chargeFirst pkt lifetimes now (es.map (Entry.rename σ)) =
      (chargeFirst pkt lifetimes now es).map fun found =>
        (found.1.rename σ, found.2.map (Entry.rename σ)) := by
  induction es with
  | nil => rfl
  | cons e es ih =>
    simp only [List.map_cons, chargeFirst, Entry.direction?_rename, Entry.charge_rename, ih]
    cases e.direction? pkt.flow now with
    | some dir => rfl
    | none =>
      cases chargeFirst pkt lifetimes now es with
      | some found => rfl
      | none => rfl

/-! ## Tables -/

namespace FlatTable

variable (l : FlatTable) (rule : Rule) (key : Flow) (now : Moment)

@[simp] theorem config_rename : (l.rename σ).config = l.config := rfl

@[simp] theorem entries_rename : (l.rename σ).entries = l.entries.map (Entry.rename σ) := rfl

/-- Removals of entries that are selected under either name. -/
theorem removeWhere_rename {selected selected' : Entry → Bool}
    (hselected : ∀ e, selected' (e.rename σ) = selected e) (force : Bool) :
    (l.rename σ).removeWhere selected' force now =
      ((l.removeWhere selected force now).1, (l.removeWhere selected force now).2.rename σ) := by
  have hremaining : remaining (l.entries.map (Entry.rename σ)) selected' force now =
      (remaining l.entries selected force now).map (Entry.rename σ) := by
    have hleaves : ∀ e : Entry, (e.rename σ).leaves selected' force now =
        e.leaves selected force now := by
      intro e
      simp [Entry.leaves, hselected]
    have hchildless : ∀ e : Entry, (e.rename σ).leavesChildless selected' force now =
        e.leavesChildless selected force now := by
      intro e
      simp [Entry.leavesChildless, hselected]
    unfold remaining afterFirstPass
    simp only [List.filter_map, List.map_map, Function.comp_def, hleaves, hchildless,
      Entry.release_rename]
  unfold removeWhere
  simp only [rename, hremaining, List.length_map]

theorem hasRoom_rename (need : Nat) : (l.rename σ).hasRoom need = l.hasRoom need := by
  simp [hasRoom]

theorem reserve_rename (need : Nat) :
    (l.rename σ).reserve need now =
      ((l.reserve need now).1, (l.reserve need now).2.rename σ) := by
  unfold reserve
  rw [hasRoom_rename]
  split
  · rfl
  · simp only [removeWhere_rename σ l now (fun _ => rfl), hasRoom_rename]

theorem insert_rename (e : Entry) : (l.rename σ).insert (e.rename σ) = (l.insert e).rename σ := rfl

theorem parent?_rename :
    (l.rename σ).parent? (rule.rename σ) key = (l.parent? rule key).map (Entry.rename σ) := by
  unfold parent?
  rw [entries_rename, List.find?_map]
  simp only [Function.comp_def, Entry.isParentFor_rename]

theorem isSome_parent?_rename :
    ((l.rename σ).parent? (rule.rename σ) key).isSome = (l.parent? rule key).isSome := by
  rw [parent?_rename, Option.isSome_map]

theorem childrenOf_rename :
    (l.rename σ).childrenOf (rule.rename σ) key = l.childrenOf rule key := by
  unfold childrenOf
  rw [parent?_rename, Option.map_map]
  rfl

/-- Changes of a parent that take no notice of the id of its rule. -/
theorem modifyParent_rename {f : Entry → Entry} (hf : ∀ e, f (e.rename σ) = (f e).rename σ) :
    (l.rename σ).modifyParent (rule.rename σ) key f = (l.modifyParent rule key f).rename σ := by
  unfold modifyParent rename
  simp only [List.map_map]
  congr 1
  refine List.map_congr_left fun e _ => ?_
  simp only [Function.comp_def, Entry.isParentFor_rename, hf]
  split <;> rfl

theorem touchParent_rename :
    (l.rename σ).touchParent (rule.rename σ) key now = (l.touchParent rule key now).rename σ :=
  modifyParent_rename σ l rule key fun _ => rfl

theorem freshEntry_rename (pkt : Packet) (role : EntryRole) :
    (l.rename σ).freshEntry pkt role (rule.rename σ) now =
      (l.freshEntry pkt role rule now).rename σ := by
  unfold freshEntry
  rw [← Entry.refresh_rename]
  rfl

theorem openParent_rename :
    (l.rename σ).openParent (rule.rename σ) key now =
      ((l.openParent rule key now).1, (l.openParent rule key now).2.rename σ) := by
  unfold openParent
  rw [isSome_parent?_rename, reserve_rename]
  generalize l.reserve (if (l.parent? rule key).isSome then 1 else 2) now = reserved
  obtain ⟨room, l₁⟩ := reserved
  cases room with
  | false => rfl
  | true =>
    simp only [isSome_parent?_rename, touchParent_rename]
    split
    · rfl
    · rw [reserve_rename]
      generalize l₁.reserve 2 now = again
      obtain ⟨room, l₂⟩ := again
      cases room with
      | false => rfl
      | true =>
        simp only
        have hfresh : (l₂.rename σ).freshParent (rule.rename σ) key now =
          (l₂.freshParent rule key now).rename σ := rfl
        rw [hfresh, insert_rename, touchParent_rename]

theorem makeWay_rename (limit : Nat) :
    (l.rename σ).makeWay (rule.rename σ) key limit now =
      (l.makeWay rule key limit now).rename σ := by
  unfold makeWay
  have hchildren : ∀ e : Entry, (e.rename σ).isChildOf (rule.rename σ) key = e.isChildOf rule key :=
    fun e => Entry.isChildOf_rename σ e rule key
  rw [childrenOf_rename, removeWhere_rename σ l now hchildren]
  split <;> rfl

theorem insertChild_rename (e : Entry) :
    (l.rename σ).insertChild (e.rename σ) key = (l.insertChild e key).rename σ := by
  unfold insertChild
  rw [← insert_rename]
  congr 1
  exact modifyParent_rename σ l e.rule key fun _ => rfl

theorem holdsLive_rename (flow : Flow) :
    (l.rename σ).holdsLive flow now = l.holdsLive flow now := by
  unfold holdsLive
  rw [entries_rename, List.any_map]
  rfl

/-- **State is found under any names.** -/
theorem lookup_rename (pkt : Packet) :
    (l.rename σ).lookup pkt now =
      ((l.lookup pkt now).1.map (StateHit.rename σ), (l.lookup pkt now).2.rename σ) := by
  unfold lookup
  rw [config_rename, entries_rename, chargeFirst_rename]
  cases chargeFirst pkt l.config.lifetimes now l.entries with
  | some found => rfl
  | none => rfl

/-- **State is created under any names**, and refused for the same reasons. -/
theorem install_rename (enabled : Bool) (request : StateRequest) (pkt : Packet) :
    (l.rename σ).install enabled (rule.rename σ) request pkt now =
      ((l.install enabled rule request pkt now).1,
        (l.install enabled rule request pkt now).2.rename σ) := by
  unfold install
  rw [holdsLive_rename]
  split
  · rfl
  · split
    · rfl
    · cases request with
      | keepState =>
        simp only [reserve_rename]
        generalize l.reserve 1 now = reserved
        obtain ⟨room, l₁⟩ := reserved
        cases room with
        | false => rfl
        | true =>
          simp only [freshEntry_rename]
          rfl
      | limit parts connections =>
        simp only [openParent_rename]
        generalize l.openParent rule (pkt.flow.limitKey parts) now = opened
        obtain ⟨room, l₁⟩ := opened
        cases room with
        | false => rfl
        | true =>
          simp only [makeWay_rename, childrenOf_rename, freshEntry_rename, insertChild_rename]
          split <;> rfl

end FlatTable

end PacketFilter
