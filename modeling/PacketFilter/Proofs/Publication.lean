import PacketFilter.Proofs.ChainHistory
import PacketFilter.Versioned

/-!
# The chain as it is published

Whoever classifies packets takes a snapshot of the chain and keeps to it, while administration makes
the next chain and publishes that as a whole. A chain is published exactly if the membership has
changed. The epoch of the cell and the generation of the chain then go up together, each by one, and
since both begin at zero they are the same number, until epochs are used again. So a snapshot tells
by its epoch alone whether it still is the chain of the firewall.

Main statements: `Versioned.Shows.store`, publishing keeps epoch and generation together;
`history_published`, what the snapshots of a session are; `NumberedByEpoch.eq_newest`, when an epoch
tells the newest from the others; **`snapshots_of_started`**, from a new firewall on the snapshots
are numbered by their epochs, and the newest is of the chain that the firewall has.
-/

namespace PacketFilter

/-- **The cell shows a chain**: it holds the chain, in the epoch that is the chain's generation. -/
structure Versioned.Shows (cell : Versioned Chain) (c : Chain) : Prop where
  value : cell.value = c
  epoch : cell.epoch = UInt64.ofNat c.generation

/-- Publishing the next generation starts the next epoch. -/
theorem Versioned.Shows.store {cell : Versioned Chain} {c c' : Chain} (h : cell.Shows c)
    (hnext : c'.generation = c.generation + 1) : (cell.store c').Shows c' := by
  refine ⟨rfl, ?_⟩
  show cell.epoch + 1 = UInt64.ofNat c'.generation
  rw [h.epoch, hnext, UInt64.ofNat_add]
  rfl

/-- The snapshots, the oldest first, are numbered from zero on by their epochs, and so are the
generations of their chains. -/
def NumberedByEpoch (snapshots : List (Versioned Chain)) : Prop :=
  ∀ i snapshot, snapshots[i]? = some snapshot →
    snapshot.epoch = UInt64.ofNat i ∧ snapshot.value.generation = i

/-- As long as no epoch has been used twice, only the newest snapshot is of the newest epoch. -/
theorem NumberedByEpoch.eq_newest {snapshots : List (Versioned Chain)}
    {snapshot newest : Versioned Chain} (h : NumberedByEpoch snapshots)
    (hnewest : snapshots.getLast? = some newest) (hbound : newest.value.generation < 2 ^ 64)
    (hmem : snapshot ∈ snapshots) (hepoch : snapshot.epoch = newest.epoch) :
    snapshot = newest := by
  obtain ⟨i, hget⟩ := List.mem_iff_getElem?.mp hmem
  have hlt : i < snapshots.length := (List.getElem?_eq_some_iff.mp hget).1
  have hlast : snapshots[snapshots.length - 1]? = some newest :=
    List.getLast?_eq_getElem?.symm.trans hnewest
  obtain ⟨hepoch', hgeneration⟩ := h _ _ hlast
  -- Epochs are numbers of 64 bits, but no position is too large for them.
  have hepochs := congrArg UInt64.toNat (((h i snapshot hget).1.symm.trans hepoch).trans hepoch')
  rw [UInt64.toNat_ofNat', UInt64.toNat_ofNat'] at hepochs
  have hsame : i = snapshots.length - 1 := by omega
  rw [hsame, hlast] at hget
  cases hget
  rfl

/-- A new firewall has a chain of generation zero. -/
theorem Firewall.generation_new {name : String} {config : Config} {now : Moment}
    {draw : Nat → UInt32} {fw : Firewall} (hnew : Firewall.new name config now draw = .ok fw) :
    fw.chain.generation = 0 := by
  unfold Firewall.new at hnew
  split at hnew
  · cases hnew
  · cases hnew
    rfl

namespace Session

/-- The chains that operations publish, the oldest first. -/
def published : Session → List Operation → List Chain
  | _, [] => []
  | s, op :: ops =>
    let s' := s.step op
    if s'.firewall.chain = s.firewall.chain then s'.published ops
    else s'.firewall.chain :: s'.published ops

variable {grants : Rule → StateRequest → Prop} {s : Session}

/-- **The snapshots of a session**: each is of the generation after that of the one before, and the
newest is of the chain that the firewall has. -/
theorem history_published (hfair : Firewall.Fair grants) (h : Reachable grants s)
    {ops : List Operation} (hops : s.AllowsAll grants ops) {cell : Versioned Chain}
    (hcell : cell.Shows s.firewall.chain) :
    (∀ i snapshot, (cell.history (s.published ops))[i]? = some snapshot →
      snapshot.Shows snapshot.value ∧
        snapshot.value.generation = s.firewall.chain.generation + i) ∧
    ∃ newest, (cell.history (s.published ops)).getLast? = some newest ∧
      newest.Shows (s.run ops).firewall.chain := by
  induction ops generalizing s cell with
  | nil =>
    refine ⟨fun i snapshot hget => ?_, cell, rfl, hcell⟩
    obtain ⟨rfl, rfl⟩ : i = 0 ∧ cell = snapshot := by
      simpa [published, Versioned.history, List.getElem?_singleton] using hget
    rw [hcell.value]
    exact ⟨hcell, rfl⟩
  | cons op ops ih =>
    obtain ⟨hop, hops⟩ := hops
    obtain ⟨last, hc, -⟩ := h.orderly hfair
    have hevolves := (settles_step hc op).chain
    have hnext := h.step op hop
    rw [published]
    split
    · rename_i hsame
      have hrest := ih hnext hops (hsame ▸ hcell)
      rw [hsame] at hrest
      exact hrest
    · rename_i hchanged
      have hgeneration := (hevolves.resolve_left hchanged).1
      obtain ⟨hall, newest, hnewest, hshows⟩ := ih hnext hops (hcell.store hgeneration)
      refine ⟨fun i snapshot hget => ?_, newest, ?_, hshows⟩
      · cases i with
        | zero =>
          obtain rfl : cell = snapshot := by simpa [Versioned.history] using hget
          rw [hcell.value]
          exact ⟨hcell, rfl⟩
        | succ i =>
          obtain ⟨hshown, hnumber⟩ := hall i snapshot hget
          exact ⟨hshown, by omega⟩
      · rw [Versioned.history, List.getLast?_cons, hnewest, Option.getD_some]

/-- **From a new firewall on, the snapshots are numbered by their epochs**, which are the
generations of their chains. The newest is of the chain that the firewall has, and it alone is of
its epoch, as long as no epoch has been used twice. -/
theorem snapshots_of_started {name : String} {config : Config} {now : Moment} {draw : Nat → UInt32}
    {fw : Firewall} (hnew : Firewall.new name config now draw = .ok fw) {ops : List Operation}
    (hops : AllowsAll (fun rule _ => rule.createsState = true) { firewall := fw } ops) :
    let s : Session := { firewall := fw }
    let snapshots := (Versioned.new fw.chain).history (s.published ops)
    let chain := (s.run ops).firewall.chain
    NumberedByEpoch snapshots ∧ ∃ newest, snapshots.getLast? = some newest ∧
      newest.Shows chain ∧ (chain.generation < 2 ^ 64 → ∀ snapshot ∈ snapshots,
        snapshot.epoch = newest.epoch → snapshot = newest) := by
  intro s snapshots chain
  have hzero := Firewall.generation_new hnew
  have hcell : (Versioned.new fw.chain).Shows fw.chain := ⟨rfl, by rw [hzero]; rfl⟩
  obtain ⟨hall, newest, hnewest, hshows⟩ :=
    history_published fair_creates (.start hnew) hops hcell
  have hnumbered : NumberedByEpoch snapshots := by
    intro i snapshot hget
    obtain ⟨hshown, hnumber⟩ := hall i snapshot hget
    rw [hzero, Nat.zero_add] at hnumber
    exact ⟨by rw [hshown.epoch, hnumber], hnumber⟩
  refine ⟨hnumbered, newest, hnewest, hshows, fun hbound snapshot hmem hepoch => ?_⟩
  have hvalue : newest.value = chain := hshows.value
  exact hnumbered.eq_newest hnewest (hvalue ▸ hbound) hmem hepoch

end Session

end PacketFilter
