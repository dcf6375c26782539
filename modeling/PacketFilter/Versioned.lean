/-!
# Versioned values

A cell whose value is replaced as a whole (`Dynamic`). Every replacement starts a new epoch; whoever
has taken a snapshot keeps the value and the epoch of that time, whatever is stored later.

The filter publishes its chain in such a cell, for the packets that are under way while the rules
are changed. A `Firewall` holds the chain itself, since its operations come one after another; which
snapshots of it can be taken is told by `history`.
-/

namespace PacketFilter

/-- A value and the epoch in which it was stored (`Dynamic`, `Snapshot`). -/
structure Versioned (α : Type) where
  epoch : UInt64
  value : α
  deriving Repr

namespace Versioned

variable {α : Type}

/-- A cell that has never been stored to. -/
def new (value : α) : Versioned α := ⟨0, value⟩

/-- Replace the value and start the next epoch. -/
def store (cell : Versioned α) (value : α) : Versioned α := ⟨cell.epoch + 1, value⟩

/-- The snapshots seen at the start and after each of a run of stores. -/
def history (cell : Versioned α) : List α → List (Versioned α)
  | [] => [cell]
  | v :: vs => cell :: (cell.store v).history vs

end Versioned

end PacketFilter
