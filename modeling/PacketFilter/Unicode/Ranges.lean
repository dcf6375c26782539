/-!
# Ranges of characters

Sets of characters as lists of ranges of their codes, both ends of which belong to the range.

Main statement: `inRanges_iff`, membership is membership in some range.
-/

namespace PacketFilter.Unicode

/-- Is a character in one of the ranges? -/
def inRanges (ranges : List (Nat × Nat)) (c : Char) : Bool :=
  ranges.any fun r => r.1 ≤ c.toNat && c.toNat ≤ r.2

theorem inRanges_iff {ranges : List (Nat × Nat)} {c : Char} :
    inRanges ranges c = true ↔ ∃ r ∈ ranges, r.1 ≤ c.toNat ∧ c.toNat ≤ r.2 := by
  simp [inRanges]

end PacketFilter.Unicode
