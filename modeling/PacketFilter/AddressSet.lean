import PacketFilter.Flow
import PacketFilter.Word

/-!
# Sets of addresses

A set over up to 256 consecutive addresses, starting at a base address and running on from zero
past the last one. Membership is one bit per address, in words of 32.

Main statement: `contains_insert`, inserting an address adds that address, if it is in range, and
nothing else.
-/

namespace PacketFilter

/-- A bitmap over `size` consecutive addresses (`AddrSet`). Bit `d % 32` of word `d / 32` stands for
the address `base + d`. -/
structure AddressSet where
  base : Ipv4
  size : UInt16
  bitmap : List Word
  deriving DecidableEq, Repr, Inhabited

namespace AddressSet

/-- The largest set that an instruction can carry (`MAX_ADDR_SET`). -/
def maxSize : UInt16 := 256

/-- The number of words that hold one bit for each of `size` addresses. -/
def wordsFor (size : UInt16) : Nat := (size.toNat + 31) / 32

/-- The empty set over `size` addresses from `base` on. -/
def empty (base : Ipv4) (size : UInt16) : AddressSet :=
  ⟨base, size, List.replicate (wordsFor size) 0⟩

/-- How far an address lies past the base, counting on from zero past the last address. -/
def offset (s : AddressSet) (a : Ipv4) : Nat := (a - s.base).toNat

/-- Add an address; one out of range is left out. -/
def insert (s : AddressSet) (a : Ipv4) : AddressSet :=
  if s.offset a < s.size.toNat then
    { s with bitmap := s.bitmap.modify (s.offset a / 32) fun w => w.setBit (s.offset a % 32) }
  else s

/-- Is the address in the set? -/
def contains (s : AddressSet) (a : Ipv4) : Bool :=
  decide (s.offset a < s.size.toNat) &&
    (s.bitmap.getD (s.offset a / 32) 0).hasBit (s.offset a % 32)

/-- A set whose bitmap has a bit for every address of its range. -/
def Complete (s : AddressSet) : Prop := s.bitmap.length = wordsFor s.size

theorem complete_empty (base : Ipv4) (size : UInt16) : (empty base size).Complete := by
  simp [Complete, empty]

theorem Complete.insert {s : AddressSet} (h : s.Complete) (a : Ipv4) : (s.insert a).Complete := by
  unfold AddressSet.insert
  split
  · simpa [Complete] using h
  · exact h

@[simp] theorem base_insert (s : AddressSet) (a : Ipv4) : (s.insert a).base = s.base := by
  unfold insert; split <;> rfl

@[simp] theorem size_insert (s : AddressSet) (a : Ipv4) : (s.insert a).size = s.size := by
  unfold insert; split <;> rfl

@[simp] theorem contains_empty (base : Ipv4) (size : UInt16) (a : Ipv4) :
    (empty base size).contains a = false := by
  simp only [contains, empty, List.getD_eq_getElem?_getD, List.getElem?_replicate]
  split <;> simp

/-- Two addresses at the same distance from a base are the same. -/
theorem offset_inj {s : AddressSet} {a b : Ipv4} : s.offset a = s.offset b ↔ a = b := by
  unfold offset
  rw [UInt32.toNat_inj, UInt32.sub_left_inj]

/-- Inserting adds the address, if it is in range, and nothing else. -/
theorem contains_insert {s : AddressSet} (h : s.Complete) (a b : Ipv4) :
    (s.insert a).contains b =
      (s.contains b || (decide (a = b) && decide (s.offset a < s.size.toNat))) := by
  by_cases hr : s.offset a < s.size.toNat
  · have hlen : s.offset a / 32 < s.bitmap.length := by
      rw [h, wordsFor]; omega
    rw [insert, if_pos hr]
    simp only [contains]
    by_cases hb : s.offset b < s.size.toNat
    · have hlen' : s.offset b / 32 < s.bitmap.length := by
        rw [h, wordsFor]; omega
      simp only [offset] at *
      by_cases hw : (a - s.base).toNat / 32 = (b - s.base).toNat / 32
      · have hab : ((a - s.base).toNat % 32 = (b - s.base).toNat % 32) ↔ a = b := by
          rw [← offset_inj (s := s), offset, offset]
          omega
        simp [List.getD_eq_getElem?_getD, hb, hr, hw, hlen', Word.hasBit_setBit, hab, Nat.mod_lt]
      · have hab : a ≠ b := by
          rintro rfl
          exact hw rfl
        simp [List.getD_eq_getElem?_getD, hb, hr, hw, hab]
    · have hab : a ≠ b := by
        rintro rfl
        exact hb hr
      simp only [offset] at *
      simp [hb, hab]
  · simp [insert, hr]

end AddressSet

end PacketFilter
