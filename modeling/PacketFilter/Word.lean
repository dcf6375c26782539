/-!
# Words, halves and bytes

Instructions are 32-bit words. A word is read as two 16-bit halves or as four bytes, low end
first, and put together again by arithmetic on naturals, so that the equations below need no
bit-level reasoning.

Main statements: each way of putting a word together is undone by taking it apart
(`lowHalf_ofHalves`, `highHalf_ofHalves`, `bytes_ofBytes`), and the other way round
(`ofHalves_halves`, `ofBytes_bytes`).
-/

namespace PacketFilter

/-- A 32-bit instruction word. -/
abbrev Word := UInt32

namespace Word

/-- The word with these low and high halves. -/
def ofHalves (low high : UInt16) : Word := UInt32.ofNat (low.toNat + 65536 * high.toNat)

/-- Bits 0 to 15. -/
def lowHalf (w : Word) : UInt16 := UInt16.ofNat w.toNat

/-- Bits 16 to 31. -/
def highHalf (w : Word) : UInt16 := UInt16.ofNat (w.toNat / 65536)

theorem lowHalf_ofHalves (low high : UInt16) : lowHalf (ofHalves low high) = low := by
  apply UInt16.toNat_inj.1
  have := low.toNat_lt
  have := high.toNat_lt
  simp only [lowHalf, ofHalves, UInt16.toNat_ofNat', UInt32.toNat_ofNat']
  omega

theorem highHalf_ofHalves (low high : UInt16) : highHalf (ofHalves low high) = high := by
  apply UInt16.toNat_inj.1
  have := low.toNat_lt
  have := high.toNat_lt
  simp only [highHalf, ofHalves, UInt16.toNat_ofNat', UInt32.toNat_ofNat']
  omega

theorem ofHalves_halves (w : Word) : ofHalves (lowHalf w) (highHalf w) = w := by
  apply UInt32.toNat_inj.1
  have := w.toNat_lt
  simp only [lowHalf, highHalf, ofHalves, UInt16.toNat_ofNat', UInt32.toNat_ofNat']
  omega

/-- The word with these four bytes, lowest first. -/
def ofBytes (b₀ b₁ b₂ b₃ : UInt8) : Word :=
  UInt32.ofNat (b₀.toNat + 256 * b₁.toNat + 65536 * b₂.toNat + 16777216 * b₃.toNat)

/-- The four bytes of a word, lowest first. -/
def bytes (w : Word) : List UInt8 :=
  [UInt8.ofNat w.toNat, UInt8.ofNat (w.toNat / 256), UInt8.ofNat (w.toNat / 65536),
    UInt8.ofNat (w.toNat / 16777216)]

theorem bytes_ofBytes (b₀ b₁ b₂ b₃ : UInt8) : bytes (ofBytes b₀ b₁ b₂ b₃) = [b₀, b₁, b₂, b₃] := by
  have := b₀.toNat_lt
  have := b₁.toNat_lt
  have := b₂.toNat_lt
  have := b₃.toNat_lt
  simp only [bytes, ofBytes, List.cons.injEq, ← UInt8.toNat_inj, UInt8.toNat_ofNat',
    UInt32.toNat_ofNat']
  refine ⟨?_, ?_, ?_, ?_, trivial⟩ <;> omega

theorem ofBytes_bytes (w : Word) :
    ofBytes (UInt8.ofNat w.toNat) (UInt8.ofNat (w.toNat / 256)) (UInt8.ofNat (w.toNat / 65536))
      (UInt8.ofNat (w.toNat / 16777216)) = w := by
  apply UInt32.toNat_inj.1
  have := w.toNat_lt
  simp only [ofBytes, UInt8.toNat_ofNat', UInt32.toNat_ofNat']
  omega

/-- Is bit `i` set? No bit past 31 is. -/
def hasBit (w : Word) (i : Nat) : Bool := w.toBitVec.getLsbD i

/-- The word with bit `i` set as well, for `i` below 32. -/
def setBit (w : Word) (i : Nat) : Word := w ||| UInt32.ofBitVec (BitVec.twoPow 32 i)

theorem hasBit_setBit (w : Word) (i j : Nat) :
    hasBit (setBit w i) j = (hasBit w j || (decide (i < 32) && decide (i = j))) := by
  simp [hasBit, setBit, BitVec.getLsbD_twoPow]

theorem hasBit_of_le {w : Word} {i : Nat} (h : 32 ≤ i) : hasBit w i = false :=
  BitVec.getLsbD_of_ge _ _ h

@[simp] theorem hasBit_zero (i : Nat) : hasBit 0 i = false := by simp [hasBit]

/-- Group bytes by four into words; what is left over at the end is dropped. -/
def ofByteList : List UInt8 → List Word
  | b₀ :: b₁ :: b₂ :: b₃ :: rest => ofBytes b₀ b₁ b₂ b₃ :: ofByteList rest
  | _ => []

/-- The bytes of words, one after another. -/
def toByteList (ws : List Word) : List UInt8 := ws.flatMap bytes

/-- Grouping the bytes of words gives the words back. -/
@[simp] theorem ofByteList_toByteList (ws : List Word) : ofByteList (toByteList ws) = ws := by
  induction ws with
  | nil => rfl
  | cons w ws ih =>
    simp only [toByteList] at ih
    simp only [toByteList, List.flatMap_cons, bytes, List.cons_append, List.nil_append,
      ofByteList, ih, ofBytes_bytes]

end Word

/-! ## Half words as pairs of bytes -/

/-- The half word with these low and high bytes. -/
def halfOfBytes (low high : UInt8) : UInt16 := UInt16.ofNat (low.toNat + 256 * high.toNat)

/-- Bits 0 to 7 of a half word. -/
def lowByte (h : UInt16) : UInt8 := UInt8.ofNat h.toNat

/-- Bits 8 to 15 of a half word. -/
def highByte (h : UInt16) : UInt8 := UInt8.ofNat (h.toNat / 256)

theorem lowByte_halfOfBytes (low high : UInt8) : lowByte (halfOfBytes low high) = low := by
  apply UInt8.toNat_inj.1
  have := low.toNat_lt
  have := high.toNat_lt
  simp only [lowByte, halfOfBytes, UInt8.toNat_ofNat', UInt16.toNat_ofNat']
  omega

theorem highByte_halfOfBytes (low high : UInt8) : highByte (halfOfBytes low high) = high := by
  apply UInt8.toNat_inj.1
  have := low.toNat_lt
  have := high.toNat_lt
  simp only [highByte, halfOfBytes, UInt8.toNat_ofNat', UInt16.toNat_ofNat']
  omega

theorem halfOfBytes_bytes (h : UInt16) : halfOfBytes (lowByte h) (highByte h) = h := by
  apply UInt16.toNat_inj.1
  have := h.toNat_lt
  simp only [lowByte, highByte, halfOfBytes, UInt8.toNat_ofNat', UInt16.toNat_ofNat']
  omega

end PacketFilter
