import PacketFilter.Proofs.Codec.RoundTrip

/-!
# Address sets as sets

A set is built by inserting addresses into the empty one. An address is in it exactly if it was
inserted and is in range, where the range may run on from zero past the last address. So neither the
order nor repetition matters, and not only to the answers: the words are the same.

That is because a bitmap has nothing to say but its members as long as no bit past the range is set.
The last word may have room for such bits, and inserting never sets one (`Tidy`).

Main statements: `contains_ofList`, the members of what was built; `Tidy.ext`, a tidy set is
determined by its members; **`ofList_carried`**, the same of the set that is read from the words of
an instruction.
-/

namespace PacketFilter

/-- A word is its bits. -/
theorem Word.ext_hasBit {v w : Word} (h : ∀ i < 32, v.hasBit i = w.hasBit i) : v = w :=
  UInt32.toBitVec_inj.mp (BitVec.eq_of_getLsbD_eq h)

namespace AddressSet

/-- **The set built from a list of addresses**, over `size` addresses from `base` on. -/
def ofList (base : Ipv4) (size : UInt16) (as : List Ipv4) : AddressSet :=
  as.foldl insert (empty base size)

/-- Is the bit at this offset set, be it in the range or past it? -/
def hasBit (s : AddressSet) (d : Nat) : Bool := (s.bitmap.getD (d / 32) 0).hasBit (d % 32)

/-- **A tidy set**: its bitmap has just the words that its range needs, and no bit past the range is
set. -/
structure Tidy (s : AddressSet) : Prop where
  complete : s.Complete
  clear : ∀ d, s.size.toNat ≤ d → s.hasBit d = false

variable {s t : AddressSet} {base : Ipv4} {size : UInt16}

/-! ## Inserting -/

theorem tidy_empty (base : Ipv4) (size : UInt16) : (empty base size).Tidy := by
  refine ⟨complete_empty base size, fun d _ => ?_⟩
  simp only [hasBit, empty, List.getD_eq_getElem?_getD, List.getElem?_replicate]
  split <;> simp

/-- Inserting sets the bit of the address, and leaves every other bit as it is. -/
theorem hasBit_insert_of_ne {a : Ipv4} {d : Nat} (h : s.offset a ≠ d) :
    (s.insert a).hasBit d = s.hasBit d := by
  unfold AddressSet.insert
  split
  · simp only [hasBit, List.getD_eq_getElem?_getD, List.getElem?_modify]
    cases s.bitmap[d / 32]? with
    | none => rfl
    | some w =>
      by_cases hword : s.offset a / 32 = d / 32
      · have hbit : ¬ s.offset a % 32 = d % 32 := by omega
        simp [hword, Word.hasBit_setBit, hbit]
      · simp [hword]
  · rfl

/-- An address past the range is left out, so no bit past the range is ever set. -/
theorem Tidy.insert (h : s.Tidy) (a : Ipv4) : (s.insert a).Tidy := by
  refine ⟨h.complete.insert a, fun d hd => ?_⟩
  rw [size_insert] at hd
  by_cases hrange : s.offset a < s.size.toNat
  · rw [hasBit_insert_of_ne (Nat.ne_of_lt (Nat.lt_of_lt_of_le hrange hd))]
    exact h.clear d hd
  · rw [AddressSet.insert, if_neg hrange]
    exact h.clear d hd

theorem Tidy.insertAll (h : s.Tidy) (as : List Ipv4) : (as.foldl AddressSet.insert s).Tidy := by
  induction as generalizing s with
  | nil => exact h
  | cons a as ih => exact ih (h.insert a)

theorem tidy_ofList (base : Ipv4) (size : UInt16) (as : List Ipv4) : (ofList base size as).Tidy :=
  (tidy_empty base size).insertAll as

theorem range_insertAll (as : List Ipv4) (s : AddressSet) :
    (as.foldl insert s).base = s.base ∧ (as.foldl insert s).size = s.size := by
  induction as generalizing s with
  | nil => exact ⟨rfl, rfl⟩
  | cons a as ih =>
    obtain ⟨hbase, hsize⟩ := ih (s.insert a)
    exact ⟨hbase.trans (base_insert s a), hsize.trans (size_insert s a)⟩

@[simp] theorem base_ofList (as : List Ipv4) : (ofList base size as).base = base :=
  (range_insertAll as (empty base size)).1

@[simp] theorem size_ofList (as : List Ipv4) : (ofList base size as).size = size :=
  (range_insertAll as (empty base size)).2

/-! ## Members -/

/-- What is in a set after addresses have been inserted: what was in it before, and those of the
addresses that are in range. -/
theorem contains_insertAll (h : s.Complete) (as : List Ipv4) (a : Ipv4) :
    (as.foldl insert s).contains a = true ↔
      s.contains a = true ∨ a ∈ as ∧ s.offset a < s.size.toNat := by
  induction as generalizing s with
  | nil => simp
  | cons b as ih =>
    have hoffset : (s.insert b).offset a = s.offset a := by rw [offset, offset, base_insert]
    rw [List.foldl_cons, ih (h.insert b), contains_insert h, hoffset, size_insert, Bool.or_eq_true,
      Bool.and_eq_true, decide_eq_true_eq, decide_eq_true_eq, List.mem_cons, or_assoc]
    -- The address inserted first is in range where it is the one that is asked for.
    refine or_congr Iff.rfl ⟨?_, ?_⟩
    · rintro (⟨rfl, hrange⟩ | ⟨hmem, hrange⟩)
      · exact ⟨Or.inl rfl, hrange⟩
      · exact ⟨Or.inr hmem, hrange⟩
    · rintro ⟨rfl | hmem, hrange⟩
      · exact Or.inl ⟨rfl, hrange⟩
      · exact Or.inr ⟨hmem, hrange⟩

/-- **What was built contains what was inserted**, as far as it is in range. -/
theorem contains_ofList (as : List Ipv4) (a : Ipv4) :
    (ofList base size as).contains a = true ↔ a ∈ as ∧ (a - base).toNat < size.toNat := by
  rw [ofList, contains_insertAll (complete_empty base size), contains_empty]
  simp [offset, empty]

theorem contains_eq_hasBit (s : AddressSet) (a : Ipv4) :
    s.contains a = (decide (s.offset a < s.size.toNat) && s.hasBit (s.offset a)) := rfl

/-- Every bit in the range is the bit of an address. -/
theorem hasBit_eq_contains {d : Nat} (hd : d < s.size.toNat) :
    s.hasBit d = s.contains (s.base + UInt32.ofNat d) := by
  have hlt := s.size.toNat_lt
  have hoffset : s.offset (s.base + UInt32.ofNat d) = d := by
    rw [offset, UInt32.add_comm, UInt32.add_sub_cancel, UInt32.toNat_ofNat']
    omega
  rw [contains_eq_hasBit, hoffset, decide_eq_true hd, Bool.true_and]

/-- **A tidy set is determined by its members.** -/
theorem Tidy.ext (hs : s.Tidy) (ht : t.Tidy) (hbase : s.base = t.base) (hsize : s.size = t.size)
    (hmembers : ∀ a, s.contains a = t.contains a) : s = t := by
  have hbit : ∀ d, s.hasBit d = t.hasBit d := by
    intro d
    by_cases hd : d < s.size.toNat
    · rw [hasBit_eq_contains hd, hasBit_eq_contains (hsize ▸ hd), hmembers, hbase]
    · rw [hs.clear d (Nat.not_lt.mp hd), ht.clear d (hsize ▸ Nat.not_lt.mp hd)]
  have hlength : s.bitmap.length = t.bitmap.length := by
    rw [hs.complete, ht.complete, hsize]
  have hbitmap : s.bitmap = t.bitmap := by
    refine List.ext_getElem hlength fun i hi hi' => Word.ext_hasBit fun j hj => ?_
    have hij := hbit (32 * i + j)
    have hdiv : (32 * i + j) / 32 = i := by omega
    have hmod : (32 * i + j) % 32 = j := by omega
    simpa [hasBit, hdiv, hmod, List.getD_eq_getElem?_getD, hi, hi'] using hij
  cases s
  cases t
  simp_all

/-! ## Instructions -/

theorem wellFormed_ofList (hpos : size ≠ 0) (hle : size ≤ maxSize) (as : List Ipv4) :
    (ofList base size as).WellFormed :=
  ⟨by rwa [size_ofList], by rwa [size_ofList], (tidy_ofList base size as).complete⟩

/-- **A built set is the set of the addresses inserted**, and stays it in an instruction: an address
is in it exactly if it was inserted and lies in the range, the same addresses in any other order and
number make the same set, and the set that is read from the words of an instruction, whichever end
it is for and whatever words come behind, has the same members. -/
theorem ofList_carried (base : Ipv4) {size : UInt16} (hpos : size ≠ 0) (hle : size ≤ maxSize)
    (as : List Ipv4) :
    (∀ a, (ofList base size as).contains a = true ↔ a ∈ as ∧ (a - base).toNat < size.toNat) ∧
    (∀ bs : List Ipv4, (∀ a, a ∈ bs ↔ a ∈ as) → ofList base size bs = ofList base size as) ∧
    ∀ (side : Side) (modifiers : Modifiers) (rest : List Word), modifiers.isKnown = true →
      ∃ set n,
        Insn.decode (Insn.encode ⟨.addressSet side (ofList base size as), modifiers⟩ ++ rest) =
          .ok (⟨.addressSet side set, modifiers⟩, n) ∧
        ∀ a, set.contains a = true ↔ a ∈ as ∧ (a - base).toNat < size.toNat := by
  refine ⟨contains_ofList as, fun bs hsame => ?_, fun side modifiers rest hmodifiers => ?_⟩
  · refine (tidy_ofList base size bs).ext (tidy_ofList base size as) (by simp) (by simp) fun a => ?_
    rw [Bool.eq_iff_iff, contains_ofList, contains_ofList, hsame]
  · have hwell : Insn.WellFormed ⟨.addressSet side (ofList base size as), modifiers⟩ :=
      ⟨wellFormed_ofList hpos hle as, hmodifiers⟩
    exact ⟨_, _, Insn.decode_encode_append hwell rest, contains_ofList as⟩

/-- Forty addresses from `255.255.255.240` on, the last eight of them in a second word with room for
more: `0.0.0.20` is one of these, and `0.0.0.24` is past the range. -/
theorem ofList_carried_past_zero :
    let set := ofList 0xfffffff0 40 [0xfffffffe, 20, 24, 20]
    (40 : UInt16) ≠ 0 ∧ (40 : UInt16) ≤ maxSize ∧ set.contains 20 = true ∧
      set.contains 24 = false ∧ ofList 0xfffffff0 40 [20, 24, 0xfffffffe] = set ∧
      ∃ read n, Insn.decode (Insn.encode ⟨.addressSet .destination set, .none⟩ ++ []) =
        .ok (⟨.addressSet .destination read, .none⟩, n) ∧ read.contains 20 = true := by
  intro set
  have hpos : (40 : UInt16) ≠ 0 := by decide
  have hle : (40 : UInt16) ≤ maxSize := by decide
  obtain ⟨hmembers, hsame, hread⟩ :=
    ofList_carried 0xfffffff0 hpos hle [0xfffffffe, 20, 24, 20]
  obtain ⟨read, n, hdecode, hread⟩ := hread .destination .none [] (by decide)
  have hout : ¬ set.contains 24 = true := fun h => absurd ((hmembers 24).mp h).2 (by decide)
  exact ⟨hpos, hle, (hmembers 20).mpr (by decide), Bool.eq_false_iff.mpr hout,
    hsame _ (by simp [or_comm, or_assoc]), read, n, hdecode, (hread 20).mpr (by decide)⟩

end AddressSet

end PacketFilter
