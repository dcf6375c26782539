import PacketFilter.Insn.Words

/-!
# Which instructions words can carry

Any instruction can be written, but the words give back only those that fit them: modifier bits
without a name are lost in the length or in the reading, a list that is too long wraps its length,
a name is cut after sixteen bytes and ends at its first zero. `Insn.WellFormed` says, field by
field, which instructions fit. What is read is always of that kind, and what is of that kind is
read as it was written.

Main statements: `Command.read_payload`, a well-formed command is read back from its payload;
`Opcode.read_gives`, what is read is well formed and takes as many words as were read;
**`decode_encode_iff`**, an instruction is read back exactly if it is well formed, whatever words
come after it; **`round_trip`**, the same with the reading of whole buffers.
-/

namespace PacketFilter

/-! ## Words and bytes -/

theorem Word.length_ofByteList : ∀ bytes : List UInt8,
    (Word.ofByteList bytes).length = bytes.length / 4
  | b₀ :: b₁ :: b₂ :: b₃ :: rest => by
    rw [Word.ofByteList, List.length_cons, Word.length_ofByteList rest]
    simp only [List.length_cons]
    omega
  | [] | [_] | [_, _] | [_, _, _] => by simp [Word.ofByteList]

/-- The bytes of words that bytes were grouped into, if none was left over. -/
theorem Word.toByteList_ofByteList : ∀ bytes : List UInt8, bytes.length % 4 = 0 →
    Word.toByteList (Word.ofByteList bytes) = bytes
  | b₀ :: b₁ :: b₂ :: b₃ :: rest, h => by
    have hrest : rest.length % 4 = 0 := by
      simp only [List.length_cons] at h
      omega
    have ih := Word.toByteList_ofByteList rest hrest
    unfold Word.toByteList at ih ⊢
    rw [Word.ofByteList, List.flatMap_cons, Word.bytes_ofBytes, ih]
    rfl
  | [], _ => rfl
  | [_], h => by cases h
  | [_, _], h => by cases h
  | [_, _, _], h => by cases h

theorem Word.length_toByteList (ws : List Word) :
    (Word.toByteList ws).length = 4 * ws.length := by
  induction ws with
  | nil => rfl
  | cons w ws ih =>
    unfold Word.toByteList at ih ⊢
    rw [List.flatMap_cons, List.length_append, ih]
    simp only [Word.bytes, List.length_cons, List.length_nil]
    omega

/-! ## Names -/

/-- Does the name fit its field? It has at least one and at most sixteen bytes, none of them
zero. -/
def NameFits (s : String) : Prop :=
  1 ≤ (nameBytes s).length ∧ (nameBytes s).length ≤ maxNameBytes ∧ 0 ∉ nameBytes s

/-- A name that fits is read back from its field. -/
theorem nameOfField?_nameField {s : String} (h : NameFits s) :
    nameOfField? (nameField s) = some s := by
  obtain ⟨hpos, hle, hzero⟩ := h
  have hname : (nameField s).takeWhile (· != 0) = nameBytes s := by
    have hall : ∀ b ∈ nameBytes s, (b != 0) = true := by
      intro b hb
      simpa using fun heq : b = 0 => hzero (heq ▸ hb)
    rw [nameField, List.take_of_length_le hle, List.takeWhile_append_of_pos hall,
      List.takeWhile_replicate]
    exact List.append_nil _
  have hne : (nameBytes s).isEmpty = false := by
    rw [List.isEmpty_eq_false_iff]
    exact List.length_pos_iff.mp hpos
  unfold nameOfField?
  simp only [hname, hne, Bool.false_eq_true, if_false]
  unfold String.fromUTF8?
  exact dif_pos s.isValidUTF8

/-- A name that is read from a field fits it. -/
theorem nameFits_of_nameOfField? {field : List UInt8} {s : String}
    (hlength : field.length ≤ maxNameBytes) (h : nameOfField? field = some s) : NameFits s := by
  unfold nameOfField? at h
  simp only at h
  split at h
  · cases h
  · rename_i hne
    unfold String.fromUTF8? at h
    split at h
    · cases h
      refine ⟨?_, ?_, ?_⟩
      · exact List.length_pos_iff.mpr fun hnil => hne (List.isEmpty_iff.mpr hnil)
      · exact Nat.le_trans (List.takeWhile_prefix _).length_le hlength
      · intro hmem
        have hall := List.all_takeWhile (p := fun b : UInt8 => b != 0) (l := field)
        simpa using List.all_eq_true.mp hall 0 hmem
    · cases h

/-! ## Well-formed instructions -/

/-- A set that an instruction can carry: of 1 to 256 addresses, with a bitmap that has room for
these and no more. -/
structure AddressSet.WellFormed (s : AddressSet) : Prop where
  pos : s.size ≠ 0
  le : s.size ≤ AddressSet.maxSize
  complete : s.Complete

/-- An interface that an instruction can name. -/
def InterfaceMatch.WellFormed : InterfaceMatch → Prop
  | .address _ => True
  | .name s | .glob s => NameFits s

/-- As many ranges as an instruction can carry. -/
def FitRanges (ranges : List PortRange) : Prop :=
  1 ≤ ranges.length ∧ ranges.length ≤ Payload.maxRanges

/-- **A command that words can carry.** -/
def Command.WellFormed : Command → Prop
  | .maskedAddress _ _ mask => mask ≠ 0
  | .addressSet _ set => set.WellFormed
  | .ports _ ranges | .macType ranges => FitRanges ranges
  | .interface _ m => m.WellFormed
  | .ipOptions set clear => set.isKnown = true ∧ clear.isKnown = true
  | .tcpFlags set clear => set.isKnown = true ∧ clear.isKnown = true
  | .tcpOptions set clear => set.isKnown = true ∧ clear.isKnown = true
  | .limit parts connections => parts.isKnown = true ∧ connections ≠ 0
  | _ => True

/-- **An instruction that words can carry**: its command is one, and its modifiers have names. -/
structure Insn.WellFormed (i : Insn) : Prop where
  command : i.command.WellFormed
  modifiers : i.modifiers.isKnown = true

instance (s : String) : Decidable (NameFits s) :=
  inferInstanceAs (Decidable (_ ∧ _ ∧ _))

instance (s : AddressSet) : Decidable s.WellFormed :=
  decidable_of_iff
    (s.size ≠ 0 ∧ s.size ≤ AddressSet.maxSize ∧ s.bitmap.length = AddressSet.wordsFor s.size)
    ⟨fun ⟨hpos, hle, hcomplete⟩ => ⟨hpos, hle, hcomplete⟩, fun h => ⟨h.pos, h.le, h.complete⟩⟩

instance : (m : InterfaceMatch) → Decidable m.WellFormed
  | .address _ => .isTrue trivial
  | .name s => inferInstanceAs (Decidable (NameFits s))
  | .glob s => inferInstanceAs (Decidable (NameFits s))

instance (ranges : List PortRange) : Decidable (FitRanges ranges) :=
  inferInstanceAs (Decidable (_ ∧ _))

instance (c : Command) : Decidable c.WellFormed := by
  cases c <;> dsimp only [Command.WellFormed] <;> infer_instance

instance (i : Insn) : Decidable i.WellFormed :=
  decidable_of_iff (i.command.WellFormed ∧ i.modifiers.isKnown = true)
    ⟨fun ⟨hcommand, hmodifiers⟩ => ⟨hcommand, hmodifiers⟩, fun h => ⟨h.command, h.modifiers⟩⟩

namespace Flags

variable {k : FlagKind}

theorem isKnown_iff {f : Flags k} : f.isKnown = true ↔ f.known = f := beq_iff_eq

/-- What has lost its nameless bits has none. -/
theorem isKnown_known (f : Flags k) : f.known.isKnown = true := isKnown_iff.mpr f.known_known

end Flags

/-! ## The first word -/

namespace Header

/-- The modifiers with a name are bits 6 and 7. -/
theorem bits_of_isKnown {m : Modifiers} (h : m.isKnown = true) :
    m.bits = 0 ∨ m.bits = 0x40 ∨ m.bits = 0x80 ∨ m.bits = 0xc0 := by
  have hall : ∀ n < 256, n &&& 0xc0 = n → n = 0 ∨ n = 0x40 ∨ n = 0x80 ∨ n = 0xc0 := by
    decide +kernel
  have hbits : m.bits &&& 0xc0 = m.bits := congrArg Flags.bits (Flags.isKnown_iff.mp h)
  simp only [← UInt8.toNat_inj, UInt8.toNat_and] at hbits ⊢
  exact hall m.bits.toNat m.bits.toNat_lt hbits

/-- Length and modifiers share a byte and do not meet. -/
theorem shapeOf_spec {m : Modifiers} (h : m.isKnown = true) {n : Nat} (hn : n < 64) :
    (shapeOf n m).toNat % 64 = n ∧ shapeOf n m &&& 0xc0 = m.bits := by
  have hall : ∀ b ∈ [(0 : UInt8), 0x40, 0x80, 0xc0], ∀ n < 64,
      (b ||| UInt8.ofNat (n % 64)).toNat % 64 = n ∧ (b ||| UInt8.ofNat (n % 64)) &&& 0xc0 = b := by
    decide +kernel
  exact hall m.bits (by simpa using bits_of_isKnown h) n hn

end Header

/-! ## Writing -/

namespace Command

/-- The payload has the length that the command declares. -/
theorem length_payload (c : Command) : c.payload.length + 1 = c.wordCount := by
  cases c with
  | addressSet side set =>
    simp only [payload, wordCount, List.length_cons, List.length_map, List.length_range]
    omega
  | ports side ranges => simp [payload, wordCount, Nat.add_comm]
  | macType ranges => simp [payload, wordCount, Nat.add_comm]
  | macAddress wanted mask => simp [payload, wordCount, Word.length_ofByteList]
  | interface role m =>
    cases m <;> simp [payload, wordCount, InterfaceMatch.payload, Word.length_ofByteList,
      length_nameField]
  | act a => cases a <;> rfl
  | _ => rfl

/-- A well-formed command is short enough for its length to be written in six bits. -/
theorem wordCount_lt {c : Command} (h : c.WellFormed) : c.wordCount < 64 := by
  cases c with
  | addressSet side set =>
    have hle := UInt16.le_iff_toNat_le.mp h.le
    simp only [AddressSet.maxSize, UInt16.reduceToNat] at hle
    simp only [wordCount, AddressSet.wordsFor]
    omega
  | ports side ranges =>
    have hle : ranges.length ≤ 30 := h.2
    simp only [wordCount]
    omega
  | macType ranges =>
    have hle : ranges.length ≤ 30 := h.2
    simp only [wordCount]
    omega
  | act a => cases a <;> simp [wordCount]
  | _ => simp [wordCount]

end Command

theorem Insn.length_encode (i : Insn) : i.encode.length = i.wordCount :=
  i.command.length_payload

/-! ## Reading what was written -/

namespace Payload

theorem set_eq_ok_of_wellFormed (op : Opcode) (side : Side) {s : AddressSet} (h : s.WellFormed) :
    set op side s.size (Command.addressSet side s).payload = .ok (.addressSet side s) := by
  have hsize : ¬ (s.size = 0 ∨ AddressSet.maxSize < s.size) := by
    rintro (hzero | hlt)
    · exact h.pos hzero
    · exact UInt16.not_lt.mpr h.le hlt
  have hbitmap : ((List.range (AddressSet.wordsFor s.size)).map fun i => s.bitmap.getD i 0) =
      s.bitmap := by
    rw [← h.complete]
    refine List.ext_getElem (by simp) fun i h₁ h₂ => ?_
    simp [List.getD_eq_getElem?_getD, h₂]
  have hlength : ¬ s.bitmap.length ≠ AddressSet.wordsFor s.size := not_not_intro h.complete
  simp only [Command.payload, hbitmap, set]
  rw [if_neg hsize, if_neg hlength]

theorem ranges_eq_ok_of_fit (op : Opcode) (build : List PortRange → Command)
    {rs : List PortRange} (h : FitRanges rs) :
    ranges op build (rs.map PortRange.toWord) = .ok (build rs) := by
  have hnot : ¬ ((rs.map PortRange.toWord).isEmpty = true ∨
      maxRanges < (rs.map PortRange.toWord).length) := by
    rw [List.isEmpty_iff_length_eq_zero, List.length_map]
    have := h.1
    have := h.2
    omega
  rw [ranges, if_neg hnot, List.map_map]
  simp [Function.comp_def]

theorem octets?_toList {n : Nat} (v : Vector UInt8 n) : octets? n v.toList = some v := by
  unfold octets?
  rw [dif_pos (by simp)]
  simp [Vector.toArray_toList]

theorem mac_payload (op : Opcode) (wanted mask : Vector UInt8 12) :
    mac op (Command.macAddress wanted mask).payload = .ok (.macAddress wanted mask) := by
  have hbytes := Word.toByteList_ofByteList (wanted.toList ++ mask.toList) (by simp)
  have htake : (wanted.toList ++ mask.toList).take 12 = wanted.toList :=
    List.take_left' (by simp)
  have hdrop : (wanted.toList ++ mask.toList).drop 12 = mask.toList :=
    List.drop_left' (by simp)
  simp only [Command.payload, mac, hbytes, htake, hdrop, octets?_toList]

/-- What is read of an address word and four words of name. -/
theorem interface_cons (op : Opcode) (role : InterfaceRole) (mode : UInt16) (a : Word)
    {ws : List Word} (h : ws.length = 4) :
    interface op role mode (a :: ws) =
      if mode = 0 then .ok (.interface role (.address a))
      else
        match nameOfField? (Word.toByteList ws) with
        | none => .error .badInterfaceName
        | some s =>
          if mode = 1 then .ok (.interface role (.name s))
          else if mode = 2 then .ok (.interface role (.glob s))
          else .error (.badInterfaceMode mode) := by
  match ws, h with
  | [_, _, _, _], _ => rfl

theorem interface_payload (op : Opcode) (role : InterfaceRole) {m : InterfaceMatch}
    (h : m.WellFormed) : interface op role m.mode m.payload = .ok (.interface role m) := by
  have hlength : ∀ s, (Word.ofByteList (nameField s)).length = 4 := fun s => by
    rw [Word.length_ofByteList, length_nameField]
  have hname : ∀ s, NameFits s →
      nameOfField? (Word.toByteList (Word.ofByteList (nameField s))) = some s := fun s hs => by
    rw [Word.toByteList_ofByteList _ (by rw [length_nameField]), nameOfField?_nameField hs]
  cases m with
  | address a => rfl
  | name s =>
    simp only [InterfaceMatch.payload, InterfaceMatch.mode]
    rw [interface_cons op role 1 0 (hlength s), hname s h]
    rfl
  | glob s =>
    simp only [InterfaceMatch.payload, InterfaceMatch.mode]
    rw [interface_cons op role 2 0 (hlength s), hname s h]
    rfl

theorem limit_payload {parts : LimitParts} {connections : UInt16} (hparts : parts.isKnown = true)
    (hconnections : connections ≠ 0) :
    limit (.ofHalves connections parts.bits.toUInt16) = .ok (.limit parts connections) := by
  have hbyte : lowByte parts.bits.toUInt16 = parts.bits := by
    simp [lowByte]
  simp only [limit, Word.lowHalf_ofHalves, Word.highHalf_ofHalves, hbyte]
  rw [if_neg hconnections, if_pos hparts]

end Payload

/-- **A well-formed command is read back** from its argument and its payload. -/
theorem Command.read_payload {c : Command} (h : c.WellFormed) :
    c.opcode.read c.argument c.payload = .ok c := by
  have hbyte : ∀ n : UInt8, lowByte n.toUInt16 = n := fun n => by simp [lowByte]
  -- The bits of a set that has no nameless ones are those that reading leaves.
  have hflags : ∀ {k : FlagKind} {f : Flags k}, f.isKnown = true →
      (Flags.mk f.bits : Flags k).known = f :=
    fun hf => Flags.isKnown_iff.mp hf
  cases c with
  | protocol p => simp [opcode, Opcode.read, argument, payload, Payload.bare, hbyte]
  | precedence n => simp [opcode, Opcode.read, argument, payload, Payload.bare, hbyte]
  | timeToLive n => simp [opcode, Opcode.read, argument, payload, Payload.bare, hbyte]
  | ipVersion n => simp [opcode, Opcode.read, argument, payload, Payload.bare, hbyte]
  | address side a => cases side <;> rfl
  | ownAddress side => cases side <;> rfl
  | maskedAddress side a mask => cases side <;> exact if_neg h
  | addressSet side set => cases side <;> exact Payload.set_eq_ok_of_wellFormed _ _ h
  | ports side ranges => cases side <;> exact Payload.ranges_eq_ok_of_fit _ _ h
  | macType ranges => exact Payload.ranges_eq_ok_of_fit _ _ h
  | macAddress wanted mask => exact Payload.mac_payload _ wanted mask
  | interface role m => cases role <;> exact Payload.interface_payload _ _ h
  | typeOfService set clear =>
    simp [opcode, Opcode.read, argument, payload, Payload.bare, lowByte_halfOfBytes,
      highByte_halfOfBytes]
  | ipOptions set clear =>
    simp [opcode, Opcode.read, argument, payload, Payload.bare, lowByte_halfOfBytes,
      highByte_halfOfBytes, hflags h.1, hflags h.2]
  | tcpFlags set clear =>
    simp [opcode, Opcode.read, argument, payload, Payload.bare, lowByte_halfOfBytes,
      highByte_halfOfBytes, hflags h.1, hflags h.2]
  | tcpOptions set clear =>
    simp [opcode, Opcode.read, argument, payload, Payload.bare, lowByte_halfOfBytes,
      highByte_halfOfBytes, hflags h.1, hflags h.2]
  | limit parts connections => exact Payload.limit_payload h.1 h.2
  | act a => cases a <;> rfl
  | _ => rfl

/-! ## What is read -/

/-- **What reading a payload comes to**: a well-formed command of the operation code that takes as
many words as were read, the first one included. -/
structure Opcode.Gives (op : Opcode) (d : List Word) (c : Command) : Prop where
  wellFormed : c.WellFormed
  opcode : c.opcode = op
  wordCount : c.wordCount = d.length + 1

namespace Payload

variable {op : Opcode} {d : List Word} {c c' : Command}

theorem bare_gives (hwell : c'.WellFormed) (hop : c'.opcode = op) (hcount : c'.wordCount = 1)
    (h : bare op c' d = .ok c) : op.Gives d c := by
  unfold bare at h
  split at h
  · cases h
    exact ⟨hwell, hop, hcount⟩
  · cases h

theorem single_eq_ok {read : Word → Except InsnError Command} (h : single op read d = .ok c) :
    ∃ w, d = [w] ∧ read w = .ok c := by
  unfold single at h
  split at h
  · exact ⟨_, rfl, h⟩
  · cases h

theorem single_gives {build : Word → Command} (hwell : ∀ w, (build w).WellFormed)
    (hop : ∀ w, (build w).opcode = op) (hcount : ∀ w, (build w).wordCount = 2)
    (h : single op (fun w => .ok (build w)) d = .ok c) : op.Gives d c := by
  obtain ⟨w, rfl, hw⟩ := single_eq_ok h
  cases hw
  exact ⟨hwell w, hop w, hcount w⟩

theorem masked_gives {side : Side} (hop : ∀ a mask, (Command.maskedAddress side a mask).opcode = op)
    (h : masked op side d = .ok c) : op.Gives d c := by
  unfold masked at h
  split at h
  · split at h
    · cases h
    · rename_i hmask
      cases h
      exact ⟨hmask, hop _ _, rfl⟩
  · cases h

theorem set_gives {side : Side} {size : UInt16}
    (hop : ∀ s, (Command.addressSet side s).opcode = op) (h : set op side size d = .ok c) :
    op.Gives d c := by
  unfold set at h
  split at h
  · rename_i base bitmap
    split at h
    · cases h
    · rename_i hsize
      rw [not_or] at hsize
      split at h
      · cases h
      · rename_i hlength
        cases h
        have hlength : bitmap.length = AddressSet.wordsFor size := Decidable.not_not.mp hlength
        refine ⟨⟨hsize.1, UInt16.not_lt.mp hsize.2, hlength⟩, hop _, ?_⟩
        simp only [Command.wordCount, List.length_cons, hlength]
        omega
  · cases h

theorem ranges_gives {build : List PortRange → Command}
    (hwell : ∀ rs, FitRanges rs → (build rs).WellFormed) (hop : ∀ rs, (build rs).opcode = op)
    (hcount : ∀ rs, (build rs).wordCount = 1 + rs.length) (h : ranges op build d = .ok c) :
    op.Gives d c := by
  unfold ranges at h
  split at h
  · cases h
  · rename_i hfits
    cases h
    rw [not_or, List.isEmpty_iff_length_eq_zero] at hfits
    refine ⟨hwell _ ⟨?_, ?_⟩, hop _, ?_⟩
    · rw [List.length_map]
      omega
    · rw [List.length_map]
      omega
    · rw [hcount, List.length_map, Nat.add_comm]

theorem mac_gives (h : mac .macAddr2 d = .ok c) : Opcode.macAddr2.Gives d c := by
  -- Twelve bytes after the first twelve are six words.
  have hoctets : ∀ {bytes : List UInt8} {v : Vector UInt8 12}, octets? 12 bytes = some v →
      bytes.length = 12 := by
    intro bytes v hv
    unfold octets? at hv
    split at hv
    · rename_i hlength
      exact hlength
    · cases hv
  unfold mac at h
  simp only at h
  split at h
  · rename_i wanted mask hwanted hmask
    cases h
    have hdrop := hoctets hmask
    rw [List.length_drop, Word.length_toByteList] at hdrop
    refine ⟨trivial, rfl, ?_⟩
    simp only [Command.wordCount]
    omega
  · cases h

theorem interface_gives {role : InterfaceRole} {mode : UInt16}
    (hop : ∀ m, (Command.interface role m).opcode = op) (h : interface op role mode d = .ok c) :
    op.Gives d c := by
  unfold interface at h
  split at h
  · rename_i a n₀ n₁ n₂ n₃
    split at h
    · cases h
      exact ⟨trivial, hop _, rfl⟩
    · split at h
      · cases h
      · rename_i s hname
        have hlength : (Word.toByteList [n₀, n₁, n₂, n₃]).length ≤ maxNameBytes :=
          Nat.le_of_eq (Word.length_toByteList _)
        have hfits := nameFits_of_nameOfField? hlength hname
        split at h
        · cases h
          exact ⟨hfits, hop _, rfl⟩
        · split at h
          · cases h
            exact ⟨hfits, hop _, rfl⟩
          · cases h
  · cases h

theorem limit_gives (h : single .limit limit d = .ok c) : Opcode.limit.Gives d c := by
  obtain ⟨w, rfl, hw⟩ := single_eq_ok h
  unfold limit at hw
  simp only at hw
  split at hw
  · cases hw
  · rename_i hconnections
    split at hw
    · rename_i hparts
      cases hw
      exact ⟨⟨hparts, hconnections⟩, rfl, rfl⟩
    · cases hw

end Payload

/-- **What is read is well formed**, and takes as many words as were read. -/
theorem Opcode.read_gives {op : Opcode} {n : UInt16} {d : List Word} {c : Command}
    (h : op.read n d = .ok c) : op.Gives d c := by
  have hknown : ∀ {k : FlagKind} (b b' : UInt8),
      (Flags.mk b : Flags k).known.isKnown = true ∧ (Flags.mk b' : Flags k).known.isKnown = true :=
    fun b b' => ⟨Flags.isKnown_known _, Flags.isKnown_known _⟩
  cases op with
  | ipSrc | ipDst | tcpSeq | tcpAck | icmpType | prob | log | forwardIp =>
    refine Payload.single_gives ?_ ?_ ?_ h
    · intro _
      trivial
    · intro _
      rfl
    · intro _
      rfl
  | ipSrcMask | ipDstMask => exact Payload.masked_gives (fun _ _ => rfl) h
  | ipSrcSet | ipDstSet => exact Payload.set_gives (fun _ => rfl) h
  | ipSrcPort | ipDstPort | macType =>
    refine Payload.ranges_gives ?_ ?_ ?_ h
    · intro _ hfits
      exact hfits
    · intro _
      rfl
    · intro _
      rfl
  | macAddr2 => exact Payload.mac_gives h
  | recv | xmit | via => exact Payload.interface_gives (fun _ => rfl) h
  | limit => exact Payload.limit_gives h
  | ipOpt | tcpFlags | tcpOpts =>
    refine Payload.bare_gives ?_ rfl rfl h
    exact hknown _ _
  | _ =>
    refine Payload.bare_gives ?_ rfl rfl h
    trivial

/-! ## Instructions -/

namespace Insn

/-- The declared length and the modifiers of a well-formed instruction. -/
theorem WellFormed.header_spec {i : Insn} (h : i.WellFormed) :
    i.header.length = i.wordCount ∧ i.header.modifiers = i.modifiers := by
  obtain ⟨hlength, hbits⟩ := Header.shapeOf_spec h.modifiers (Command.wordCount_lt h.command)
  exact ⟨hlength, congrArg Flags.mk hbits⟩

/-- **A well-formed instruction is read back**, whatever words come after it. -/
theorem decode_encode_append {i : Insn} (h : i.WellFormed) (rest : List Word) :
    decode (i.encode ++ rest) = .ok (i, i.wordCount) := by
  obtain ⟨hlength, hmodifiers⟩ := h.header_spec
  have hcount : i.command.payload.length + 1 = i.wordCount := i.command.length_payload
  have htake : (i.command.payload ++ rest).take (i.wordCount - 1) = i.command.payload :=
    List.take_left' (by omega)
  have hread : i.command.opcode.read i.header.argument i.command.payload = .ok i.command :=
    Command.read_payload h.command
  have hopcode : Opcode.ofNumber? i.header.opcode = some i.command.opcode :=
    Opcode.ofNumber?_number _
  simp only [encode, List.cons_append, decode, Header.ofWord_toWord, hlength, htake, hopcode,
    hread, hmodifiers, List.length_append]
  rw [if_neg (by omega), if_neg (by omega)]

/-- What is decoded: a well-formed instruction that takes as many words as the first one
declares. -/
theorem decode_eq_ok {w : Word} {rest : List Word} {i : Insn} {n : Nat}
    (h : decode (w :: rest) = .ok (i, n)) :
    i.WellFormed ∧ i.wordCount = n ∧ (Header.ofWord w).length = n := by
  simp only [decode] at h
  split at h
  · cases h
  rename_i hzero
  split at h
  · cases h
  rename_i hlong
  split at h
  · cases h
  split at h
  · cases h
  · rename_i hread
    cases h
    have hgives := Opcode.read_gives hread
    refine ⟨⟨hgives.wellFormed, Flags.isKnown_known _⟩, ?_, rfl⟩
    have hcount := hgives.wordCount
    rw [List.length_take] at hcount
    show Command.wordCount _ = _
    rw [hcount]
    omega

/-- **An instruction is read back exactly if it is well formed.** -/
theorem decode_encode_iff {i : Insn} {rest : List Word} {n : Nat} :
    decode (i.encode ++ rest) = .ok (i, n) ↔ i.WellFormed ∧ n = i.wordCount := by
  constructor
  · intro h
    obtain ⟨hwell, hcount, -⟩ := decode_eq_ok h
    exact ⟨hwell, hcount.symm⟩
  · rintro ⟨hwell, rfl⟩
    exact decode_encode_append hwell rest

/-! ## Buffers -/

/-- Instructions with the positions at which their words begin if they are written one after
another from a position on. -/
def placedFrom (pos : Nat) : List Insn → List (Nat × Insn)
  | [] => []
  | i :: is => (pos, i) :: placedFrom (pos + i.encode.length) is

/-- Reading a buffer that begins with an instruction. -/
theorem decodeFrom_of_decode {buf : List Word} {i : Insn} {n : Nat} (h : decode buf = .ok (i, n))
    (pos : Nat) :
    decodeFrom pos buf =
      match decodeFrom (pos + n) (buf.drop n) with
      | .error e => .error e
      | .ok rest => .ok ((pos, i) :: rest) := by
  have hne : buf.isEmpty = false := by
    cases buf with
    | nil => cases h
    | cons w rest => rfl
  rw [decodeFrom, if_neg (by simp [hne])]
  split
  · rename_i heq
    rw [h] at heq
    cases heq
  · rename_i heq
    rw [h] at heq
    cases heq
    rfl

/-- A buffer of well-formed instructions is read back. -/
theorem decodeFrom_encodeAll {is : List Insn} (h : ∀ i ∈ is, i.WellFormed) (pos : Nat) :
    decodeFrom pos (encodeAll is) = .ok (placedFrom pos is) := by
  induction is generalizing pos with
  | nil =>
    rw [decodeFrom]
    rfl
  | cons i is ih =>
    have hfirst := decode_encode_append (h i List.mem_cons_self) (encodeAll is)
    have hrest := ih (fun j hj => h j (List.mem_cons_of_mem i hj)) (pos + i.encode.length)
    have hdrop : (i.encode ++ encodeAll is).drop i.wordCount = encodeAll is :=
      List.drop_left' i.length_encode
    rw [show encodeAll (i :: is) = i.encode ++ encodeAll is from List.flatMap_cons,
      decodeFrom_of_decode hfirst, hdrop, ← i.length_encode, hrest]
    rfl

/-- **Instructions survive being written and read exactly if they are well formed.** A well-formed
one is read back in front of any words and takes as many words as it declares, one that is not is
never read back, and well-formed ones written one after another are all read back where they
were put. -/
theorem round_trip :
    (∀ (i : Insn) (rest : List Word), i.WellFormed →
      decode (i.encode ++ rest) = .ok (i, i.wordCount)) ∧
    (∀ (i : Insn) (n : Nat), ¬ i.WellFormed → decode i.encode ≠ .ok (i, n)) ∧
    ∀ is : List Insn, (∀ i ∈ is, i.WellFormed) →
      decodeAll (encodeAll is) = .ok (placedFrom 0 is) := by
  refine ⟨fun i rest h => decode_encode_append h rest, ?_, fun is h => decodeFrom_encodeAll h 0⟩
  intro i n hnot h
  rw [← List.append_nil i.encode] at h
  exact hnot (decode_encode_iff.mp h).1

/-- A name of sixteen bytes, the longest list of ranges under both modifiers and the largest set
are read back, and a name that is one byte longer is not. -/
theorem round_trip_longest :
    let name : Insn := ⟨.interface .received (.name "vether0-Zürich1"), .none⟩
    let ports : Insn := ⟨.ports .source (List.replicate 30 ⟨80, 443⟩), ⟨0xc0⟩⟩
    let set : Insn := ⟨.addressSet .destination (.empty 0x0a000000 256), .none⟩
    let long : Insn := ⟨.interface .received (.name "vether0-Zürich12"), .none⟩
    decodeAll (encodeAll [name, ports, set]) = .ok [(0, name), (6, ports), (37, set)] ∧
      decode long.encode ≠ .ok (long, 6) := by
  intro name ports set long
  exact ⟨round_trip.2.2 [name, ports, set] (by decide), round_trip.2.1 long 6 (by decide)⟩

end Insn

end PacketFilter
