import PacketFilter.Proofs.Codec.RoundTrip

/-!
# Where reading an instruction looks

`Insn.decode` takes payloads apart by their shape, and a payload of another shape is an error.
`Insn.decodeIndexed` reads as a machine does: it compares the declared length with the bounds of
the operation code and from then on takes words out of the payload by their index, where an index
past the end of the payload is a fault. The two agree on every buffer, so no index that is used
lies outside the declared length.

Main statements: `Opcode.readIndexed_eq`, within its bounds no payload makes the reader fault;
**`Insn.decodeIndexed_eq`**, reading by index never faults and gives what `Insn.decode` gives;
**`Insn.decode_take_append`**, the words past the declared length do not count.
-/

namespace PacketFilter

/-! ## Reading by index -/

namespace Payload

/-- The first `n` words, if there are so many. -/
def first? (ws : List Word) (n : Nat) : Option (List Word) :=
  if n ≤ ws.length then some (ws.take n) else none

/-- The words of a payload from an index on, if the index is not past its end. -/
def from? (d : List Word) (i : Nat) : Option (List Word) :=
  if i ≤ d.length then some (d.drop i) else none

/-- `single` by index. -/
def singleIndexed (read : Word → Except InsnError Command) (d : List Word) :
    Option (Except InsnError Command) := do
  let w ← d[0]?
  return read w

/-- `masked` by index. -/
def maskedIndexed (op : Opcode) (side : Side) (d : List Word) :
    Option (Except InsnError Command) := do
  let a ← d[0]?
  let mask ← d[1]?
  return if mask = 0 then .error (.zeroMask op) else .ok (.maskedAddress side a mask)

/-- `set` by index. -/
def setIndexed (op : Opcode) (side : Side) (size : UInt16) (d : List Word) :
    Option (Except InsnError Command) :=
  if size = 0 ∨ AddressSet.maxSize < size then some (.error (.badSetSize size))
  else if d.length + 1 ≠ 2 + AddressSet.wordsFor size then
    some (.error (.badSize op (d.length + 1)))
  else do
    let base ← d[0]?
    let bitmap ← from? d 1
    return .ok (.addressSet side ⟨base, size, bitmap⟩)

/-- `mac` by index: the words are copied into twenty-four bytes, each to four times its index, and
the halves of these are taken. -/
def macIndexed (d : List Word) : Option (Except InsnError Command) := do
  let bytes := Word.toByteList d
  if bytes.length ≤ 24 then
    let filled := bytes ++ List.replicate (24 - bytes.length) 0
    let wanted ← octets? 12 (filled.take 12)
    let mask ← octets? 12 (filled.drop 12)
    return .ok (.macAddress wanted mask)
  else none

/-- `interface` by index. -/
def interfaceIndexed (role : InterfaceRole) (mode : UInt16) (d : List Word) :
    Option (Except InsnError Command) :=
  if mode = 0 then do
    let a ← d[0]?
    return .ok (.interface role (.address a))
  else do
    let field ← from? d 1
    return match nameOfField? (Word.toByteList field) with
      | none => .error .badInterfaceName
      | some s =>
        if mode = 1 then .ok (.interface role (.name s))
        else if mode = 2 then .ok (.interface role (.glob s))
        else .error (.badInterfaceMode mode)

end Payload

namespace Opcode

/-- The least and the greatest length that an instruction can have, the first word included. -/
def sizeBounds : Opcode → Nat × Nat
  | .ipSrc | .ipDst | .tcpSeq | .tcpAck | .prob | .icmpType | .limit | .log | .forwardIp => (2, 2)
  | .ipSrcMask | .ipDstMask => (3, 3)
  | .ipSrcPort | .ipDstPort | .macType => (2, Payload.maxRanges + 1)
  | .recv | .xmit | .via => (6, 6)
  | .macAddr2 => (7, 7)
  -- Compared with the argument afterwards.
  | .ipSrcSet | .ipDstSet => (2, 63)
  | _ => (1, 1)

/-- Read the argument and a payload within the bounds; `none` where an index lies past the end of
the payload. A list of ranges is gone through word by word, and the other operation codes that
are not named here look at no word of the payload. -/
def readIndexed (op : Opcode) (n : UInt16) (d : List Word) : Option (Except InsnError Command) :=
  match op with
  | .ipSrc => Payload.singleIndexed (fun w => .ok (.address .source w)) d
  | .ipDst => Payload.singleIndexed (fun w => .ok (.address .destination w)) d
  | .ipSrcMask => Payload.maskedIndexed op .source d
  | .ipDstMask => Payload.maskedIndexed op .destination d
  | .ipSrcSet => Payload.setIndexed op .source n d
  | .ipDstSet => Payload.setIndexed op .destination n d
  | .ipSrcPort => some (.ok (.ports .source (d.map PortRange.ofWord)))
  | .ipDstPort => some (.ok (.ports .destination (d.map PortRange.ofWord)))
  | .macType => some (.ok (.macType (d.map PortRange.ofWord)))
  | .macAddr2 => Payload.macIndexed d
  | .recv => Payload.interfaceIndexed .received n d
  | .xmit => Payload.interfaceIndexed .transmitted n d
  | .via => Payload.interfaceIndexed .either n d
  | .tcpSeq => Payload.singleIndexed (fun w => .ok (.tcpSeq w)) d
  | .tcpAck => Payload.singleIndexed (fun w => .ok (.tcpAck w)) d
  | .icmpType => Payload.singleIndexed (fun w => .ok (.icmpTypes w)) d
  | .prob => Payload.singleIndexed (fun w => .ok (.probability w)) d
  | .limit => Payload.singleIndexed Payload.limit d
  | .log => Payload.singleIndexed (fun w => .ok (.log w)) d
  | .forwardIp => Payload.singleIndexed (fun w => .ok (.act (.forward w n))) d
  | _ => some (op.read n [])

end Opcode

/-- `Insn.decode` with the payload read by index. -/
def Insn.decodeIndexed : List Word → Option (Except InsnError (Insn × Nat))
  | [] => some (.error (.truncated 0))
  | w :: rest =>
    let h := Header.ofWord w
    if h.length = 0 then some (.error (.zeroLength h.opcode))
    else if rest.length + 1 < h.length then some (.error (.truncated h.opcode))
    else
      match Opcode.ofNumber? h.opcode with
      | none => some (.error (.unknownOpcode h.opcode))
      | some op =>
        if h.length < op.sizeBounds.1 ∨ op.sizeBounds.2 < h.length then
          some (.error (.badSize op h.length))
        else do
          let d ← Payload.first? rest (h.length - 1)
          match ← op.readIndexed h.argument d with
          | .error e => return .error e
          | .ok c => return .ok (⟨c, h.modifiers⟩, h.length)

/-! ## Within the bounds -/

namespace Payload

variable {op : Opcode} {d : List Word}

theorem singleIndexed_eq (read : Word → Except InsnError Command) (h : d.length = 1) :
    singleIndexed read d = some (single op read d) := by
  obtain ⟨w, rfl⟩ := List.length_eq_one_iff.mp h
  rfl

theorem maskedIndexed_eq (side : Side) (h : d.length = 2) :
    maskedIndexed op side d = some (masked op side d) := by
  match d, h with
  | [_, _], _ => rfl

theorem setIndexed_eq (side : Side) (size : UInt16) (h : 1 ≤ d.length) :
    setIndexed op side size d = some (set op side size d) := by
  match d, h with
  | base :: bitmap, _ =>
    have hcount : (base :: bitmap).length + 1 = 2 + AddressSet.wordsFor size ↔
        bitmap.length = AddressSet.wordsFor size := by
      rw [List.length_cons]
      omega
    unfold setIndexed set
    by_cases hsize : size = 0 ∨ AddressSet.maxSize < size
    · simp only [if_pos hsize]
    · by_cases hlength : bitmap.length = AddressSet.wordsFor size
      · simp only [if_neg hsize, ne_eq, hcount.mpr hlength, hlength]
        simp [from?]
      · simp only [if_neg hsize, ne_eq, mt hcount.mp hlength, hlength]
        simp

theorem macIndexed_eq (h : d.length = 6) : macIndexed d = some (mac op d) := by
  have hbytes : (Word.toByteList d).length = 24 := by
    rw [Word.length_toByteList, h]
  have hhalf : ∀ (bytes : List UInt8) (hb : bytes.length = 12),
      octets? 12 bytes = some ⟨bytes.toArray, by simpa using hb⟩ := fun _ hb => dif_pos hb
  have hfilled : Word.toByteList d ++ List.replicate (24 - (Word.toByteList d).length) 0 =
      Word.toByteList d := by
    rw [hbytes]
    exact List.append_nil _
  have hwanted := hhalf ((Word.toByteList d).take 12) (by simp [hbytes])
  have hmask := hhalf ((Word.toByteList d).drop 12) (by simp [hbytes])
  simp only [macIndexed, mac, hfilled, hwanted, hmask]
  simp [hbytes]

theorem interfaceIndexed_eq (role : InterfaceRole) (mode : UInt16) (h : d.length = 5) :
    interfaceIndexed role mode d = some (interface op role mode d) := by
  match d, h with
  | [_, _, _, _, _], _ =>
    unfold interfaceIndexed interface
    by_cases hmode : mode = 0
    · simp only [if_pos hmode]
      rfl
    · simp only [if_neg hmode]
      rfl

theorem bare_of_length_ne (c : Command) (h : d.length ≠ 0) :
    bare op c d = .error (.badSize op (d.length + 1)) := by
  match d, h with
  | _ :: _, _ => rfl

theorem single_of_length_ne (read : Word → Except InsnError Command) (h : d.length ≠ 1) :
    single op read d = .error (.badSize op (d.length + 1)) := by
  match d, h with
  | [], _ => rfl
  | _ :: _ :: _, _ => rfl

theorem masked_of_length_ne (side : Side) (h : d.length ≠ 2) :
    masked op side d = .error (.badSize op (d.length + 1)) := by
  match d, h with
  | [], _ => rfl
  | [_], _ => rfl
  | _ :: _ :: _ :: _, _ => rfl

theorem ranges_of_outside (build : List PortRange → Command)
    (h : d.length < 1 ∨ maxRanges < d.length) :
    ranges op build d = .error (.badSize op (d.length + 1)) := by
  refine if_pos ?_
  rw [List.isEmpty_iff_length_eq_zero]
  omega

theorem mac_of_length_ne (h : d.length ≠ 6) :
    mac op d = .error (.badSize op (d.length + 1)) := by
  have hbytes : ((Word.toByteList d).drop 12).length ≠ 12 := by
    rw [List.length_drop, Word.length_toByteList]
    omega
  have hmask : octets? 12 ((Word.toByteList d).drop 12) = none := dif_neg hbytes
  simp only [mac, hmask]
  cases octets? 12 ((Word.toByteList d).take 12) <;> rfl

theorem interface_of_length_ne (role : InterfaceRole) (mode : UInt16) (h : d.length ≠ 5) :
    interface op role mode d = .error (.badSize op (d.length + 1)) := by
  unfold interface
  split
  · exact absurd rfl h
  · rfl

theorem ranges_eq_ok (build : List PortRange → Command) (hpos : 1 ≤ d.length)
    (hle : d.length ≤ maxRanges) : ranges op build d = .ok (build (d.map PortRange.ofWord)) := by
  refine if_neg ?_
  rw [List.isEmpty_iff_length_eq_zero]
  omega

end Payload

namespace Opcode

/-- **Within the bounds of its operation code no payload makes the reader fault.** -/
theorem readIndexed_eq {op : Opcode} {n : UInt16} {d : List Word}
    (hleast : op.sizeBounds.1 ≤ d.length + 1) (hgreatest : d.length + 1 ≤ op.sizeBounds.2) :
    op.readIndexed n d = some (op.read n d) := by
  cases op with
  | ipSrc | ipDst | tcpSeq | tcpAck | icmpType | prob | limit | log | forwardIp =>
    exact Payload.singleIndexed_eq _ (by simp only [sizeBounds] at hleast hgreatest; omega)
  | ipSrcMask | ipDstMask =>
    exact Payload.maskedIndexed_eq _ (by simp only [sizeBounds] at hleast hgreatest; omega)
  | ipSrcSet | ipDstSet =>
    exact Payload.setIndexed_eq _ n (by simp only [sizeBounds] at hleast; omega)
  | ipSrcPort | ipDstPort | macType =>
    simp only [sizeBounds] at hleast hgreatest
    exact congrArg some (Payload.ranges_eq_ok _ (by omega) (by omega)).symm
  | macAddr2 =>
    exact Payload.macIndexed_eq (by simp only [sizeBounds] at hleast hgreatest; omega)
  | recv | xmit | via =>
    exact Payload.interfaceIndexed_eq _ n (by simp only [sizeBounds] at hleast hgreatest; omega)
  | _ =>
    have hnil : d = [] := by
      simp only [sizeBounds] at hgreatest
      exact List.length_eq_zero_iff.mp (by omega)
    subst hnil
    rfl

/-- Outside of the bounds reading is an error. -/
theorem read_of_outside {op : Opcode} {n : UInt16} {d : List Word} (hshort : d.length < 63)
    (h : d.length + 1 < op.sizeBounds.1 ∨ op.sizeBounds.2 < d.length + 1) :
    op.read n d = .error (.badSize op (d.length + 1)) := by
  cases op with
  | ipSrc | ipDst | tcpSeq | tcpAck | icmpType | prob | limit | log | forwardIp =>
    exact Payload.single_of_length_ne _ (by simp only [sizeBounds] at h; omega)
  | ipSrcMask | ipDstMask =>
    exact Payload.masked_of_length_ne _ (by simp only [sizeBounds] at h; omega)
  | ipSrcSet | ipDstSet =>
    have hnil : d = [] := by
      simp only [sizeBounds] at h
      exact List.length_eq_zero_iff.mp (by omega)
    subst hnil
    rfl
  | ipSrcPort | ipDstPort | macType =>
    exact Payload.ranges_of_outside _ (by simp only [sizeBounds] at h; omega)
  | macAddr2 => exact Payload.mac_of_length_ne (by simp only [sizeBounds] at h; omega)
  | recv | xmit | via =>
    exact Payload.interface_of_length_ne _ n (by simp only [sizeBounds] at h; omega)
  | _ => exact Payload.bare_of_length_ne _ (by simp only [sizeBounds] at h; omega)

end Opcode

namespace Insn

/-- **Reading by index never faults** and gives what reading by shape gives: every index that is
used lies within the declared length. -/
theorem decodeIndexed_eq (buf : List Word) : decodeIndexed buf = some (decode buf) := by
  cases buf with
  | nil => rfl
  | cons w rest =>
    unfold decodeIndexed decode
    simp only
    by_cases hzero : (Header.ofWord w).length = 0
    · simp only [if_pos hzero]
    by_cases hlong : rest.length + 1 < (Header.ofWord w).length
    · simp only [if_neg hzero, if_pos hlong]
    simp only [if_neg hzero, if_neg hlong]
    cases Opcode.ofNumber? (Header.ofWord w).opcode with
    | none => rfl
    | some op =>
      have hlength : (rest.take ((Header.ofWord w).length - 1)).length + 1 =
          (Header.ofWord w).length := by
        rw [List.length_take]
        omega
      have hshort : (Header.ofWord w).length < 64 := Nat.mod_lt _ (by decide)
      simp only
      by_cases hbounds : (Header.ofWord w).length < op.sizeBounds.1 ∨
          op.sizeBounds.2 < (Header.ofWord w).length
      · rw [if_pos hbounds, Opcode.read_of_outside (by omega) (by rwa [hlength]), hlength]
      · have hfirst : Payload.first? rest ((Header.ofWord w).length - 1) =
            some (rest.take ((Header.ofWord w).length - 1)) := if_pos (by omega)
        rw [if_neg hbounds, hfirst, Option.bind_eq_bind, Option.bind_some,
          Opcode.readIndexed_eq (by omega) (by omega)]
        cases op.read (Header.ofWord w).argument (rest.take ((Header.ofWord w).length - 1)) <;> rfl

/-- **The words past the declared length do not count**: they may be any others. -/
theorem decode_take_append {w : Word} {rest : List Word}
    (h : (Header.ofWord w).length ≤ rest.length + 1) (rest' : List Word) :
    decode (w :: (rest.take ((Header.ofWord w).length - 1) ++ rest')) = decode (w :: rest) := by
  have htake : (rest.take ((Header.ofWord w).length - 1) ++ rest').take
      ((Header.ofWord w).length - 1) = rest.take ((Header.ofWord w).length - 1) :=
    List.take_left' (by rw [List.length_take]; omega)
  have hfits : ¬ (rest.take ((Header.ofWord w).length - 1) ++ rest').length + 1 <
      (Header.ofWord w).length := by
    rw [List.length_append, List.length_take]
    omega
  have hfits' : ¬ rest.length + 1 < (Header.ofWord w).length := by omega
  simp only [decode, htake, if_neg hfits, if_neg hfits']

end Insn

end PacketFilter
