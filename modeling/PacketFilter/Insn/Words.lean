import PacketFilter.Insn.Basic

/-!
# Instructions as words

An instruction is one or more 32-bit words. The first holds the operation code in its low byte,
then a byte with the length in words (six bits) and the two modifier bits, then a 16-bit
argument. The words after it are the payload.

`Insn.encode` writes an instruction whatever it holds: a list that is too long wraps its length,
and nameless modifier bits leak into the length. `Insn.decode` reads the first instruction of a
buffer and checks it on its own; the payload it looks at is exactly the words within the declared
length. `Insn.decodeAll` reads a whole buffer and gives each instruction with its position.

Main statement: `decode_length`, a decoded instruction takes at least one word and no more words
than there are, which is why reading a buffer comes to an end.
-/

namespace PacketFilter

/-! ## The first word -/

/-- The parts of the first word of an instruction. -/
structure Header where
  /-- Number of the operation code. -/
  opcode : UInt8
  /-- Length and modifiers. -/
  shape : UInt8
  argument : UInt16
  deriving DecidableEq, Repr

namespace Header

/-- Put the parts together. -/
def toWord (h : Header) : Word := .ofHalves (halfOfBytes h.opcode h.shape) h.argument

/-- Take a word apart. -/
def ofWord (w : Word) : Header :=
  ⟨lowByte w.lowHalf, highByte w.lowHalf, w.highHalf⟩

@[simp] theorem ofWord_toWord (h : Header) : ofWord h.toWord = h := by
  simp [ofWord, toWord, Word.lowHalf_ofHalves, Word.highHalf_ofHalves, lowByte_halfOfBytes,
    highByte_halfOfBytes]

/-- The declared length in words: the low six bits of the shape. -/
def length (h : Header) : Nat := h.shape.toNat % 64

/-- The modifiers: the two high bits of the shape. -/
def modifiers (h : Header) : Modifiers := (Flags.mk h.shape).known

/-- The shape byte of an instruction: its length modulo 64, with the modifier bits set in it. -/
def shapeOf (length : Nat) (modifiers : Modifiers) : UInt8 :=
  modifiers.bits ||| UInt8.ofNat (length % 64)

end Header

/-! ## Interface names -/

/-- The most bytes of an interface name that an instruction can carry (`IFNAMSIZ`). -/
def maxNameBytes : Nat := 16

/-- The first sixteen bytes of a name, filled up with zeros. -/
def nameField (s : String) : List UInt8 :=
  (nameBytes s).take maxNameBytes ++ List.replicate (maxNameBytes - (nameBytes s).length) 0

/-- The name in a field: the bytes before the first zero, which must be text and not empty. -/
def nameOfField? (field : List UInt8) : Option String :=
  let bytes := field.takeWhile (· != 0)
  if bytes.isEmpty then none else String.fromUTF8? ⟨bytes.toArray⟩

theorem length_nameField (s : String) : (nameField s).length = 16 := by
  simp only [nameField, maxNameBytes, List.length_append, List.length_take, List.length_replicate]
  omega

/-! ## Writing -/

namespace PortRange

/-- A range as a word: the lower end in the low half. -/
def toWord (r : PortRange) : Word := .ofHalves r.low r.high

/-- The range in a word. -/
def ofWord (w : Word) : PortRange := ⟨w.lowHalf, w.highHalf⟩

@[simp] theorem ofWord_toWord (r : PortRange) : ofWord r.toWord = r := by
  simp [ofWord, toWord, Word.lowHalf_ofHalves, Word.highHalf_ofHalves]

@[simp] theorem toWord_ofWord (w : Word) : (ofWord w).toWord = w := Word.ofHalves_halves w

end PortRange

/-- The argument that tells how an interface is named. -/
def InterfaceMatch.mode : InterfaceMatch → UInt16
  | .address _ => 0
  | .name _ => 1
  | .glob _ => 2

/-- The five payload words of an interface instruction. -/
def InterfaceMatch.payload : InterfaceMatch → List Word
  | .address a => [a, 0, 0, 0, 0]
  | .name s | .glob s => 0 :: Word.ofByteList (nameField s)

/-- The argument of an action. -/
def Action.argument : Action → UInt16
  | .reject n | .skipTo n | .pipe n | .queue n | .divert n | .tee n | .forward _ n => n
  | .checkState | .accept | .deny | .count => 0

namespace Command

/-- The argument in the first word. -/
def argument : Command → UInt16
  | .protocol n | .precedence n | .timeToLive n | .ipVersion n => n.toUInt16
  | .ipLength n | .ipId n | .tcpWindow n => n
  | .ipOptions set clear => halfOfBytes set.bits clear.bits
  | .typeOfService set clear => halfOfBytes set clear
  | .tcpFlags set clear => halfOfBytes set.bits clear.bits
  | .tcpOptions set clear => halfOfBytes set.bits clear.bits
  | .addressSet _ set => set.size
  | .interface _ m => m.mode
  | .act a => a.argument
  | _ => 0

/-- The words after the first. A set gets one word for every 32 addresses of its range, whatever
the length of its bitmap. -/
def payload : Command → List Word
  | .address _ a => [a]
  | .tcpSeq n | .tcpAck n | .icmpTypes n | .probability n | .log n => [n]
  | .limit parts connections => [.ofHalves connections parts.bits.toUInt16]
  | .act (.forward a _) => [a]
  | .maskedAddress _ a mask => [a, mask]
  | .addressSet _ set =>
    set.base :: (List.range (AddressSet.wordsFor set.size)).map fun i => set.bitmap.getD i 0
  | .ports _ ranges | .macType ranges => ranges.map PortRange.toWord
  | .interface _ m => m.payload
  | .macAddress wanted mask => Word.ofByteList (wanted.toList ++ mask.toList)
  | _ => []

/-- The length of the instruction in words, before it is cut to six bits. -/
def wordCount : Command → Nat
  | .address _ _ | .tcpSeq _ | .tcpAck _ | .icmpTypes _ | .probability _ | .log _ | .limit _ _ => 2
  | .act (.forward _ _) => 2
  | .maskedAddress _ _ _ => 3
  | .addressSet _ set => 2 + AddressSet.wordsFor set.size
  | .ports _ ranges | .macType ranges => 1 + ranges.length
  | .interface _ _ => 6
  | .macAddress _ _ => 7
  | _ => 1

end Command

namespace Insn

/-- The length of the instruction in words (`Insn::len`). -/
def wordCount (i : Insn) : Nat := i.command.wordCount

/-- The first word. -/
def header (i : Insn) : Header :=
  ⟨i.command.opcode.number, Header.shapeOf i.wordCount i.modifiers, i.command.argument⟩

/-- The words of the instruction. -/
def encode (i : Insn) : List Word := i.header.toWord :: i.command.payload

/-- The words of instructions, one after another. -/
def encodeAll (is : List Insn) : List Word := is.flatMap encode

end Insn

/-! ## Reading -/

/-- Why words are not an instruction. -/
inductive InsnError where
  /-- There are fewer words than the instruction declares. -/
  | truncated (opcode : UInt8)
  | zeroLength (opcode : UInt8)
  | unknownOpcode (opcode : UInt8)
  /-- The declared length is not one that the operation code can have. -/
  | badSize (opcode : Opcode) (length : Nat)
  /-- A mask of zero would match everything. -/
  | zeroMask (opcode : Opcode)
  | badSetSize (size : UInt16)
  | badInterfaceMode (mode : UInt16)
  | badInterfaceName
  | zeroLimit
  | badLimitMask (mask : UInt8)
  deriving DecidableEq, Repr

/-- What is said about words that are not an instruction. -/
def InsnError.message : InsnError → String
  | .truncated op => "opcode " ++ toString op.toNat ++ " size truncated"
  | .zeroLength op => "opcode " ++ toString op.toNat ++ " has zero length"
  | .unknownOpcode op => "opcode " ++ toString op.toNat ++ ", unknown opcode"
  | .badSize op length => "opcode " ++ op.name ++ " size " ++ toString length ++ " wrong"
  | .zeroMask op => "opcode " ++ op.name ++ ", useless rule (zero mask)"
  | .badSetSize size => "invalid set size " ++ toString size.toNat
  | .badInterfaceMode mode => "invalid interface match mode " ++ toString mode.toNat
  | .badInterfaceName => "invalid interface name"
  | .zeroLimit => "zero-size limit"
  | .badLimitMask mask => "invalid limit mask " ++ hexMarked mask.toNat

namespace Payload

/-- A command without payload. -/
def bare (op : Opcode) (c : Command) : List Word → Except InsnError Command
  | [] => .ok c
  | d => .error (.badSize op (d.length + 1))

/-- A command with one payload word. -/
def single (op : Opcode) (read : Word → Except InsnError Command) :
    List Word → Except InsnError Command
  | [w] => read w
  | d => .error (.badSize op (d.length + 1))

/-- An address and a mask that is not zero. -/
def masked (op : Opcode) (side : Side) : List Word → Except InsnError Command
  | [a, mask] => if mask = 0 then .error (.zeroMask op) else .ok (.maskedAddress side a mask)
  | d => .error (.badSize op (d.length + 1))

/-- A base address and one bit for each of `size` addresses. -/
def set (op : Opcode) (side : Side) (size : UInt16) : List Word → Except InsnError Command
  | base :: bitmap =>
    if size = 0 ∨ AddressSet.maxSize < size then .error (.badSetSize size)
    else if bitmap.length ≠ AddressSet.wordsFor size then
      .error (.badSize op (bitmap.length + 2))
    else .ok (.addressSet side ⟨base, size, bitmap⟩)
  | [] => .error (.badSize op 1)

/-- The most ranges that an instruction can carry (`MAX_RANGE_LIST_LEN`, less the first word). -/
def maxRanges : Nat := 30

/-- From one range on to as many as there may be. -/
def ranges (op : Opcode) (build : List PortRange → Command) (d : List Word) :
    Except InsnError Command :=
  if d.isEmpty ∨ maxRanges < d.length then .error (.badSize op (d.length + 1))
  else .ok (build (d.map PortRange.ofWord))

/-- Two times twelve bytes. -/
def mac (op : Opcode) (d : List Word) : Except InsnError Command :=
  let bytes := Word.toByteList d
  match octets? 12 (bytes.take 12), octets? 12 (bytes.drop 12) with
  | some wanted, some mask => .ok (.macAddress wanted mask)
  | _, _ => .error (.badSize op (d.length + 1))

/-- An address word and four words of name, of which the mode says which counts (`decode_iface`). -/
def interface (op : Opcode) (role : InterfaceRole) (mode : UInt16) :
    List Word → Except InsnError Command
  | [a, n₀, n₁, n₂, n₃] =>
    if mode = 0 then .ok (.interface role (.address a))
    else
      match nameOfField? (Word.toByteList [n₀, n₁, n₂, n₃]) with
      | none => .error .badInterfaceName
      | some s =>
        if mode = 1 then .ok (.interface role (.name s))
        else if mode = 2 then .ok (.interface role (.glob s))
        else .error (.badInterfaceMode mode)
  | d => .error (.badSize op (d.length + 1))

/-- A number of connections, which may not be zero, and the parts of the key, all of them named. -/
def limit (w : Word) : Except InsnError Command :=
  let parts : LimitParts := ⟨lowByte w.highHalf⟩
  if w.lowHalf = 0 then .error .zeroLimit
  else if parts.isKnown then .ok (.limit parts w.lowHalf)
  else .error (.badLimitMask parts.bits)

end Payload

/-- Read the argument and the payload that belong to an operation code: the match in `Insn::decode`,
with the checks of `size_bounds`. -/
def Opcode.read (op : Opcode) (n : UInt16) (d : List Word) : Except InsnError Command :=
  match op with
  | .nop => Payload.bare op .nop d
  | .proto => Payload.bare op (.protocol (lowByte n)) d
  | .ipSrc => Payload.single op (fun w => .ok (.address .source w)) d
  | .ipDst => Payload.single op (fun w => .ok (.address .destination w)) d
  | .ipSrcMask => Payload.masked op .source d
  | .ipDstMask => Payload.masked op .destination d
  | .ipSrcMe => Payload.bare op (.ownAddress .source) d
  | .ipDstMe => Payload.bare op (.ownAddress .destination) d
  | .ipSrcSet => Payload.set op .source n d
  | .ipDstSet => Payload.set op .destination n d
  | .ipSrcPort => Payload.ranges op (.ports .source) d
  | .ipDstPort => Payload.ranges op (.ports .destination) d
  | .macAddr2 => Payload.mac op d
  | .macType => Payload.ranges op .macType d
  | .layer2 => Payload.bare op .layer2 d
  | .inbound => Payload.bare op .inbound d
  | .frag => Payload.bare op .fragment d
  | .recv => Payload.interface op .received n d
  | .xmit => Payload.interface op .transmitted n d
  | .via => Payload.interface op .either n d
  | .ipOpt =>
    Payload.bare op (.ipOptions (Flags.mk (lowByte n)).known (Flags.mk (highByte n)).known) d
  | .ipLen => Payload.bare op (.ipLength n) d
  | .ipId => Payload.bare op (.ipId n) d
  | .ipTos => Payload.bare op (.typeOfService (lowByte n) (highByte n)) d
  | .ipPrecedence => Payload.bare op (.precedence (lowByte n)) d
  | .ipTtl => Payload.bare op (.timeToLive (lowByte n)) d
  | .ipVer => Payload.bare op (.ipVersion (lowByte n)) d
  | .estab => Payload.bare op .established d
  | .tcpFlags =>
    Payload.bare op (.tcpFlags (Flags.mk (lowByte n)).known (Flags.mk (highByte n)).known) d
  | .tcpWin => Payload.bare op (.tcpWindow n) d
  | .tcpSeq => Payload.single op (fun w => .ok (.tcpSeq w)) d
  | .tcpAck => Payload.single op (fun w => .ok (.tcpAck w)) d
  | .icmpType => Payload.single op (fun w => .ok (.icmpTypes w)) d
  | .tcpOpts =>
    Payload.bare op (.tcpOptions (Flags.mk (lowByte n)).known (Flags.mk (highByte n)).known) d
  | .prob => Payload.single op (fun w => .ok (.probability w)) d
  | .probeState => Payload.bare op .probeState d
  | .keepState => Payload.bare op .keepState d
  | .limit => Payload.single op Payload.limit d
  | .log => Payload.single op (fun w => .ok (.log w)) d
  | .checkState => Payload.bare op (.act .checkState) d
  | .accept => Payload.bare op (.act .accept) d
  | .deny => Payload.bare op (.act .deny) d
  | .reject => Payload.bare op (.act (.reject n)) d
  | .count => Payload.bare op (.act .count) d
  | .skipto => Payload.bare op (.act (.skipTo n)) d
  | .pipe => Payload.bare op (.act (.pipe n)) d
  | .queue => Payload.bare op (.act (.queue n)) d
  | .divert => Payload.bare op (.act (.divert n)) d
  | .tee => Payload.bare op (.act (.tee n)) d
  | .forwardIp => Payload.single op (fun w => .ok (.act (.forward w n))) d

namespace Insn

/-- Read the instruction at the start of a buffer, and the number of words that it takes. -/
def decode : List Word → Except InsnError (Insn × Nat)
  | [] => .error (.truncated 0)
  | w :: rest =>
    let h := Header.ofWord w
    if h.length = 0 then .error (.zeroLength h.opcode)
    else if rest.length + 1 < h.length then .error (.truncated h.opcode)
    else
      match Opcode.ofNumber? h.opcode with
      | none => .error (.unknownOpcode h.opcode)
      | some op =>
        match op.read h.argument (rest.take (h.length - 1)) with
        | .error e => .error e
        | .ok c => .ok (⟨c, h.modifiers⟩, h.length)

/-- A decoded instruction takes at least one word, and no more words than there are. -/
theorem decode_length {buf : List Word} {i : Insn} {n : Nat} (h : decode buf = .ok (i, n)) :
    0 < n ∧ n ≤ buf.length := by
  cases buf with
  | nil => simp [decode] at h
  | cons w rest =>
    simp only [decode] at h
    split at h
    · cases h
    split at h
    · cases h
    split at h
    · cases h
    split at h
    · cases h
    · simp only [Except.ok.injEq, Prod.mk.injEq] at h
      simp only [List.length_cons]
      omega

/-- Read a buffer from a position on. -/
def decodeFrom (pos : Nat) (buf : List Word) : Except InsnError (List (Nat × Insn)) :=
  if buf.isEmpty then .ok []
  else
    match _h : decode buf with
    | .error e => .error e
    | .ok (i, n) =>
      match decodeFrom (pos + n) (buf.drop n) with
      | .error e => .error e
      | .ok rest => .ok ((pos, i) :: rest)
termination_by buf.length
decreasing_by
  have := decode_length _h
  simp only [List.length_drop]
  omega

/-- Read a whole buffer: the instructions and where each starts (`decode_insns`). -/
def decodeAll (buf : List Word) : Except InsnError (List (Nat × Insn)) := decodeFrom 0 buf

end Insn

end PacketFilter
