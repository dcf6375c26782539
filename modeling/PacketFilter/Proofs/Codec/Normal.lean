import PacketFilter.Proofs.Codec.Bounds

/-!
# Reading a buffer normalizes it

A buffer that is read may hold what no instruction writes: bytes that the operation code does not
look at, bits without a name, letters after the end of a name. None of it is left in the
instructions that are read, and their positions do not depend on it.

Main statements: `Insn.tiles_of_decodeFrom`, the instructions that are read lie side by side from
where reading begins to the end of the buffer; **`Insn.decodeAll_normalizes`**, written again they
take as many words and are read at the same positions, and reading never looks past the declared
length of an instruction.
-/

namespace PacketFilter.Insn

/-! ## Positions -/

/-- **Do the placed instructions tile the buffer from the position on?** Each begins where the one
before it ends, its length is the one declared there and at least one, and the last ends with the
buffer. -/
def Tiles (buf : List Word) : Nat → List (Nat × Insn) → Prop
  | pos, [] => pos = buf.length
  | pos, (p, i) :: placed =>
    p = pos ∧ 1 ≤ i.wordCount ∧
      (∃ w, buf[p]? = some w ∧ (Header.ofWord w).length = i.wordCount) ∧
      Tiles buf (pos + i.wordCount) placed

/-- Instructions that tile a buffer are where they are put if they are written one after another. -/
theorem Tiles.eq_placedFrom {buf : List Word} : ∀ {placed : List (Nat × Insn)} {pos : Nat},
    Tiles buf pos placed → placed = placedFrom pos (placed.map Prod.snd)
  | [], _, _ => rfl
  | (p, i) :: placed, pos, ⟨hp, _, _, hrest⟩ => by
    rw [List.map_cons, placedFrom, i.length_encode, ← hrest.eq_placedFrom, hp]

/-- Instructions that tile a buffer have as many words as there are from the position on. -/
theorem Tiles.length_encodeAll {buf : List Word} : ∀ {placed : List (Nat × Insn)} {pos : Nat},
    Tiles buf pos placed → pos + (encodeAll (placed.map Prod.snd)).length = buf.length
  | [], _, h => h
  | (p, i) :: placed, pos, ⟨_, _, _, hrest⟩ => by
    have hsum : encodeAll (((p, i) :: placed).map Prod.snd) =
        i.encode ++ encodeAll (placed.map Prod.snd) := List.flatMap_cons
    rw [hsum, List.length_append, i.length_encode, ← Nat.add_assoc]
    exact hrest.length_encodeAll

/-! ## Reading buffers -/

/-- What reading a buffer comes to: nothing at its end, and otherwise its first instruction before
what the rest of the words come to. -/
theorem decodeFrom_eq_ok {pos : Nat} {buf : List Word} {placed : List (Nat × Insn)}
    (h : decodeFrom pos buf = .ok placed) :
    (buf = [] ∧ placed = []) ∨ ∃ i n rest, decode buf = .ok (i, n) ∧
      decodeFrom (pos + n) (buf.drop n) = .ok rest ∧ placed = (pos, i) :: rest := by
  cases buf with
  | nil =>
    rw [decodeFrom] at h
    cases h
    exact .inl ⟨rfl, rfl⟩
  | cons w ws =>
    cases hfirst : decode (w :: ws) with
    | error e =>
      rw [decodeFrom] at h
      split at h
      · contradiction
      · split at h
        · cases h
        · rename_i hok
          rw [hfirst] at hok
          cases hok
    | ok read =>
      obtain ⟨i, n⟩ := read
      rw [decodeFrom_of_decode hfirst] at h
      split at h
      · cases h
      · rename_i rest hrest
        cases h
        exact .inr ⟨i, n, rest, rfl, hrest, rfl⟩

/-- Everything that is read is well formed. -/
theorem wellFormed_of_decodeFrom {placed : List (Nat × Insn)} : ∀ {pos : Nat} {buf : List Word},
    decodeFrom pos buf = .ok placed → ∀ i ∈ placed.map Prod.snd, i.WellFormed := by
  induction placed with
  | nil => simp
  | cons first placed ih =>
    intro pos buf h
    rcases decodeFrom_eq_ok h with ⟨-, hnil⟩ | ⟨i, n, rest, hfirst, hrest, heq⟩
    · cases hnil
    · cases heq
      have hne : buf ≠ [] := by
        rintro rfl
        cases hfirst
      obtain ⟨w, ws, rfl⟩ := List.exists_cons_of_ne_nil hne
      intro j hj
      rw [List.map_cons, List.mem_cons] at hj
      rcases hj with rfl | hj
      · exact (decode_eq_ok hfirst).1
      · exact ih hrest j hj

/-- **What is read tiles the buffer** from where reading begins. -/
theorem tiles_of_decodeFrom {placed : List (Nat × Insn)} : ∀ (before : List Word) {buf : List Word},
    decodeFrom before.length buf = .ok placed → Tiles (before ++ buf) before.length placed := by
  induction placed with
  | nil =>
    intro before buf h
    rcases decodeFrom_eq_ok h with ⟨rfl, -⟩ | ⟨i, n, rest, -, -, heq⟩
    · simp [Tiles]
    · cases heq
  | cons first placed ih =>
    intro before buf h
    rcases decodeFrom_eq_ok h with ⟨-, hnil⟩ | ⟨i, n, rest, hfirst, hrest, heq⟩
    · cases hnil
    · cases heq
      obtain ⟨hpos, hle⟩ := decode_length hfirst
      have hne : buf ≠ [] := by
        rintro rfl
        cases hfirst
      obtain ⟨w, ws, rfl⟩ := List.exists_cons_of_ne_nil hne
      obtain ⟨-, hcount, hdeclared⟩ := decode_eq_ok hfirst
      subst hcount
      -- The words of the instruction go over to those before the position.
      have hlength : (before ++ (w :: ws).take i.wordCount).length =
          before.length + i.wordCount := by
        rw [List.length_append, List.length_take]
        omega
      have hnext := ih (before ++ (w :: ws).take i.wordCount) (by rw [hlength]; exact hrest)
      rw [hlength, List.append_assoc, List.take_append_drop] at hnext
      exact ⟨rfl, hpos, ⟨w, by simp, hdeclared⟩, hnext⟩

/-- **Reading normalizes.** What is read of a buffer tiles it, and written again it takes as many
words and is read as before, positions included. Reading the first instruction of a buffer, whether
it succeeds or not, uses no index outside the declared length, and no word there makes a
difference. -/
theorem decodeAll_normalizes :
    (∀ (buf : List Word) (placed : List (Nat × Insn)), decodeAll buf = .ok placed →
      Tiles buf 0 placed ∧
      (encodeAll (placed.map Prod.snd)).length = buf.length ∧
      decodeAll (encodeAll (placed.map Prod.snd)) = .ok placed) ∧
    (∀ buf : List Word, decodeIndexed buf = some (decode buf)) ∧
    ∀ (w : Word) (rest rest' : List Word), (Header.ofWord w).length ≤ rest.length + 1 →
      decode (w :: (rest.take ((Header.ofWord w).length - 1) ++ rest')) = decode (w :: rest) := by
  refine ⟨fun buf placed h => ?_, decodeIndexed_eq,
    fun w rest rest' h => decode_take_append h rest'⟩
  have htiles : Tiles buf 0 placed := tiles_of_decodeFrom [] h
  have hlength := htiles.length_encodeAll
  rw [Nat.zero_add] at hlength
  have hagain := decodeFrom_encodeAll (wellFormed_of_decodeFrom h) 0
  rw [← htiles.eq_placedFrom] at hagain
  exact ⟨htiles, hlength, hagain⟩

/-- An address that does not count, letters after the end of a name, flags without a name and an
argument that nothing looks at are gone when the buffer is written again, and every instruction
stays where it was. -/
theorem decodeAll_normalizes_untidy :
    let untidy : List Word :=
      [0x00010613, 0xdeadbeef, 0x00306d65, 0x78787878, 0, 0, 0xc0ff011c, 0xffff0129]
    let tidy : List Word := [0x00010613, 0, 0x00306d65, 0, 0, 0, 0x003f011c, 0x00000129]
    let placed : List (Nat × Insn) :=
      [(0, ⟨.interface .either (.name "em0"), .none⟩), (6, ⟨.tcpFlags ⟨0x3f⟩ ⟨0⟩, .none⟩),
        (7, ⟨.act .accept, .none⟩)]
    decodeAll untidy = .ok placed ∧ encodeAll (placed.map Prod.snd) = tidy ∧
      decodeAll tidy = .ok placed := by
  intro untidy tidy placed
  have hread : decodeAll untidy = .ok placed := by
    unfold decodeAll
    have hname : decode untidy = .ok (⟨.interface .either (.name "em0"), .none⟩, 6) := rfl
    have hflags : decode (untidy.drop 6) = .ok (⟨.tcpFlags ⟨0x3f⟩ ⟨0⟩, .none⟩, 1) := rfl
    have haccept : decode (untidy.drop 7) = .ok (⟨.act .accept, .none⟩, 1) := rfl
    rw [decodeFrom_of_decode hname, decodeFrom_of_decode hflags, List.drop_drop,
      decodeFrom_of_decode haccept, List.drop_drop, decodeFrom]
    rfl
  have htidy : encodeAll (placed.map Prod.snd) = tidy := by decide
  exact ⟨hread, htidy, htidy ▸ (decodeAll_normalizes.1 untidy placed hread).2.2⟩

end PacketFilter.Insn
