import PacketFilter.Proofs.Codec.Normal
import PacketFilter.Proofs.Rule

/-!
# The grammar of rules

An image is accepted if and only if its words are read as conditions, log instructions and one
action, in this order, and the action offset is where one of the instructions behind the last
condition begins. A packet that follows state into a rule begins there, so that it meets nothing
but log instructions and the action.

Whether an image is accepted depends on the image alone, neither on the id that the rule is given
nor on the settings.

Main statements: `Insn.Tiles.ascend`, no two instructions are read at one offset;
`Rule.ofImage_eq_ok_iff`, checking against the grammar; `Rule.ofImage_image`, a rule that is taken
out is accepted again; **`Rule.ofImage_accepts_grammar`**, which images are accepted, and what is
made of them.
-/

namespace PacketFilter

/-- **The grammar**: which images are rules, with their instructions, each behind the offset at
which it begins, and the position of the action part among them. -/
structure RuleImage.Grammatical (image : RuleImage) (placed : List (Nat × Insn)) (k : Nat) :
    Prop where
  number : image.number ≠ 65535
  set : image.set ≤ 30
  nonempty : image.words ≠ []
  /-- All words are read. -/
  decoded : Insn.decodeAll image.words = .ok placed
  /-- One of the instructions is an action, -/
  single : placed.countP (·.2.command.isAction) = 1
  /-- and it is the last one. -/
  last : ∃ p i, placed.getLast? = some (p, i) ∧ i.command.isAction = true
  /-- An instruction begins at the action offset, -/
  start : ∃ i, placed[k]? = some (image.actionOffset.toNat, i)
  /-- and from there on up to the action all are log instructions. -/
  logs : ∀ j p i, k ≤ j → j + 1 < placed.length → placed[j]? = some (p, i) →
    ∃ budget, i.command = .log budget

/-- The grammar is about the body of an image: any number and set that users may give will do. -/
theorem RuleImage.Grammatical.relabel {image : RuleImage} {placed : List (Nat × Insn)} {k : Nat}
    (h : image.Grammatical placed k) {number : UInt16} {set : UInt8} (hnumber : number ≠ 65535)
    (hset : set ≤ 30) :
    RuleImage.Grammatical ⟨number, set, image.actionOffset, image.words⟩ placed k :=
  ⟨hnumber, hset, h.nonempty, h.decoded, h.single, h.last, h.start, h.logs⟩

/-! ## Positions -/

namespace Insn

variable {buf : List Word} {placed : List (Nat × Insn)}

theorem Tiles.le_position : ∀ {placed : List (Nat × Insn)} {pos : Nat},
    Tiles buf pos placed → ∀ x ∈ placed, pos ≤ x.1
  | [], _, _, x, hx => absurd hx List.not_mem_nil
  | (p, i) :: placed, pos, ⟨hp, _, _, hrest⟩, x, hx => by
    rcases List.mem_cons.mp hx with rfl | hx
    · exact Nat.le_of_eq hp.symm
    · exact Nat.le_trans (Nat.le_add_right pos i.wordCount) (hrest.le_position x hx)

/-- Instructions that tile a buffer begin further and further on. -/
theorem Tiles.ascend : ∀ {placed : List (Nat × Insn)} {pos : Nat},
    Tiles buf pos placed → (placed.map Prod.fst).Pairwise (· < ·)
  | [], _, _ => .nil
  | (p, i) :: placed, pos, ⟨hp, hwords, _, hrest⟩ => by
    refine List.pairwise_cons.mpr ⟨fun q hq => ?_, hrest.ascend⟩
    obtain ⟨x, hx, rfl⟩ := List.mem_map.mp hq
    have hle := hrest.le_position x hx
    show p < x.1
    omega

/-- No two instructions are read at one offset. -/
theorem eq_of_position (h : decodeAll buf = .ok placed) {k l p : Nat} {i j : Insn}
    (hk : placed[k]? = some (p, i)) (hl : placed[l]? = some (p, j)) : k = l := by
  have htiles : Tiles buf 0 placed := tiles_of_decodeFrom [] h
  have hnodup : (placed.map Prod.fst).Nodup := htiles.ascend.imp Nat.ne_of_lt
  have hk' : (placed.map Prod.fst)[k]? = some p := by rw [List.getElem?_map, hk]; rfl
  have hl' : (placed.map Prod.fst)[l]? = some p := by rw [List.getElem?_map, hl]; rfl
  obtain ⟨hlt, -⟩ := List.getElem?_eq_some_iff.mp hk'
  exact (List.getElem?_inj hlt hnodup).mp (hk'.trans hl'.symm)

end Insn

namespace Rule

variable {id : Nat} {image : RuleImage} {verboseLimit : UInt32} {rule : Rule}
  {placed : List (Nat × Insn)} {k : Nat}

/-! ## The two checks -/

/-- **Checking for actions**: there is one, and it is the last instruction. -/
theorem checkActions_eq_ok_iff {insns : List Insn} :
    checkActions insns = .ok () ↔
      insns.countP (·.command.isAction) = 1 ∧ insns.getLast?.any (·.command.isAction) = true := by
  rw [List.countP_eq_length_filter]
  unfold checkActions
  split
  · rename_i hnone
    simp [hnone]
  · rename_i only hone
    rw [hone]
    split
    · rename_i hlast
      simp [hlast]
    · rename_i hlast
      simp [hlast]
  · rename_i hmany
    simp [hmany]

/-- What holds of all but the last of the items from a position on. -/
theorem all_dropLast_drop_iff {α : Type} {p : α → Bool} {l : List α} {k : Nat} :
    ((l.drop k).dropLast).all p = true ↔
      ∀ j x, k ≤ j → j + 1 < l.length → l[j]? = some x → p x = true := by
  rw [List.all_eq_true]
  constructor
  · intro h j x hk hj hx
    have hget : ((l.drop k).dropLast)[j - k]? = some x := by
      rw [List.getElem?_dropLast, List.length_drop, if_pos (by omega), List.getElem?_drop,
        Nat.add_sub_cancel' hk, hx]
    exact h x (List.mem_of_getElem? hget)
  · intro h x hx
    obtain ⟨j, hj⟩ := List.mem_iff_getElem?.mp hx
    rw [List.getElem?_dropLast, List.length_drop, List.getElem?_drop] at hj
    split at hj
    · exact h (k + j) x (Nat.le_add_right k j) (by omega) hj
    · cases hj

theorem isLog_iff {c : Command} : c.isLog = true ↔ ∃ budget, c = .log budget := by
  cases c <;> simp [Command.isLog]

/-- **Looking for the action part**: it begins at the action offset, and holds nothing but log
instructions before its end. -/
theorem actionStart?_eq_some_iff (hplaced : Insn.decodeAll image.words = .ok placed)
    {offset : UInt16} :
    actionStart? placed offset = some k ↔
      (∃ i, placed[k]? = some (offset.toNat, i)) ∧
        ∀ j p i, k ≤ j → j + 1 < placed.length → placed[j]? = some (p, i) →
          ∃ budget, i.command = .log budget := by
  have hfind : placed.findIdx? (·.1 == offset.toNat) = some k ↔
      ∃ i, placed[k]? = some (offset.toNat, i) := by
    rw [List.findIdx?_eq_some_iff_getElem]
    constructor
    · rintro ⟨hlt, hposition, -⟩
      exact ⟨placed[k].2, by rw [List.getElem?_eq_getElem hlt, ← beq_iff_eq.mp hposition]⟩
    · rintro ⟨i, hget⟩
      obtain ⟨hlt, hk⟩ := List.getElem?_eq_some_iff.mp hget
      refine ⟨hlt, by simp [hk], fun j hj hposition => ?_⟩
      have hearlier : placed[j]? = some (offset.toNat, placed[j].2) := by
        rw [List.getElem?_eq_getElem (Nat.lt_trans hj hlt), ← beq_iff_eq.mp hposition]
      exact Nat.ne_of_lt hj (Insn.eq_of_position hplaced hearlier hget)
  have hlogs : ((placed.drop k).dropLast).all (·.2.command.isLog) = true ↔
      ∀ j p i, k ≤ j → j + 1 < placed.length → placed[j]? = some (p, i) →
        ∃ budget, i.command = .log budget := by
    rw [all_dropLast_drop_iff]
    simp only [Prod.forall, isLog_iff]
  rw [← hfind, ← hlogs]
  unfold actionStart?
  constructor
  · intro h
    split at h
    · cases h
    · rename_i found hfound
      split at h
      · rename_i hall
        cases h
        exact ⟨hfound, hall⟩
      · cases h
  · rintro ⟨hfound, hall⟩
    rw [hfound]
    exact if_pos hall

/-! ## Acceptance -/

/-- **Checking an image is checking it against the grammar**, and this is the rule that is made of
one that passes. -/
theorem ofImage_eq_ok_iff :
    ofImage id image verboseLimit = .ok rule ↔
      ∃ placed k, image.Grammatical placed k ∧
        rule = ⟨id, image.number, image.words, image.actionOffset, placed.map Prod.snd, k,
          budgetOf (placed.map Prod.snd) verboseLimit⟩ := by
  constructor
  · intro h
    obtain ⟨hnumber, hset, placed, k, hplaced, hactions, hstart, hrule⟩ := ofImage_eq_ok h
    obtain ⟨hsingle, hlast⟩ := checkActions_eq_ok_iff.mp hactions
    obtain ⟨hbegins, hlogs⟩ := (actionStart?_eq_some_iff hplaced).mp hstart
    rw [List.countP_map] at hsingle
    rw [List.getLast?_map, Option.any_map, Option.any_eq_true_iff_get] at hlast
    obtain ⟨hsome, haction⟩ := hlast
    refine ⟨placed, k, ⟨hnumber, hset, ?_, hplaced, hsingle, ?_, hbegins, hlogs⟩, hrule⟩
    · intro hnil
      rw [hnil, Insn.decodeAll, Insn.decodeFrom] at hplaced
      cases hplaced
      cases hsingle
    · exact ⟨_, _, (Option.some_get hsome).symm, haction⟩
  · rintro ⟨placed, k, h, rfl⟩
    have hactions : checkActions (placed.map Prod.snd) = .ok () := by
      obtain ⟨p, i, hlast, haction⟩ := h.last
      refine checkActions_eq_ok_iff.mpr ⟨?_, ?_⟩
      · rw [List.countP_map]
        exact h.single
      · rw [List.getLast?_map, hlast]
        exact haction
    have hstart : actionStart? placed image.actionOffset = some k :=
      (actionStart?_eq_some_iff h.decoded).mpr ⟨h.start, h.logs⟩
    have hnumber : image.number ≠ defaultRuleNumber := h.number
    have hset : ¬maxUserSet < image.set := UInt8.not_lt.mpr h.set
    have hwords : ¬image.words.isEmpty = true := fun hempty =>
      h.nonempty (List.isEmpty_iff.mp hempty)
    simp only [ofImage, if_neg hnumber, if_neg hset, if_neg hwords, h.decoded, ofDecoded, hactions,
      hstart]

/-- A rule is read in one way only. -/
theorem grammatical_unique {placed' : List (Nat × Insn)} {k' : Nat}
    (h : image.Grammatical placed k) (h' : image.Grammatical placed' k') :
    placed' = placed ∧ k' = k := by
  obtain rfl : placed' = placed := Except.ok.inj (h'.decoded.symm.trans h.decoded)
  obtain ⟨i, hk⟩ := h.start
  obtain ⟨i', hk'⟩ := h'.start
  exact ⟨rfl, Insn.eq_of_position h.decoded hk' hk⟩

/-- **A rule that is taken out is accepted again**, from whatever set that users may give, and is
the same rule but for its id and what the settings add to it. -/
theorem ofImage_image (h : ofImage id image verboseLimit = .ok rule) {set : UInt8}
    (hset : set ≤ maxUserSet) (id' : Nat) (verboseLimit' : UInt32) :
    ofImage id' (rule.image set) verboseLimit' =
      .ok { rule with id := id', logBudget := budgetOf rule.insns verboseLimit' } := by
  obtain ⟨placed, k, hgrammar, rfl⟩ := ofImage_eq_ok_iff.mp h
  exact ofImage_eq_ok_iff.mpr ⟨placed, k, hgrammar.relabel hgrammar.number hset, rfl⟩

/-! ## What is made of an image -/

/-- **What is made of an image** with these instructions. -/
structure MadeFrom (rule : Rule) (image : RuleImage) (placed : List (Nat × Insn)) : Prop where
  insns : rule.insns = placed.map Prod.snd
  /-- The action part begins with the instruction at the action offset, and with no other. -/
  start : ∀ j, (∃ i, placed[j]? = some (image.actionOffset.toNat, i)) ↔ j = rule.actionIndex
  actionPart : ∃ logs action modifiers, rule.actionPart = logs ++ [⟨.act action, modifiers⟩] ∧
    ∀ i ∈ logs, ∃ budget, i.command = .log budget
  createsState : rule.createsState = true ↔
    ∃ i ∈ rule.insns, i.command = .keepState ∨ ∃ parts n, i.command = .limit parts n
  /-- Taken out again, it is the image that was submitted, -/
  unchanged : rule.image (RuleStatus.fresh image.set rule.logBudget).set = image
  /-- which is accepted whenever it is submitted. -/
  again : ∀ id verboseLimit, ∃ rule', ofImage id (rule.image image.set) verboseLimit = .ok rule' ∧
    rule'.insns = rule.insns

/-- The instructions from the action offset on are log instructions and the action. -/
theorem exists_actionPart (h : image.Grammatical placed k) :
    ∃ logs action modifiers,
      (placed.map Prod.snd).drop k = logs ++ [⟨.act action, modifiers⟩] ∧
        ∀ i ∈ logs, ∃ budget, i.command = .log budget := by
  obtain ⟨i, hstart⟩ := h.start
  obtain ⟨p, ⟨command, modifiers⟩, hlast, haction⟩ := h.last
  have hk : k < placed.length := (List.getElem?_eq_some_iff.mp hstart).1
  have hlast : (placed.drop k).getLast? = some (p, ⟨command, modifiers⟩) := by
    rw [List.getLast?_drop, if_neg (Nat.not_le.mpr hk), hlast]
  obtain ⟨logs, hdrop⟩ := List.getLast?_eq_some_iff.mp hlast
  have hlogs : logs.all (·.2.command.isLog) = true := by
    have hall : ((placed.drop k).dropLast).all (·.2.command.isLog) = true := by
      rw [all_dropLast_drop_iff]
      intro j x hj hlt hx
      exact isLog_iff.mpr (h.logs j x.1 x.2 hj hlt hx)
    rwa [hdrop, List.dropLast_concat] at hall
  cases command with
  | act action =>
    refine ⟨logs.map Prod.snd, action, modifiers, ?_, fun i hi => ?_⟩
    · rw [← List.map_drop, hdrop, List.map_append, List.map_singleton]
    · obtain ⟨x, hx, rfl⟩ := List.mem_map.mp hi
      exact isLog_iff.mp (List.all_eq_true.mp hlogs x hx)
  | _ => cases haction

theorem createsState_iff_exists {insns : List Insn} :
    insns.any (·.command.createsState) = true ↔
      ∃ i ∈ insns, i.command = .keepState ∨ ∃ parts n, i.command = .limit parts n := by
  rw [List.any_eq_true]
  refine exists_congr fun i => and_congr_right fun _ => ?_
  cases i.command <;> simp [Command.createsState]

theorem madeFrom_of_ofImage (h : ofImage id image verboseLimit = .ok rule)
    (hgrammar : image.Grammatical placed k) : rule.MadeFrom image placed := by
  obtain ⟨placed', k', hgrammar', hrule⟩ := ofImage_eq_ok_iff.mp h
  obtain ⟨rfl, rfl⟩ := grammatical_unique hgrammar hgrammar'
  have himage : rule.image image.set = image := by rw [hrule]; rfl
  obtain ⟨i, hstart⟩ := hgrammar.start
  constructor
  case insns => rw [hrule]
  case start =>
    intro j
    rw [hrule]
    constructor
    · rintro ⟨i', hj⟩
      exact Insn.eq_of_position hgrammar.decoded hj hstart
    · rintro rfl
      exact ⟨i, hstart⟩
  case actionPart =>
    rw [hrule]
    exact exists_actionPart hgrammar
  case createsState => exact createsState_iff_exists
  case unchanged => exact himage
  case again =>
    intro id' verboseLimit'
    exact ⟨_, ofImage_image h hgrammar.set id' verboseLimit', rfl⟩

/-- **Exactly the rules of the grammar are accepted**, under any id and with any settings, and this
is what is made of them. -/
theorem ofImage_accepts_grammar (id : Nat) (image : RuleImage) (verboseLimit : UInt32) :
    ((∃ rule, ofImage id image verboseLimit = .ok rule) ↔
      ∃ placed k, image.Grammatical placed k) ∧
    ∀ rule, ofImage id image verboseLimit = .ok rule →
      ∃ placed k, image.Grammatical placed k ∧ rule.MadeFrom image placed := by
  constructor
  · constructor
    · rintro ⟨rule, h⟩
      obtain ⟨placed, k, hgrammar, -⟩ := ofImage_eq_ok_iff.mp h
      exact ⟨placed, k, hgrammar⟩
    · rintro ⟨placed, k, hgrammar⟩
      exact ⟨_, ofImage_eq_ok_iff.mpr ⟨placed, k, hgrammar, rfl⟩⟩
  · intro rule h
    obtain ⟨placed, k, hgrammar, -⟩ := ofImage_eq_ok_iff.mp h
    exact ⟨placed, k, hgrammar, madeFrom_of_ofImage h hgrammar⟩

/-- A rule that keeps state and logs twice before it acts. Its action part may begin at either log
instruction, but not within one. -/
theorem ofImage_accepts_grammar_logger :
    let image : RuleImage := ⟨100, 7, 2, [291, 292, 550, 3, 550, 0, 297]⟩
    let within : RuleImage := { image with actionOffset := 3 }
    (∃ rule, ofImage 1 image 50 = .ok rule ∧
      ∃ placed k, image.Grammatical placed k ∧ rule.MadeFrom image placed) ∧
    (∃ placed k, image.Grammatical placed k) ∧
    ¬∃ placed k, within.Grammatical placed k := by
  intro image within
  have haccepted : ∃ rule, ofImage 1 image 50 = .ok rule := by
    have hok : (ofImage 1 image 50).toOption.isSome = true := by decide +kernel
    cases h : ofImage 1 image 50 with
    | ok rule => exact ⟨rule, rfl⟩
    | error e => rw [h] at hok; cases hok
  have hrefused : ¬∃ rule, ofImage 1 within 50 = .ok rule := by
    have hnone : (ofImage 1 within 50).toOption.isSome = false := by decide +kernel
    rintro ⟨rule, h⟩
    rw [h] at hnone
    cases hnone
  obtain ⟨rule, hrule⟩ := haccepted
  refine ⟨⟨rule, hrule, (ofImage_accepts_grammar 1 image 50).2 rule hrule⟩, ?_, ?_⟩
  · exact (ofImage_accepts_grammar 1 image 50).1.mp ⟨rule, hrule⟩
  · exact fun h => hrefused ((ofImage_accepts_grammar 1 within 50).1.mpr h)

end Rule

end PacketFilter
