import Mathlib.Data.List.Basic
import PacketFilter.Proofs.ChainHistory
import PacketFilter.Wire.Messages

/-!
# Nothing is lost on the wire

A message is read back whatever follows it, and one that is cut short is known to be incomplete
wherever the cut is. So no message is the beginning of another one, and a reader needs no mark to
know where a message ends.

That a codec carries a value (`Codec.Carries`) is stated value by value, and each combinator passes
it on from the parts of the value to the whole. What limits the values are the types of their
fields, and for lists that their length is a 64-bit number.

Main statements: `Carries.pair`, `Carries.list`, `Carries.choice`, the combinators;
`Lossless.of_carries`, values that are carried are told apart; **`messages_lossless`**, what crosses
to a client arrives there, and what a client sends is treated as if it had been handed over
directly.
-/

namespace PacketFilter.Wire

namespace Codec

variable {α β : Type} {a : Codec α} {b : Codec β}

/-- **A codec carries a value**: it is read back whatever follows it, and of anything shorter it is
known that bytes are missing. -/
structure Carries (c : Codec α) (v : α) : Prop where
  read_write : ∀ rest, c.read (c.write v ++ rest) = .ok (v, rest)
  read_cut : ∀ start, start <+: c.write v → start ≠ c.write v →
    c.read start = .error .unexpectedEnd

/-- **A codec loses nothing** of some values: it reads them back, notices when they are cut short,
and writes none of them as the beginning of another. -/
structure Lossless (c : Codec α) (fits : α → Prop) : Prop where
  decode_write : ∀ v, fits v → ∀ rest, c.decode (c.write v ++ rest) = .ok v
  decode_cut : ∀ v, fits v → ∀ start, start <+: c.write v → start ≠ c.write v →
    c.decode start = .error .unexpectedEnd
  prefix_free : ∀ v w, fits v → fits w → c.write v <+: c.write w → v = w

/-! ## Combinators -/

/-- Where bytes can be cut that come in two parts: within the first, or within the second. -/
theorem cut_append {start first second : List UInt8} (hstart : start <+: first ++ second)
    (hcut : start ≠ first ++ second) :
    (start <+: first ∧ start ≠ first) ∨
      ∃ more, start = first ++ more ∧ more <+: second ∧ more ≠ second := by
  by_cases hall : first <+: start
  · obtain ⟨more, rfl⟩ := hall
    refine .inr ⟨more, rfl, (List.prefix_append_right_inj first).mp hstart, ?_⟩
    rintro rfl
    exact hcut rfl
  · refine .inl ⟨?_, fun heq => hall (heq ▸ List.prefix_rfl)⟩
    exact (List.prefix_or_prefix_of_prefix hstart (List.prefix_append first second)).resolve_right
      hall

namespace Carries

theorem byte (v : UInt8) : Codec.byte.Carries v := by
  refine ⟨fun rest => rfl, fun start hstart hcut => ?_⟩
  rcases List.prefix_cons_iff.mp hstart with rfl | ⟨more, rfl, hmore⟩
  · rfl
  · rw [List.prefix_nil.mp hmore] at hcut
    exact absurd rfl hcut

theorem varint {top bytes n : Nat} (h : n < Varint.bound top bytes) :
    (Codec.varint top bytes).Carries n :=
  ⟨Varint.read_write h, fun _ => Varint.read_cut h⟩

theorem convert {ofBase : α → β} {toBase : β → α} {v : β} (h : a.Carries (toBase v))
    (hback : ofBase (toBase v) = v) : (a.convert ofBase toBase).Carries v := by
  refine ⟨fun rest => ?_, fun start hstart hcut => ?_⟩
  · simp only [Codec.convert, h.read_write, hback]
  · simp only [Codec.convert, h.read_cut start hstart hcut]

theorem half (v : UInt16) : Codec.half.Carries v :=
  (varint v.toNat_lt).convert (UInt16.ofNat_toNat)

theorem word (v : UInt32) : Codec.word.Carries v :=
  (varint v.toNat_lt).convert (UInt32.ofNat_toNat)

theorem long (v : UInt64) : Codec.long.Carries v :=
  (varint v.toNat_lt).convert (UInt64.ofNat_toNat)

theorem pair {v : α × β} (ha : a.Carries v.1) (hb : b.Carries v.2) : (a.pair b).Carries v := by
  refine ⟨fun rest => ?_, fun start hstart hcut => ?_⟩
  · simp only [Codec.pair, List.append_assoc, ha.read_write, hb.read_write]
  · rcases cut_append hstart hcut with ⟨hfirst, hne⟩ | ⟨more, rfl, hmore, hne⟩
    · simp only [Codec.pair, ha.read_cut start hfirst hne]
    · simp only [Codec.pair, ha.read_write, hb.read_cut more hmore hne]

/-- The items of a list, one after another. -/
theorem readMany_write {vs : List α} (h : ∀ v ∈ vs, a.Carries v) (rest : List UInt8) :
    readMany a vs.length (vs.flatMap a.write ++ rest) = .ok (vs, rest) := by
  induction vs with
  | nil => rfl
  | cons v vs ih =>
    have hrest := ih fun w hw => h w (List.mem_cons_of_mem v hw)
    simp only [List.flatMap_cons, List.append_assoc, List.length_cons, readMany,
      (h v List.mem_cons_self).read_write, hrest]

theorem readMany_cut {vs : List α} (h : ∀ v ∈ vs, a.Carries v) {start : List UInt8}
    (hstart : start <+: vs.flatMap a.write) (hcut : start ≠ vs.flatMap a.write) :
    readMany a vs.length start = .error .unexpectedEnd := by
  induction vs generalizing start with
  | nil => exact absurd (List.prefix_nil.mp hstart) hcut
  | cons v vs ih =>
    have hv := h v List.mem_cons_self
    rw [List.flatMap_cons] at hstart hcut
    rcases cut_append hstart hcut with ⟨hfirst, hne⟩ | ⟨more, rfl, hmore, hne⟩
    · simp only [List.length_cons, readMany, hv.read_cut start hfirst hne]
    · have hrest := ih (fun w hw => h w (List.mem_cons_of_mem v hw)) hmore hne
      simp only [List.length_cons, readMany, hv.read_write, hrest]

theorem list {vs : List α} (hlength : vs.length < 2 ^ 64) (h : ∀ v ∈ vs, a.Carries v) :
    (Codec.list a).Carries vs := by
  have hcount : (Codec.varint 1 10).Carries vs.length := varint hlength
  refine ⟨fun rest => ?_, fun start hstart hcut => ?_⟩
  · have hread := hcount.read_write (vs.flatMap a.write ++ rest)
    simp only [Codec.varint] at hread
    simp only [Codec.list, List.append_assoc, hread, readMany_write h]
  · rcases cut_append hstart hcut with ⟨hfirst, hne⟩ | ⟨more, rfl, hmore, hne⟩
    · have hread := hcount.read_cut start hfirst hne
      simp only [Codec.varint] at hread
      simp only [Codec.list, hread]
    · have hread := hcount.read_write more
      simp only [Codec.varint] at hread
      simp only [Codec.list, hread, readMany_cut h hmore hne]

theorem choice [DecidableEq α] {cases : List α} {v : α} (hv : v ∈ cases)
    (hfew : cases.length ≤ 2 ^ 32) : (Codec.choice cases).Carries v := by
  have hlt : cases.idxOf v < cases.length := List.idxOf_lt_length_iff.mpr hv
  have hnumber : (UInt32.ofNat (cases.idxOf v)).toNat = cases.idxOf v :=
    UInt32.toNat_ofNat_of_lt' (by rw [UInt32.size]; omega)
  have hword := word (UInt32.ofNat (cases.idxOf v))
  have hwrite : Codec.word.write (UInt32.ofNat (cases.idxOf v)) = (Codec.choice cases).write v := by
    show Varint.write (UInt32.ofNat (cases.idxOf v)).toNat = Varint.write (cases.idxOf v)
    rw [hnumber]
  have hget : cases[cases.idxOf v]? = some v := by
    rw [List.getElem?_eq_getElem hlt, List.getElem_idxOf hlt]
  refine ⟨fun rest => ?_, fun start hstart hcut => ?_⟩
  · rw [← hwrite]
    simp only [Codec.choice, hword.read_write, hnumber, hget]
  · rw [← hwrite] at hstart hcut
    simp only [Codec.choice, hword.read_cut start hstart hcut]

end Carries

/-- Values that are carried are read back, whole or not at all, and none is mistaken for the
beginning of another. -/
theorem Lossless.of_carries {fits : α → Prop} (h : ∀ v, fits v → a.Carries v) :
    a.Lossless fits where
  decode_write v hv rest := by simp only [decode, (h v hv).read_write]
  decode_cut v hv start hstart hcut := by simp only [decode, (h v hv).read_cut start hstart hcut]
  prefix_free v w hv hw hprefix := by
    obtain ⟨rest, hrest⟩ := hprefix
    -- The bytes of `w` are read as `v`, with something left, and as `w`, with nothing left.
    have hasFirst := (h v hv).read_write rest
    have hasSecond := (h w hw).read_write []
    rw [List.append_nil, ← hrest, hasFirst] at hasSecond
    exact congrArg Prod.fst (Except.ok.inj hasSecond)

end Codec

end PacketFilter.Wire

namespace PacketFilter

/-! ## Messages -/

/-- Can the number of words be counted in 64 bits? -/
def RuleImage.Fits (image : RuleImage) : Prop := image.words.length < 2 ^ 64

/-- Can the lists of the snapshot be counted in 64 bits? -/
def RuleSnapshot.Fits (snapshot : RuleSnapshot) : Prop :=
  snapshot.rules.length < 2 ^ 64 ∧ ∀ r ∈ snapshot.rules, r.image.Fits

/-- Can the entries be counted in 64 bits? -/
def StateSnapshot.Fits (snapshot : StateSnapshot) : Prop := snapshot.states.length < 2 ^ 64

namespace Wire

open Codec (Carries Lossless)

theorem ruleImage_carries {image : RuleImage} (h : image.Fits) : ruleImage.Carries image := by
  refine .convert (.pair (.half _) (.pair (.byte _) (.pair (.half _) ?_))) rfl
  exact .list h fun w _ => .word w

theorem ruleReport_carries {report : RuleReport} (h : report.image.Fits) :
    ruleReport.Carries report :=
  .convert (.pair (ruleImage_carries h) (.pair (.long _) (.pair (.long _) (.long _)))) rfl

theorem ruleSnapshot_carries {snapshot : RuleSnapshot} (h : snapshot.Fits) :
    ruleSnapshot.Carries snapshot := by
  refine .convert (.pair (.long _) (.pair (.word _) ?_)) rfl
  exact .list h.1 fun r hr => ruleReport_carries (h.2 r hr)

theorem flow_carries (f : Flow) : flow.Carries f := by
  refine .convert (.pair (.word _) (.pair (.word _) (.pair (.half _) (.pair (.half _) ?_)))) rfl
  exact .pair (.byte _) (.byte _)

theorem entryKind_carries (kind : EntryKind) : entryKind.Carries kind :=
  .choice (by cases kind <;> decide) (by decide)

theorem stateReport_carries (report : StateReport) : stateReport.Carries report := by
  refine .convert (.pair (flow_carries _) (.pair (.half _) (.pair (entryKind_carries _) ?_))) rfl
  exact .pair (.long _) (.pair (.long _) (.pair (.long _) (.pair (.half _) (.word _))))

theorem stateSnapshot_carries {snapshot : StateSnapshot} (h : snapshot.Fits) :
    stateSnapshot.Carries snapshot :=
  .convert (.pair (.long _) (.list h fun report _ => stateReport_carries report)) rfl

end Wire

/-! ## Sessions -/

/-- A rule that comes as bytes is treated as the image that the bytes stand for. -/
theorem Firewall.addBytes_write (fw : Firewall) {image : RuleImage} (h : image.Fits) :
    fw.addBytes (Wire.ruleImage.write image) = fw.addImage image := by
  have hdecode : Wire.ruleImage.decode (Wire.ruleImage.write image) = .ok image := by
    have hread := (Wire.ruleImage_carries h).read_write []
    rw [List.append_nil] at hread
    simp only [Wire.Codec.decode, hread]
  simp only [addBytes, hdecode]

namespace Session

variable {grants : Rule → StateRequest → Prop} {s : Session}

/-- There are never more entries than can be counted. -/
theorem Reachable.stateSnapshot_fits (hfair : Firewall.Fair grants) (h : Reachable grants s) :
    s.firewall.stateSnapshot.Fits := by
  obtain ⟨l, hrefines, hsound⟩ := (h.settings hfair).2
  have hbounded : l.entries.length ≤ s.firewall.config.maxStates.toNat := hsound.bounded
  have hmax := s.firewall.config.maxStates.toNat_lt
  have hlength : s.firewall.stateSnapshot.states.length = l.entries.length := by
    show (s.firewall.engine.states.entries.map _).length = _
    rw [List.length_map, hrefines.entries_perm.length_eq]
  unfold StateSnapshot.Fits
  omega

/-- **What crosses to a client arrives.** Images of rules and both kinds of snapshot are read back
whatever follows them, are known to be incomplete wherever they are cut short, and none is the
beginning of another. In any session a rule that is sent is added, or refused, as if it had been
handed over directly, and the snapshots that are sent are those that were taken. -/
theorem messages_lossless :
    Wire.ruleImage.Lossless RuleImage.Fits ∧ Wire.ruleSnapshot.Lossless RuleSnapshot.Fits ∧
      Wire.stateSnapshot.Lossless StateSnapshot.Fits ∧
      ∀ s, Reachable (fun rule _ => rule.createsState = true) s →
        (∀ image : RuleImage, image.Fits →
          s.firewall.addBytes (Wire.ruleImage.write image) = s.firewall.addImage image ∧
            s.step (.addBytes (Wire.ruleImage.write image)) = s.step (.add image)) ∧
        (s.firewall.ruleSnapshot.Fits →
          Wire.ruleSnapshot.decode (Wire.ruleSnapshot.write s.firewall.ruleSnapshot) =
            .ok s.firewall.ruleSnapshot) ∧
        Wire.stateSnapshot.decode (Wire.stateSnapshot.write s.firewall.stateSnapshot) =
          .ok s.firewall.stateSnapshot := by
  have himage : Wire.ruleImage.Lossless RuleImage.Fits :=
    .of_carries fun _ => Wire.ruleImage_carries
  have hrules : Wire.ruleSnapshot.Lossless RuleSnapshot.Fits :=
    .of_carries fun _ => Wire.ruleSnapshot_carries
  have hstates : Wire.stateSnapshot.Lossless StateSnapshot.Fits :=
    .of_carries fun _ => Wire.stateSnapshot_carries
  refine ⟨himage, hrules, hstates, fun s hs => ⟨fun image hfits => ?_, fun hfits => ?_, ?_⟩⟩
  · have hadd := s.firewall.addBytes_write hfits
    refine ⟨hadd, ?_⟩
    simp only [step, hadd]
  · have hdecode := hrules.decode_write s.firewall.ruleSnapshot hfits []
    rwa [List.append_nil] at hdecode
  · have hdecode := hstates.decode_write _ (hs.stateSnapshot_fits fair_creates) []
    rwa [List.append_nil] at hdecode

/-- A rule that limits connections, sent whole and cut short, and what a client is told once a
packet has met it. -/
theorem messages_lossless_limiter :
    let image := limiter.assemble
    let request : Packet :=
      { flow := ⟨1, 2, 3, 4, Protocol.udp, 0⟩, direction := .inbound, length := 40 }
    let s := opened.run [.addBytes (Wire.ruleImage.write image), .process request none]
    image.Fits ∧ s.Reachable (fun rule _ => rule.createsState = true) ∧
      s.firewall.ruleSnapshot.Fits ∧
      Wire.ruleImage.decode (Wire.ruleImage.write image ++ [7]) = .ok image ∧
      Wire.ruleImage.decode [50, 0, 3, 4, 163, 2, 165] = .error .unexpectedEnd ∧
      s.firewall.addBytes (Wire.ruleImage.write image) = s.firewall.addImage image ∧
      Wire.ruleSnapshot.decode (Wire.ruleSnapshot.write s.firewall.ruleSnapshot) =
        .ok s.firewall.ruleSnapshot ∧
      s.firewall.stateSnapshot.states.length = 2 ∧
      Wire.stateSnapshot.decode (Wire.stateSnapshot.write s.firewall.stateSnapshot) =
        .ok s.firewall.stateSnapshot := by
  intro image request s
  have hs : s.Reachable fun rule _ => rule.createsState = true :=
    opened_reachable.run (by simp [Allows])
  have hfits : image.Fits := by unfold RuleImage.Fits; decide +kernel
  have hwrite : Wire.ruleImage.write image =
      [50, 0, 3, 4, 163, 2, 165, 4, 130, 128, 4, 169, 2] := by
    decide +kernel
  have hrules : s.firewall.ruleSnapshot.Fits := by
    unfold RuleSnapshot.Fits RuleImage.Fits
    simp only [s, run, List.foldl, step, Firewall.process, Firewall.check, evaluate,
      Walk.run_eq_runFor 2]
    decide +kernel
  have hstates : s.firewall.stateSnapshot.states.length = 2 := by
    simp only [s, run, List.foldl, step, Firewall.process, Firewall.check, evaluate,
      Walk.run_eq_runFor 2]
    decide +kernel
  obtain ⟨himage, -, -, hsessions⟩ := messages_lossless
  obtain ⟨hadd, hsnapshot, hstate⟩ := hsessions s hs
  refine ⟨hfits, hs, hrules, himage.decode_write _ hfits _, himage.decode_cut _ hfits _ ?_ ?_,
    (hadd _ hfits).1, hsnapshot hrules, hstates, hstate⟩
  · rw [hwrite]
    decide
  · rw [hwrite]
    decide

end Session

end PacketFilter
