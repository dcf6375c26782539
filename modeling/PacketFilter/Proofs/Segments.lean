import Mathlib.Data.FinEnum
import Mathlib.Data.List.ReduceOption
import PacketFilter.Config.Basic

/-!
# Connections by their segments

What is kept of a connection is small, and what it comes to is a matter of which flags have been
seen in which direction: the order of the segments does not count, nor how often a flag is repeated.
`TcpTrack.run` folds in segments one after another; `flagsOf` and `Seen` speak of the segments
themselves.

Flags that have been seen stay seen, so that a connection only comes closer to its end. Settings
that pass the check give it no longer lifetime then than before.

Main statements: `state_run`, the flags kept are those of the segments; `due_of_bothSyn`, the
lifetime of a connection of which both SYNs have been seen; **`lifetimes_of_segments`**, what any
sequence of segments leads to.
-/

namespace PacketFilter

/-- A segment of a connection: which way it travels, and its header if it has one. -/
structure Segment where
  forward : Bool
  tcp : Option TcpHeader
  deriving DecidableEq, Repr

namespace Segment

/-- Does the segment carry a flag? -/
def carries (s : Segment) (flag : TcpFlags) : Bool := s.tcp.any (·.flags.includes flag)

/-- Those of FIN, SYN and RST that the segment carries. -/
def tracked (s : Segment) : UInt8 := (s.tcp.map (·.flags.bits)).getD 0 &&& TcpTrack.trackedFlags

end Segment

/-- Those of FIN, SYN and RST that segments of one direction carry. -/
def flagsOf (segments : List Segment) (forward : Bool) : UInt8 :=
  ((segments.filter (·.forward == forward)).map Segment.tracked).foldr (· ||| ·) 0

/-- **Has a flag been seen** in one direction? -/
def Seen (segments : List Segment) (forward : Bool) (flag : TcpFlags) : Prop :=
  ∃ s ∈ segments, s.forward = forward ∧ s.carries flag = true

instance (segments : List Segment) (forward : Bool) (flag : TcpFlags) :
    Decidable (Seen segments forward flag) := by
  unfold Seen
  infer_instance

theorem Seen.mono {segments segments' : List Segment} {forward : Bool} {flag : TcpFlags}
    (h : Seen segments forward flag) (hsub : segments ⊆ segments') :
    Seen segments' forward flag := by
  obtain ⟨s, hs, hseen⟩ := h
  exact ⟨s, hsub hs, hseen⟩

namespace TcpTrack

/-! ## Folding in segments -/

/-- Fold in segments one after another: the lifetime that is answered to each, if one is, and what
is known of the connection in the end. -/
def run (t : TcpTrack) (lifetimes : Lifetimes) : List Segment → List (Option Lifetime) × TcpTrack
  | [] => ([], t)
  | s :: segments =>
    let (answer, t) := t.update s.forward s.tcp lifetimes
    let (answers, t) := t.run lifetimes segments
    (answer :: answers, t)

variable {lifetimes : Lifetimes}

/-- What is answered to a segment depends on those before it. -/
theorem getElem?_run (t : TcpTrack) (segments : List Segment) (i : Nat) :
    (t.run lifetimes segments).1[i]? = segments[i]?.map fun s =>
      ((t.run lifetimes (segments.take i)).2.update s.forward s.tcp lifetimes).1 := by
  induction segments generalizing t i with
  | nil => rfl
  | cons s segments ih =>
    cases i with
    | zero => rfl
    | succ i => exact ih _ i

theorem run_append_singleton (t : TcpTrack) (segments : List Segment) (s : Segment) :
    (t.run lifetimes (segments ++ [s])).2 =
      ((t.run lifetimes segments).2.update s.forward s.tcp lifetimes).2 := by
  induction segments generalizing t with
  | nil => rfl
  | cons first segments ih => exact ih _

/-! ## The flags that have been seen -/

/-- The flags seen in both directions, put into one half word. -/
def stateOf (forward reverse : UInt8) : UInt16 := forward.toUInt16 ||| reverse.toUInt16 <<< 8

theorem stateOf_or (a b c d : UInt8) :
    stateOf (a ||| b) (c ||| d) = stateOf a c ||| stateOf b d := by
  simp only [stateOf, UInt8.toUInt16_or, UInt16.shiftLeft_or]
  ac_rfl

/-- The flags of one segment, in the byte of its direction. -/
theorem seen_eq_stateOf (s : Segment) :
    seen s.forward s.tcp =
      stateOf (if s.forward then s.tracked else 0) (if s.forward then 0 else s.tracked) := by
  obtain ⟨forward, tcp⟩ := s
  cases forward <;> simp [seen, stateOf, Segment.tracked]

theorem flagsOf_cons (s : Segment) (segments : List Segment) (forward : Bool) :
    flagsOf (s :: segments) forward =
      (if s.forward = forward then s.tracked else 0) ||| flagsOf segments forward := by
  unfold flagsOf
  by_cases h : s.forward = forward
  · rw [if_pos h, List.filter_cons_of_pos (by simpa using h)]
    rfl
  · rw [if_neg h, List.filter_cons_of_neg (by simpa using h), UInt8.zero_or]

/-- **The flags that are kept** are those seen before and those of the segments. -/
theorem state_run (t : TcpTrack) (segments : List Segment) :
    (t.run lifetimes segments).2.state =
      t.state ||| stateOf (flagsOf segments true) (flagsOf segments false) := by
  induction segments generalizing t with
  | nil => exact (UInt16.or_zero).symm
  | cons s segments ih =>
    calc ((t.update s.forward s.tcp lifetimes).2.run lifetimes segments).2.state
        = t.state ||| seen s.forward s.tcp |||
            stateOf (flagsOf segments true) (flagsOf segments false) := by rw [ih, state_update]
      _ = t.state ||| stateOf (flagsOf (s :: segments) true) (flagsOf (s :: segments) false) := by
          rw [flagsOf_cons, flagsOf_cons, stateOf_or, seen_eq_stateOf, UInt16.or_assoc]
          cases s.forward <;> rfl

/-- The order of the segments does not count. -/
theorem flagsOf_perm {segments segments' : List Segment} (h : segments.Perm segments')
    (forward : Bool) : flagsOf segments forward = flagsOf segments' forward := by
  have : LeftCommutative fun a b : UInt8 => a ||| b :=
    ⟨fun a b c => by rw [← UInt8.or_assoc, UInt8.or_comm a b, UInt8.or_assoc]⟩
  exact ((h.filter _).map _).foldr_eq 0

/-! ## Phases -/

/-- The byte that stands for some of FIN, SYN and RST. -/
def flagByte (fin syn rst : Bool) : UInt8 :=
  (if fin then 0x01 else 0) ||| (if syn then 0x02 else 0) ||| (if rst then 0x04 else 0)

theorem flagByte_or (fin syn rst fin' syn' rst' : Bool) :
    flagByte fin syn rst ||| flagByte fin' syn' rst' =
      flagByte (fin || fin') (syn || syn') (rst || rst') := by
  revert fin syn rst fin' syn' rst'
  decide

theorem tracked_eq_flagByte (s : Segment) :
    s.tracked = flagByte (s.carries TcpFlags.fin) (s.carries TcpFlags.syn)
      (s.carries TcpFlags.rst) := by
  have hbits : ∀ b : UInt8, b &&& trackedFlags =
      flagByte (b &&& 0x01 == 0x01) (b &&& 0x02 == 0x02) (b &&& 0x04 == 0x04) := by
    decide +kernel
  obtain ⟨forward, tcp⟩ := s
  cases tcp with
  | none => simp [Segment.tracked, Segment.carries, flagByte]
  | some h => exact hbits h.flags.bits

/-- **The flags of one direction** are those that have been seen in it. -/
theorem flagsOf_eq_flagByte (segments : List Segment) (forward : Bool) :
    flagsOf segments forward = flagByte (Seen segments forward TcpFlags.fin)
      (Seen segments forward TcpFlags.syn) (Seen segments forward TcpFlags.rst) := by
  have hcons : ∀ (s : Segment) (segments : List Segment) (flag : TcpFlags),
      decide (Seen (s :: segments) forward flag) = (decide (s.forward = forward) &&
        s.carries flag || decide (Seen segments forward flag)) := by
    intro s segments flag
    simp [Seen, Bool.decide_or]
  induction segments with
  | nil => simp [flagsOf, flagByte, Seen]
  | cons s segments ih =>
    rw [flagsOf_cons, ih, hcons, hcons, hcons, ← flagByte_or]
    congr 1
    by_cases h : s.forward = forward
    · simp [h, tracked_eq_flagByte]
    · simp [h, flagByte]

/-- The lifetime that a connection deserves in which these flags have been seen. -/
def due (lifetimes : Lifetimes) (state : UInt16) : Lifetime :=
  match phaseOf state with
  | .opening _ => lifetimes.syn
  | .established | .closing => lifetimes.ack
  | .closed => lifetimes.fin
  | .fresh | .reset => lifetimes.rst

/-- A segment is answered the lifetime that the connection deserves then, or none where an
acknowledgement counts. -/
theorem update_answer (t : TcpTrack) (forward : Bool) (tcp : Option TcpHeader) :
    (t.update forward tcp lifetimes).1 =
        some (due lifetimes (t.update forward tcp lifetimes).2.state) ∨
      (t.update forward tcp lifetimes).1 = none ∧
        (phaseOf (t.update forward tcp lifetimes).2.state = .established ∨
          phaseOf (t.update forward tcp lifetimes).2.state = .closing) := by
  rw [state_update]
  simp only [update, due, phase]
  cases hphase : phaseOf (t.state ||| seen forward tcp) with
  | established | closing =>
    simp only
    cases (acknowledge { t with state := t.state ||| seen forward tcp } forward tcp).1 with
    | true => exact Or.inl rfl
    | false => simp
  | _ => exact Or.inl rfl

/-- **The lifetime of a connection of which both SYNs have been seen**: a RST ends it, and so do two
FINs. -/
theorem due_of_bothSyn (lifetimes : Lifetimes) (fin rst fin' rst' : Bool) :
    due lifetimes (stateOf (flagByte fin true rst) (flagByte fin' true rst')) =
      if rst || rst' then lifetimes.rst else if fin && fin' then lifetimes.fin
      else lifetimes.ack := by
  cases fin <;> cases rst <;> cases fin' <;> cases rst' <;> rfl

/-- A RST ends a connection whatever else has been seen. -/
theorem phaseOf_of_rst : ∀ fin syn rst fin' syn' rst' : Bool, (rst || rst') = true →
    phaseOf (stateOf (flagByte fin syn rst) (flagByte fin' syn' rst')) = .reset := by
  decide

/-- Acknowledgements count while both SYNs have been seen, no RST and at most one FIN. -/
theorem acknowledging_iff : ∀ fin syn rst fin' syn' rst' : Bool,
    (phaseOf (stateOf (flagByte fin syn rst) (flagByte fin' syn' rst')) = .established ∨
      phaseOf (stateOf (flagByte fin syn rst) (flagByte fin' syn' rst')) = .closing) ↔
    (syn && syn' && !(rst || rst') && !(fin && fin')) = true := by
  decide

/-! ## What segments lead to -/

/-- The flags that are kept of a connection, by what has been seen. -/
theorem state_eq_stateOf (lifetimes : Lifetimes) (segments : List Segment) :
    (({} : TcpTrack).run lifetimes segments).2.state =
      stateOf
        (flagByte (Seen segments true TcpFlags.fin) (Seen segments true TcpFlags.syn)
          (Seen segments true TcpFlags.rst))
        (flagByte (Seen segments false TcpFlags.fin) (Seen segments false TcpFlags.syn)
          (Seen segments false TcpFlags.rst)) := by
  rw [state_run, flagsOf_eq_flagByte, flagsOf_eq_flagByte]
  exact UInt16.zero_or

/-- The answer to a segment is about the flags that have been seen with it. -/
theorem answer_cases (lifetimes : Lifetimes) {segments : List Segment} {i : Nat}
    (hi : i < segments.length) :
    ∃ answer, (({} : TcpTrack).run lifetimes segments).1[i]? = some answer ∧
      (answer = some (due lifetimes (({} : TcpTrack).run lifetimes
          (segments.take (i + 1))).2.state) ∨
        answer = none ∧
          (phaseOf (({} : TcpTrack).run lifetimes (segments.take (i + 1))).2.state =
              .established ∨
            phaseOf (({} : TcpTrack).run lifetimes (segments.take (i + 1))).2.state =
              .closing)) := by
  rw [getElem?_run, List.getElem?_eq_getElem hi, Option.map_some]
  refine ⟨_, rfl, ?_⟩
  rw [← List.take_append_getElem hi, run_append_singleton]
  exact update_answer _ _ _

/-- **A connection comes only closer to its end**, and deserves no longer lifetime then. -/
theorem due_anti {lifetimes : Lifetimes} (hrst : lifetimes.rst.ms ≤ lifetimes.fin.ms)
    (hfin : lifetimes.fin.ms ≤ lifetimes.ack.ms) {segments segments' : List Segment}
    (hsub : segments ⊆ segments') (hsyn : ∀ forward, Seen segments forward TcpFlags.syn) :
    (due lifetimes (({} : TcpTrack).run lifetimes segments').2.state).ms ≤
      (due lifetimes (({} : TcpTrack).run lifetimes segments).2.state).ms := by
  have hmore : ∀ forward flag, Seen segments forward flag → Seen segments' forward flag :=
    fun _ _ h => h.mono hsub
  have hall : lifetimes.rst.ms ≤ lifetimes.ack.ms := UInt64.le_trans hrst hfin
  simp only [state_eq_stateOf, hsyn, hmore _ _ (hsyn _), decide_true, due_of_bothSyn,
    Bool.or_eq_true, Bool.and_eq_true, decide_eq_true_eq]
  by_cases hreset' : Seen segments' true TcpFlags.rst ∨ Seen segments' false TcpFlags.rst
  · rw [if_pos hreset']
    split
    · exact UInt64.le_refl _
    · split
      · exact hrst
      · exact hall
  · have hreset : ¬(Seen segments true TcpFlags.rst ∨ Seen segments false TcpFlags.rst) :=
      fun h => hreset' (h.imp (hmore _ _) (hmore _ _))
    rw [if_neg hreset', if_neg hreset]
    by_cases hclosed' : Seen segments' true TcpFlags.fin ∧ Seen segments' false TcpFlags.fin
    · rw [if_pos hclosed']
      split
      · exact UInt64.le_refl _
      · exact hfin
    · have hclosed : ¬(Seen segments true TcpFlags.fin ∧ Seen segments false TcpFlags.fin) :=
        fun h => hclosed' (h.imp (hmore _ _) (hmore _ _))
      rw [if_neg hclosed', if_neg hclosed]
      exact UInt64.le_refl _

end TcpTrack

/-! ## Settings -/

namespace Config

/-- Settings that pass the check keep a connection no longer the nearer it is to its end. -/
theorem lifetimes_ordered {c : Config} (h : c.check = .ok ()) :
    c.lifetimes.rst.ms ≤ c.lifetimes.fin.ms ∧ c.lifetimes.fin.ms ≤ c.lifetimes.ack.ms := by
  have horders := (c.check_eq_ok_iff.mp h).orders
  have hrst : c.rstLifetime ≤ c.finLifetime :=
    of_decide_eq_true (horders ⟨.rstLifetime, false, .finLifetime⟩ (by decide))
  have hfin : c.finLifetime ≤ c.ackLifetime :=
    of_decide_eq_true (horders ⟨.finLifetime, false, .ackLifetime⟩ (by decide))
  simp only [lifetimes, UInt64.le_iff_toNat_le, Lifetime.toNat_ofSeconds]
  rw [UInt32.le_iff_toNat_le] at hrst hfin
  omega

end Config

namespace TcpTrack

/-- With settings that pass the check, lifetimes do not go up any more once both SYNs have been
seen. -/
theorem answers_antitone {config : Config} (hcheck : config.check = .ok ())
    {segments : List Segment} {i : Nat}
    (hsyn : ∀ forward, Seen (segments.take (i + 1)) forward TcpFlags.syn) :
    ((({} : TcpTrack).run config.lifetimes segments).1.drop i).reduceOption.Pairwise
      fun earlier later => later.ms ≤ earlier.ms := by
  obtain ⟨hrst, hfin⟩ := Config.lifetimes_ordered hcheck
  -- An answer to segment `j` that is a lifetime is the one due after that segment.
  have hdue : ∀ j l, (({} : TcpTrack).run config.lifetimes segments).1[j]? = some (some l) →
      l = due config.lifetimes
        (({} : TcpTrack).run config.lifetimes (segments.take (j + 1))).2.state := by
    intro j l hl
    have hj : j < segments.length := by
      by_contra hout
      rw [getElem?_run, List.getElem?_eq_none (by omega)] at hl
      cases hl
    obtain ⟨answer, hanswer, rfl | ⟨rfl, -⟩⟩ := answer_cases config.lifetimes hj
    · simpa using hanswer.symm.trans hl |>.symm
    · simp [hl] at hanswer
  rw [List.reduceOption, List.pairwise_filterMap]
  simp only [List.pairwise_iff_getElem, id_eq, List.getElem_drop, List.length_drop]
  intro j k hj hk hjk l hl l' hl'
  rw [hdue (i + j) l (List.getElem?_eq_some_iff.mpr ⟨by omega, hl⟩),
    hdue (i + k) l' (List.getElem?_eq_some_iff.mpr ⟨by omega, hl'⟩)]
  refine due_anti hrst hfin (List.take_subset_take_left _ (by omega)) fun forward => ?_
  exact (hsyn forward).mono (List.take_subset_take_left _ (by omega))

/-- **What any sequence of segments leads to.** The flags kept are those that have been seen, in any
order of the segments. From a RST on the lifetime is that of a reset connection, and no lifetime is
answered only while both SYNs have been seen, no RST, and not both FINs. With settings that pass the
check, lifetimes do not go up any more once both SYNs have been seen. -/
theorem lifetimes_of_segments (lifetimes : Lifetimes) (segments : List Segment) :
    (({} : TcpTrack).run lifetimes segments).2.state =
        (flagsOf segments true).toUInt16 ||| (flagsOf segments false).toUInt16 <<< 8 ∧
      (∀ segments', segments.Perm segments' →
        (({} : TcpTrack).run lifetimes segments').2.state =
          (({} : TcpTrack).run lifetimes segments).2.state) ∧
      (∀ i < segments.length, ∃ answer,
        (({} : TcpTrack).run lifetimes segments).1[i]? = some answer ∧
        ((∃ forward, Seen (segments.take (i + 1)) forward TcpFlags.rst) →
          answer = some lifetimes.rst) ∧
        (answer = none →
          (∀ forward, Seen (segments.take (i + 1)) forward TcpFlags.syn) ∧
          (∀ forward, ¬ Seen (segments.take (i + 1)) forward TcpFlags.rst) ∧
          ∃ forward, ¬ Seen (segments.take (i + 1)) forward TcpFlags.fin)) ∧
      ∀ config : Config, config.check = .ok () → lifetimes = config.lifetimes →
        ∀ i, (∀ forward, Seen (segments.take (i + 1)) forward TcpFlags.syn) →
          ((({} : TcpTrack).run lifetimes segments).1.drop i).reduceOption.Pairwise
            fun earlier later => later.ms ≤ earlier.ms := by
  have hstate : ∀ segments, (({} : TcpTrack).run lifetimes segments).2.state =
      stateOf (flagsOf segments true) (flagsOf segments false) := fun segments =>
    (state_run {} segments).trans UInt16.zero_or
  refine ⟨hstate segments, fun segments' hperm => ?_, fun i hi => ?_, ?_⟩
  · rw [hstate, hstate, flagsOf_perm hperm, flagsOf_perm hperm]
  · obtain ⟨answer, hanswer, hcases⟩ := answer_cases lifetimes hi
    rw [state_eq_stateOf] at hcases
    refine ⟨answer, hanswer, ?_, ?_⟩
    · rintro ⟨forward, hseen⟩
      have hreset : (decide (Seen (segments.take (i + 1)) true TcpFlags.rst) ||
          decide (Seen (segments.take (i + 1)) false TcpFlags.rst)) = true := by
        cases forward <;> simp [hseen]
      rw [due, phaseOf_of_rst _ _ _ _ _ _ hreset] at hcases
      obtain rfl | ⟨-, hphase | hphase⟩ := hcases
      · rfl
      · cases hphase
      · cases hphase
    · rintro rfl
      obtain hanswer | ⟨-, hphase⟩ := hcases
      · cases hanswer
      · simpa [and_assoc, Bool.forall_bool, Bool.exists_bool, and_comm, or_comm,
          Classical.not_and_iff_not_or_not] using (acknowledging_iff _ _ _ _ _ _).mp hphase
  · rintro config hcheck rfl i hsyn
    exact answers_antitone hcheck hsyn

/-- A connection that is opened, acknowledged once in order and once out of order, and reset. -/
def briefConnection : List Segment :=
  let segment (forward : Bool) (ack : UInt32) (flags : TcpFlags) : Segment :=
    ⟨forward, some ⟨1, ack, 1024, flags, .none⟩⟩
  [segment true 0 TcpFlags.syn, segment false 2 (TcpFlags.syn.union TcpFlags.ack),
    segment true 9 TcpFlags.ack, segment true 7 TcpFlags.ack, segment false 3 TcpFlags.rst]

/-- With the usual settings: the flags are the same read from behind, the reset counts as soon as it
is seen, and the acknowledgement out of order has no answer. -/
theorem lifetimes_of_segments_brief :
    let lifetimes := ({} : Config).lifetimes
    let answers := (({} : TcpTrack).run lifetimes briefConnection).1
    (({} : TcpTrack).run lifetimes briefConnection.reverse).2.state =
        (({} : TcpTrack).run lifetimes briefConnection).2.state ∧
      answers[4]? = some (some lifetimes.rst) ∧
      answers[3]? = some none ∧
      (∃ forward, ¬ Seen (briefConnection.take 4) forward TcpFlags.fin) ∧
      (answers.drop 1).reduceOption.Pairwise fun earlier later => later.ms ≤ earlier.ms := by
  intro lifetimes answers
  obtain ⟨-, hperm, hanswers, hantitone⟩ := lifetimes_of_segments lifetimes briefConnection
  have hnone : answers[3]? = some none := by decide
  refine ⟨hperm _ (List.reverse_perm _).symm, ?_, hnone, ?_, ?_⟩
  · obtain ⟨answer, hanswer, hreset, -⟩ := hanswers 4 (by decide)
    exact hanswer.trans (congrArg some (hreset ⟨false, by decide⟩))
  · obtain ⟨answer, hanswer, -, hopen⟩ := hanswers 3 (by decide)
    exact (hopen (Option.some.inj (hanswer.symm.trans hnone))).2.2
  · exact hantitone {} (by decide) rfl 1 (by decide)

end TcpTrack

end PacketFilter
