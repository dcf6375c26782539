import PacketFilter.Proofs.Segments

/-!
# Acknowledgements of a connection

Of each direction of a connection the last acknowledgement is kept. `TcpTrack.recorded` lists all
that have been kept of a direction, in the order in which segments brought them. Each is at or after
the one before it, however often the numbers start again from zero, with one exception: zero stands
for no acknowledgement yet, so that behind a recorded zero anything is taken for the first.

Main statements: `recording_eq_some_iff`, when a segment's acknowledgement is recorded;
`lastAck_run`, what is kept is the last that was recorded; **`acks_advance_unless_zero`**, recorded
acknowledgements only advance, but behind a zero they need not (`acks_retreat_behind_zero`).
-/

namespace PacketFilter

namespace TcpTrack

variable {lifetimes : Lifetimes} {t : TcpTrack} {s : Segment}

/-- Do acknowledgements count in the phase that the connection is in? -/
def acknowledging (t : TcpTrack) : Bool := t.phase == .established || t.phase == .closing

/-- **The acknowledgement that a segment leaves recorded**: that of its header, if acknowledgements
count by then and the segment is not turned away as one that is out of order. -/
def recording (t : TcpTrack) (lifetimes : Lifetimes) (s : Segment) : Option UInt32 :=
  let (answer, t) := t.update s.forward s.tcp lifetimes
  if t.acknowledging && answer.isSome then s.tcp.map (·.ack) else none

/-- The acknowledgements that segments of one direction leave recorded, one after another. -/
def recorded (t : TcpTrack) (lifetimes : Lifetimes) (forward : Bool) : List Segment → List UInt32
  | [] => []
  | s :: segments =>
    let later := (t.update s.forward s.tcp lifetimes).2.recorded lifetimes forward segments
    if s.forward = forward then (t.recording lifetimes s).toList ++ later else later

/-! ## One segment -/

@[simp] theorem lastAck_recordAck (t : TcpTrack) (forward : Bool) (ack : UInt32) (d : Bool) :
    (t.recordAck forward ack).lastAck d = if forward = d then ack else t.lastAck d := by
  cases forward <;> cases d <;> rfl

/-- Where acknowledgements count, folding in a segment is taking note of its acknowledgement. -/
theorem update_of_acknowledging
    (h : (t.update s.forward s.tcp lifetimes).2.acknowledging = true) :
    t.update s.forward s.tcp lifetimes =
      let answer := acknowledge { t with state := t.state ||| seen s.forward s.tcp } s.forward s.tcp
      (if answer.1 then some lifetimes.ack else none, answer.2) := by
  have hphase : phaseOf (t.state ||| seen s.forward s.tcp) = .established ∨
      phaseOf (t.state ||| seen s.forward s.tcp) = .closing := by
    simpa [acknowledging, phase] using h
  rcases hphase with hphase | hphase <;> simp only [update, phase, hphase]

/-- Where they do not, the acknowledgements stay as they are. -/
theorem lastAck_update_of_not_acknowledging
    (h : (t.update s.forward s.tcp lifetimes).2.acknowledging = false) (d : Bool) :
    (t.update s.forward s.tcp lifetimes).2.lastAck d = t.lastAck d := by
  simp only [acknowledging, phase, state_update] at h
  simp only [update, phase]
  split <;> simp_all <;> rfl

/-- **When an acknowledgement is recorded**: it has to count, and not to lie before the last one, if
there is one. -/
theorem recording_eq_some_iff {ack : UInt32} :
    t.recording lifetimes s = some ack ↔
      (t.update s.forward s.tcp lifetimes).2.acknowledging = true ∧
        (∃ h, s.tcp = some h ∧ h.ack = ack) ∧
          (t.lastAck s.forward = 0 ∨ seqAtOrAfter ack (t.lastAck s.forward) = true) := by
  cases hcounts : (t.update s.forward s.tcp lifetimes).2.acknowledging with
  | false => simp [recording, hcounts]
  | true =>
    simp only [recording, hcounts, Bool.true_and, true_and]
    rw [update_of_acknowledging hcounts]
    cases htcp : s.tcp with
    | none => simp
    | some h =>
      have hlast : lastAck { t with state := t.state ||| seen s.forward (some h) } s.forward =
          t.lastAck s.forward := rfl
      simp only [acknowledge, hlast]
      by_cases horder : t.lastAck s.forward = 0 ∨ seqAtOrAfter h.ack (t.lastAck s.forward) = true
      · rw [if_pos horder]
        simp only [if_true, Option.isSome_some, Option.map_some, Option.some.injEq,
          exists_eq_left']
        exact ⟨fun hack => ⟨hack, hack ▸ horder⟩, fun hack => hack.1⟩
      · rw [if_neg horder]
        simp only [Bool.false_eq_true, if_false, Option.isSome_none, reduceCtorEq, false_iff,
          Option.some.injEq, exists_eq_left', not_and]
        rintro rfl
        exact horder

/-- What is kept after a segment is what the segment leaves recorded for its direction. -/
theorem lastAck_update (d : Bool) :
    (t.update s.forward s.tcp lifetimes).2.lastAck d =
      if s.forward = d then (t.recording lifetimes s).getD (t.lastAck d) else t.lastAck d := by
  cases hcounts : (t.update s.forward s.tcp lifetimes).2.acknowledging with
  | false =>
    rw [lastAck_update_of_not_acknowledging hcounts]
    simp [recording, hcounts]
  | true =>
    simp only [recording, hcounts, Bool.true_and]
    rw [update_of_acknowledging hcounts]
    cases htcp : s.tcp with
    | none =>
      simp only [acknowledge]
      split <;> rfl
    | some h =>
      simp only [acknowledge]
      split
      · rw [lastAck_recordAck]
        split <;> rfl
      · simp only [Bool.false_eq_true, if_false, Option.isSome_none, Option.getD_none, ite_self]
        rfl

/-! ## Any number of segments -/

theorem recorded_cons (d : Bool) (segments : List Segment) :
    t.recorded lifetimes d (s :: segments) =
      (if s.forward = d then (t.recording lifetimes s).toList else []) ++
        (t.update s.forward s.tcp lifetimes).2.recorded lifetimes d segments := by
  simp only [recorded]
  split <;> rfl

/-- **What is kept** is the last that was recorded. -/
theorem lastAck_run (t : TcpTrack) (segments : List Segment) (d : Bool) :
    (t.run lifetimes segments).2.lastAck d =
      (t.recorded lifetimes d segments).getLastD (t.lastAck d) := by
  induction segments generalizing t with
  | nil => rfl
  | cons s segments ih =>
    show ((t.update s.forward s.tcp lifetimes).2.run lifetimes segments).2.lastAck d = _
    rw [ih, recorded_cons, lastAck_update]
    split
    · cases t.recording lifetimes s with
      | none => rfl
      | some ack => exact (List.getLastD_cons ..).symm
    · rfl

/-- **Each is at or after the one before it**, unless that is zero. -/
theorem recorded_isChain (t : TcpTrack) (segments : List Segment) (d : Bool) :
    (t.lastAck d :: t.recorded lifetimes d segments).IsChain
      fun a b => a = 0 ∨ seqAtOrAfter b a = true := by
  induction segments generalizing t with
  | nil => exact .singleton _
  | cons s segments ih =>
    have hlater := ih (t.update s.forward s.tcp lifetimes).2
    rw [lastAck_update] at hlater
    rw [recorded_cons]
    by_cases hforward : s.forward = d
    · rw [if_pos hforward] at hlater ⊢
      cases hrecording : t.recording lifetimes s with
      | none =>
        rw [hrecording] at hlater
        exact hlater
      | some ack =>
        rw [hrecording] at hlater
        obtain ⟨-, -, horder⟩ := recording_eq_some_iff.mp hrecording
        exact .cons_cons (hforward ▸ horder) hlater
    · rw [if_neg hforward] at hlater ⊢
      exact hlater

/-- They are acknowledgements of segments of that direction, in the same order. -/
theorem recorded_sublist (t : TcpTrack) (segments : List Segment) (d : Bool) :
    (t.recorded lifetimes d segments).Sublist
      ((segments.filter (·.forward == d)).filterMap fun s => s.tcp.map (·.ack)) := by
  induction segments generalizing t with
  | nil => exact .slnil
  | cons s segments ih =>
    have hlater := ih (t.update s.forward s.tcp lifetimes).2
    rw [recorded_cons]
    by_cases hforward : s.forward = d
    · rw [if_pos hforward, List.filter_cons_of_pos (by simpa using hforward)]
      cases hrecording : t.recording lifetimes s with
      | none => exact hlater.trans ((List.sublist_cons_self s _).filterMap _)
      | some ack =>
        obtain ⟨-, ⟨h, htcp, hack⟩, -⟩ := recording_eq_some_iff.mp hrecording
        rw [List.filterMap_cons_some (b := ack) (by rw [htcp, Option.map_some, hack])]
        exact hlater.cons_cons ack
    · rw [if_neg hforward, List.filter_cons_of_neg (by simpa using hforward)]
      exact hlater

/-- **Recorded acknowledgements only advance**, except behind a zero: whatever segments a connection
consists of, those recorded for a direction are acknowledgements of its segments, each is at or
after the one before it unless that is zero, and the last of them is the one that is kept. -/
theorem acks_advance_unless_zero (lifetimes : Lifetimes) (segments : List Segment)
    (forward : Bool) :
    let acks := ({} : TcpTrack).recorded lifetimes forward segments
    acks.IsChain (fun a b => a = 0 ∨ seqAtOrAfter b a = true) ∧
      (({} : TcpTrack).run lifetimes segments).2.lastAck forward = acks.getLastD 0 ∧
      acks.Sublist
        ((segments.filter (·.forward == forward)).filterMap fun s => s.tcp.map (·.ack)) := by
  have hzero : ({} : TcpTrack).lastAck forward = 0 := by cases forward <;> rfl
  refine ⟨?_, ?_, recorded_sublist _ segments forward⟩
  · exact (recorded_isChain ({} : TcpTrack) segments forward).tail
  · rw [lastAck_run, hzero]

/-- **Behind a recorded zero they may retreat**: the acknowledgements `0xfffffff0` and, sixteen
bytes on, `0` are recorded, and then the first of them once more, as if nothing had been recorded
yet. -/
theorem acks_retreat_behind_zero :
    let segment (forward : Bool) (flags : TcpFlags) (ack : UInt32) : Segment :=
      ⟨forward, some { seq := 0, ack, window := 0, flags, options := ⟨0⟩ }⟩
    let segments := [segment true TcpFlags.syn 0, segment false TcpFlags.syn 101,
      segment true TcpFlags.ack 0xfffffff0, segment true TcpFlags.ack 0,
      segment true TcpFlags.ack 0xfffffff0]
    ¬ (({} : TcpTrack).recorded ({} : Config).lifetimes true segments).IsChain
      fun a b => seqAtOrAfter b a = true := by
  decide

end TcpTrack

end PacketFilter
