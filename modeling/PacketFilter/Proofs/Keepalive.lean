import PacketFilter.Proofs.LiveState
import PacketFilter.Proofs.StateTable.Idling

/-!
# Idle connections are probed before they expire

A timer pass probes an established connection in the last interval before it expires, and not twice
within a period. That a connection about which nothing is heard is probed at all is a matter of when
timer passes are made. If they come at most a period apart, then one of them falls into the last
period before the expiry, and it probes if that period lies within the interval and the last probes,
if any, were sent before it began. None of this follows from what is checked of the settings, which
hold the period and the interval only against the lifetimes of closed connections.

Main statements: `Punctual.exists_last`, the last pass before a deadline; `mem_probed`, what a pass
probes; `Idle.unprobed`, an idle connection stays as it is until it is probed; **`idle_is_probed`**;
`exists_unprobed`, without any one of its conditions passes can be made that probe nothing.
-/

namespace PacketFilter

/-! ## Timer passes -/

/-- **Passes in time**: the first comes at most a period after the start, and each of the others at
most a period after the one before it. -/
def Punctual (period : Lifetime) (start : Moment) (times : List Moment) : Prop :=
  List.IsChain (fun t u => u.ms.toNat ≤ t.ms.toNat + period.ms.toNat) (start :: times)

instance (period : Lifetime) (start : Moment) (times : List Moment) :
    Decidable (Punctual period start times) := by
  unfold Punctual
  infer_instance

/-- **The last pass before a deadline** is at most a period before it. If there is none, the start
is. -/
theorem Punctual.exists_last {period : Lifetime} {start deadline : Moment} {times : List Moment}
    (h : Punctual period start times) (hstart : start < deadline)
    (hpast : ∃ t ∈ times, deadline ≤ t) :
    ∃ t ∈ start :: times, t < deadline ∧
      deadline.ms.toNat ≤ t.ms.toNat + period.ms.toNat := by
  induction times generalizing start with
  | nil =>
    obtain ⟨t, ht, -⟩ := hpast
    exact absurd ht List.not_mem_nil
  | cons u times ih =>
    obtain ⟨hnext, hchain⟩ := List.isChain_cons_cons.mp h
    by_cases hu : u < deadline
    · have hlater : ∃ t ∈ times, deadline ≤ t := by
        obtain ⟨t, ht, hle⟩ := hpast
        rcases List.mem_cons.mp ht with rfl | ht
        · exact absurd (Moment.lt_iff.mp hu) (Nat.not_lt.mpr (Moment.le_iff.mp hle))
        · exact ⟨t, ht, hle⟩
      obtain ⟨t, ht, hbefore, hlast⟩ := ih hchain hu hlater
      exact ⟨t, List.mem_cons_of_mem _ ht, hbefore, hlast⟩
    · rw [Moment.lt_iff, Nat.not_lt] at hu
      exact ⟨start, List.mem_cons_self, hstart, Nat.le_trans hu hnext⟩

/-- The moment so many milliseconds earlier, or the origin of the clock. -/
def Moment.before (t : Moment) (ms : Nat) : Moment := ⟨UInt64.ofNat (t.ms.toNat - ms)⟩

theorem Moment.toNat_before (t : Moment) (ms : Nat) : (t.before ms).ms.toNat = t.ms.toNat - ms := by
  have := t.ms.toNat_lt
  simp only [before, UInt64.toNat_ofNat']
  omega

theorem Moment.toNat_plusMillis_one {t : Moment} (h : t.ms.toNat < limit) :
    (t.plusMillis 1).ms.toNat = t.ms.toNat + 1 := by
  rw [toNat_plusMillis]
  exact Nat.min_eq_left h

/-- **Passes that just miss a deadline**: so many before it and one at the deadline, each a period
after the one before it, and then one right behind it. -/
def missing (period : Lifetime) (deadline : Moment) : Nat → List Moment
  | 0 => [deadline, deadline.plusMillis 1]
  | n + 1 => deadline.before ((n + 1) * period.ms.toNat) :: missing period deadline n

section

variable {period : Lifetime} {start deadline : Moment}

/-- They are made in time, if the first of them comes soon enough. -/
theorem missing_punctual (hperiod : 0 < period.ms.toNat) (hend : deadline.ms.toNat < Moment.limit)
    {n : Nat} (hn : n * period.ms.toNat ≤ deadline.ms.toNat)
    (hfirst : start.ms.toNat ≤ deadline.ms.toNat - n * period.ms.toNat)
    (hsoon : deadline.ms.toNat - n * period.ms.toNat ≤ start.ms.toNat + period.ms.toNat) :
    List.IsChain (fun t u => t ≤ u ∧ u.ms.toNat ≤ t.ms.toNat + period.ms.toNat)
      (start :: missing period deadline n) := by
  induction n generalizing start with
  | zero =>
    have hlate := Moment.toNat_plusMillis_one hend
    rw [Nat.zero_mul, Nat.sub_zero] at hfirst hsoon
    refine .cons_cons ⟨Moment.le_iff.mpr hfirst, hsoon⟩ (.cons_cons ⟨?_, ?_⟩ (.singleton _))
    · exact Moment.le_iff.mpr (by omega)
    · omega
  | succ n ih =>
    have hstep := Nat.add_one_mul n period.ms.toNat
    have htime := deadline.toNat_before ((n + 1) * period.ms.toNat)
    refine .cons_cons ⟨Moment.le_iff.mpr (by omega), by omega⟩ ?_
    exact ih (by omega) (by omega) (by omega)

/-- Those before the deadline come a period before it, or earlier. -/
theorem add_le_of_mem_missing (hend : deadline.ms.toNat < Moment.limit) {n : Nat}
    (hn : n * period.ms.toNat ≤ deadline.ms.toNat) {t : Moment}
    (ht : t ∈ missing period deadline n) (hbefore : t < deadline) :
    t.ms.toNat + period.ms.toNat ≤ deadline.ms.toNat ∧
      deadline.ms.toNat - n * period.ms.toNat ≤ t.ms.toNat := by
  induction n with
  | zero =>
    have hbefore := Moment.lt_iff.mp hbefore
    have hlate := Moment.toNat_plusMillis_one hend
    rcases List.mem_pair.mp ht with rfl | rfl
    · omega
    · omega
  | succ n ih =>
    have hstep := Nat.add_one_mul n period.ms.toNat
    rcases List.mem_cons.mp ht with rfl | ht
    · have htime := deadline.toNat_before ((n + 1) * period.ms.toNat)
      omega
    · have hrest := ih (by omega) ht
      omega

/-- One comes behind the deadline. -/
theorem exists_late_mem_missing (hend : deadline.ms.toNat < Moment.limit) (n : Nat) :
    ∃ t ∈ missing period deadline n, deadline < t := by
  induction n with
  | zero =>
    refine ⟨deadline.plusMillis 1, List.mem_cons_of_mem _ List.mem_cons_self, ?_⟩
    rw [Moment.lt_iff, Moment.toNat_plusMillis_one hend]
    exact Nat.lt_succ_self _
  | succ n ih =>
    obtain ⟨t, ht, hlate⟩ := ih
    exact ⟨t, List.mem_cons_of_mem _ ht, hlate⟩

end

/-! ## Connections that can be probed -/

namespace Entry

/-- **A connection that can be probed**: both ends have sent a SYN and neither anything that ends
the connection, and each has acknowledged something. -/
structure Probeable (e : Entry) : Prop where
  connection : e.isParent = false
  tcp : e.flow.protocol = Protocol.tcp
  established : e.track.state = TcpTrack.bothSyn
  acks : e.track.ackForward ≠ 0 ∧ e.track.ackReverse ≠ 0

instance (e : Entry) : Decidable e.Probeable :=
  decidable_of_iff
    (e.isParent = false ∧ e.flow.protocol = Protocol.tcp ∧ e.track.state = TcpTrack.bothSyn ∧
      e.track.ackForward ≠ 0 ∧ e.track.ackReverse ≠ 0)
    ⟨fun ⟨h₁, h₂, h₃, h₄⟩ => ⟨h₁, h₂, h₃, h₄⟩,
      fun h => ⟨h.connection, h.tcp, h.established, h.acks⟩⟩

variable {e : Entry} {interval period : Lifetime} {now : Moment}

/-- When such a connection is due. -/
theorem Probeable.isDue_iff (h : e.Probeable) :
    e.isDue interval period now = true ↔
      now < e.expires ∧ e.expires < now.plus interval ∧
        ∀ last, e.probed = some last → period.isOver last now = true := by
  have hestablished : e.track.isEstablished = true := by
    rw [TcpTrack.isEstablished, h.established]
    decide
  simp only [isDue, h.connection, h.tcp, hestablished, Bool.and_eq_true, bne_iff_ne, ne_eq, h.acks,
    decide_eq_true_eq, Bool.not_false, BEq.rfl, true_and, not_false_eq_true, and_true, and_assoc]
  refine and_congr_right fun _ => and_congr_right fun _ => ?_
  cases e.probed with
  | none => simp
  | some last => simp

/-- **A pass in the last period before the expiry** finds a connection due, if the period is shorter
than the interval and the connection was not probed within it or right before. -/
theorem Probeable.isDue_of_last (h : e.Probeable) {later : Moment}
    (hwindow : period.ms.toNat < interval.ms.toNat)
    (hrested : ∀ last, e.probed = some last →
      last.ms.toNat + 2 * period.ms.toNat ≤ e.expires.ms.toNat)
    (hlive : now < e.expires) (hlast : e.expires.ms.toNat ≤ now.ms.toNat + period.ms.toNat)
    (hlater : e.expires < later) : e.isDue interval period now = true := by
  refine h.isDue_iff.mpr ⟨hlive, ?_, fun last hprobed => ?_⟩
  · -- There is a later moment, so that the expiry is not the end of the clock.
    have hend := later.ms.toNat_lt
    have hlater := Moment.lt_iff.mp hlater
    rw [Moment.lt_iff, Moment.toNat_plus]
    unfold Moment.limit
    omega
  · have hrested := hrested last hprobed
    rw [Lifetime.isOver_iff]
    omega

/-- **Passes in time may find a connection not due** if the period is not shorter than the interval,
or not than the lifetime, or if the last probes were sent less than two periods before the
expiry. -/
theorem Probeable.exists_missing (h : e.Probeable) {start : Moment} {lifetime : Lifetime}
    (hperiod : 0 < period.ms.toNat) (hlifetime : 0 < lifetime.ms.toNat)
    (hexpires : e.expires.ms.toNat = start.ms.toNat + lifetime.ms.toNat)
    (hend : e.expires.ms.toNat < Moment.limit)
    (hnot : ¬ (period.ms.toNat < interval.ms.toNat ∧ period.ms.toNat < lifetime.ms.toNat ∧
      ∀ last, e.probed = some last →
        last.ms.toNat + 2 * period.ms.toNat ≤ e.expires.ms.toNat)) :
    ∃ times, List.IsChain (· ≤ ·) (start :: times) ∧ Punctual period start times ∧
      (∃ t ∈ times, e.expires < t) ∧
      ∀ t ∈ times, t < e.expires → e.isDue interval period t = false := by
  -- As many passes as there is time for a period apart, the first of them after the start.
  obtain ⟨n, hfits, hfull⟩ : ∃ n, n * period.ms.toNat < lifetime.ms.toNat ∧
      lifetime.ms.toNat ≤ n * period.ms.toNat + period.ms.toNat := by
    refine ⟨(lifetime.ms.toNat - 1) / period.ms.toNat, ?_, ?_⟩
    · have hle := Nat.div_mul_le_self (lifetime.ms.toNat - 1) period.ms.toNat
      omega
    · have hlt := Nat.lt_div_mul_add (a := lifetime.ms.toNat - 1) hperiod
      omega
  have hchain : List.IsChain (fun t u => t ≤ u ∧ u.ms.toNat ≤ t.ms.toNat + period.ms.toNat)
      (start :: missing period e.expires n) :=
    missing_punctual hperiod hend (by omega) (by omega) (by omega)
  refine ⟨missing period e.expires n, hchain.imp fun _ _ h => h.1, hchain.imp fun _ _ h => h.2,
    exists_late_mem_missing hend n, fun t ht hlive => Bool.eq_false_iff.mpr fun hdue => hnot ?_⟩
  obtain ⟨hbefore, hafter⟩ := add_le_of_mem_missing hend (by omega) ht hlive
  obtain ⟨-, hwindow, hrested⟩ := h.isDue_iff.mp hdue
  rw [Moment.lt_iff, Moment.toNat_plus] at hwindow
  refine ⟨by omega, by omega, fun last hlast => ?_⟩
  have hover := Lifetime.isOver_iff.mp (hrested last hlast)
  omega

end Entry

/-! ## What a pass probes -/

namespace Firewall

variable {fw : Firewall} {config : StateConfig} {e : Entry}

/-- The entries that a timer pass probes: those that are due once expired ones have been removed. -/
def probed (fw : Firewall) : List Entry := (fw.engine.states.sweep fw.now).2.due fw.now

/-- What a timer pass asks for are the probes of these entries. -/
theorem tick_requests (fw : Firewall) :
    fw.tick.2.engine.requests = fw.engine.requests ++ fw.probed.flatMap Entry.probes := by
  show fw.engine.requests ++ ((fw.engine.states.sweep fw.now).2.probeDue fw.now).2.1 = _
  rw [StateTable.probeDue_eq]
  rfl

/-- A live entry is there when the expired ones have been removed. -/
theorem mem_sweep (h : fw.engine.states.Sound config) (he : e ∈ fw.engine.states.entries)
    (hlive : e.Live fw.now) : e ∈ (fw.engine.states.sweep fw.now).2.entries := by
  have hops : ∀ op ∈ [TableOp.sweep fw.now], op.At fw.now ∧ op.PassesBy e.flow := by
    intro op hop
    rw [List.mem_singleton.mp hop]
    exact ⟨TableOp.at_of_moment rfl, trivial⟩
  exact h.mem_run he hlive hops

/-- **A pass probes a live entry that is due.** -/
theorem mem_probed (h : fw.engine.states.Sound config) (hkeepalive : config.keepalive = true)
    (he : e ∈ fw.engine.states.entries) (hlive : e.Live fw.now)
    (hdue : e.isDue config.keepaliveInterval config.keepalivePeriod fw.now = true) :
    e ∈ fw.probed := by
  have hsettings := h.settings
  have hmem := mem_sweep h he hlive
  unfold probed StateTable.due
  rw [show (fw.engine.states.sweep fw.now).2.config = fw.engine.states.config from rfl]
  rw [← hsettings] at hkeepalive hdue
  rw [if_pos hkeepalive]
  exact List.mem_filter.mpr ⟨hmem, hdue⟩

/-- A pass leaves a live entry as it is that is not due. -/
theorem mem_tick (h : fw.engine.states.Sound config) (he : e ∈ fw.engine.states.entries)
    (hlive : e.Live fw.now)
    (hdue : e.isDue config.keepaliveInterval config.keepalivePeriod fw.now = false) :
    e ∈ fw.tick.2.engine.states.entries := by
  have hmem := mem_sweep h he hlive
  obtain ⟨l, hrefines, hsound⟩ := h.apply (.sweep fw.now)
  have hl : e ∈ l.entries := hrefines.entries_perm.mem_iff.mp hmem
  have hnot : l.isDue fw.now e = false := by
    rw [FlatTable.isDue, hsound.settings, hdue, Bool.and_false]
  exact (hrefines.probeDue fw.now).2.2.entries_perm.mem_iff.mpr (FlatTable.mem_probeDue hl hnot)

end Firewall

/-! ## Idle time -/

/-- May the operation be carried out while the entry of a flow is left alone? No packet of the flow,
and no removal that is forced. -/
def Operation.Quiet (flow : Flow) : Operation → Prop
  | .check pkt _ | .process pkt _ => flow.orientation pkt.flow = none
  | .change _ | .flush | .setEnable _ _ | .flushStates => False
  | .tick | .setClock _ | .drain | .add _ | .addBytes _ | .zeroCounters _ _ | .setBuckets _
  | .install _ _ _ _ => True

/-- The timer pass that an operation is, made of a firewall as it is then. -/
def Operation.passOf (fw : Firewall) : Operation → List Firewall
  | .tick => [fw]
  | _ => []

namespace Session

/-- **What a session may become while nothing is heard of a flow** and the clock is not set back,
with the firewalls of which timer passes are made on the way, each as it is right before. -/
inductive Idle (flow : Flow) (s : Session) : List Firewall → Session → Prop
  | refl : Idle flow s [] s
  | step {passes : List Firewall} {s' : Session} (h : Idle flow s passes s') (op : Operation)
      (hop : s'.Allows (fun rule _ => rule.createsState = true) op) (hforward : s'.Forward op)
      (hquiet : op.Quiet flow) : Idle flow s (passes ++ op.passOf s'.firewall) (s'.step op)

variable {s s' : Session} {passes : List Firewall} {e : Entry} {op : Operation}

/-- An operation that is quiet about a flow, and no timer pass, leaves its entry as it is. -/
theorem mem_step_of_quiet {config : StateConfig} (h : s.firewall.engine.states.Sound config)
    (he : e ∈ s.firewall.engine.states.entries) (hlive : e.Live s.firewall.now)
    (hforward : s.Forward op) (hquiet : op.Quiet e.flow) (hpass : op ≠ .tick) :
    e ∈ (s.step op).firewall.engine.states.entries := by
  have hproceed : ∀ result : Except ControlError Firewall,
      (∀ fw, result = .ok fw → e ∈ fw.engine.states.entries) →
        e ∈ (s.proceed result).firewall.engine.states.entries := by
    intro result hresult
    cases result with
    | error why => exact he
    | ok fw => exact hresult fw rfl
  have haccept : ∀ result : Except ControlError (Rule × Firewall),
      (∀ rule fw, result = .ok (rule, fw) → fw.engine.states = s.firewall.engine.states) →
        e ∈ (s.accept result).firewall.engine.states.entries := by
    intro result hresult
    cases result with
    | error why => exact he
    | ok added => exact (hresult added.1 added.2 rfl) ▸ he
  -- A packet of another flow looks that flow up, and asks for state of it.
  have hcheck : ∀ pkt resume, e.flow.orientation pkt.flow = none →
      e ∈ (s.firewall.check pkt resume).2.engine.states.entries := by
    intro pkt resume hother
    obtain ⟨ops, hstates, hasked, -⟩ :=
      evaluate_footprint s.firewall.surroundings pkt resume s.firewall.engine
    have hmem : e ∈ (s.firewall.engine.states.run ops).2.entries := by
      refine h.mem_run he hlive fun op hop => ?_
      cases hasked op hop with
      | lookup => exact ⟨TableOp.at_of_moment rfl, hother⟩
      | install => exact ⟨TableOp.at_of_moment rfl, trivial⟩
    rw [hstates] at hmem
    exact hmem
  cases op with
  | check pkt resume => exact hcheck pkt resume hquiet
  | process pkt resume =>
    obtain ⟨requests, hprocess⟩ := s.firewall.process_eq_check pkt resume
    show e ∈ (s.firewall.process pkt resume).2.engine.states.entries
    rw [hprocess]
    exact hcheck pkt resume hquiet
  | tick => exact absurd rfl hpass
  | setClock now => exact he
  | drain => exact he
  | add image => exact haccept _ fun _ _ => Firewall.addImage_states
  | addBytes bytes =>
    refine haccept _ fun rule fw hadd => ?_
    obtain ⟨image, himage⟩ := Firewall.addBytes_eq_ok hadd
    exact Firewall.addImage_states himage
  | zeroCounters number logOnly =>
    exact hproceed _ fun fw hzero => (Firewall.zeroCounters_states hzero) ▸ he
  | setBuckets n =>
    refine hproceed _ fun fw hset => ?_
    have hops : ∀ op ∈ [TableOp.setBuckets n.toNat],
        op.At s.firewall.now ∧ op.PassesBy e.flow := by
      intro op hop
      rw [List.mem_singleton.mp hop]
      exact ⟨fun t ht => by (cases ht), trivial⟩
    rw [Firewall.setBuckets_eq_ok hset]
    exact h.mem_run he hlive hops
  | install rule request pkt now =>
    obtain rfl : now = s.firewall.now := hforward
    have hops : ∀ op ∈ [TableOp.install (s.firewall.status rule).stateEnabled rule request pkt
        s.firewall.now], op.At s.firewall.now ∧ op.PassesBy e.flow := by
      intro op hop
      rw [List.mem_singleton.mp hop]
      exact ⟨TableOp.at_of_moment rfl, trivial⟩
    exact h.mem_run he hlive hops
  | change | flush | setEnable | flushStates => exact hquiet.elim

namespace Idle

variable {flow : Flow}

theorem onward (h : Idle flow s passes s') : Onward s s' := by
  induction h with
  | refl => exact .refl
  | step _ op hop hforward _ ih => exact ih.step op hop hforward

/-- The settings stay as they are. -/
theorem config (hs : Reachable (fun rule _ => rule.createsState = true) s)
    (h : Idle flow s passes s') : s'.firewall.config = s.firewall.config := by
  induction h with
  | refl => rfl
  | step hbefore op _ _ _ ih =>
    obtain ⟨last, hcoherent, -⟩ := (hs.onward hbefore.onward).orderly fair_creates
    exact (settles_step hcoherent op).config.trans ih

/-- **An idle connection stays as it is until it is probed.** As long as no pass has probed it, it
was not due at any pass before its expiry, and is still there. -/
theorem unprobed (hs : Reachable (fun rule _ => rule.createsState = true) s)
    (hkeepalive : s.firewall.config.keepalive = true) (he : e ∈ s.firewall.engine.states.entries)
    (hparent : e.isParent = false) (h : Idle e.flow s passes s') :
    (∃ fw ∈ passes, fw.now < e.expires ∧ e ∈ fw.probed) ∨
      (∀ fw ∈ passes, fw.now < e.expires →
        e.isDue (.ofSeconds s.firewall.config.keepaliveInterval)
          (.ofSeconds s.firewall.config.keepalivePeriod) fw.now = false) ∧
      (s'.firewall.now < e.expires → e ∈ s'.firewall.engine.states.entries) := by
  induction h with
  | refl => exact Or.inr ⟨fun fw hfw => absurd hfw List.not_mem_nil, fun _ => he⟩
  | @step passes s' hbefore op hop hforward hquiet ih =>
    rcases ih with ⟨fw, hfw, hprobed⟩ | ⟨hnever, hthere⟩
    · exact Or.inl ⟨fw, List.mem_append_left _ hfw, hprobed⟩
    have hs' := hs.onward hbefore.onward
    obtain ⟨-, hsound⟩ := hs'.settings fair_creates
    rw [hbefore.config hs] at hsound
    by_cases hpass : op = .tick
    · subst hpass
      by_cases hlive : s'.firewall.now < e.expires
      · have hmem := hthere hlive
        cases hdue : e.isDue (.ofSeconds s.firewall.config.keepaliveInterval)
          (.ofSeconds s.firewall.config.keepalivePeriod) s'.firewall.now with
        | true =>
          refine Or.inl ⟨s'.firewall, List.mem_append_right _ List.mem_cons_self, hlive, ?_⟩
          exact Firewall.mem_probed hsound hkeepalive hmem ⟨hparent, hlive⟩ hdue
        | false =>
          refine Or.inr ⟨fun fw hfw hnow => ?_, fun _ => ?_⟩
          · rcases List.mem_append.mp hfw with hfw | hfw
            · exact hnever fw hfw hnow
            · rw [List.mem_singleton.mp hfw]
              exact hdue
          · exact Firewall.mem_tick hsound hmem ⟨hparent, hlive⟩ hdue
      · refine Or.inr ⟨fun fw hfw hnow => ?_, fun hnow => absurd hnow hlive⟩
        rcases List.mem_append.mp hfw with hfw | hfw
        · exact hnever fw hfw hnow
        · rw [List.mem_singleton.mp hfw] at hnow
          exact absurd hnow hlive
    · have hnone : op.passOf s'.firewall = [] := by
        cases op with
        | tick => exact absurd rfl hpass
        | _ => rfl
      rw [hnone, List.append_nil]
      refine Or.inr ⟨hnever, fun hnow => ?_⟩
      obtain ⟨default, hcoherent⟩ := hs'.coherent fair_creates
      have hlive : e.Live s'.firewall.now :=
        Entry.Live.mono ⟨hparent, hnow⟩ (now_le_step hcoherent op hforward)
      exact mem_step_of_quiet hsound (hthere hlive.2) hlive hforward hquiet hpass

end Idle

/-! ## Passes at given moments -/

/-- Make timer passes at these moments: the firewalls of which they are made, and the session they
lead to. -/
def passesAt (s : Session) : List Moment → List Firewall × Session
  | [] => ([], s)
  | t :: times =>
    let onTime := s.step (.setClock t)
    let (passes, s') := (onTime.step .tick).passesAt times
    (onTime.firewall :: passes, s')

/-- The passes are made at the moments given. -/
theorem map_now_passesAt (s : Session) (times : List Moment) :
    (s.passesAt times).1.map Firewall.now = times := by
  induction times generalizing s with
  | nil => rfl
  | cons t times ih => exact congrArg (t :: ·) (ih _)

/-- A pass is made at each of the moments. -/
theorem exists_passesAt (s : Session) {times : List Moment} {t : Moment} (ht : t ∈ times) :
    ∃ fw ∈ (s.passesAt times).1, fw.now = t := by
  rw [← s.map_now_passesAt times] at ht
  exact List.mem_map.mp ht

namespace Idle

variable {flow : Flow}

/-- Nothing is heard of a flow while timer passes are made. -/
theorem append_passesAt (h : Idle flow s passes s') {times : List Moment}
    (hforward : List.IsChain (· ≤ ·) (s'.firewall.now :: times)) :
    Idle flow s (passes ++ (s'.passesAt times).1) (s'.passesAt times).2 := by
  induction times generalizing s' passes with
  | nil =>
    rw [passesAt, List.append_nil]
    exact h
  | cons t times ih =>
    obtain ⟨hle, hrest⟩ := List.isChain_cons_cons.mp hforward
    have honTime := h.step (.setClock t) trivial hle trivial
    rw [show (Operation.setClock t).passOf s'.firewall = [] from rfl, List.append_nil] at honTime
    have hpass := ih (honTime.step .tick trivial trivial trivial) hrest
    rw [List.append_assoc] at hpass
    exact hpass

theorem passesAt {times : List Moment}
    (hforward : List.IsChain (· ≤ ·) (s.firewall.now :: times)) :
    Idle flow s (s.passesAt times).1 (s.passesAt times).2 := by
  have h : Idle flow s ([] ++ _) _ := Idle.refl.append_passesAt hforward
  rwa [List.nil_append] at h

end Idle

/-! ## A connection after its handshake -/

/-- A connection that has just been opened, through a rule that keeps state. Connections live for
ten seconds, and are probed at most every five seconds, within some interval before they expire. -/
def afterHandshake (interval : UInt32) : Session :=
  let config : Config :=
    { buckets := 1, ackLifetime := 10, synLifetime := 5, keepaliveInterval := interval }
  let segment (flow : Flow) (flags : TcpFlags) : Packet :=
    { flow, direction := .inbound, length := 40, tcp := some ⟨7, 9, 1024, flags, .none⟩ }
  match Firewall.new "fw" config ⟨0⟩ fun _ => 5 with
  | .error _ => opened
  | .ok fw => run { firewall := fw } [.add keeper.assemble,
      .check (segment ⟨1, 2, 3, 4, Protocol.tcp, 0⟩ TcpFlags.syn) none,
      .check (segment ⟨2, 1, 4, 3, Protocol.tcp, 0⟩ TcpFlags.syn) none,
      .check (segment ⟨1, 2, 3, 4, Protocol.tcp, 0⟩ TcpFlags.ack) none]

theorem afterHandshake_reachable (interval : UInt32) :
    (afterHandshake interval).Reachable fun rule _ => rule.createsState = true := by
  unfold afterHandshake
  simp only
  split
  · exact opened_reachable
  · rename_i fw hnew
    exact (Reachable.start hnew).run (by simp [Allows])

/-- The entry of the connection. -/
def connection : Entry :=
  { flow := ⟨1, 2, 3, 4, Protocol.tcp, 0⟩
    role := .keepState
    rule := firstKeeper
    expires := ⟨10000⟩
    track := ⟨TcpTrack.bothSyn, 9, 9⟩
    packets := 2
    bytes := 80 }

/-- It is all that is kept, whether connections are probed in the last two seconds or in the last
twenty. -/
theorem afterHandshake_settled {interval : UInt32} (h : interval = 2 ∨ interval = 20) :
    (afterHandshake interval).firewall.engine.states.entries = [connection] ∧
      (afterHandshake interval).firewall.now = ⟨0⟩ ∧
      (afterHandshake interval).firewall.config =
        { buckets := 1, ackLifetime := 10, synLifetime := 5, keepaliveInterval := interval } := by
  rcases h with rfl | rfl <;>
    simp only [afterHandshake, run, List.foldl, step, Firewall.check, evaluate,
      Walk.run_eq_runFor 2] <;>
    decide +kernel

/-! ## Before a connection expires -/

/-- **An idle connection is probed before it expires.** With settings that have connections probed,
the period shorter than the interval and than the lifetime of established connections, a connection
that has just been given this lifetime, and whose last probes lie at least two periods before its
expiry, if any were sent: if timer passes are made in time until it has expired, and no packet of
its flow comes, then one of the passes before its expiry asks for its probes. -/
theorem idle_is_probed (hs : Reachable (fun rule _ => rule.createsState = true) s)
    (hkeepalive : s.firewall.config.keepalive = true)
    (hinterval : s.firewall.config.keepalivePeriod < s.firewall.config.keepaliveInterval)
    (hlifetime : s.firewall.config.keepalivePeriod < s.firewall.config.ackLifetime)
    (he : e ∈ s.firewall.engine.states.entries) (hprobeable : e.Probeable)
    (hrefreshed : e.expires = s.firewall.now.plus s.firewall.config.lifetimes.ack)
    (hrested : ∀ last, e.probed = some last →
      last.ms.toNat + 2 * (Lifetime.ofSeconds s.firewall.config.keepalivePeriod).ms.toNat ≤
        e.expires.ms.toNat)
    (hidle : Idle e.flow s passes s')
    (hpunctual : Punctual (.ofSeconds s.firewall.config.keepalivePeriod) s.firewall.now
      (passes.map Firewall.now))
    (hpast : ∃ fw ∈ passes, e.expires < fw.now) :
    ∃ fw ∈ passes, fw.now < e.expires ∧ ∃ before after,
      fw.tick.2.engine.requests = fw.engine.requests ++ (before ++ e.probes ++ after) := by
  obtain ⟨late, hlate, hexpired⟩ := hpast
  have hwindow := UInt32.lt_iff_toNat_lt.mp hinterval
  have hshort := UInt32.lt_iff_toNat_lt.mp hlifetime
  -- The clock has gone past the expiry, which therefore is a whole lifetime away from the start.
  have hexpires : e.expires.ms.toNat =
      s.firewall.now.ms.toNat + s.firewall.config.ackLifetime.toNat * 1000 := by
    have hend := late.now.ms.toNat_lt
    have hexpired := Moment.lt_iff.mp hexpired
    have hplus := Moment.toNat_plus s.firewall.now s.firewall.config.lifetimes.ack
    rw [← hrefreshed, show s.firewall.config.lifetimes.ack.ms.toNat =
      s.firewall.config.ackLifetime.toNat * 1000 from Lifetime.toNat_ofSeconds _] at hplus
    unfold Moment.limit at hplus
    omega
  have hperiod := Lifetime.toNat_ofSeconds s.firewall.config.keepalivePeriod
  have hinterval := Lifetime.toNat_ofSeconds s.firewall.config.keepaliveInterval
  obtain ⟨t, ht, hlive, hlast⟩ := hpunctual.exists_last
    (Moment.lt_iff.mpr (by omega) : s.firewall.now < e.expires)
    ⟨late.now, List.mem_map_of_mem hlate,
      Moment.le_iff.mpr (Nat.le_of_lt (Moment.lt_iff.mp hexpired))⟩
  rcases List.mem_cons.mp ht with rfl | ht
  · omega
  obtain ⟨fw, hfw, rfl⟩ := List.mem_map.mp ht
  have hdue : e.isDue (.ofSeconds s.firewall.config.keepaliveInterval)
      (.ofSeconds s.firewall.config.keepalivePeriod) fw.now = true :=
    hprobeable.isDue_of_last (by omega) hrested hlive hlast hexpired
  rcases hidle.unprobed hs hkeepalive he hprobeable.connection with
    ⟨fw', hfw', hbefore, hprobed⟩ | ⟨hnever, -⟩
  · refine ⟨fw', hfw', hbefore, ?_⟩
    obtain ⟨before, after, hsplit⟩ := List.append_of_mem hprobed
    refine ⟨before.flatMap Entry.probes, after.flatMap Entry.probes, ?_⟩
    rw [fw'.tick_requests, hsplit, List.flatMap_append, List.flatMap_cons, List.append_assoc]
  · rw [hnever fw hfw hlive] at hdue
    cases hdue

/-- With an interval of twenty seconds, the pass after five seconds probes the connection. -/
theorem idle_is_probed_after_five_seconds :
    let s := afterHandshake 20
    let idle := s.passesAt [⟨5000⟩, ⟨10000⟩, ⟨15000⟩]
    s.Reachable (fun rule _ => rule.createsState = true) ∧
      connection ∈ s.firewall.engine.states.entries ∧ connection.Probeable ∧
      Idle connection.flow s idle.1 idle.2 ∧
      ∃ fw ∈ idle.1, fw.now < connection.expires ∧ ∃ before after,
        fw.tick.2.engine.requests =
          fw.engine.requests ++ (before ++ connection.probes ++ after) := by
  intro s idle
  have hs : s.Reachable _ := afterHandshake_reachable 20
  obtain ⟨hentries, hnow, hconfig⟩ : s.firewall.engine.states.entries = [connection] ∧
      s.firewall.now = ⟨0⟩ ∧ s.firewall.config = _ := afterHandshake_settled (Or.inr rfl)
  clear_value s
  have he : connection ∈ s.firewall.engine.states.entries := by
    rw [hentries]
    exact List.mem_cons_self
  have hprobeable : connection.Probeable := by decide
  have htimes : idle.1.map Firewall.now = [⟨5000⟩, ⟨10000⟩, ⟨15000⟩] := s.map_now_passesAt _
  have hidle : Idle connection.flow s idle.1 idle.2 := by
    refine Idle.passesAt ?_
    rw [hnow]
    decide
  have hlate : ∃ fw ∈ idle.1, connection.expires < fw.now := by
    obtain ⟨fw, hfw, heq⟩ := s.exists_passesAt (List.mem_cons_of_mem ⟨5000⟩
      (List.mem_cons_of_mem ⟨10000⟩ (List.mem_singleton_self ⟨15000⟩)))
    exact ⟨fw, hfw, heq ▸ by decide⟩
  have hrested : ∀ last, connection.probed = some last →
      last.ms.toNat + 2 * (Lifetime.ofSeconds s.firewall.config.keepalivePeriod).ms.toNat ≤
        connection.expires.ms.toNat := fun last hlast => by cases hlast
  refine ⟨hs, he, hprobeable, hidle, idle_is_probed hs ?_ ?_ ?_ he hprobeable ?_ hrested hidle ?_
    hlate⟩
  · rw [hconfig]
  · rw [hconfig]
    decide
  · rw [hconfig]
    decide
  · rw [hconfig, hnow]
    decide
  · rw [hconfig, hnow, htimes]
    decide

/-! ## No less will do -/

namespace Idle

variable {flow : Flow}

/-- A pass is made of a firewall of a session that was idle until then. -/
theorem exists_of_mem (h : Idle flow s passes s') {fw : Firewall} (hfw : fw ∈ passes) :
    ∃ before s₁, Idle flow s before s₁ ∧ s₁.firewall = fw := by
  induction h with
  | refl => exact absurd hfw List.not_mem_nil
  | @step passes s' hbefore op hop hforward hquiet ih =>
    rcases List.mem_append.mp hfw with hfw | hfw
    · exact ih hfw
    · cases op with
      | tick => exact ⟨passes, s', hbefore, (List.mem_singleton.mp hfw).symm⟩
      | _ => exact absurd hfw List.not_mem_nil

/-- A pass does not probe what is not due. -/
theorem not_probed (hs : Reachable (fun rule _ => rule.createsState = true) s)
    (h : Idle flow s passes s') {fw : Firewall} (hfw : fw ∈ passes)
    (hdue : e.isDue (.ofSeconds s.firewall.config.keepaliveInterval)
      (.ofSeconds s.firewall.config.keepalivePeriod) fw.now = false) : e ∉ fw.probed := by
  obtain ⟨before, s₁, hbefore, rfl⟩ := h.exists_of_mem hfw
  obtain ⟨-, hsound⟩ := (hs.onward hbefore.onward).settings fair_creates
  rw [hbefore.config hs] at hsound
  have hsettings := congrArg (fun c : StateConfig =>
    e.isDue c.keepaliveInterval c.keepalivePeriod s₁.firewall.now) hsound.settings
  intro hprobed
  unfold Firewall.probed StateTable.due at hprobed
  split at hprobed
  · have hmem := (List.mem_filter.mp hprobed).2
    have hsame := hsettings.symm.trans hmem
    rw [show e.isDue s.firewall.config.stateConfig.keepaliveInterval
      s.firewall.config.stateConfig.keepalivePeriod s₁.firewall.now = false from hdue] at hsame
    cases hsame
  · exact absurd hprobed List.not_mem_nil

end Idle

/-- **Each condition is needed.** If the period is not shorter than the interval, or not than the
lifetime, or if the last probes were sent less than two periods before the expiry, then timer
passes can be made in time, until the connection has expired, that do not probe it. -/
theorem exists_unprobed (hs : Reachable (fun rule _ => rule.createsState = true) s)
    (hprobeable : e.Probeable)
    (hexpires : e.expires.ms.toNat =
      s.firewall.now.ms.toNat + s.firewall.config.lifetimes.ack.ms.toNat)
    (hend : e.expires.ms.toNat < Moment.limit)
    (hnot : ¬ (s.firewall.config.keepalivePeriod < s.firewall.config.keepaliveInterval ∧
      s.firewall.config.keepalivePeriod < s.firewall.config.ackLifetime ∧
      ∀ last, e.probed = some last →
        last.ms.toNat + 2 * (Lifetime.ofSeconds s.firewall.config.keepalivePeriod).ms.toNat ≤
          e.expires.ms.toNat)) :
    ∃ passes s', Idle e.flow s passes s' ∧
      Punctual (.ofSeconds s.firewall.config.keepalivePeriod) s.firewall.now
        (passes.map Firewall.now) ∧
      (∃ fw ∈ passes, e.expires < fw.now) ∧
      ∀ fw ∈ passes, fw.now < e.expires → e ∉ fw.probed := by
  obtain ⟨hcheck, -⟩ := hs.settings fair_creates
  have hpositive : ∀ x ∈ TimeSetting.all,
      0 < (Lifetime.ofSeconds (x.get s.firewall.config)).ms.toNat := fun x hx =>
    s.firewall.config.time_pos hcheck x hx
  have hmillis : ∀ n m : UInt32,
      n < m ↔ (Lifetime.ofSeconds n).ms.toNat < (Lifetime.ofSeconds m).ms.toNat := by
    intro n m
    rw [UInt32.lt_iff_toNat_lt, Lifetime.toNat_ofSeconds, Lifetime.toNat_ofSeconds]
    omega
  rw [hmillis, hmillis] at hnot
  obtain ⟨times, hforward, hpunctual, hpast, hdue⟩ :=
    hprobeable.exists_missing (hpositive .keepalivePeriod (by decide))
      (hpositive .ackLifetime (by decide)) hexpires hend hnot
  have hidle : Idle e.flow s _ _ := Idle.passesAt hforward
  have hnow := s.map_now_passesAt times
  refine ⟨_, _, hidle, ?_, ?_, fun fw hfw hlive => ?_⟩
  · rw [hnow]
    exact hpunctual
  · obtain ⟨t, ht, hlate⟩ := hpast
    obtain ⟨fw, hfw, rfl⟩ := s.exists_passesAt ht
    exact ⟨fw, hfw, hlate⟩
  · have hmem := List.mem_map_of_mem (f := Firewall.now) hfw
    rw [hnow] at hmem
    exact hidle.not_probed hs hfw (hdue fw.now hmem hlive)

/-- With an interval of two seconds, passes every five seconds send nothing. -/
theorem afterHandshake_silent : ∀ fw ∈ ((afterHandshake 2).passesAt [⟨5000⟩, ⟨10000⟩, ⟨15000⟩]).1,
    fw.tick.2.engine.requests = fw.engine.requests := by
  simp only [afterHandshake, run, List.foldl, step, Firewall.check, evaluate, Walk.run_eq_runFor 2]
  decide +kernel

/-- **With an interval of two seconds**, which settings may have just as well, passes every five
seconds do not probe the connection: none of them sends anything until it has expired. -/
theorem idle_expires_unprobed :
    let s := afterHandshake 2
    let idle := s.passesAt [⟨5000⟩, ⟨10000⟩, ⟨15000⟩]
    s.Reachable (fun rule _ => rule.createsState = true) ∧
      s.firewall.config.check = .ok () ∧ s.firewall.config.keepalive = true ∧
      connection ∈ s.firewall.engine.states.entries ∧ connection.Probeable ∧
      connection.expires = s.firewall.now.plus s.firewall.config.lifetimes.ack ∧
      Idle connection.flow s idle.1 idle.2 ∧
      Punctual (.ofSeconds s.firewall.config.keepalivePeriod) s.firewall.now
        (idle.1.map Firewall.now) ∧
      (∃ fw ∈ idle.1, connection.expires < fw.now) ∧
      ∀ fw ∈ idle.1, fw.tick.2.engine.requests = fw.engine.requests := by
  intro s idle
  have hs : s.Reachable _ := afterHandshake_reachable 2
  obtain ⟨hentries, hnow, hconfig⟩ : s.firewall.engine.states.entries = [connection] ∧
      s.firewall.now = ⟨0⟩ ∧ s.firewall.config = _ := afterHandshake_settled (Or.inl rfl)
  have hsilent : ∀ fw ∈ idle.1, fw.tick.2.engine.requests = fw.engine.requests :=
    afterHandshake_silent
  clear_value s
  have htimes : idle.1.map Firewall.now = [⟨5000⟩, ⟨10000⟩, ⟨15000⟩] := s.map_now_passesAt _
  have hidle : Idle connection.flow s idle.1 idle.2 := by
    refine Idle.passesAt ?_
    rw [hnow]
    decide
  refine ⟨hs, ?_, ?_, ?_, by decide, ?_, hidle, ?_, ?_, hsilent⟩
  · rw [hconfig]
    decide
  · rw [hconfig]
  · rw [hentries]
    exact List.mem_cons_self
  · rw [hconfig, hnow]
    decide
  · rw [hconfig, hnow, htimes]
    decide
  · obtain ⟨fw, hfw, heq⟩ := s.exists_passesAt (List.mem_cons_of_mem ⟨5000⟩
      (List.mem_cons_of_mem ⟨10000⟩ (List.mem_singleton_self ⟨15000⟩)))
    exact ⟨fw, hfw, heq ▸ by decide⟩

end Session

end PacketFilter
