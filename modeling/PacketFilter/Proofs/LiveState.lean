import PacketFilter.Proofs.ChainHistory
import PacketFilter.Proofs.Footprint
import PacketFilter.Proofs.StateTable.Survival

/-!
# Live state is not lost

Packets and timers remove entries all the time: to make room for state when the table is full, for
a connection when its limit is reached, and in every sweep. All of these take what has expired, so
that state which is live stays in the table as long as nobody asks for its removal, and with it the
parents of connections that are live. Adding rules, zeroing counters and resizing the table remove
nothing at all.

Entries are followed by numbers that they keep, since two of them may be alike. Numbers are given to
the entries of a table as it is, in any way that gives none twice.

Main statements: `Reachable.lasting`, an entry lives for longer than nothing; `runs_gently`, of what
the table is asked to do by an operation, nothing is a removal that is forced;
**`live_state_survives`**.
-/

namespace PacketFilter

/-- Do the numbered entries stand for the table, with no number given twice? -/
structure StateTable.NumberedBy (t : StateTable) (l : Ledger) : Prop where
  refines : t.Refines l.flat
  distinct : l.Distinct

/-- **Nothing is lost that is live** at a moment. An entry that packets could match is still live
under its number, of the same flow, role and rule, and what it has counted has not become less,
short of where the counters end. A parent of such an entry is still there as well, for the same rule
and key. -/
structure Ledger.KeepsLive (now : Moment) (l l' : Ledger) : Prop where
  entries : ∀ i e, (i, e) ∈ l.entries → e.Live now →
    ∃ e', (i, e') ∈ l'.entries ∧ e.Survives now 1 e' ∧
      (e.packets.toNat + 1 < 2 ^ 64 → e.packets ≤ e'.packets) ∧
      (e.bytes.toNat + 65535 < 2 ^ 64 → e.bytes ≤ e'.bytes)
  parents : ∀ i p, (i, p) ∈ l.entries → p.isParent = true → l.HasLiveChild now p →
    ∃ p', (i, p') ∈ l'.entries ∧ p'.isParent = true ∧ p'.flow = p.flow ∧ p'.rule = p.rule

namespace StateTable

variable {config : StateConfig} {t t' : StateTable} {now : Moment}

/-- The entries of a table can be numbered. -/
theorem Sound.exists_numberedBy (h : t.Sound config) : ∃ l, t.NumberedBy l := by
  obtain ⟨l, hrefines, -⟩ := h
  exact ⟨l.numbered, by rwa [FlatTable.flat_numbered], l.numbered_distinct⟩

/-- What a table in order refines is in order, with the same lifetimes. -/
theorem Sound.of_refines (h : t.Sound config) {l : FlatTable} (hrefines : t.Refines l) :
    l.Sound { config with buckets := l.config.buckets } := by
  have haccounted := h.accounted.perm hrefines.entries_perm
  obtain ⟨l₀, hrefines₀, hsound₀⟩ := h
  refine ⟨?_, haccounted, ?_⟩
  · rw [← hsound₀.settings, ← hrefines₀.config]
    exact hrefines.config.symm
  · rw [← hrefines.entries_perm.length_eq, hrefines₀.entries_perm.length_eq]
    exact hsound₀.bounded

/-- **Operations at one moment that spare what is live lead from one table to the other**, with one
lookup at most. -/
def RunsGently (now : Moment) (t t' : StateTable) : Prop :=
  ∃ ops : List TableOp, (∀ op ∈ ops, op.At now ∧ op.Gentle) ∧ ops.countP TableOp.isLookup ≤ 1 ∧
    (t.run ops).2 = t'

theorem RunsGently.of_eq (h : t' = t) : t.RunsGently now t' := ⟨[], by simp, by simp, h.symm⟩

end StateTable

/-! ## Ledgers -/

namespace Ledger

variable {config : StateConfig} {now : Moment} {l l' : Ledger}

/-- Where one packet is matched at most, nothing that is live is lost. -/
theorem Spares.keepsLive {n : Nat} (h : l.Spares now n l') (hn : n ≤ 1) : l.KeepsLive now l' := by
  refine ⟨fun i e he hlive => ?_, fun i p hp hparent hchild => h.parents (i, p) hp hparent hchild⟩
  obtain ⟨e', he', hsurvives⟩ := h.live (i, e) he hlive
  have hone := hsurvives.mono hn
  exact ⟨e', he', hone, hone.packets_le, hone.bytes_le⟩

end Ledger

/-! ## Operations -/

/-- Packets, timers, what adds rules or zeroes their counters, and what resizes the table. Taking
messages and requests is among them; what only reads does nothing. -/
def Operation.Gentle : Operation → Prop
  | .check _ _ | .process _ _ | .tick | .drain | .add _ | .addBytes _ | .zeroCounters _ _
  | .setBuckets _ => True
  | .setClock _ | .change _ | .flush | .setEnable _ _ | .flushStates | .install _ _ _ _ => False

namespace Firewall

/-- What leads from one firewall to the other spares what is live in the state table. -/
abbrev RunsGently (fw fw' : Firewall) : Prop :=
  fw.engine.states.RunsGently fw.now fw'.engine.states

variable {fw fw' : Firewall}

/-- Adding a rule leaves the table alone. -/
theorem addImage_states {image : RuleImage} {rule : Rule}
    (h : fw.addImage image = .ok (rule, fw')) : fw'.engine.states = fw.engine.states := by
  obtain ⟨-, -, status, -, -, rfl⟩ := addImage_spec h
  rfl

/-- So does zeroing counters. -/
theorem zeroCounters_states {number : Option UInt16} {logOnly : Bool}
    (h : fw.zeroCounters number logOnly = .ok fw') : fw'.engine.states = fw.engine.states := by
  obtain ⟨rules, rfl | ⟨undecided, event, rfl⟩⟩ := zeroCounters_cases h
  · rfl
  · rfl

/-- A packet asks the table for state, and looks it up. -/
theorem check_runs_gently (fw : Firewall) (pkt : Packet) (resume : Option Rule) :
    fw.RunsGently (fw.check pkt resume).2 := by
  obtain ⟨ops, hstates, hasked, hlookups⟩ :=
    evaluate_footprint fw.surroundings pkt resume fw.engine
  refine ⟨ops, fun op hop => ?_, hlookups, hstates⟩
  cases hasked op hop with
  | lookup => exact ⟨TableOp.at_of_moment rfl, trivial⟩
  | install => exact ⟨TableOp.at_of_moment rfl, trivial⟩

theorem process_runs_gently (fw : Firewall) (pkt : Packet) (resume : Option Rule) :
    fw.RunsGently (fw.process pkt resume).2 := by
  obtain ⟨requests, hprocess⟩ := fw.process_eq_check pkt resume
  rw [hprocess]
  exact fw.check_runs_gently pkt resume

/-- A timer pass sweeps the table, and then probes connections that are about to expire. -/
theorem tick_runs_gently (fw : Firewall) : fw.RunsGently fw.tick.2 := by
  refine ⟨[.sweep fw.now, .probe fw.now], fun op hop => ?_, Nat.zero_le _, rfl⟩
  rcases List.mem_pair.mp hop with rfl | rfl
  · exact ⟨TableOp.at_of_moment rfl, trivial⟩
  · exact ⟨TableOp.at_of_moment rfl, trivial⟩

theorem setBuckets_runs_gently {n : UInt32} (h : fw.setBuckets n = .ok fw') :
    fw.RunsGently fw' := by
  refine ⟨[.setBuckets n.toNat], fun op hop => ?_, Nat.zero_le _, ?_⟩
  · rw [List.mem_singleton.mp hop]
    exact ⟨fun t ht => by (cases ht), trivial⟩
  · rw [setBuckets_eq_ok h]
    rfl

end Firewall

namespace Session

variable {grants : Rule → StateRequest → Prop} {s : Session} {op : Operation}

/-- In every session entries live for longer than nothing. -/
theorem Reachable.lasting (hfair : Firewall.Fair grants) (h : Reachable grants s) :
    ∃ config : StateConfig, config.lifetimes.Positive ∧
      s.firewall.engine.states.Sound config := by
  obtain ⟨hcheck, hsound⟩ := h.settings hfair
  exact ⟨_, s.firewall.config.lifetimes_positive hcheck, hsound⟩

/-- **What an operation asks of the table**: no removal that is forced, and at most one lookup. -/
theorem runs_gently (s : Session) (hop : op.Gentle) :
    s.firewall.RunsGently (s.step op).firewall := by
  have hproceed : ∀ result : Except ControlError Firewall,
      (∀ fw, result = .ok fw → s.firewall.RunsGently fw) →
        s.firewall.RunsGently (s.proceed result).firewall := by
    intro result hresult
    cases result with
    | error e => exact .of_eq rfl
    | ok fw => exact hresult fw rfl
  have haccept : ∀ result : Except ControlError (Rule × Firewall),
      (∀ rule fw, result = .ok (rule, fw) → fw.engine.states = s.firewall.engine.states) →
        s.firewall.RunsGently (s.accept result).firewall := by
    intro result hresult
    cases result with
    | error e => exact .of_eq rfl
    | ok added => exact .of_eq (hresult added.1 added.2 rfl)
  cases op with
  | check pkt resume => exact s.firewall.check_runs_gently pkt resume
  | process pkt resume => exact s.firewall.process_runs_gently pkt resume
  | tick => exact s.firewall.tick_runs_gently
  | drain => exact .of_eq rfl
  | add image => exact haccept _ fun _ _ => Firewall.addImage_states
  | addBytes bytes =>
    refine haccept _ fun rule fw hadd => ?_
    obtain ⟨image, himage⟩ := Firewall.addBytes_eq_ok hadd
    exact Firewall.addImage_states himage
  | zeroCounters number logOnly =>
    exact hproceed _ fun fw hzero => .of_eq (Firewall.zeroCounters_states hzero)
  | setBuckets n => exact hproceed _ fun fw => Firewall.setBuckets_runs_gently
  | setClock | change | flush | setEnable | flushStates | install => exact hop.elim

/-- **No packet, no timer, and nothing that adds rules, zeroes counters or resizes the table loses
state that is live.** The operations of the table in which it consists lead from the numbered
entries before to those after, and what was live at the moment that the clock shows is still there,
its counters not turned back, with the parents of its connections. -/
theorem live_state_survives (hs : Reachable (fun rule _ => rule.createsState = true) s)
    (hop : op.Gentle) :
    (∃ l, s.firewall.engine.states.NumberedBy l) ∧
      ∃ ops, (s.firewall.engine.states.run ops).2 = (s.step op).firewall.engine.states ∧
        ∀ l, s.firewall.engine.states.NumberedBy l →
          (s.step op).firewall.engine.states.NumberedBy (l.run ops).2 ∧
            l.KeepsLive s.firewall.now (l.run ops).2 := by
  obtain ⟨config, hpos, hsound⟩ := hs.lasting fair_creates
  obtain ⟨ops, hgentle, hlookups, hstates⟩ := s.runs_gently hop
  refine ⟨hsound.exists_numberedBy, ops, hstates, fun l hnumbers => ?_⟩
  have hspares := Ledger.spares_run (hsound.of_refines hnumbers.refines) hpos hgentle
  refine ⟨⟨?_, hspares.distinct hnumbers.distinct⟩, hspares.keepsLive hlookups⟩
  rw [← hstates, Ledger.flat_run]
  exact (hnumbers.refines.run_refines ops).2

/-- A connection under a limit, with its parent, and a reply that matches it. -/
theorem live_state_survives_reply :
    let request : Packet :=
      { flow := ⟨1, 2, 3, 4, Protocol.udp, 0⟩, direction := .inbound, length := 40 }
    let reply : Packet := { request with flow := ⟨2, 1, 4, 3, Protocol.udp, 0⟩ }
    let s := opened.run [.add limiter.assemble, .process request none]
    let op := Operation.process reply none
    s.Reachable (fun rule _ => rule.createsState = true) ∧ op.Gentle ∧
      s.firewall.stateCount = 2 ∧
      ∃ l ops, s.firewall.engine.states.NumberedBy l ∧
        (∃ i e, (i, e) ∈ l.entries ∧ e.Live s.firewall.now) ∧
        (s.firewall.engine.states.run ops).2 = (s.step op).firewall.engine.states ∧
        (s.step op).firewall.engine.states.NumberedBy (l.run ops).2 ∧
        l.KeepsLive s.firewall.now (l.run ops).2 := by
  intro request reply s op
  have hs : s.Reachable fun rule _ => rule.createsState = true :=
    opened_reachable.run (by simp [Allows])
  have hlive : ∃ e ∈ s.firewall.engine.states.entries,
      e.isParent = false ∧ s.firewall.now < e.expires := by
    simp only [s, run, List.foldl, step, Firewall.process, Firewall.check, evaluate,
      Walk.run_eq_runFor 2]
    decide +kernel
  have hcount : s.firewall.stateCount = 2 := by
    simp only [s, run, List.foldl, step, Firewall.process, Firewall.check, evaluate,
      Walk.run_eq_runFor 2]
    decide +kernel
  have hop : op.Gentle := trivial
  obtain ⟨⟨l, hnumbers⟩, ops, hstates, hall⟩ := live_state_survives hs hop
  obtain ⟨hafter, hkeeps⟩ := hall l hnumbers
  obtain ⟨e, he, hlive⟩ := hlive
  obtain ⟨⟨i, e⟩, hmem, rfl⟩ := List.mem_map.mp (hnumbers.refines.entries_perm.mem_iff.mp he)
  exact ⟨hs, hop, hcount, l, ops, hnumbers, ⟨i, e, hmem, hlive⟩, hstates, hafter, hkeeps⟩

end Session

end PacketFilter
