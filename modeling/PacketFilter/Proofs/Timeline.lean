import PacketFilter.Proofs.Administration
import PacketFilter.Proofs.Coherence.Run
import PacketFilter.Proofs.StateTable.Lifespan

/-!
# Sessions in which the clock goes forward

What is done to a firewall reaches its state table as operations of the table, all of them at the
moment that the clock shows. An `Onward` session is continued without ever setting the clock back,
and `Trace` is a continuation together with operations that it may have consisted of on the table.

Main statements: `Session.step_timely`, every operation works on the table at the moment that the
clock shows; **`Onward.exists_trace`**, every continuation has a trace; **`Trace.passes`**, what
holds of operations at one moment holds along a trace.
-/

namespace PacketFilter

/-! ## Operations at one moment -/

namespace StateTable

theorem run_append (t : StateTable) (ops ops' : List TableOp) :
    (t.run (ops ++ ops')).2 = ((t.run ops).2.run ops').2 := by
  induction ops generalizing t with
  | nil => rfl
  | cons op ops ih => exact ih (t.apply op).2

/-- Operations at one moment lead from one table to the other. -/
def Runs (now : Moment) (t t' : StateTable) : Prop :=
  ∃ ops : List TableOp, (∀ op ∈ ops, op.At now) ∧ (t.run ops).2 = t'

namespace Runs

variable {now : Moment} {t t' t'' : StateTable}

theorem refl (t : StateTable) : t.Runs now t := ⟨[], by simp, rfl⟩

theorem single (t : StateTable) (op : TableOp) (hop : op.At now) : t.Runs now (t.apply op).2 :=
  ⟨[op], fun _ hmem => List.mem_singleton.mp hmem ▸ hop, rfl⟩

theorem trans (h : t.Runs now t') (h' : t'.Runs now t'') : t.Runs now t'' := by
  obtain ⟨ops, hat, rfl⟩ := h
  obtain ⟨ops', hat', rfl⟩ := h'
  refine ⟨ops ++ ops', fun op hop => ?_, t.run_append ops ops'⟩
  rcases List.mem_append.mp hop with hop | hop
  · exact hat op hop
  · exact hat' op hop

end Runs

end StateTable

namespace TableOp

/-- An operation takes place at its moment. -/
theorem at_of_moment {op : TableOp} {now : Moment} (h : op.moment? = some now) : op.At now := by
  intro t ht
  rw [h] at ht
  cases ht
  rfl

end TableOp

/-! ## Packets -/

section

variable {env : Surroundings} {pkt : Packet} {G : Rule → Prop} {e e' : Engine}

theorem Effect.runs (h : Effect env pkt G e e') : e.states.Runs env.now e'.states := by
  cases h with
  | lookup => exact .single _ (.lookup pkt env.now) (TableOp.at_of_moment rfl)
  | create rule request =>
    rw [(createState_states rule request e).1]
    exact .single _ (.install (e.roster.status rule.id).stateEnabled rule request pkt env.now)
      (TableOp.at_of_moment rfl)
  | log rule =>
    rw [logMatch_states]
    exact .refl _
  | count rule => exact .refl _
  | request r => exact .refl _
  | draw c =>
    unfold Engine.afterDraw
    split <;> exact .refl _

theorem Effects.runs (h : Effects env pkt G e e') : e.states.Runs env.now e'.states := by
  induction h with
  | refl => exact .refl _
  | tail _ hstep ih => exact ih.trans hstep.runs

end

/-! ## The firewall -/

namespace Firewall

/-- **What is done to the state table is done at the moment that the clock shows**, and the clock
stands still. -/
structure Timely (fw fw' : Firewall) : Prop where
  now : fw'.now = fw.now
  runs : fw.engine.states.Runs fw.now fw'.engine.states

variable {fw fw' : Firewall}

theorem Timely.of_eq (hnow : fw'.now = fw.now) (hstates : fw'.engine.states = fw.engine.states) :
    fw.Timely fw' :=
  ⟨hnow, by rw [hstates]; exact .refl _⟩

theorem check_timely {known : List Rule} (h : Coherent known fw) (pkt : Packet)
    (resume : Option Rule) : fw.Timely (fw.check pkt resume).2 := by
  obtain ⟨e, heffects, -, hstates⟩ := h.check_effects pkt resume
  refine ⟨rfl, ?_⟩
  rw [hstates]
  exact Effects.runs heffects

theorem process_timely {known : List Rule} (h : Coherent known fw) (pkt : Packet)
    (resume : Option Rule) : fw.Timely (fw.process pkt resume).2 := by
  obtain ⟨requests, hprocess⟩ := fw.process_eq_check pkt resume
  have hcheck := check_timely h pkt resume
  rw [hprocess]
  exact ⟨hcheck.now, hcheck.runs⟩

theorem tick_timely (fw : Firewall) : fw.Timely fw.tick.2 :=
  ⟨rfl, .trans (.single _ (.sweep fw.now) (TableOp.at_of_moment rfl))
    (.single _ (.probe fw.now) (TableOp.at_of_moment rfl))⟩

theorem addImage_timely {image : RuleImage} {rule : Rule}
    (h : fw.addImage image = .ok (rule, fw')) : fw.Timely fw' := by
  obtain ⟨-, -, status, -, -, rfl⟩ := addImage_spec h
  exact .of_eq rfl rfl

theorem addBytes_timely {bytes : List UInt8} {rule : Rule}
    (h : fw.addBytes bytes = .ok (rule, fw')) : fw.Timely fw' := by
  obtain ⟨image, hadd⟩ := addBytes_eq_ok h
  exact addImage_timely hadd

theorem quiesce_timely (fw : Firewall) (rules : List Rule) : fw.Timely (fw.quiesce rules) := by
  unfold quiesce
  simp only
  split
  · exact .of_eq rfl rfl
  · refine ⟨?_, ?_⟩
    · unfold flushStatesOf
      simp only
      split <;> rfl
    · rw [states_flushStatesOf]
      exact .single _ (.flush _ _) (TableOp.at_of_moment rfl)

theorem Removes.timely (h : fw.Removes fw') : fw.Timely fw' := by
  have hremove : ∀ p, fw.Timely (fw.remove p) := by
    intro p
    obtain ⟨hnow, hruns⟩ := fw.quiesce_timely (fw.chain.removeWhere p).1
    unfold remove withdraw
    split
    · exact .of_eq rfl rfl
    · exact ⟨hnow, hruns⟩
  cases h with
  | silently p => exact hremove p
  | noted p event => exact ⟨(hremove p).now, (hremove p).runs⟩

theorem retarget_timely (fw : Firewall) (mask : SetMask) (target : Rule → UInt8)
    {change : Firewall → Firewall}
    (hchange : ∀ fw₁ : Firewall, (change fw₁).now = fw₁.now ∧
      (change fw₁).engine.states = fw₁.engine.states) :
    fw.Timely (fw.retarget mask target change) := by
  unfold retarget
  simp only
  generalize (fw.chain.select fun r => r.createsState && !(fw.status r).invalid).filter
    (fun r => mask.has (target r)) = disabled
  obtain ⟨hnow, hruns⟩ := fw.quiesce_timely disabled
  obtain ⟨hnow', hstates⟩ := hchange (fw.quiesce disabled)
  refine ⟨hnow'.trans hnow, ?_⟩
  show fw.engine.states.Runs fw.now (change (fw.quiesce disabled)).engine.states
  rw [hstates]
  exact hruns

theorem Resets.timely (h : fw.Resets fw') : fw.Timely fw' := by
  cases h with
  | moves target p move => exact fw.retarget_timely _ target fun _ => ⟨rfl, rfl⟩
  | disables mask => exact fw.retarget_timely mask _ fun _ => ⟨rfl, rfl⟩

theorem zeroCounters_timely {number : Option UInt16} {logOnly : Bool}
    (h : fw.zeroCounters number logOnly = .ok fw') : fw.Timely fw' := by
  obtain ⟨rules, rfl | ⟨undecided, event, rfl⟩⟩ := zeroCounters_cases h
  · exact .of_eq rfl rfl
  · exact .of_eq rfl rfl

theorem setBuckets_timely {n : UInt32} (h : fw.setBuckets n = .ok fw') : fw.Timely fw' := by
  rw [setBuckets_eq_ok h]
  exact ⟨rfl, .single _ (.setBuckets n.toNat) fun t ht => by cases ht⟩

end Firewall

/-! ## Sessions -/

namespace Session

/-- Does the operation leave the clock where it is, or set it forward? State is asked for directly
at the moment that the clock shows. -/
def Forward (s : Session) : Operation → Prop
  | .setClock now => s.firewall.now ≤ now
  | .install _ _ _ now => now = s.firewall.now
  | _ => True

/-- **What a session may become while the clock is not set back.** -/
inductive Onward (s : Session) : Session → Prop
  | refl : Onward s s
  | step {s' : Session} (h : Onward s s') (op : Operation)
      (hop : s'.Allows (fun rule _ => rule.createsState = true) op) (hforward : s'.Forward op) :
      Onward s (s'.step op)

/-- **A continuation that consists, on the state table, of these operations.** Each of them takes
place at the moment that the clock shows then. -/
inductive Trace (s : Session) : List TableOp → Session → Prop
  | refl : Trace s [] s
  | step {ops : List TableOp} {s' : Session} (h : Trace s ops s') (op : Operation)
      (hop : s'.Allows (fun rule _ => rule.createsState = true) op) (hforward : s'.Forward op)
      (more : List TableOp) (hat : ∀ op ∈ more, op.At s'.firewall.now)
      (hstates : (s'.firewall.engine.states.run more).2 = (s'.step op).firewall.engine.states) :
      Trace s (ops ++ more) (s'.step op)

variable {s s' : Session}

theorem Reachable.onward (hs : Reachable (fun rule _ => rule.createsState = true) s)
    (h : Onward s s') : Reachable (fun rule _ => rule.createsState = true) s' := by
  induction h with
  | refl => exact hs
  | step _ op hop _ ih => exact ih.step op hop

/-- **Every operation but setting the clock works on the state table at the moment that the clock
shows.** -/
theorem step_timely {known : List Rule} (h : Firewall.Coherent known s.firewall) (op : Operation)
    (hforward : s.Forward op) (hclock : ∀ now, op ≠ .setClock now) :
    s.firewall.Timely (s.step op).firewall := by
  have hproceed : ∀ result : Except ControlError Firewall,
      (∀ fw, result = .ok fw → s.firewall.Timely fw) →
        s.firewall.Timely (s.proceed result).firewall := by
    intro result hresult
    cases result with
    | error e => exact .of_eq rfl rfl
    | ok fw => exact hresult fw rfl
  have haccept : ∀ result : Except ControlError (Rule × Firewall),
      (∀ rule fw, result = .ok (rule, fw) → s.firewall.Timely fw) →
        s.firewall.Timely (s.accept result).firewall := by
    intro result hresult
    cases result with
    | error e => exact .of_eq rfl rfl
    | ok added => exact hresult added.1 added.2 rfl
  cases op with
  | check pkt resume => exact Firewall.check_timely h pkt resume
  | process pkt resume => exact Firewall.process_timely h pkt resume
  | tick => exact s.firewall.tick_timely
  | setClock now => exact absurd rfl (hclock now)
  | drain => exact .of_eq rfl rfl
  | add image => exact haccept _ fun _ _ => Firewall.addImage_timely
  | addBytes bytes => exact haccept _ fun _ _ => Firewall.addBytes_timely
  | change request =>
    exact hproceed _ fun fw hrequest =>
      (Firewall.handle_cases hrequest).elim Firewall.Removes.timely Firewall.Resets.timely
  | flush => exact (Firewall.flush_removes _).timely
  | setEnable disable enable =>
    exact hproceed _ fun fw hset => (Firewall.setEnable_resets hset).timely
  | zeroCounters number logOnly => exact hproceed _ fun _ => Firewall.zeroCounters_timely
  | flushStates =>
    exact ⟨rfl, .single _ (.flushAll s.firewall.now) (TableOp.at_of_moment rfl)⟩
  | setBuckets n => exact hproceed _ fun _ => Firewall.setBuckets_timely
  | install rule request pkt now =>
    obtain rfl : now = s.firewall.now := hforward
    refine ⟨rfl, .single _ (.install (s.firewall.status rule).stateEnabled rule request pkt
      s.firewall.now) (TableOp.at_of_moment rfl)⟩

/-- An operation consists, on the table, of operations at the moment that the clock shows. -/
theorem step_runs {known : List Rule} (h : Firewall.Coherent known s.firewall) (op : Operation)
    (hforward : s.Forward op) :
    s.firewall.engine.states.Runs s.firewall.now (s.step op).firewall.engine.states := by
  by_cases hclock : ∃ now, op = .setClock now
  · obtain ⟨now, rfl⟩ := hclock
    exact .refl _
  · exact (step_timely h op hforward fun now heq => hclock ⟨now, heq⟩).runs

/-- The clock does not go back. -/
theorem now_le_step {known : List Rule} (h : Firewall.Coherent known s.firewall) (op : Operation)
    (hforward : s.Forward op) : s.firewall.now ≤ (s.step op).firewall.now := by
  by_cases hclock : ∃ now, op = .setClock now
  · obtain ⟨now, rfl⟩ := hclock
    exact hforward
  · rw [(step_timely h op hforward fun now heq => hclock ⟨now, heq⟩).now]
    exact Moment.le_iff.mpr (Nat.le_refl _)

/-! ## Traces -/

/-- **Every continuation has a trace.** -/
theorem Onward.exists_trace (hs : Reachable (fun rule _ => rule.createsState = true) s)
    (h : Onward s s') : ∃ ops, Trace s ops s' := by
  induction h with
  | refl => exact ⟨[], .refl⟩
  | step hbefore op hop hforward ih =>
    obtain ⟨ops, htrace⟩ := ih
    obtain ⟨default, hcoherent⟩ := (hs.onward hbefore).coherent fair_creates
    obtain ⟨more, hat, hstates⟩ := step_runs hcoherent op hforward
    exact ⟨ops ++ more, htrace.step op hop hforward more hat hstates⟩

namespace Trace

variable {ops : List TableOp}

theorem onward (h : Trace s ops s') : Onward s s' := by
  induction h with
  | refl => exact .refl
  | step _ op hop hforward _ _ _ ih => exact ih.step op hop hforward

/-- The operations lead to the table of the session. -/
theorem states (h : Trace s ops s') :
    (s.firewall.engine.states.run ops).2 = s'.firewall.engine.states := by
  induction h with
  | refl => rfl
  | step _ op hop hforward more hat hstates ih =>
    rw [StateTable.run_append, ih]
    exact hstates

/-- **What holds of operations at one moment holds along a trace**: no entry is changed once it has
expired, the clock does not go back, and a flow has at most one live entry. -/
theorem passes (hs : Reachable (fun rule _ => rule.createsState = true) s) (h : Trace s ops s')
    (l : Ledger) :
    s.firewall.now ≤ s'.firewall.now ∧
      l.Keeps (fun rule key => ∃ op ∈ ops, op.AsksFor rule key) s.firewall.now (l.run ops).2 ∧
        (l.Orderly s.firewall.now → (l.run ops).2.Orderly s'.firewall.now) := by
  induction h with
  | refl => exact ⟨Moment.le_iff.mpr (Nat.le_refl _), .refl l, id⟩
  | @step ops s' hbefore op hop hforward more hat hstates ih =>
    obtain ⟨hle, hkeeps, horderly⟩ := ih
    obtain ⟨default, hcoherent⟩ := (hs.onward hbefore.onward).coherent fair_creates
    have hstep := now_le_step hcoherent op hforward
    have hpasses := (l.run ops).2.passes_run hat
    rw [Ledger.run_append]
    refine ⟨?_, ?_, fun h => (hpasses.orderly (horderly h)).mono hstep⟩
    · exact Moment.le_iff.mpr (Nat.le_trans (Moment.le_iff.mp hle) (Moment.le_iff.mp hstep))
    · refine (hkeeps.mono (Moment.le_iff.mpr (Nat.le_refl _)) ?_).trans
        (hpasses.toKeeps.mono hle ?_)
      · rintro rule key ⟨op', hmem, hasks⟩
        exact ⟨op', List.mem_append_left _ hmem, hasks⟩
      · rintro rule key ⟨op', hmem, hasks⟩
        exact ⟨op', List.mem_append_right _ hmem, hasks⟩

/-- **What is live later on is live now**, if it is there. -/
theorem live (hs : Reachable (fun rule _ => rule.createsState = true) s) (h : Trace s ops s')
    {l : Ledger} {i : Nat} {e' : Entry} (he' : (i, e') ∈ (l.run ops).2.entries) (hold : i < l.next)
    (hlive : e'.Live s'.firewall.now) : ∃ e, (i, e) ∈ l.entries ∧ e.Live s.firewall.now := by
  obtain ⟨hle, hkeeps, -⟩ := h.passes hs l
  obtain ⟨e, he, hendures⟩ := hkeeps.old (i, e') he' hold
  exact ⟨e, he, hendures.live (hlive.mono hle)⟩

/-- **Packets match only entries that are live now**, of those that are there. -/
theorem live_of_hit (hs : Reachable (fun rule _ => rule.createsState = true) s)
    (h : Trace s ops s') {l : Ledger} {i : Nat} (hi : i ∈ (l.run ops).1) (hold : i < l.next) :
    ∃ e, (i, e) ∈ l.entries ∧ e.Live s.firewall.now := by
  induction h with
  | refl => exact absurd hi List.not_mem_nil
  | step hbefore op hop hforward more hat hstates ih =>
    rw [Ledger.run_append] at hi
    rcases List.mem_append.mp hi with hi | hi
    · exact ih hi
    · have hkeeps := (hbefore.passes hs l).2.1
      obtain ⟨e', he', hlive⟩ := Ledger.live_of_run hat hi (Nat.lt_of_lt_of_le hold hkeeps.next_le)
      exact hbefore.live hs he' hold hlive

end Trace

end Session

end PacketFilter
