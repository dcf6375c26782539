import PacketFilter.Proofs.Coherence.Service

/-!
# State and rules agree in every session

Main statements: `step_follows`, every operation keeps the agreement of state and rules;
**`coherent_of_reachable`**, what clients can see of it in every session, also if state is asked for
on behalf of rules that have been removed.
-/

namespace PacketFilter

namespace Session

variable {grants : Rule → StateRequest → Prop} {s : Session}

/-- An operation leads from a firewall whose parts agree to one whose parts agree. -/
theorem step_follows (hfair : Firewall.Fair grants) {default : Rule}
    (h : Firewall.Coherent (default :: s.accepted) s.firewall) (op : Operation)
    (hop : s.Allows grants op) :
    Firewall.Follows grants (default :: (s.step op).accepted) s.firewall (s.step op).firewall := by
  have hstay : Firewall.Follows grants (default :: s.accepted) s.firewall s.firewall :=
    ⟨h, Relation.ReflTransGen.refl⟩
  cases op with
  | check pkt resume => exact h.check hfair pkt resume
  | process pkt resume => exact h.process hfair pkt resume
  | tick => exact h.tick hfair
  | setClock now =>
    exact h.follows hfair rfl rfl (Roster.SameStanding.refl _) Relation.ReflTransGen.refl
  | drain => exact h.follows hfair rfl rfl (Roster.SameStanding.refl _) Relation.ReflTransGen.refl
  | add image =>
    simp only [step]
    cases hadd : s.firewall.addImage image with
    | error e => exact hstay
    | ok result => exact h.addImage_follows hadd
  | addBytes bytes =>
    simp only [step]
    cases hadd : s.firewall.addBytes bytes with
    | error e => exact hstay
    | ok result => exact h.addBytes_follows hadd
  | change request =>
    simp only [step]
    cases hchange : s.firewall.handle request with
    | error e => exact hstay
    | ok fw => exact h.handle hchange
  | flush => exact h.flush
  | setEnable disable enable =>
    simp only [step]
    cases hset : s.firewall.setEnable disable enable with
    | error e => exact hstay
    | ok fw => exact h.setEnable hset
  | zeroCounters number logOnly =>
    simp only [step]
    cases hzero : s.firewall.zeroCounters number logOnly with
    | error e => exact hstay
    | ok fw => exact h.zeroCounters hfair hzero
  | flushStates => exact h.flushStates hfair
  | setBuckets n =>
    simp only [step]
    cases hset : s.firewall.setBuckets n with
    | error e => exact hstay
    | ok fw => exact h.setBuckets hfair hset
  | install rule request pkt now =>
    exact h.install hfair (List.mem_cons_of_mem _ hop.1) hop.2 pkt now

/-- In every session the parts of the firewall agree. -/
theorem Reachable.coherent (hfair : Firewall.Fair grants) (h : Reachable grants s) :
    ∃ default, Firewall.Coherent (default :: s.accepted) s.firewall := by
  induction h with
  | start hnew => exact ⟨_, Firewall.coherent_new hnew⟩
  | step _ op hop ih =>
    obtain ⟨default, hcoherent⟩ := ih
    exact ⟨default, (step_follows hfair hcoherent op hop).coherent⟩

/-- **State and rules agree**, as clients can see it. -/
structure Coherent (s : Session) : Prop where
  /-- Rules are told apart by their ids. -/
  ids : (s.accepted.map Rule.id).Nodup
  /-- An entry is of a rule that is in the chain, creates state, has not been removed, and is in
  an enabled set. -/
  entries : ∀ e ∈ s.firewall.engine.states.entries,
    e.rule ∈ s.firewall.chain.rules ∧ e.rule.createsState = true ∧
      (s.firewall.status e.rule).invalid = false ∧
      s.firewall.disabled.has (s.firewall.setOf e.rule) = false
  /-- A rule of the chain that creates state may do so exactly if its set is enabled. -/
  enabled : ∀ r ∈ s.firewall.chain.rules, r.createsState = true →
    ((s.firewall.status r).stateEnabled = true ↔
      s.firewall.disabled.has (s.firewall.setOf r) = false)
  /-- A rule is marked as removed exactly if it is no longer in the chain, and then it is barred
  from creating state. -/
  invalid : ∀ r ∈ s.accepted,
    ((s.firewall.status r).invalid = true ↔ r ∉ s.firewall.chain.rules) ∧
      ((s.firewall.status r).invalid = true → (s.firewall.status r).stateEnabled = false)

/-- Whatever is asked for on behalf of rules that create state is fair. -/
theorem fair_creates : Firewall.Fair fun rule _ => rule.createsState = true :=
  ⟨fun _ request hrequest => Rule.createsState_iff.mpr ⟨request, hrequest⟩, fun _ _ h => h⟩

/-- **State and rules agree in every session**, whatever is done in whatever order, and although
state may be asked for at any time on behalf of any rule that creates state and was ever
accepted. -/
theorem coherent_of_reachable (h : Reachable (fun rule _ => rule.createsState = true) s) :
    s.Coherent := by
  obtain ⟨default, hc⟩ := h.coherent fair_creates
  have hvalid : ∀ r ∈ s.firewall.chain.rules, (s.firewall.status r).invalid = false := fun r hr =>
    Bool.eq_false_iff.mpr fun hinvalid => (hc.invalid r (hc.members r hr)).mp hinvalid hr
  refine ⟨?_, fun e he => ?_, fun r hr hcreates => ?_, fun r hr => ⟨?_, fun hinvalid => ?_⟩⟩
  · exact (List.nodup_cons.mp hc.lists.nodup_ids).2
  · have hlive := hc.entries e he
    exact ⟨hlive.installed, hlive.creates, hvalid _ hlive.installed, hlive.enabled⟩
  · rw [hc.enabled r hr hcreates]
    simp
  · exact hc.invalid r (List.mem_cons_of_mem _ hr)
  · have hr := List.mem_cons_of_mem default hr
    exact hc.barred r hr ((hc.invalid r hr).mp hinvalid)

/-- A rule that keeps state creates an entry and is deleted; then state is asked for on its
behalf. -/
theorem coherent_after_removal :
    let pkt : Packet :=
      { flow := ⟨1, 2, 3, 4, Protocol.udp, 0⟩, direction := .inbound, length := 40 }
    let removed := (opened.run [.add keeper.assemble]).run [.process pkt none, .change (.rule 100)]
    let s := removed.step (.install firstKeeper .keepState pkt ⟨5⟩)
    s.Reachable (fun rule _ => rule.createsState = true) ∧ firstKeeper ∈ s.accepted ∧
      s.Coherent := by
  intro pkt removed s
  have hadded : firstKeeper ∈ (opened.run [.add keeper.assemble]).accepted := by decide +kernel
  have hremoved := mem_accepted_run hadded [.process pkt none, .change (.rule 100)]
  have hreachable : removed.Reachable (fun rule _ => rule.createsState = true) :=
    (opened_reachable.run (by simp [Allows])).run (by simp [Allows])
  have hcreates : firstKeeper.createsState = true := by decide +kernel
  have hlate := hreachable.step (.install firstKeeper .keepState pkt ⟨5⟩) ⟨hremoved, hcreates⟩
  exact ⟨hlate, mem_accepted_step hremoved _, coherent_of_reachable hlate⟩

end Session

end PacketFilter
