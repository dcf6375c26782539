import PacketFilter.Proofs.Decision
import PacketFilter.Proofs.LiveState
import PacketFilter.Proofs.StateTable.Charging

/-!
# One packet, one entry

However many rules look for state or ask for it, a packet is charged to one entry of the state table
at most: what the first lookup has found is remembered, and creating state charges none. The entry
may be one that was made for the packet on its way. The outcome says in which direction the packet
was matched, and since a walk is always decided by a rule, it says so whenever an entry was charged.

Main statements: `runInsns_worked`, what running instructions does to the table and to the memory of
the packet; `evaluate_worked`, what an evaluation has done in the end is what its outcome says;
**`check_charges_once`**, in every session, which entry a packet is charged to, and what becomes of
the others.
-/

namespace PacketFilter

/-- A lookup that finds nothing does nothing. -/
theorem StateTable.lookup_of_eq_none {t : StateTable} {pkt : Packet} {now : Moment}
    (h : (t.lookup pkt now).1 = none) : (t.lookup pkt now).2 = t := by
  unfold lookup at h ⊢
  split
  · rfl
  · rename_i hcount
    rw [if_neg hcount] at h
    split at h
    · cases h
    · rfl

namespace StateTable.NumberedBy

variable {t : StateTable} {l : Ledger} {pkt : Packet} {now : Moment}

/-- Creating state. -/
theorem installs (h : t.NumberedBy l) {ops : List TableOp}
    (hops : ∀ op ∈ ops, op.Installs pkt now) : (t.run ops).2.NumberedBy (l.run ops).2 := by
  refine ⟨?_, (Ledger.leavesAlone_run h.distinct hops).distinct⟩
  rw [Ledger.flat_run]
  exact (h.refines.run_refines ops).2

/-- What a lookup finds has a number. -/
theorem lookup (h : t.NumberedBy l) {hit : StateHit} (hfound : (t.lookup pkt now).1 = some hit) :
    ∃ i l', l.lookup pkt now = (some (i, hit), l') ∧ (t.lookup pkt now).2.NumberedBy l' := by
  obtain ⟨hanswer, hrefines⟩ := h.refines.lookup pkt now
  rw [l.flat_lookup] at hanswer hrefines
  obtain ⟨⟨i, hit'⟩, hl, rfl⟩ := Option.map_eq_some_iff.mp (hanswer.symm.trans hfound)
  have hlookup : l.lookup pkt now = (some (i, hit'), (l.lookup pkt now).2) := by rw [← hl]
  exact ⟨i, _, hlookup, hrefines, (Ledger.leavesAlone_lookup h.distinct hlookup).distinct⟩

end StateTable.NumberedBy

/-- **What a packet has done to a table** by a point of its evaluation: state has been created for
it, and it has been charged once if it remembers a hit. -/
inductive Progress.Worked (env : Surroundings) (pkt : Packet) (t : StateTable) (p : Progress) : Prop
  | unmatched (ops : List TableOp) (hops : ∀ op ∈ ops, op.Installs pkt env.now)
      (hmemory : p.lookup.getD none = none) (hstates : (t.run ops).2 = p.engine.states)
  | matched (before after : List TableOp) (hit : StateHit)
      (hbefore : ∀ op ∈ before, op.Installs pkt env.now)
      (hafter : ∀ op ∈ after, op.Installs pkt env.now) (hmemory : p.lookup = some (some hit))
      (hfound : ((t.run before).2.lookup pkt env.now).1 = some hit)
      (hstates : (((t.run before).2.lookup pkt env.now).2.run after).2 = p.engine.states)

section

variable {env : Surroundings} {pkt : Packet} {t : StateTable} {p : Progress} {rule : Rule}

namespace Progress.Worked

variable (env pkt) in
theorem start (e : Engine) : Worked env pkt e.states { engine := e } :=
  .unmatched [] (by simp) rfl rfl

/-- What concerns neither the table nor the memory. -/
theorem of_eq (h : p.Worked env pkt t) {e : Engine} (he : e.states = p.engine.states) :
    Worked env pkt t { p with engine := e } := by
  cases h with
  | unmatched ops hops hmemory hstates => exact .unmatched ops hops hmemory (hstates.trans he.symm)
  | matched before after hit hbefore hafter hmemory hfound hstates =>
    exact .matched before after hit hbefore hafter hmemory hfound (hstates.trans he.symm)

/-- Creating state. -/
theorem create (h : p.Worked env pkt t) (request : StateRequest) :
    Worked env pkt t { p with engine := (createState env pkt rule request p.engine).2 } := by
  let op := TableOp.install (p.engine.roster.status rule.id).stateEnabled rule request pkt env.now
  have hop : ∀ op' ∈ [op], op'.Installs pkt env.now := fun op' hmem =>
    List.mem_singleton.mp hmem ▸ ⟨_, _, _, rfl⟩
  have hrun : (p.engine.states.run [op]).2 = (createState env pkt rule request p.engine).2.states :=
    (createState_states rule request p.engine).1.symm
  have happend : ∀ {ops : List TableOp}, (∀ op' ∈ ops, op'.Installs pkt env.now) →
      ∀ op' ∈ ops ++ [op], op'.Installs pkt env.now := fun hops op' hmem =>
    (List.mem_append.mp hmem).elim (hops op') (hop op')
  cases h with
  | unmatched ops hops hmemory hstates =>
    refine .unmatched (ops ++ [op]) (happend hops) hmemory ?_
    rw [StateTable.run_append, hstates, hrun]
  | matched before after hit hbefore hafter hmemory hfound hstates =>
    refine .matched before (after ++ [op]) hit hbefore (happend hafter) hmemory hfound ?_
    rw [StateTable.run_append, hstates, hrun]

/-- Looking up state, unless that was done before. -/
theorem consult (h : p.Worked env pkt t) : (consult env pkt p).2.Worked env pkt t := by
  unfold PacketFilter.consult
  cases hlookup : p.lookup with
  | some found => exact h
  | none =>
    cases h with
    | matched before after hit hbefore hafter hmemory hfound hstates =>
      rw [hlookup] at hmemory
      cases hmemory
    | unmatched ops hops hmemory hstates =>
      cases hhit : (p.engine.states.lookup pkt env.now).1 with
      | none =>
        refine .unmatched ops hops hhit ?_
        exact hstates.trans (StateTable.lookup_of_eq_none hhit).symm
      | some hit =>
        rw [← hstates] at hhit ⊢
        exact .matched ops [] hit hops (by simp) (congrArg some hhit) hhit rfl

end Progress.Worked

/-- Carrying out an action leaves the table alone, and what the packet remembers. -/
theorem perform_worked (h : p.Worked env pkt t) (action : Action) :
    (perform env pkt rule action p).2.Worked env pkt t := by
  cases action with
  | count | skipTo target => exact h.of_eq rfl
  | reject code =>
    simp only [perform]
    split
    · exact h.of_eq rfl
    · exact h
  | forward address target =>
    simp only [perform]
    split
    · exact h
    · split <;> exact h
  | _ => exact h

/-- **Running an instruction.** -/
theorem examine_worked (h : p.Worked env pkt t) (c : Command) :
    (examine env pkt rule c p).2.Worked env pkt t := by
  have hconsult := h.consult
  have hcreate : ∀ request, Progress.Worked env pkt t
      { p with engine := (createState env pkt rule request p.engine).2 } := h.create
  unfold examine
  split
  case h_1 | h_2 =>
    generalize consult env pkt p = x at hconsult
    obtain ⟨_ | found, p'⟩ := x <;> exact hconsult
  case h_3 =>
    have hcreate := hcreate .keepState
    generalize createState env pkt rule .keepState p.engine = x at hcreate
    obtain ⟨_ | _, e⟩ := x <;> exact hcreate
  case h_4 parts connections =>
    have hcreate := hcreate (.limit parts connections)
    generalize createState env pkt rule (.limit parts connections) p.engine = x at hcreate
    obtain ⟨_ | _, e⟩ := x <;> exact hcreate
  case h_5 => exact h.of_eq (logMatch_states rule p.engine)
  case h_6 action _ => exact perform_worked h action
  case h_7 c _ _ _ _ _ _ =>
    refine h.of_eq ?_
    unfold Engine.afterDraw
    split <;> rfl

/-- **Running instructions.** -/
theorem runInsns_worked (is : List Insn) (skipping : Bool) (h : p.Worked env pkt t) :
    (runInsns env pkt rule is skipping p).2.Worked env pkt t := by
  induction is generalizing skipping p with
  | nil => exact h
  | cons i is ih =>
    cases skipping with
    | true => exact ih i.isOr h
    | false =>
      have hfirst : (examine env pkt rule i.command p).2.Worked env pkt t :=
        examine_worked h i.command
      simp only [runInsns]
      generalize examine env pkt rule i.command p = x at hfirst
      obtain ⟨b | result, p'⟩ := x
      · simp only
        split
        · exact ih i.isOr hfirst
        · split
          · exact ih false hfirst
          · exact hfirst
      · exact hfirst

/-! ## Walking -/

variable {e : Engine} {last : Rule} {w w' : Walk}

/-- **A step of a walk.** -/
theorem Walk.next_worked (h : w.progress.Worked env pkt t) (hnext : w.next env pkt = .inl w') :
    w'.progress.Worked env pkt t := by
  rcases Walk.step_cases hnext with ⟨i, rule, -, -, -, rfl⟩ | ⟨rule, is, -, hprogress, -⟩
  · exact h
  · rw [hprogress]
    exact runInsns_worked is false h

/-- **A walk within the chain**: its outcome says how the packet was matched, if it was. -/
theorem Walk.run_worked (hclosed : env.Closed e last) (he : e.Within (env.InService e))
    (hw : w.Underway env pkt e) (hin : w.cursor.Inside env.chain)
    (h : w.progress.Worked env pkt t) :
    ∃ p, Progress.Worked env pkt t p ∧ p.engine.states = (Walk.run env pkt w).2.states ∧
      (Walk.run env pkt w).1.direction = p.direction := by
  have hstep : ∀ w w' : Walk,
      w.Underway env pkt e ∧ w.cursor.Inside env.chain ∧ w.progress.Worked env pkt t →
      w.next env pkt = .inl w' →
      w'.Underway env pkt e ∧ w'.cursor.Inside env.chain ∧ w'.progress.Worked env pkt t := by
    rintro w w' ⟨hw, hin, h⟩ hnext
    exact ⟨hw.next he hnext, Walk.next_inside hclosed hw hin hnext, Walk.next_worked h hnext⟩
  obtain ⟨w', ⟨-, hin', h'⟩, hlast⟩ := Walk.run_spec hstep ⟨hw, hin, h⟩
  generalize Walk.run env pkt w = done at hlast
  rcases Walk.last_cases hlast with ⟨i, hcursor, hget, -⟩ | ⟨rule, is, v, -, -, rfl⟩
  · rw [hcursor] at hin'
    have hin' : i < env.chain.rules.length := hin'
    rw [Chain.get?, List.getElem?_eq_getElem hin'] at hget
    cases hget
  · exact ⟨_, runInsns_worked is false h', rfl, rfl⟩

/-- A packet that does not walk has matched nothing. -/
theorem direction_of_startOf_eq_inr {resume : Option Rule} {roster : Roster} {outcome : Outcome}
    (h : startOf env pkt resume roster = .inr outcome) : outcome.direction = none := by
  unfold startOf at h
  split at h
  · split at h
    · cases h
      rfl
    · split at h
      · cases h
        rfl
      · cases h
  · split at h
    · split at h
      · cases h
        rfl
      · split at h
        · cases h
        · cases h
          rfl
    · cases h

variable (pkt) in
/-- **An evaluation has done what its outcome says**, wherever the packet starts. -/
theorem evaluate_worked (hclosed : env.Closed e last) (he : e.Within (env.InService e))
    (resume : Option Rule) :
    ∃ p, Progress.Worked env pkt e.states p ∧
      p.engine.states = (evaluate env pkt resume e).2.states ∧
      (evaluate env pkt resume e).1.direction = p.direction := by
  have hstart := Progress.Worked.start env pkt e
  unfold evaluate
  split
  · exact ⟨_, hstart, rfl, rfl⟩
  split
  · rename_i outcome houtcome
    exact ⟨_, hstart, rfl, direction_of_startOf_eq_inr houtcome⟩
  · rename_i i _
    by_cases hin : i < env.chain.length
    · exact Walk.run_worked hclosed he (Walk.Underway.start pkt i) hin hstart
    · -- Behind the end of the chain there is nothing to match.
      have hget : env.chain.get? i = none := List.getElem?_eq_none (Nat.not_lt.mp hin)
      have hnext : Walk.next env pkt ⟨.standing i, { engine := e }⟩ =
          .inr ({ verdict := .deny }, e.write (.undecided pkt.flow)) := by
        simp only [Walk.next, hget]
      rw [Walk.run_of_next_inr hnext]
      exact ⟨_, hstart, rfl, rfl⟩

end

/-! ## Sessions -/

namespace Session

open Firewall

variable {s : Session}

/-- **A packet is charged to one entry of the table at most**, whatever comes and whatever rule it
comes back with: to one exactly if the outcome names a direction, and then to one that was live and
is matched by the packet in that direction. Of all others that packets could match none is changed.
What the table is asked to do is to create state, before and behind the lookup. -/
theorem check_charges_once (hs : s.Reachable fun rule _ => rule.createsState = true) (pkt : Packet)
    (resume : Option Rule) :
    let fw := s.firewall
    let outcome := (fw.check pkt resume).1
    let fw' := (fw.check pkt resume).2
    (∃ l, fw.engine.states.NumberedBy l) ∧
      ∃ before after, (∀ op ∈ before ++ after, op.Installs pkt fw.now) ∧
        let lookup := (outcome.direction.map fun _ => TableOp.lookup pkt fw.now).toList
        let ops := before ++ lookup ++ after
        (fw.engine.states.run ops).2 = fw'.engine.states ∧
        ∀ l, fw.engine.states.NumberedBy l → fw'.engine.states.NumberedBy (l.run ops).2 ∧
          ∃ charged : Option (Nat × MatchDirection), charged.map Prod.snd = outcome.direction ∧
            l.ChargesOnce pkt fw.now charged (l.run before).2 (l.run ops).2 := by
  intro fw outcome fw'
  obtain ⟨config, hpos, hsound⟩ := hs.lasting fair_creates
  obtain ⟨last, hc, horderly⟩ := hs.orderly fair_creates
  obtain ⟨p, hworked, hstates, hdirection⟩ := evaluate_worked pkt horderly.closed hc.within resume
  have hdirection : outcome.direction = p.direction := hdirection
  have hstates : p.engine.states = fw'.engine.states := hstates
  refine ⟨hsound.exists_numberedBy, ?_⟩
  rw [hdirection, ← hstates]
  cases hworked with
  | unmatched before hbefore hmemory hstates =>
    have hnone : p.direction = none := by rw [Progress.direction, hmemory]; rfl
    refine ⟨before, [], by rw [List.append_nil]; exact hbefore, ?_⟩
    simp only [hnone, Option.map_none, Option.toList_none, List.append_nil]
    refine ⟨hstates, fun l hl => ⟨hstates ▸ hl.installs hbefore, none, rfl, ?_⟩⟩
    exact Ledger.chargesNone hl.distinct _ hbefore
  | matched before after hit hbefore hafter hmemory hfound hstates =>
    have hsome : p.direction = some hit.direction := by rw [Progress.direction, hmemory]; rfl
    refine ⟨before, after, fun op hop => (List.mem_append.mp hop).elim (hbefore op) (hafter op), ?_⟩
    simp only [hsome, Option.map_some, Option.toList_some, StateTable.run_append,
      Ledger.run_append]
    refine ⟨hstates, fun l hl => ?_⟩
    obtain ⟨i, l', hlookup, hl'⟩ := (hl.installs hbefore).lookup hfound
    have hrun : ((l.run before).2.run [.lookup pkt fw.now]).2 = l' := congrArg Prod.snd hlookup
    rw [hrun, ← hstates]
    have hpos : l.config.lifetimes.Positive := by
      rw [← l.config_flat, (hsound.of_refines hl.refines).settings]
      exact hpos
    exact ⟨hl'.installs hafter, some (i, hit.direction), rfl,
      Ledger.chargesOnce hl.distinct hpos hbefore hafter hlookup⟩

/-- A rule that keeps state counts a packet and lets it go on, and the next rule finds the state:
the packet is charged to the entry that it has just made, and not to that of another flow. -/
theorem check_charges_once_own :
    let counter : RuleImage := ⟨100, 0, 1, [292, 300]⟩
    let checker : RuleDraft := { number := 200, action := .act .checkState }
    let packet (port : UInt16) : Packet :=
      { flow := ⟨1, 2, 3, port, Protocol.udp, 0⟩, direction := .inbound, length := 40 }
    let s := opened.run [.add counter, .add checker.assemble, .check (packet 4) none]
    s.Reachable (fun rule _ => rule.createsState = true) ∧ s.firewall.stateCount = 1 ∧
      (s.firewall.check (packet 5) none).1.direction = some .forward ∧
      ∃ l found l' i, s.firewall.engine.states.NumberedBy l ∧
        (s.firewall.check (packet 5) none).2.engine.states.NumberedBy l' ∧
        l.ChargesOnce (packet 5) s.firewall.now (some (i, .forward)) found l' := by
  intro counter checker packet s
  have hs : s.Reachable fun rule _ => rule.createsState = true :=
    opened_reachable.run (by simp [Allows])
  have hcount : s.firewall.stateCount = 1 := by
    simp only [s, run, List.foldl, step, Firewall.check, evaluate, Walk.run_eq_runFor 5]
    decide +kernel
  have hdirection : (s.firewall.check (packet 5) none).1.direction = some .forward := by
    simp only [s, run, List.foldl, step, Firewall.check, evaluate, Walk.run_eq_runFor 5]
    decide +kernel
  obtain ⟨⟨l, hl⟩, before, after, -, -, hcharges⟩ := check_charges_once hs (packet 5) none
  obtain ⟨hl', charged, hcharged, honce⟩ := hcharges l hl
  obtain ⟨⟨i, dir⟩, rfl, hdir⟩ := Option.map_eq_some_iff.mp (hcharged.trans hdirection)
  obtain rfl : dir = .forward := hdir
  exact ⟨hs, hcount, hdirection, l, _, _, i, hl, hl', honce⟩

end Session

end PacketFilter
