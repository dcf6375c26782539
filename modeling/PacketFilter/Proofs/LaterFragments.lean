import PacketFilter.Proofs.Session
import PacketFilter.Proofs.Walks

/-!
# Later fragments are not steered by what is no header

Only the first fragment of a datagram has a transport header. What a later one carries in the place
of ports and TCP fields are bytes of its contents, which whoever sends it chooses at will. None of
them make a difference to the rules, as long as these neither look up nor create state, which goes
by the ports.

Two evaluations are compared that begin with the same engine, of packets that differ in nothing but
these fields. Since the same conditions hold of both, they run the same instructions, one by one,
and what they write and ask for differs at most in the ports of the flow that is named.

Main statements: `Command.holds_withTransport` and `Packet.mayAnswer_withTransport`, all that is
looked at of a packet is guarded by its being a first fragment; `Walk.next_unsteered`, a step leads
to the same; **`evaluate_unsteered`**, so does an evaluation.
-/

namespace PacketFilter

/-! ## What is compared -/

/-- The packet with other ports and another TCP header. -/
def Packet.withTransport (pkt : Packet) (source destination : UInt16) (tcp : Option TcpHeader) :
    Packet :=
  { pkt with flow := { pkt.flow with sourcePort := source, destinationPort := destination }, tcp }

/-- The flow without its ports. -/
def Flow.withoutPorts (f : Flow) : Flow := { f with sourcePort := 0, destinationPort := 0 }

/-- The message without the ports of the flow that it names. -/
def LogMessage.withoutPorts : LogMessage → LogMessage
  | .matched rule flow direction fragment => .matched rule flow.withoutPorts direction fragment
  | .stateRefused rule why flow => .stateRefused rule why flow.withoutPorts
  | .undecided flow => .undecided flow.withoutPorts
  | message => message

/-- The request without the ports of the flow that it names. -/
def PacketRequest.withoutPorts : PacketRequest → PacketRequest
  | .reject flow code => .reject flow.withoutPorts code
  | .probe flow seq ack flags => .probe flow.withoutPorts seq ack flags
  | .shape flow id pipe rule => .shape flow.withoutPorts id pipe rule
  | .divert flow target copy rule => .divert flow.withoutPorts target copy rule

/-- The code with which the request has a packet answered, if it does. -/
def PacketRequest.code? : PacketRequest → Option UInt16
  | .reject _ code => some code
  | _ => none

theorem PacketRequest.code?_withoutPorts (r : PacketRequest) : r.withoutPorts.code? = r.code? := by
  cases r <;> rfl

/-- **Engines that differ in nothing but ports** in what has been written and asked for. -/
structure Engine.SameButPorts (e e' : Engine) : Prop where
  roster : e'.roster = e.roster
  states : e'.states = e.states
  complaints : e'.complaints = e.complaints
  drawn : e'.drawn = e.drawn
  log : e'.log.map LogMessage.withoutPorts = e.log.map LogMessage.withoutPorts
  requests : e'.requests.map PacketRequest.withoutPorts = e.requests.map PacketRequest.withoutPorts

/-- The same progress, without a lookup so far. -/
structure Progress.SameButPorts (p p' : Progress) : Prop where
  engine : p.engine.SameButPorts p'.engine
  fresh : p.lookup = none
  fresh' : p'.lookup = none

/-- Does the command look up state, or create it? -/
def Command.usesState : Command → Bool
  | .probeState | .act .checkState => true
  | c => c.createsState

/-- **A rule that neither looks up nor creates state.** -/
def Rule.Stateless (rule : Rule) : Prop := ∀ i ∈ rule.insns, i.command.usesState = false

instance (rule : Rule) : Decidable rule.Stateless :=
  inferInstanceAs (Decidable (∀ i ∈ rule.insns, _))

/-! ## Packets -/

section

variable {env : Surroundings} {pkt : Packet} {source destination : UInt16} {tcp : Option TcpHeader}
  {e e' : Engine} {p p' : Progress} {rule : Rule}

theorem Packet.hasTransport_eq_false (hlater : pkt.fragmentOffset ≠ 0) :
    pkt.hasTransport = false := by
  simpa [Packet.hasTransport] using hlater

/-- **No condition on a later fragment** looks at its ports or its TCP header. -/
theorem Command.holds_withTransport (hlater : pkt.fragmentOffset ≠ 0) (c : Command)
    (draw : UInt32) :
    c.holds (pkt.withTransport source destination tcp) draw = c.holds pkt draw := by
  have hnone := Packet.hasTransport_eq_false hlater
  have hnone' : (pkt.withTransport source destination tcp).hasTransport = false := hnone
  cases c with
  | address side a | maskedAddress side a mask | addressSet side set => cases side <;> rfl
  | ports side ranges =>
    simp only [Command.holds, Packet.hasPorts, hnone, hnone', Bool.and_false, Bool.false_and]
  | established | tcpFlags | tcpWindow | tcpSeq | tcpAck | tcpOptions =>
    simp only [Command.holds, Packet.tcpMeets, Packet.tcpHeader?, hnone, hnone', Bool.and_false,
      Bool.false_eq_true, if_false, Option.any_none]
  | _ => rfl

/-- **Nor does the decision whether to answer it**: a reset is sent to no later fragment. -/
theorem Packet.mayAnswer_withTransport (hlater : pkt.fragmentOffset ≠ 0) (code : UInt16) :
    (pkt.withTransport source destination tcp).mayAnswer code = pkt.mayAnswer code := by
  have hnone := Packet.hasTransport_eq_false hlater
  have hnone' : (pkt.withTransport source destination tcp).hasTransport = false := hnone
  simp only [Packet.mayAnswer, hnone, hnone', Bool.and_false, Bool.false_and]
  rfl

/-! ## Effects of instructions -/

namespace Engine.SameButPorts

theorem refl (e : Engine) : e.SameButPorts e := ⟨rfl, rfl, rfl, rfl, rfl, rfl⟩

/-- Writing messages that differ at most in ports. -/
theorem write (h : e.SameButPorts e') {m m' : LogMessage} (hm : m'.withoutPorts = m.withoutPorts) :
    (e.write m).SameButPorts (e'.write m') where
  roster := h.roster
  states := h.states
  complaints := h.complaints
  drawn := h.drawn
  log := by
    simp only [Engine.write, List.map_append, List.map_cons, List.map_nil]
    rw [h.log, hm]
  requests := h.requests

/-- Asking for things that differ at most in ports. -/
theorem request (h : e.SameButPorts e') {r r' : PacketRequest}
    (hr : r'.withoutPorts = r.withoutPorts) : (e.request r).SameButPorts (e'.request r') where
  roster := h.roster
  states := h.states
  complaints := h.complaints
  drawn := h.drawn
  log := h.log
  requests := by
    simp only [Engine.request, List.map_append, List.map_cons, List.map_nil]
    rw [h.requests, hr]

/-- Changing the status of a rule. -/
theorem update (h : e.SameButPorts e') (id : Nat) (f : RuleStatus → RuleStatus) :
    Engine.SameButPorts { e with roster := e.roster.update id f }
      { e' with roster := e'.roster.update id f } where
  roster := by rw [h.roster]
  states := h.states
  complaints := h.complaints
  drawn := h.drawn
  log := h.log
  requests := h.requests

theorem afterDraw (h : e.SameButPorts e') (c : Command) :
    (e.afterDraw c).SameButPorts (e'.afterDraw c) := by
  unfold Engine.afterDraw
  split
  · exact ⟨h.roster, h.states, h.complaints, congrArg (· + 1) h.drawn, h.log, h.requests⟩
  · exact h

end Engine.SameButPorts

theorem Progress.SameButPorts.direction (h : p.SameButPorts p') :
    p.direction = none ∧ p'.direction = none := by
  constructor
  · rw [Progress.direction, h.fresh]
    rfl
  · rw [Progress.direction, h.fresh']
    rfl

/-- The budget goes by the rule, and the line differs at most in ports. -/
theorem logMatch_unsteered (env : Surroundings) (pkt : Packet) (source destination : UInt16)
    (tcp : Option TcpHeader) (rule : Rule) (h : e.SameButPorts e') :
    (logMatch env pkt rule e).SameButPorts
      (logMatch env (pkt.withTransport source destination tcp) rule e') := by
  unfold logMatch
  split
  · exact h
  · rw [h.roster]
    generalize (e.roster.status rule.id).permitLog rule.logBudget = permitted
    obtain ⟨permit, status⟩ := permitted
    have hspent := h.update rule.id fun _ => status
    rw [h.roster] at hspent
    have hline : (LogMessage.matched rule (pkt.withTransport source destination tcp).flow
        pkt.direction (pkt.fragmentOffset != 0)).withoutPorts =
        (LogMessage.matched rule pkt.flow pkt.direction (pkt.fragmentOffset != 0)).withoutPorts :=
      rfl
    cases permit with
    | suppressed => exact hspent
    | log => exact hspent.write hline
    | logLast => exact (hspent.write hline).write rfl

/-- **An action is carried out alike.** -/
theorem perform_unsteered (env : Surroundings) (hlater : pkt.fragmentOffset ≠ 0) (rule : Rule)
    (action : Action) (h : p.SameButPorts p') :
    (perform env (pkt.withTransport source destination tcp) rule action p').1 =
        (perform env pkt rule action p).1 ∧
      (perform env pkt rule action p).2.SameButPorts
        (perform env (pkt.withTransport source destination tcp) rule action p').2 := by
  obtain ⟨hdirection, hdirection'⟩ := h.direction
  have hcount : Progress.SameButPorts { p with engine := p.engine.count rule pkt env.now }
      { p' with engine :=
          p'.engine.count rule (pkt.withTransport source destination tcp) env.now } :=
    ⟨h.engine.update rule.id (·.count pkt.length env.now), h.fresh, h.fresh'⟩
  cases action with
  | reject code =>
    simp only [perform, Packet.mayAnswer_withTransport hlater]
    split
    · exact ⟨rfl, h.engine.request rfl, h.fresh, h.fresh'⟩
    · exact ⟨rfl, h⟩
  | count => exact ⟨rfl, hcount⟩
  | skipTo target => exact ⟨rfl, hcount⟩
  | forward address target =>
    have hlayer : (pkt.withTransport source destination tcp).layer2 = pkt.layer2 := rfl
    simp only [perform, hlayer, hdirection, hdirection']
    split
    · exact ⟨rfl, h⟩
    · exact ⟨rfl, h⟩
  | _ => exact ⟨rfl, h⟩

/-- **An instruction that does not use state leads to the same**, and follows no rule. -/
theorem examine_unsteered (env : Surroundings) (hlater : pkt.fragmentOffset ≠ 0)
    (source destination : UInt16) (tcp : Option TcpHeader) (rule : Rule) {c : Command}
    (hc : c.usesState = false) (h : p.SameButPorts p') :
    (examine env (pkt.withTransport source destination tcp) rule c p').1 =
        (examine env pkt rule c p).1 ∧
      (∀ creator, (examine env pkt rule c p).1 ≠ .ends (.follow creator)) ∧
      (examine env pkt rule c p).2.SameButPorts
        (examine env (pkt.withTransport source destination tcp) rule c p').2 := by
  unfold examine
  split
  case h_1 | h_2 | h_3 | h_4 => cases hc
  case h_5 =>
    exact ⟨rfl, fun _ hno => (by cases hno),
      logMatch_unsteered env pkt source destination tcp rule h.engine, h.fresh, h.fresh'⟩
  case h_6 action _ =>
    obtain ⟨hresult, hafter⟩ := perform_unsteered env hlater rule action h
    refine ⟨congrArg Examined.ends hresult, fun creator hfollow => ?_, hafter⟩
    exact perform_ne_follow env pkt rule action p creator (Examined.ends.inj hfollow)
  case h_7 =>
    refine ⟨?_, fun _ hno => (by cases hno), h.engine.afterDraw c, h.fresh, h.fresh'⟩
    rw [Command.holds_withTransport hlater, h.engine.drawn]

/-- **A rule that does not use state leads to the same**, from any of its instructions on. -/
theorem runInsns_unsteered (env : Surroundings) (hlater : pkt.fragmentOffset ≠ 0) (rule : Rule)
    (is : List Insn) (his : ∀ i ∈ is, i.command.usesState = false) (skipping : Bool)
    (h : p.SameButPorts p') :
    (runInsns env (pkt.withTransport source destination tcp) rule is skipping p').1 =
        (runInsns env pkt rule is skipping p).1 ∧
      (∀ creator, (runInsns env pkt rule is skipping p).1 ≠ .follow creator) ∧
      (runInsns env pkt rule is skipping p).2.SameButPorts
        (runInsns env (pkt.withTransport source destination tcp) rule is skipping p').2 := by
  induction is generalizing skipping p p' with
  | nil => exact ⟨rfl, fun _ hno => (by cases hno), h⟩
  | cons i is ih =>
    have his' : ∀ j ∈ is, j.command.usesState = false :=
      fun j hj => his j (List.mem_cons_of_mem i hj)
    cases skipping with
    | true => exact ih his' i.isOr h
    | false =>
      obtain ⟨hresult, hstays, hafter⟩ :=
        examine_unsteered env hlater source destination tcp rule (his i List.mem_cons_self) h
      simp only [runInsns]
      generalize examine env (pkt.withTransport source destination tcp) rule i.command p' =
        examined' at hresult hafter
      generalize examine env pkt rule i.command p = examined at hresult hstays hafter
      obtain ⟨examined, q⟩ := examined
      obtain ⟨examined', q'⟩ := examined'
      obtain rfl : examined' = examined := hresult
      cases examined' with
      | ends result =>
        exact ⟨rfl, fun creator heq => hstays creator (congrArg Examined.ends heq), hafter⟩
      | holds b =>
        simp only
        split
        · exact ih his' i.isOr hafter
        · split
          · exact ih his' false hafter
          · exact ⟨rfl, fun _ hno => (by cases hno), hafter⟩

/-! ## Walks -/

variable {w w' : Walk}

/-- Walks that stand at the same position, and have made the same progress. -/
structure Walk.SameButPorts (w w' : Walk) : Prop where
  stands : ∃ i, w.cursor = .standing i ∧ w'.cursor = .standing i
  progress : w.progress.SameButPorts w'.progress

/-- Steps that lead to the same position, or to the same outcome. -/
def StepsSameButPorts : Walk ⊕ (Outcome × Engine) → Walk ⊕ (Outcome × Engine) → Prop
  | .inl w, .inl w' => w.SameButPorts w'
  | .inr done, .inr done' => done'.1 = done.1 ∧ done.2.SameButPorts done'.2
  | _, _ => False

theorem settle_unsteered (env : Surroundings) (pkt : Packet) (rule : Rule) (i : Nat)
    {result result' : RuleResult × Progress} (hresult : result'.1 = result.1)
    (hstays : ∀ creator, result.1 ≠ .follow creator) (hafter : result.2.SameButPorts result'.2) :
    StepsSameButPorts (settle env pkt rule i result)
      (settle env (pkt.withTransport source destination tcp) rule i result') := by
  obtain ⟨kind, p⟩ := result
  obtain ⟨kind', p'⟩ := result'
  obtain rfl : kind' = kind := hresult
  obtain ⟨hdirection, hdirection'⟩ := hafter.direction
  cases kind' with
  | nextRule => exact ⟨⟨_, rfl, rfl⟩, hafter⟩
  | goOn => exact ⟨⟨_, rfl, rfl⟩, hafter⟩
  | follow creator => exact absurd rfl (hstays creator)
  | decided verdict =>
    refine ⟨?_, hafter.engine.update rule.id (·.count pkt.length env.now)⟩
    show (⟨verdict, some rule, p'.direction⟩ : Outcome) = ⟨verdict, some rule, p.direction⟩
    rw [hdirection, hdirection']

/-- **A step leads to the same.** -/
theorem Walk.next_unsteered (hlater : pkt.fragmentOffset ≠ 0) (source destination : UInt16)
    (tcp : Option TcpHeader) (hstateless : ∀ rule ∈ env.chain.rules, rule.Stateless)
    (h : w.SameButPorts w') :
    StepsSameButPorts (w.next env pkt)
      (w'.next env (pkt.withTransport source destination tcp)) := by
  obtain ⟨cursor, p⟩ := w
  obtain ⟨cursor', p'⟩ := w'
  obtain ⟨⟨i, rfl, rfl⟩, hprogress⟩ := h
  simp only [Walk.next]
  cases hget : env.chain.get? i with
  | none => exact ⟨rfl, hprogress.engine.write rfl⟩
  | some rule =>
    have hset : p'.engine.roster.setOf rule = p.engine.roster.setOf rule := by
      rw [hprogress.engine.roster]
    simp only [hset]
    split
    · exact ⟨⟨_, rfl, rfl⟩, hprogress⟩
    · obtain ⟨hresult, hstays, hafter⟩ := runInsns_unsteered env hlater rule rule.insns
        (hstateless rule (List.mem_of_getElem? hget)) false hprogress
      exact settle_unsteered env pkt rule i hresult hstays hafter

/-- **A walk comes to the same.** -/
theorem Walk.run_unsteered (hlater : pkt.fragmentOffset ≠ 0)
    (hstateless : ∀ rule ∈ env.chain.rules, rule.Stateless) (h : w.SameButPorts w') :
    (Walk.run env (pkt.withTransport source destination tcp) w').1 = (Walk.run env pkt w).1 ∧
      (Walk.run env pkt w).2.SameButPorts
        (Walk.run env (pkt.withTransport source destination tcp) w').2 := by
  fun_induction Walk.run env pkt w generalizing w' with
  | case1 w done hnext =>
    have hstep := Walk.next_unsteered hlater source destination tcp hstateless h
    rw [hnext] at hstep
    cases hnext' : w'.next env (pkt.withTransport source destination tcp) with
    | inl v' => rw [hnext'] at hstep; exact hstep.elim
    | inr done' =>
      rw [hnext'] at hstep
      rw [Walk.run_of_next_inr hnext']
      exact hstep
  | case2 w v hnext ih =>
    have hstep := Walk.next_unsteered hlater source destination tcp hstateless h
    rw [hnext] at hstep
    cases hnext' : w'.next env (pkt.withTransport source destination tcp) with
    | inl v' =>
      rw [hnext'] at hstep
      rw [Walk.run_of_next_inl hnext']
      exact ih hstep
    | inr done' => rw [hnext'] at hstep; exact hstep.elim

/-- **A later fragment cannot be steered by its ports or its TCP header.** Where no rule of the
chain uses state, two later fragments that differ only there get the same verdict, from the same
rule, and leave the same counters; and what is asked for on their behalf is the same, code by code,
but for the ports. -/
theorem evaluate_unsteered (env : Surroundings)
    (hstateless : ∀ rule ∈ env.chain.rules, rule.Stateless) {pkt : Packet}
    (hlater : pkt.fragmentOffset ≠ 0) (source destination : UInt16) (tcp : Option TcpHeader)
    (resume : Option Rule) (e : Engine) :
    let done := evaluate env pkt resume e
    let done' := evaluate env (pkt.withTransport source destination tcp) resume e
    done'.1 = done.1 ∧ done.2.SameButPorts done'.2 ∧
      done'.2.requests.map PacketRequest.code? = done.2.requests.map PacketRequest.code? := by
  intro done done'
  have hsame : done'.1 = done.1 ∧ done.2.SameButPorts done'.2 := by
    have hstart : startOf env (pkt.withTransport source destination tcp) resume e.roster =
        startOf env pkt resume e.roster := rfl
    have hgenerated : (pkt.withTransport source destination tcp).generated = pkt.generated := rfl
    simp only [done, done', evaluate, hstart, hgenerated]
    split
    · exact ⟨rfl, .refl e⟩
    · split
      · exact ⟨rfl, .refl e⟩
      · exact Walk.run_unsteered hlater hstateless ⟨⟨_, rfl, rfl⟩, ⟨.refl e, rfl, rfl⟩⟩
  have hcodes : ∀ requests : List PacketRequest, requests.map PacketRequest.code? =
      (requests.map PacketRequest.withoutPorts).map PacketRequest.code? := by
    intro requests
    rw [List.map_map]
    exact List.map_congr_left fun r _ => r.code?_withoutPorts.symm
  refine ⟨hsame.1, hsame.2, ?_⟩
  rw [hcodes done'.2.requests, hsame.2.requests, ← hcodes]

end

/-! ## Fragments of a connection -/

namespace Session

/-- Connections to port 22 are let in, and what is established; anything else is answered with an
unreachable message. -/
def guarded : Session :=
  opened.run [
    .add (RuleDraft.assemble
      { number := 100, conditions := [⟨.ports .destination [⟨22, 22⟩], .none⟩],
        action := .act .accept }),
    .add (RuleDraft.assemble
      { number := 200, conditions := [⟨.established, .none⟩], action := .act .accept }),
    .add (RuleDraft.assemble { number := 300, action := .act (.reject 1) })]

/-- A later fragment whose first bytes read like the header of an established connection to
port 22, where the other one has nothing of the kind. -/
def disguised : Packet :=
  { flow := ⟨1, 2, 5000, 22, Protocol.tcp, 0⟩, direction := .inbound, length := 40,
    fragmentOffset := 185, tcp := some ⟨7, 9, 1024, TcpFlags.ack, .none⟩ }

/-- Both fragments are answered alike, and neither is let in; as a first fragment the one would
be. -/
theorem evaluate_unsteered_disguised :
    let env := guarded.firewall.surroundings
    let e := guarded.firewall.engine
    let plain := disguised.withTransport 0 0 none
    (∀ rule ∈ env.chain.rules, rule.Stateless) ∧ disguised.fragmentOffset ≠ 0 ∧
      (evaluate env disguised none e).1.verdict = .reject 1 ∧
      (evaluate env plain none e).1 = (evaluate env disguised none e).1 ∧
      (evaluate env plain none e).2.requests.map PacketRequest.code? = [some 1] ∧
      (evaluate env { disguised with fragmentOffset := 0 } none e).1.verdict = .accept := by
  intro env e plain
  have hstateless : ∀ rule ∈ env.chain.rules, rule.Stateless := by decide +kernel
  have hlater : disguised.fragmentOffset ≠ 0 := by decide
  obtain ⟨houtcome, -, hcodes⟩ := evaluate_unsteered env hstateless hlater 0 0 none none e
  refine ⟨hstateless, hlater, ?_, houtcome, hcodes.trans ?_, ?_⟩
  · simp only [env, e, evaluate, Walk.run_eq_runFor 8]
    decide +kernel
  · simp only [env, e, evaluate, Walk.run_eq_runFor 8]
    decide +kernel
  · simp only [env, e, evaluate, Walk.run_eq_runFor 8]
    decide +kernel

end Session

end PacketFilter
