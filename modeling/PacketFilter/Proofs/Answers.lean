import PacketFilter.Proofs.Verdict

/-!
# What the surroundings are asked to do with a packet

A packet that is rejected is answered from within the walk, by the rule that rejects it. A packet
that goes to the shaper or to a divert socket is handed out when the walk is over. So that nobody is
asked to answer a packet which then goes on, running instructions is followed from one function to
the next: what has been asked for when it is done is what its result calls for, and a result that
lets the packet go on calls for nothing.

Main statements: `mayAnswer_iff`, which packets may be answered; `runInsns_requests` and
`evaluate_requests`, what is asked for within a rule and within an evaluation;
**`process_requests`**, in every session what is asked for with a packet is what its verdict says.
-/

namespace PacketFilter

/-! ## Packets that may be answered -/

/-- **A packet that may be answered** with a message of a code: one of the network layer, to one
host, which asks for something if it is a control message. A reset answers a first fragment with a
TCP header that is no reset. -/
structure Packet.Answerable (pkt : Packet) (code : UInt16) : Prop where
  network : pkt.layer2 = false
  unicast : pkt.broadcast = false
  oneHost : pkt.flow.destination.isMulticast = false ∧ pkt.flow.destination.isBroadcast = false
  query : pkt.isIcmp = true → pkt.isIcmpQuery = true
  reset : code = Action.resetCode →
    ∃ header, pkt.tcpHeader? = some header ∧ header.flags.includes TcpFlags.rst = false

/-- A first fragment with a TCP header that is no reset. -/
theorem Packet.resettable_iff {pkt : Packet} :
    (pkt.isTcp && pkt.hasTransport && pkt.tcp.isSome && !pkt.tcpFlags.includes TcpFlags.rst) =
        true ↔
      ∃ header, pkt.tcpHeader? = some header ∧ header.flags.includes TcpFlags.rst = false := by
  cases htcp : pkt.tcp with
  | none => simp [tcpHeader?, htcp]
  | some header => simp [tcpHeader?, tcpFlags, htcp]

theorem mayAnswer_iff {pkt : Packet} {code : UInt16} :
    pkt.mayAnswer code = true ↔ pkt.Answerable code := by
  have hreset : (!(code == Action.resetCode && !(pkt.isTcp && pkt.hasTransport &&
      pkt.tcp.isSome && !pkt.tcpFlags.includes TcpFlags.rst))) = true ↔
      (code = Action.resetCode →
        ∃ header, pkt.tcpHeader? = some header ∧ header.flags.includes TcpFlags.rst = false) := by
    rw [← Packet.resettable_iff, Bool.not_eq_true', Bool.and_eq_false_imp, beq_iff_eq,
      Bool.not_eq_false']
  have hquery : (!(pkt.isIcmp && !pkt.isIcmpQuery)) = true ↔
      (pkt.isIcmp = true → pkt.isIcmpQuery = true) := by
    rw [Bool.not_eq_true', Bool.and_eq_false_imp, Bool.not_eq_false']
  simp only [Packet.mayAnswer, Bool.and_eq_true, hreset, hquery, Bool.not_eq_true']
  constructor
  · rintro ⟨⟨⟨⟨⟨hlayer2, hbroadcast⟩, hmulticast⟩, hall⟩, hquery⟩, hreset⟩
    exact ⟨hlayer2, hbroadcast, ⟨hmulticast, hall⟩, hquery, hreset⟩
  · rintro ⟨hlayer2, hbroadcast, ⟨hmulticast, hall⟩, hquery, hreset⟩
    exact ⟨⟨⟨⟨⟨hlayer2, hbroadcast⟩, hmulticast⟩, hall⟩, hquery⟩, hreset⟩

/-! ## What results call for -/

/-- The answer that a verdict on a packet calls for. -/
def Verdict.answers (pkt : Packet) : Verdict → List PacketRequest
  | .reject code => [.reject pkt.flow code]
  | _ => []

/-- The answer that the result of a rule calls for: that of its decision, if it decides. -/
def RuleResult.answers (pkt : Packet) : RuleResult → List PacketRequest
  | .decided v => v.answers pkt
  | _ => []

/-- The answer that running one instruction calls for. -/
def Examined.answers (pkt : Packet) : Examined → List PacketRequest
  | .holds _ => []
  | .ends result => result.answers pkt

section

variable (env : Surroundings) (pkt : Packet)

theorem consult_requests (p : Progress) :
    (consult env pkt p).2.engine.requests = p.engine.requests := by
  unfold consult
  split <;> rfl

theorem createState_requests (rule : Rule) (request : StateRequest) (e : Engine) :
    (createState env pkt rule request e).2.requests = e.requests := by
  unfold createState
  simp only
  split
  · rfl
  · split
    · dsimp only
      split <;> rfl
    · rfl

theorem logMatch_requests (rule : Rule) (e : Engine) :
    (logMatch env pkt rule e).requests = e.requests := by
  unfold logMatch
  split
  · rfl
  · dsimp only
    split <;> rfl

theorem afterDraw_requests (c : Command) (e : Engine) : (e.afterDraw c).requests = e.requests := by
  unfold Engine.afterDraw
  split <;> rfl

/-- An action asks for an answer exactly if it rejects. -/
theorem perform_requests (rule : Rule) (a : Action) (p : Progress) :
    (perform env pkt rule a p).2.engine.requests =
      p.engine.requests ++ (perform env pkt rule a p).1.answers pkt := by
  cases a with
  | reject code =>
    simp only [perform]
    split
    · rfl
    · exact (List.append_nil _).symm
  | forward address target =>
    simp only [perform]
    split
    · exact (List.append_nil _).symm
    · split <;> exact (List.append_nil _).symm
  | _ => exact (List.append_nil _).symm

/-- An instruction asks for an answer exactly if it ends the rule by rejecting. -/
theorem examine_requests (rule : Rule) (c : Command) (p : Progress) :
    (examine env pkt rule c p).2.engine.requests =
      p.engine.requests ++ (examine env pkt rule c p).1.answers pkt := by
  unfold examine
  split
  case h_1 | h_2 =>
    have hconsult := consult_requests env pkt p
    split <;> rename_i heq <;> rw [heq] at hconsult <;>
      exact hconsult.trans (List.append_nil _).symm
  case h_3 | h_4 =>
    have hcreate := createState_requests env pkt rule
    split <;> rename_i heq <;> (have hcreate := heq ▸ hcreate _ p.engine) <;>
      exact hcreate.trans (List.append_nil _).symm
  case h_5 => exact (logMatch_requests env pkt rule p.engine).trans (List.append_nil _).symm
  case h_6 a _ => exact perform_requests env pkt rule a p
  case h_7 => exact (afterDraw_requests _ p.engine).trans (List.append_nil _).symm

/-- **What running instructions asks for** is what their result calls for: no instruction asks for
an answer and lets the packet go on. -/
theorem runInsns_requests (rule : Rule) (is : List Insn) (skipping : Bool) (p : Progress) :
    (runInsns env pkt rule is skipping p).2.engine.requests =
      p.engine.requests ++ (runInsns env pkt rule is skipping p).1.answers pkt := by
  induction is generalizing skipping p with
  | nil => exact (List.append_nil _).symm
  | cons i is ih =>
    cases skipping with
    | true => exact ih i.isOr p
    | false =>
      have hfirst := examine_requests env pkt rule i.command p
      simp only [runInsns]
      split
      · rename_i result p' heq
        rw [heq] at hfirst
        exact hfirst
      · rename_i b p' heq
        rw [heq] at hfirst
        -- A condition asks for nothing, so what follows starts from the same requests.
        have hsame : p'.engine.requests = p.engine.requests :=
          hfirst.trans (List.append_nil _)
        rw [← hsame]
        split
        · exact ih i.isOr p'
        · split
          · exact ih false p'
          · exact (List.append_nil _).symm

/-! ## What evaluations ask for -/

variable {env pkt}

/-- A step that goes on asks for nothing. -/
theorem Walk.requests_next {w w' : Walk} (h : w.next env pkt = .inl w') :
    w'.progress.engine.requests = w.progress.engine.requests := by
  rcases Walk.step_cases h with ⟨i, rule, -, -, -, rfl⟩ | ⟨rule, is, -, hprogress, hcursor⟩
  · rfl
  · rw [hprogress, runInsns_requests]
    rcases hcursor with ⟨hresult, -⟩ | ⟨hresult, -⟩ | ⟨creator, hresult, -⟩ <;>
      (rw [hresult]; exact List.append_nil _)

/-- The last step asks for what the verdict calls for. -/
theorem Walk.requests_last {w : Walk} {done : Outcome × Engine} (h : w.next env pkt = .inr done) :
    done.2.requests = w.progress.engine.requests ++ done.1.verdict.answers pkt := by
  rcases Walk.last_cases h with ⟨i, -, -, rfl⟩ | ⟨rule, is, v, -, hdecided, rfl⟩
  · exact (List.append_nil _).symm
  · have hrun := runInsns_requests env pkt rule is false w.progress
    rw [hdecided] at hrun
    exact hrun

variable (env pkt)

theorem Walk.run_requests (w : Walk) :
    (Walk.run env pkt w).2.requests =
      w.progress.engine.requests ++ (Walk.run env pkt w).1.verdict.answers pkt := by
  obtain ⟨w', hsame, hlast⟩ := Walk.run_spec
    (fun _ _ hsame hnext => (Walk.requests_next hnext).trans hsame)
    (show w.progress.engine.requests = w.progress.engine.requests from rfl)
  rw [Walk.requests_last hlast, hsame]

/-- A packet that does not walk is not rejected. -/
theorem answers_startOf {resume : Option Rule} {roster : Roster} {outcome : Outcome}
    (h : startOf env pkt resume roster = .inr outcome) : outcome.verdict.answers pkt = [] := by
  rw [(startOf_eq_inr h).2]
  split <;> rfl

/-- **What an evaluation asks for** is what its verdict calls for. -/
theorem evaluate_requests (resume : Option Rule) (e : Engine) :
    (evaluate env pkt resume e).2.requests =
      e.requests ++ (evaluate env pkt resume e).1.verdict.answers pkt := by
  unfold evaluate
  split
  · exact (List.append_nil _).symm
  · split
    · rename_i outcome hstart
      rw [answers_startOf env pkt hstart]
      exact (List.append_nil _).symm
    · exact Walk.run_requests env pkt _

end

/-! ## Sessions -/

/-- The action that a packet is handed out for. -/
def PacketRequest.handedOutFor? : PacketRequest → Option Action
  | .shape _ id pipe _ => some (if pipe then .pipe id else .queue id)
  | .divert _ target copy _ => some (if copy then .tee target else .divert target)
  | _ => none

/-- **What is asked for goes with the outcome**: an answer with a rejection, a packet for the shaper
or for a divert socket with a verdict that hands it out, and otherwise nothing. A packet is handed
out with the rule that decided, and answered only if it may be. -/
structure Outcome.AskedFor (pkt : Packet) (outcome : Outcome) (made : List PacketRequest) :
    Prop where
  rejects : ∀ code, made = [.reject pkt.flow code] ↔ outcome.verdict = .reject code
  shapes : ∀ id pipe, (∃ rule, made = [.shape pkt.flow id pipe rule]) ↔
    outcome.verdict = .shape id pipe
  diverts : ∀ target, (∃ rule, made = [.divert pkt.flow target false rule]) ↔
    outcome.verdict = .divert target
  tees : ∀ target, (∃ rule, made = [.divert pkt.flow target true rule]) ↔
    outcome.verdict = .tee target
  silent : made = [] ↔ outcome.verdict = .accept ∨ outcome.verdict = .deny ∨
    ∃ address target, outcome.verdict = .forward address target
  tokens : ∀ request ∈ made, ∀ rule, request.rule? = some rule →
    outcome.rule = some rule ∧ request.handedOutFor? = some rule.action
  answerable : ∀ flow code, .reject flow code ∈ made → pkt.Answerable code

namespace Firewall

/-- What is asked for while a packet is processed: the answer from within the evaluation, and then
the packet if it is handed out. -/
theorem process_requests_eq (fw : Firewall) (pkt : Packet) (resume : Option Rule) :
    (fw.process pkt resume).1 = (fw.check pkt resume).1.verdict ∧
      (fw.process pkt resume).2.engine.requests = fw.engine.requests ++
        ((fw.check pkt resume).1.verdict.answers pkt ++
          (handOut? pkt (fw.check pkt resume).1).toList) := by
  have hcheck : (fw.check pkt resume).2.engine.requests =
      fw.engine.requests ++ (fw.check pkt resume).1.verdict.answers pkt :=
    evaluate_requests fw.surroundings pkt resume fw.engine
  unfold process
  simp only
  split
  · rename_i request hhand
    refine ⟨rfl, ?_⟩
    rw [hhand, ← List.append_assoc, ← hcheck]
    rfl
  · rename_i hhand
    refine ⟨rfl, ?_⟩
    rw [hhand, ← List.append_assoc, ← hcheck]
    exact (List.append_nil _).symm

/-- What a decision as prescribed asks for. -/
theorem askedFor_of_prescribes {pkt : Packet} {rule : Rule} {direction : Option MatchDirection}
    {v : Verdict} (h : rule.action.Prescribes pkt direction v) :
    Outcome.AskedFor pkt ⟨v, some rule, direction⟩
      (v.answers pkt ++ (handOut? pkt ⟨v, some rule, direction⟩).toList) := by
  generalize haction : rule.action = a at h
  cases h with
  | answered hanswer =>
    constructor <;> simp [Verdict.answers, handOut?, PacketRequest.rule?, mayAnswer_iff.mp hanswer]
  | _ =>
    constructor <;>
      simp [Verdict.answers, handOut?, PacketRequest.rule?, PacketRequest.handedOutFor?, haction]

/-- A packet that is accepted or denied goes on, or is dropped, without a word. -/
theorem askedFor_of_silent {pkt : Packet} {outcome : Outcome}
    (h : outcome.verdict = .accept ∨ outcome.verdict = .deny) :
    outcome.AskedFor pkt
      (outcome.verdict.answers pkt ++ (handOut? pkt outcome).toList) := by
  have hnone : handOut? pkt outcome = none := by
    unfold handOut?
    rcases h with h | h <;> rw [h] <;> split <;> rfl
  rw [hnone]
  rcases h with h | h <;> constructor <;> simp [h, Verdict.answers]

end Firewall

namespace Session

open Firewall

variable {s : Session}

/-- **What is asked for with a packet is what its verdict says.** In every session, whatever packet
comes and whatever rule it comes back with, the requests made while it is processed go with the
outcome of its evaluation. -/
theorem process_requests (h : s.Reachable fun rule _ => rule.createsState = true) (pkt : Packet)
    (resume : Option Rule) :
    let outcome := (s.firewall.check pkt resume).1
    let done := s.firewall.process pkt resume
    done.1 = outcome.verdict ∧ ∃ made,
      done.2.engine.requests = s.firewall.engine.requests ++ made ∧ outcome.AskedFor pkt made := by
  intro outcome done
  obtain ⟨hverdict, hrequests⟩ := s.firewall.process_requests_eq pkt resume
  refine ⟨hverdict, _, hrequests, ?_⟩
  obtain ⟨last, hc, horderly⟩ := h.orderly fair_creates
  rcases check_decided hc horderly pkt resume with
    ⟨r, hrule, -, hprescribes | ⟨hdeny, -⟩⟩ | ⟨-, hverdict⟩
  · have hasked := askedFor_of_prescribes hprescribes
    rw [← hrule] at hasked
    exact hasked
  · exact askedFor_of_silent (Or.inr hdeny)
  · refine askedFor_of_silent ?_
    rw [hverdict]
    split
    · exact Or.inl rfl
    · exact Or.inr rfl

/-- A rule that resets connections: the first segment of one is answered. -/
theorem process_requests_reset :
    let resetter : Rule :=
      { id := 1, number := 100, words := [16777515], actionOffset := 0,
        insns := [⟨.act (.reject Action.resetCode), .none⟩], actionIndex := 0, logBudget := 0 }
    let pkt : Packet :=
      { flow := ⟨1, 2, 3, 4, Protocol.tcp, 0⟩, direction := .inbound, length := 40,
        tcp := some ⟨7, 0, 1024, TcpFlags.syn, .none⟩ }
    let s := opened.run [.add (resetter.image 0)]
    s.Reachable (fun rule _ => rule.createsState = true) ∧
      (s.firewall.process pkt none).1 = .reject Action.resetCode ∧
      (s.firewall.process pkt none).2.engine.requests = [.reject pkt.flow Action.resetCode] ∧
      Outcome.AskedFor pkt ⟨.reject Action.resetCode, some resetter, none⟩
        [.reject pkt.flow Action.resetCode] := by
  intro resetter pkt s
  have hreachable : s.Reachable fun rule _ => rule.createsState = true :=
    opened_reachable.run (by simp [Allows])
  have hcheck : (s.firewall.check pkt none).1 =
      ⟨.reject Action.resetCode, some resetter, none⟩ := by
    simp only [s, run, List.foldl, step, Firewall.check, evaluate, Walk.run_eq_runFor 2]
    decide +kernel
  have hmade : (s.firewall.process pkt none).2.engine.requests =
      [.reject pkt.flow Action.resetCode] := by
    simp only [s, run, List.foldl, step, Firewall.process, Firewall.check, evaluate,
      Walk.run_eq_runFor 2]
    decide +kernel
  obtain ⟨hverdict, made, hrequests, hasked⟩ := process_requests hreachable pkt none
  rw [hcheck] at hverdict hasked
  have hnone : s.firewall.engine.requests = [] := by decide +kernel
  rw [hmade, hnone, List.nil_append] at hrequests
  exact ⟨hreachable, hverdict, hmade, hrequests ▸ hasked⟩

end Session

end PacketFilter
