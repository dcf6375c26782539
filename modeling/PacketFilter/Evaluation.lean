import PacketFilter.LogMessage
import PacketFilter.PacketRequest
import PacketFilter.Predicate
import PacketFilter.StateTable.Install

/-!
# Evaluating a packet

A packet walks along the chain. Each rule's instructions are run in order. An instruction that is
not satisfied ends the rule, unless it belongs to an or-block that may still be satisfied; one
that is satisfied inside an or-block skips the rest of the block. The state table is looked up at
most once per packet, and on a hit the walk goes on with the action part of the rule that created
the state.

`Walk.next` runs one rule. `Walk.run` repeats it until there is an outcome, and `evaluate` starts
it. That the repetition ends is `next_rank_lt`: a walk goes back only where it follows a hit, which
happens once, and otherwise on to later positions.

The filter's own `evaluate` has a loop over positions, and in each round a loop that follows jumps.
Both are `Walk.run`: a `Walk` stands where the next body is run, and `settle` says what a `Step`
means for it. Of `run_body`, `examine` is what is done with one instruction, and `runInsns` the
passing on from one to the next.
-/

namespace PacketFilter

/-! ## What evaluation reads and changes -/

/-- A mask of sets: bit `s` stands for set `s`. -/
abbrev SetMask := UInt32

/-- Is the set in the mask (`bit_on`)? There are 32 sets, so a set is taken modulo 32. -/
def SetMask.has (m : SetMask) (set : UInt8) : Bool := Word.hasBit m (set.toNat % 32)

/-- What one evaluation reads and does not change (`EvalCtx`). -/
structure Surroundings where
  chain : Chain
  disabled : SetMask
  /-- Accept packets that come back, and do not go on with the rules. -/
  onePass : Bool
  /-- Heed log instructions. -/
  verbose : Bool
  now : Moment
  /-- What the random draws give, in the order in which they are made. -/
  draw : Nat → UInt32

/-- What evaluation changes. -/
structure Engine where
  roster : Roster := {}
  states : StateTable
  /-- Keeps complaints about state that is not created down to one per second. -/
  complaints : SecondGate := {}
  /-- Messages written, the oldest first. -/
  log : List LogMessage := []
  /-- Requests made of the surroundings, the oldest first. -/
  requests : List PacketRequest := []
  /-- The number of random draws made. -/
  drawn : Nat := 0
  deriving DecidableEq, Repr, Inhabited

namespace Engine

/-- Write a message. -/
def write (e : Engine) (m : LogMessage) : Engine := { e with log := e.log ++ [m] }

/-- Make a request. -/
def request (e : Engine) (r : PacketRequest) : Engine := { e with requests := e.requests ++ [r] }

/-- Account for a packet on a rule. -/
def count (e : Engine) (rule : Rule) (pkt : Packet) (now : Moment) : Engine :=
  { e with roster := e.roster.update rule.id (·.count pkt.length now) }

/-- Account for the draw that a command asks for, if it does. -/
def afterDraw (e : Engine) (c : Command) : Engine :=
  if c.isRandom then { e with drawn := e.drawn + 1 } else e

end Engine

/-- The outcome of an evaluation. -/
structure Outcome where
  verdict : Verdict
  /-- The rule that decided, if one did. -/
  rule : Option Rule := none
  /-- How the packet matched state, if it did. -/
  direction : Option MatchDirection := none
  deriving DecidableEq, Repr

/-- What running the instructions of a rule led to (`Step`). -/
inductive RuleResult where
  /-- The rule does not match. -/
  | nextRule
  /-- The rule matches and does not decide. -/
  | goOn
  /-- State was found: run the action part of the rule that created it. -/
  | follow (rule : Rule)
  | decided (verdict : Verdict)
  deriving DecidableEq, Repr

/-- A packet's progress: whether state has been looked up, and what was found (`Eval`). -/
structure Progress where
  engine : Engine
  /-- None before the lookup, and after it what it found. -/
  lookup : Option (Option StateHit) := none

namespace Progress

/-- How the packet matched state, if it did (`dyn_dir`). -/
def direction (p : Progress) : Option MatchDirection := (p.lookup.getD none).map StateHit.direction

/-- Has state been looked up? -/
def asked (p : Progress) : Bool := p.lookup.isSome

end Progress

section

variable (env : Surroundings) (pkt : Packet)

/-! ## Effects of instructions -/

/-- Look up state, unless that was done before, as `run_body` does for `ProbeState` and
`CheckState`. Gives the rule that created the entry found. -/
def consult (p : Progress) : Option Rule × Progress :=
  match p.lookup with
  | some _ => (none, p)
  | none =>
    let (hit, states) := p.engine.states.lookup pkt env.now
    (hit.map (·.entry.rule), { engine := { p.engine with states }, lookup := some hit })

/-- Log a match, if that is wanted and the rule's budget allows it (`log_match`). -/
def logMatch (rule : Rule) (e : Engine) : Engine :=
  if !env.verbose then e
  else
    let (permit, status) := (e.roster.status rule.id).permitLog rule.logBudget
    let e := { e with roster := e.roster.update rule.id fun _ => status }
    let line := LogMessage.matched rule pkt.flow pkt.direction (pkt.fragmentOffset != 0)
    match permit with
    | .suppressed => e
    | .log => e.write line
    | .logLast => (e.write line).write (.budgetSpent rule)

/-- Is the refusal of state worth a complaint? A rule that is barred from creating state is not:
it has been taken out of service on purpose. -/
def StateError.isOperational : StateError → Bool
  | .creationDisabled _ => false
  | _ => true

/-- Create state on behalf of a rule, and complain if there is no room (`install_state`). Says
whether the packet's flow has state now. -/
def createState (rule : Rule) (request : StateRequest) (e : Engine) : Bool × Engine :=
  let (result, states) :=
    e.states.install (e.roster.status rule.id).stateEnabled rule request pkt env.now
  let e := { e with states }
  match result with
  | .ok () => (true, e)
  | .error why =>
    if why.isOperational then
      let (allowed, complaints) := e.complaints.allow env.now
      let e := { e with complaints }
      (false, if allowed then e.write (.stateRefused rule why pkt.flow) else e)
    else (false, e)

/-- May a rejected packet be answered (`send_reject`)? Never at the link layer, never a broadcast or
multicast, never a control message that is no query, and with a reset only a first fragment of a TCP
segment that is no reset itself. -/
def Packet.mayAnswer (pkt : Packet) (code : UInt16) : Bool :=
  !pkt.layer2 && !pkt.broadcast && !pkt.flow.destination.isMulticast &&
    !pkt.flow.destination.isBroadcast && !(pkt.isIcmp && !pkt.isIcmpQuery) &&
    !(code == Action.resetCode &&
      !(pkt.isTcp && pkt.hasTransport && pkt.tcp.isSome && !pkt.tcpFlags.includes TcpFlags.rst))

/-- Carry out an action (`Eval::action`). -/
def perform (rule : Rule) (action : Action) (p : Progress) : RuleResult × Progress :=
  match action with
  | .checkState => (.nextRule, p)
  | .accept => (.decided .accept, p)
  | .deny => (.decided .deny, p)
  | .reject code =>
    if pkt.mayAnswer code then
      (.decided (.reject code), { p with engine := p.engine.request (.reject pkt.flow code) })
    else (.decided .deny, p)
  | .count | .skipTo _ => (.goOn, { p with engine := p.engine.count rule pkt env.now })
  | .pipe id => (.decided (.shape id true), p)
  | .queue id => (.decided (.shape id false), p)
  | .divert target => (.decided (.divert target), p)
  | .tee target => (.decided (.tee target), p)
  | .forward address target =>
    if pkt.layer2 then (.nextRule, p)
    else if p.direction = some .reverse then (.decided .accept, p)
    else (.decided (.forward address target), p)

/-! ## Running a rule -/

/-- What one instruction leads to, apart from its modifiers. -/
inductive Examined where
  /-- Its condition holds or not. -/
  | holds (b : Bool)
  /-- It ends the rule. -/
  | ends (result : RuleResult)
  deriving DecidableEq, Repr

/-- Run one instruction of a rule (the match in `run_body`). -/
def examine (rule : Rule) (c : Command) (p : Progress) : Examined × Progress :=
  match c with
  | .probeState =>
    match consult env pkt p with
    | (some creator, p) => (.ends (.follow creator), p)
    | (none, p) => (.holds true, p)
  | .act .checkState =>
    match consult env pkt p with
    | (some creator, p) => (.ends (.follow creator), p)
    | (none, p) => (.ends .nextRule, p)
  | .keepState =>
    match createState env pkt rule .keepState p.engine with
    | (true, engine) => (.holds true, { p with engine })
    | (false, engine) => (.ends (.decided .deny), { p with engine })
  | .limit parts connections =>
    match createState env pkt rule (.limit parts connections) p.engine with
    | (true, engine) => (.holds true, { p with engine })
    | (false, engine) => (.ends (.decided .deny), { p with engine })
  | .log _ => (.holds true, { p with engine := logMatch env pkt rule p.engine })
  | .act a =>
    let (result, p) := perform env pkt rule a p
    (.ends result, p)
  | c =>
    (.holds (c.holds pkt (env.draw p.engine.drawn)), { p with engine := p.engine.afterDraw c })

/-- Run the instructions of a rule (`run_body`). While `skipping`, instructions are passed over up
to the end of the or-block. -/
def runInsns (rule : Rule) : List Insn → Bool → Progress → RuleResult × Progress
  | [], _, p => (.nextRule, p)
  | i :: is, true, p => runInsns rule is i.isOr p
  | i :: is, false, p =>
    match examine env pkt rule i.command p with
    | (.ends result, p) => (result, p)
    | (.holds b, p) =>
      if b != i.isNot then runInsns rule is i.isOr p
      else if i.isOr then runInsns rule is false p
      else (.nextRule, p)

/-! ## The walk -/

/-- Where a walk stands. -/
inductive Cursor where
  /-- At a position of the chain. -/
  | standing (i : Nat)
  /-- At the action part of a rule, reached by a state lookup made at position `i`. -/
  | following (rule : Rule) (i : Nat)

/-- A walk under way. -/
structure Walk where
  cursor : Cursor
  progress : Progress

/-- What a rule's result means for the walk (the match on a `Step` in `evaluate`). A rule that
decides is accounted the packet. -/
def settle (rule : Rule) (i : Nat) (result : RuleResult × Progress) :
    Walk ⊕ (Outcome × Engine) :=
  match result with
  | (.nextRule, p) => .inl ⟨.standing (i + 1), p⟩
  | (.goOn, p) => .inl ⟨.standing (env.chain.continueAt rule), p⟩
  | (.follow creator, p) => .inl ⟨.following creator i, p⟩
  | (.decided verdict, p) =>
    .inr (⟨verdict, some rule, p.direction⟩, p.engine.count rule pkt env.now)

/-- Run one rule, or pass over one in a disabled set: one round of the loops in `evaluate`. Past the
end of the chain the packet is denied. -/
def Walk.next (w : Walk) : Walk ⊕ (Outcome × Engine) :=
  match w.cursor with
  | .standing i =>
    match env.chain.get? i with
    | none => .inr ({ verdict := .deny }, w.progress.engine.write (.undecided pkt.flow))
    | some rule =>
      if env.disabled.has (w.progress.engine.roster.setOf rule) then
        .inl ⟨.standing (i + 1), w.progress⟩
      else settle env pkt rule i (runInsns env pkt rule rule.insns false w.progress)
  | .following rule i =>
    settle env pkt rule i (runInsns env pkt rule rule.actionPart false w.progress)

end

/-! ## Walks end -/

section

variable (env : Surroundings) (pkt : Packet)

theorem consult_asked (p : Progress) : (consult env pkt p).2.asked = true := by
  unfold consult Progress.asked
  split
  · simp_all
  · rfl

/-- State is found only by the first lookup. -/
theorem asked_eq_false_of_consult {p : Progress} {rule : Rule}
    (h : (consult env pkt p).1 = some rule) : p.asked = false := by
  unfold consult at h
  unfold Progress.asked
  split at h
  · cases h
  · simp_all

theorem perform_asked (rule : Rule) (a : Action) (p : Progress) :
    (perform env pkt rule a p).2.asked = p.asked := by
  cases a <;> simp only [perform] <;> (repeat' split) <;> rfl

theorem perform_ne_follow (rule : Rule) (a : Action) (p : Progress) (creator : Rule) :
    (perform env pkt rule a p).1 ≠ .follow creator := by
  cases a <;> simp only [perform] <;> (repeat' split) <;> simp

/-- What running one instruction may do about the lookup: an instruction that finds state makes
the first lookup, and no instruction undoes it. -/
theorem examine_asked (rule : Rule) (c : Command) (p : Progress) :
    (p.asked = true → (examine env pkt rule c p).2.asked = true) ∧
      ∀ creator, (examine env pkt rule c p).1 = .ends (.follow creator) →
        p.asked = false ∧ (examine env pkt rule c p).2.asked = true := by
  unfold examine
  split
  case h_1 | h_2 =>
    have hc := consult_asked env pkt p
    split
    · rename_i creator p' heq
      rw [heq] at hc
      have hp := asked_eq_false_of_consult env pkt
        (show (consult env pkt p).1 = some creator by rw [heq])
      exact ⟨fun _ => hc, fun _ _ => ⟨hp, hc⟩⟩
    · rename_i p' heq
      rw [heq] at hc
      exact ⟨fun _ => hc, by simp⟩
  case h_3 | h_4 => split <;> exact ⟨fun h => h, by simp⟩
  case h_5 => exact ⟨fun h => h, by simp⟩
  case h_6 a _ =>
    refine ⟨fun h => ?_, fun creator h => ?_⟩
    · simpa [perform_asked] using h
    · simp only [Examined.ends.injEq] at h
      exact absurd h (perform_ne_follow env pkt rule a p creator)
  case h_7 => exact ⟨fun h => h, by simp⟩

/-- What running a rule may do about the lookup. -/
theorem runInsns_asked (rule : Rule) (is : List Insn) (skipping : Bool) (p : Progress) :
    (p.asked = true → (runInsns env pkt rule is skipping p).2.asked = true) ∧
      ∀ creator, (runInsns env pkt rule is skipping p).1 = .follow creator →
        p.asked = false ∧ (runInsns env pkt rule is skipping p).2.asked = true := by
  induction is generalizing skipping p with
  | nil => exact ⟨fun h => h, by simp [runInsns]⟩
  | cons i is ih =>
    cases skipping with
    | true => simpa only [runInsns] using ih i.isOr p
    | false =>
      have hx := examine_asked env pkt rule i.command p
      simp only [runInsns]
      split
      · rename_i result p' heq
        rw [heq] at hx
        exact ⟨hx.1, fun creator h => hx.2 creator (by simpa using h)⟩
      · rename_i b p' heq
        rw [heq] at hx
        have hback : p'.asked = false → p.asked = false := fun h => by
          cases hp : p.asked with
          | false => rfl
          | true => exact absurd (hx.1 hp) (by simp [h])
        split
        · exact ⟨fun h => (ih i.isOr p').1 (hx.1 h),
            fun creator h => ⟨hback ((ih i.isOr p').2 creator h).1, ((ih i.isOr p').2 creator h).2⟩⟩
        · split
          · exact ⟨fun h => (ih false p').1 (hx.1 h),
              fun creator h => ⟨hback ((ih false p').2 creator h).1, ((ih false p').2 creator h).2⟩⟩
          · exact ⟨hx.1, by simp⟩

variable {env pkt}

/-- How far a walk is from its end: first whether state may still be found and whether a hit is
being followed, then how many positions are left. -/
def Walk.rank (env : Surroundings) (w : Walk) : Nat × Nat :=
  let lookups := if w.progress.asked then 0 else 2
  match w.cursor with
  | .standing i => (lookups, env.chain.length - i)
  | .following _ _ => (lookups + 1, 0)

/-- The order in which ranks go down. -/
def Rank.lt : Nat × Nat → Nat × Nat → Prop := Prod.Lex (· < ·) (· < ·)

theorem rank_at_lt {i j : Nat} {p p' : Progress} (hj : i < j) (hi : i < env.chain.length)
    (hp : p.asked = true → p'.asked = true) :
    Rank.lt (Walk.rank env ⟨.standing j, p'⟩) (Walk.rank env ⟨.standing i, p⟩) := by
  unfold Walk.rank Rank.lt
  cases h : p.asked with
  | true =>
    simp only [hp h, if_true]
    exact Prod.Lex.right _ (by omega)
  | false =>
    cases h' : p'.asked with
    | true => exact Prod.Lex.left _ _ (by simp)
    | false => exact Prod.Lex.right _ (by omega)

theorem rank_at_lt_following {rule : Rule} {i j : Nat} {p p' : Progress}
    (hp : p.asked = true → p'.asked = true) :
    Rank.lt (Walk.rank env ⟨.standing j, p'⟩) (Walk.rank env ⟨.following rule i, p⟩) := by
  unfold Walk.rank Rank.lt
  refine Prod.Lex.left _ _ ?_
  cases h : p.asked with
  | true => simp [hp h]
  | false => cases p'.asked <;> simp

theorem rank_following_lt {rule : Rule} {i : Nat} {p p' : Progress} {cursor : Cursor}
    (hp : p.asked = false) (hp' : p'.asked = true) :
    Rank.lt (Walk.rank env ⟨.following rule i, p'⟩) (Walk.rank env ⟨cursor, p⟩) := by
  unfold Walk.rank Rank.lt
  cases cursor <;> exact Prod.Lex.left _ _ (by simp [hp, hp'])

/-- Each step brings a walk closer to its end. -/
theorem next_rank_lt {w w' : Walk} (h : w.next env pkt = .inl w') :
    Rank.lt (w'.rank env) (w.rank env) := by
  obtain ⟨cursor, p⟩ := w
  cases cursor with
  | standing i =>
    simp only [Walk.next] at h
    split at h
    · cases h
    · rename_i rule hrule
      have hi := Chain.get?_lt hrule
      split at h
      · cases h
        exact rank_at_lt (Nat.lt_succ_self i) hi fun h => h
      · have hr := runInsns_asked env pkt rule rule.insns false p
        simp only [settle] at h
        split at h <;> rename_i heq <;> rw [heq] at hr <;> cases h
        · exact rank_at_lt (Nat.lt_succ_self i) hi hr.1
        · exact rank_at_lt (Chain.lt_continueAt hrule) hi hr.1
        · exact rank_following_lt (hr.2 _ rfl).1 (hr.2 _ rfl).2
  | following rule i =>
    simp only [Walk.next] at h
    have hr := runInsns_asked env pkt rule rule.actionPart false p
    simp only [settle] at h
    split at h <;> rename_i heq <;> rw [heq] at hr <;> cases h
    · exact rank_at_lt_following hr.1
    · exact rank_at_lt_following hr.1
    · exact rank_following_lt (hr.2 _ rfl).1 (hr.2 _ rfl).2

end

/-! ## Evaluation -/

/-- Run a walk to its outcome (the loops in `evaluate`). -/
def Walk.run (env : Surroundings) (pkt : Packet) (w : Walk) : Outcome × Engine :=
  match _h : w.next env pkt with
  | .inr result => result
  | .inl w' => Walk.run env pkt w'
termination_by w.rank env
decreasing_by exact next_rank_lt _h

/-- Where a packet starts, or its outcome if it does not walk at all (`Eval::start`). A packet that
comes back starts behind the rule that handed it out, one with a divert tag behind the rules of that
number, every other one at the head of the chain. -/
def startOf (env : Surroundings) (pkt : Packet) (resume : Option Rule) (roster : Roster) :
    Nat ⊕ Outcome :=
  match resume with
  | some rule =>
    if env.onePass then .inr { verdict := .accept }
    else if (roster.status rule.id).invalid then .inr { verdict := .deny }
    else .inl (env.chain.continueAt rule)
  | none =>
    match pkt.divertTag with
    | some tag =>
      if defaultRuleNumber ≤ tag then .inr { verdict := .deny }
      else
        match env.chain.firstAfter? tag with
        | some i => .inl i
        | none => .inr { verdict := .deny }
    | none => .inl 0

/-- Decide what is to happen to a packet. -/
def evaluate (env : Surroundings) (pkt : Packet) (resume : Option Rule) (e : Engine) :
    Outcome × Engine :=
  if pkt.generated then ({ verdict := .accept }, e)
  else
    match startOf env pkt resume e.roster with
    | .inr outcome => (outcome, e)
    | .inl i => Walk.run env pkt ⟨.standing i, { engine := e }⟩

end PacketFilter
