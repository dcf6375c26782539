import PacketFilter.Firewall.Admin

/-!
# Sessions

What can be done to a firewall from outside, in any order: packets, timer passes, the clock set to
any moment, and administration. A request that is refused is a step as well. `install` asks the
state table directly for state on behalf of a rule, as a packet does that was under way while its
rule was removed.

A session remembers which rules have been accepted. `Reachable` are the sessions that begin with a
new firewall; what a direct `install` may ask for on behalf of which rule is left open there. In an
`Honest` session packets come back only with rules that have handed packets out before.
-/

namespace PacketFilter

/-- What can be done to a firewall. -/
inductive Operation where
  | check (pkt : Packet) (resume : Option Rule)
  | process (pkt : Packet) (resume : Option Rule)
  | tick
  | setClock (now : Moment)
  /-- Take the messages and requests made so far. -/
  | drain
  | add (image : RuleImage)
  | addBytes (bytes : List UInt8)
  /-- Delete rules or change their sets. -/
  | change (request : DeleteRequest)
  | flush
  | setEnable (disable enable : SetMask)
  | zeroCounters (number : Option UInt16) (logOnly : Bool)
  | flushStates
  | setBuckets (n : UInt32)
  | install (rule : Rule) (request : StateRequest) (pkt : Packet) (now : Moment)

/-- The rule with which the packet of an operation comes back, if it does. -/
def Operation.back? : Operation → Option Rule
  | .check _ resume | .process _ resume => resume
  | _ => none

/-- Ask the state table for state on behalf of a rule, unless the rule is barred from it. -/
def Firewall.install (fw : Firewall) (rule : Rule) (request : StateRequest) (pkt : Packet)
    (now : Moment) : Firewall :=
  let result := fw.engine.states.install (fw.status rule).stateEnabled rule request pkt now
  { fw with engine := { fw.engine with states := result.2 } }

/-- A firewall and what it has been given. -/
structure Session where
  firewall : Firewall
  /-- All rules that have been accepted, the oldest first. -/
  accepted : List Rule := []

namespace Session

/-- Go on with what a request leads to; one that is refused leads nowhere. -/
def proceed (s : Session) : Except ControlError Firewall → Session
  | .ok fw => { s with firewall := fw }
  | .error _ => s

/-- Go on with a rule that has been accepted. -/
def accept (s : Session) : Except ControlError (Rule × Firewall) → Session
  | .ok (rule, fw) => { firewall := fw, accepted := s.accepted ++ [rule] }
  | .error _ => s

theorem accepted_proceed (s : Session) (result : Except ControlError Firewall) :
    (s.proceed result).accepted = s.accepted := by
  cases result <;> rfl

theorem mem_accepted_accept {s : Session} {result : Except ControlError (Rule × Firewall)}
    {r : Rule} :
    r ∈ (s.accept result).accepted ↔ r ∈ s.accepted ∨ ∃ fw, result = .ok (r, fw) := by
  cases result with
  | error e => simp [accept]
  | ok added => simp [accept, Prod.ext_iff, eq_comm]

/-- Carry out an operation. -/
def step (s : Session) : Operation → Session
  | .check pkt resume => { s with firewall := (s.firewall.check pkt resume).2 }
  | .process pkt resume => { s with firewall := (s.firewall.process pkt resume).2 }
  | .tick => { s with firewall := s.firewall.tick.2 }
  | .setClock now => { s with firewall := { s.firewall with now } }
  | .drain => { s with firewall := s.firewall.drain.2.2 }
  | .add image => s.accept (s.firewall.addImage image)
  | .addBytes bytes => s.accept (s.firewall.addBytes bytes)
  | .change request => s.proceed (s.firewall.handle request)
  | .flush => { s with firewall := s.firewall.flush.2 }
  | .setEnable disable enable => s.proceed (s.firewall.setEnable disable enable)
  | .zeroCounters number logOnly => s.proceed (s.firewall.zeroCounters number logOnly)
  | .flushStates => { s with firewall := s.firewall.flushStates.2 }
  | .setBuckets n => s.proceed (s.firewall.setBuckets n)
  | .install rule request pkt now =>
    { s with firewall := s.firewall.install rule request pkt now }

/-- Carry out operations one after another. -/
def run (s : Session) (ops : List Operation) : Session := ops.foldl step s

/-- May the operation be tried? State is asked for directly only on behalf of rules that have been
accepted, and only what `grants` allows. -/
def Allows (grants : Rule → StateRequest → Prop) (s : Session) : Operation → Prop
  | .install rule request _ _ => rule ∈ s.accepted ∧ grants rule request
  | _ => True

/-- May the operations be tried one after another? -/
def AllowsAll (grants : Rule → StateRequest → Prop) : Session → List Operation → Prop
  | _, [] => True
  | s, op :: ops => s.Allows grants op ∧ (s.step op).AllowsAll grants ops

/-- **The sessions that begin with a new firewall.** -/
inductive Reachable (grants : Rule → StateRequest → Prop) : Session → Prop
  | start {name : String} {config : Config} {now : Moment} {draw : Nat → UInt32} {fw : Firewall}
      (h : Firewall.new name config now draw = .ok fw) : Reachable grants { firewall := fw }
  | step {s : Session} (h : Reachable grants s) (op : Operation) (hop : s.Allows grants op) :
      Reachable grants (s.step op)

variable {grants : Rule → StateRequest → Prop} {s : Session}

/-- Operations one after another, each of them allowed in any session. -/
theorem Reachable.run (h : Reachable grants s) {ops : List Operation}
    (hops : ∀ op ∈ ops, ∀ s, Allows grants s op) : Reachable grants (s.run ops) := by
  induction ops generalizing s with
  | nil => exact h
  | cons op ops ih =>
    exact ih (h.step op (hops op List.mem_cons_self s)) fun op' hop' =>
      hops op' (List.mem_cons_of_mem _ hop')

/-- A rule that was accepted is remembered. -/
theorem mem_accepted_step {r : Rule} (hr : r ∈ s.accepted) (op : Operation) :
    r ∈ (s.step op).accepted := by
  have hproceed : ∀ result, r ∈ (s.proceed result).accepted := by
    intro result
    rw [accepted_proceed]
    exact hr
  cases op with
  | add image => exact mem_accepted_accept.mpr (Or.inl hr)
  | addBytes bytes => exact mem_accepted_accept.mpr (Or.inl hr)
  | change request => exact hproceed _
  | setEnable disable enable => exact hproceed _
  | zeroCounters number logOnly => exact hproceed _
  | setBuckets n => exact hproceed _
  | _ => exact hr

theorem mem_accepted_run {r : Rule} (hr : r ∈ s.accepted) (ops : List Operation) :
    r ∈ (s.run ops).accepted := by
  induction ops generalizing s with
  | nil => exact hr
  | cons op ops ih => exact ih (mem_accepted_step hr op)

/-! ## Packets that come back -/

/-- The rule with which an operation hands its packet out, if it does. -/
def handsOut (s : Session) : Operation → Option Rule
  | .process pkt resume =>
    (Firewall.handOut? pkt (s.firewall.check pkt resume).1).bind PacketRequest.rule?
  | _ => none

/-- **The sessions in which packets come back only with rules that have handed packets out**, and
which rules those are. -/
inductive Honest (grants : Rule → StateRequest → Prop) : List Rule → Session → Prop
  | start {name : String} {config : Config} {now : Moment} {draw : Nat → UInt32} {fw : Firewall}
      (h : Firewall.new name config now draw = .ok fw) : Honest grants [] { firewall := fw }
  | step {tokens : List Rule} {s : Session} (h : Honest grants tokens s) (op : Operation)
      (hop : s.Allows grants op) (hback : ∀ r ∈ op.back?, r ∈ tokens) :
      Honest grants (tokens ++ (s.handsOut op).toList) (s.step op)

theorem Honest.reachable {tokens : List Rule} (h : Honest grants tokens s) :
    Reachable grants s := by
  induction h with
  | start hnew => exact .start hnew
  | step _ op hop _ ih => exact ih.step op hop

/-! ## A session to begin with, and rules -/

/-- A firewall with the default settings. -/
def opened : Session where
  firewall := (Firewall.new "fw" {} ⟨0⟩ fun _ => 5).toOption.get (by decide +kernel)

theorem opened_honest : opened.Honest grants [] := by
  have hnew : Firewall.new "fw" {} ⟨0⟩ (fun _ => 5) = .ok opened.firewall := rfl
  exact Honest.start hnew

theorem opened_reachable : opened.Reachable grants := opened_honest.reachable

/-- A rule that keeps state. -/
def keeper : RuleDraft where
  number := 100
  conditions := [⟨.keepState, .none⟩]
  action := .act .accept

/-- What becomes of it if it is the first rule to be accepted. -/
def firstKeeper : Rule := (Rule.ofImage 1 keeper.assemble 0).toOption.get (by decide +kernel)

/-- A rule that lets every address have two connections. -/
def limiter : RuleDraft where
  number := 50
  conditions := [⟨.limit LimitParts.sourceAddress 2, .none⟩]
  action := .act .accept

/-- What becomes of it if it is the first rule to be accepted. -/
def firstLimiter : Rule := (Rule.ofImage 1 limiter.assemble 0).toOption.get (by decide +kernel)

/-- A rule that diverts every packet, once it has been accepted. -/
def diverter (id : Nat) (number : UInt16) : Rule where
  id
  number
  words := Insn.encodeAll [⟨.act (.divert 99), .none⟩]
  actionOffset := 0
  insns := [⟨.act (.divert 99), .none⟩]
  actionIndex := 0
  logBudget := 0

end Session

end PacketFilter
