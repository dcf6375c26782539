import PacketFilter.Proofs.Walks

/-!
# Match lines

A packet that comes to a log instruction asks for a match line. A rule with a log budget writes so
many of them only, and a notice right behind the last one; all log instructions of the rule draw on
the same budget, and it does not matter whether a walk came to the rule along the chain or behind a
hit in the state table.

`executed` follows an evaluation instruction by instruction and says which ones are executed.
`Metered` says what is in a log if so many lines of a rule were asked for and so many could still be
written. Metered logs are put together one behind the other, so that a single permit, with which a
line is written or none, is all that needs to be looked at.

Main statements: `Metered.append`, metered logs one behind the other; `Metered.permitted`, a single
permit; `logMatch_meters`, one log instruction; **`evaluate_meters`**, what an evaluation writes is
metered by the instructions that it executes; **`evaluate_silent`**, with logging off it writes no
match line and uses up no budget.
-/

namespace PacketFilter

/-! ## Instructions that are executed -/

/-- The match line that a rule's log instruction asks for. -/
def Packet.matchLine (pkt : Packet) (rule : Rule) : LogMessage :=
  .matched rule pkt.flow pkt.direction (pkt.fragmentOffset != 0)

/-- An instruction of a rule that is executed for a packet. -/
structure Execution where
  rule : Rule
  insn : Insn
  packet : Packet

namespace Execution

/-- Is it a log instruction of the rule? -/
def logs (r : Rule) (x : Execution) : Bool := x.insn.command.isLog && x.rule == r

/-- The match lines of a rule that are asked for, in order. -/
def lines (r : Rule) (xs : List Execution) : List LogMessage :=
  (xs.filter (logs r)).map fun x => x.packet.matchLine x.rule

@[simp] theorem lines_nil (r : Rule) : lines r [] = [] := rfl

theorem lines_append (r : Rule) (xs ys : List Execution) :
    lines r (xs ++ ys) = lines r xs ++ lines r ys := by
  simp only [lines, List.filter_append, List.map_append]

theorem lines_cons (r : Rule) (x : Execution) (xs : List Execution) :
    lines r (x :: xs) = lines r [x] ++ lines r xs := lines_append r [x] xs

theorem lines_of_logs {r : Rule} {x : Execution} (h : x.logs r = true) :
    lines r [x] = [x.packet.matchLine x.rule] := by
  rw [lines, List.filter_cons_of_pos h]
  rfl

theorem lines_of_not_logs {r : Rule} {x : Execution} (h : x.logs r = false) : lines r [x] = [] := by
  rw [lines, List.filter_cons_of_neg (Bool.eq_false_iff.mp h)]
  rfl

theorem length_lines (r : Rule) (xs : List Execution) :
    (lines r xs).length = xs.countP (logs r) := by
  rw [lines, List.length_map, List.countP_eq_length_filter]

end Execution

section

variable (env : Surroundings) (pkt : Packet)

/-- The instructions of a rule that are executed when they are run. Those that are passed over in an
or-block, and those behind one that ends the rule, are not. -/
def executedInsns (rule : Rule) : List Insn → Bool → Progress → List Execution
  | [], _, _ => []
  | i :: is, true, p => executedInsns rule is i.isOr p
  | i :: is, false, p =>
    ⟨rule, i, pkt⟩ ::
      match examine env pkt rule i.command p with
      | (.ends _, _) => []
      | (.holds b, p) =>
        if b != i.isNot then executedInsns rule is i.isOr p
        else if i.isOr then executedInsns rule is false p
        else []

/-- The instructions that the next step of a walk executes. -/
def Walk.executedNext (w : Walk) : List Execution :=
  match w.body? env with
  | none => []
  | some (rule, is) => executedInsns env pkt rule is false w.progress

/-- The instructions that a walk executes on the way to its outcome. -/
def Walk.executed (env : Surroundings) (pkt : Packet) (w : Walk) : List Execution :=
  match _h : w.next env pkt with
  | .inr _ => w.executedNext env pkt
  | .inl w' => w.executedNext env pkt ++ Walk.executed env pkt w'
termination_by w.rank env
decreasing_by exact next_rank_lt _h

/-- **The instructions that are executed** to decide what is to happen to a packet. -/
def executed (resume : Option Rule) (e : Engine) : List Execution :=
  if pkt.generated then []
  else
    match startOf env pkt resume e.roster with
    | .inr _ => []
    | .inl i => Walk.executed env pkt ⟨.standing i, { engine := e }⟩

end

section

variable {env : Surroundings} {pkt : Packet} {w w' : Walk} {done : Outcome × Engine}

theorem Walk.executed_of_next_inr (h : w.next env pkt = .inr done) :
    Walk.executed env pkt w = w.executedNext env pkt := by
  rw [Walk.executed, h]

theorem Walk.executed_of_next_inl (h : w.next env pkt = .inl w') :
    Walk.executed env pkt w = w.executedNext env pkt ++ Walk.executed env pkt w' := by
  rw [Walk.executed, h]

/-- The instructions that a walk executes whose first `n` steps are taken one by one. -/
def Walk.executedFor (env : Surroundings) (pkt : Packet) : Nat → Walk → List Execution
  | 0, w => Walk.executed env pkt w
  | n + 1, w =>
    match w.next env pkt with
    | .inr _ => w.executedNext env pkt
    | .inl w' => w.executedNext env pkt ++ Walk.executedFor env pkt n w'

theorem Walk.executed_eq_executedFor (n : Nat) (w : Walk) :
    Walk.executed env pkt w = w.executedFor env pkt n := by
  induction n generalizing w with
  | zero => rfl
  | succ n ih =>
    rw [Walk.executedFor]
    cases hnext : w.next env pkt with
    | inr result => exact Walk.executed_of_next_inr hnext
    | inl w' => exact (Walk.executed_of_next_inl hnext).trans (congrArg _ (ih w'))

end

/-! ## What messages are about -/

namespace LogMessage

/-- The rule whose log instructions have led to the message, if any have. -/
def subject? : LogMessage → Option Rule
  | .matched rule _ _ _ | .budgetSpent rule => some rule
  | _ => none

/-- Is it a match line of the rule? -/
def isMatchOf (r : Rule) : LogMessage → Bool
  | .matched rule _ _ _ => rule == r
  | _ => false

variable {r : Rule} {m : LogMessage}

theorem subject?_ne (h : m.subject? = none) : m.subject? ≠ some r := by
  rw [h]
  exact nofun

theorem isMatchOf_eq_false (h : m.subject? ≠ some r) : m.isMatchOf r = false := by
  cases m with
  | matched rule flow direction fragment =>
    exact beq_eq_false_iff_ne.mpr fun heq => h (congrArg some heq)
  | _ => rfl

theorem isMatchOf_matchLine (pkt : Packet) (r : Rule) : (pkt.matchLine r).isMatchOf r = true :=
  beq_self_eq_true r

end LogMessage

/-! ## Quotas -/

/-- How many match lines of a rule may still be written. There is none if there is no end. -/
abbrev Quota := Option Nat

namespace Quota

/-- What is left of a quota when so many lines were asked for. -/
def after (q : Quota) (n : Nat) : Quota := q.map (· - n)

/-- The permit for the next line. -/
def permit : Quota → LogPermit
  | none => .log
  | some 0 => .suppressed
  | some 1 => .logLast
  | some (_ + 2) => .log

/-- Those of the lines asked for that are written. -/
def admitted : Quota → List LogMessage → List LogMessage
  | none, lines => lines
  | some k, lines => lines.take k

/-- How many notices there are when so many lines were asked for: one if the last line that may be
written is among them. -/
def notices : Quota → Nat → Nat
  | none, _ => 0
  | some k, n => if 0 < k ∧ k ≤ n then 1 else 0

@[simp] theorem after_zero (q : Quota) : q.after 0 = q := by
  cases q <;> rfl

theorem after_add (q : Quota) (m n : Nat) : q.after (m + n) = (q.after m).after n := by
  cases q with
  | none => rfl
  | some k => simp only [after, Option.map_some, Nat.sub_sub]

@[simp] theorem admitted_nil (q : Quota) : q.admitted [] = [] := by
  cases q <;> simp [admitted]

theorem admitted_append (q : Quota) (lines lines' : List LogMessage) :
    q.admitted (lines ++ lines') = q.admitted lines ++ (q.after lines.length).admitted lines' := by
  cases q with
  | none => rfl
  | some k => exact List.take_append

@[simp] theorem notices_zero (q : Quota) : q.notices 0 = 0 := by
  cases q with
  | none => rfl
  | some k => exact if_neg (by omega)

/-- The last line is among the first ones or among the others, and not among both. -/
theorem notices_add (q : Quota) (m n : Nat) :
    q.notices (m + n) = q.notices m + (q.after m).notices n := by
  cases q with
  | none => rfl
  | some k =>
    simp only [notices, after, Option.map_some]
    split <;> split <;> split <;> omega

end Quota

/-- What is written with a permit. -/
def LogPermit.messages (rule : Rule) (line : LogMessage) : LogPermit → List LogMessage
  | .suppressed => []
  | .log => [line]
  | .logLast => [line, .budgetSpent rule]

/-- **A log that is metered**: of the match lines of a rule that were asked for, those that a quota
admits are in it, and right behind the last of them there is a notice. -/
structure Metered (r : Rule) (q : Quota) (asked ms : List LogMessage) : Prop where
  lines : ms.filter (·.isMatchOf r) = q.admitted asked
  notices : ms.count (.budgetSpent r) = q.notices asked.length
  /-- A notice has a match line in front, and that is the last one that the quota admits. -/
  place : ∀ before after, ms = before ++ .budgetSpent r :: after →
    q = some (before.countP (·.isMatchOf r)) ∧
      ∃ earlier line, before = earlier ++ [line] ∧ line.isMatchOf r = true

namespace Metered

variable {r : Rule} {q : Quota} {asked asked' ms ms' : List LogMessage}

/-- Messages that are not about the rule. -/
theorem of_others (h : ∀ m ∈ ms, m.subject? ≠ some r) : Metered r q [] ms where
  lines := by
    rw [Quota.admitted_nil, List.filter_eq_nil_iff]
    exact fun m hm => by rw [LogMessage.isMatchOf_eq_false (h m hm)]; exact Bool.false_ne_true
  notices := by
    rw [List.length_nil, Quota.notices_zero]
    exact List.count_eq_zero.mpr fun hmem => h _ hmem rfl
  place before after heq :=
    absurd rfl (h _ (heq ▸ List.mem_append_right before List.mem_cons_self))

theorem nil (r : Rule) (q : Quota) : Metered r q [] [] :=
  of_others fun _ hm => absurd hm List.not_mem_nil

/-- **Metered logs one behind the other.** -/
theorem append (h : Metered r q asked ms) (h' : Metered r (q.after asked.length) asked' ms') :
    Metered r q (asked ++ asked') (ms ++ ms') where
  lines := by rw [List.filter_append, h.lines, h'.lines, Quota.admitted_append]
  notices := by
    rw [List.count_append, h.notices, h'.notices, List.length_append, Quota.notices_add]
  place before after heq := by
    rcases List.append_eq_append_iff.mp heq with ⟨middle, rfl, heq'⟩ | ⟨middle, rfl, heq'⟩
    · -- The notice is among the messages behind.
      obtain ⟨hquota, earlier, line, rfl, hline⟩ := h'.place middle after heq'
      refine ⟨?_, ms ++ earlier, line, (List.append_assoc _ _ _).symm, hline⟩
      cases q with
      | none => cases hquota
      | some k =>
        have hleft : k - asked.length = (earlier ++ [line]).countP (·.isMatchOf r) :=
          Option.some.inj hquota
        have hfront : ms.countP (·.isMatchOf r) = min k asked.length := by
          rw [List.countP_eq_length_filter, h.lines]
          exact List.length_take
        rw [List.countP_append, hfront, ← hleft]
        exact congrArg some (by omega)
    · cases middle with
      | nil =>
        -- It would be the first message behind, and there is no line before it.
        obtain ⟨-, earlier, line, hempty, -⟩ := h'.place [] after heq'.symm
        simp at hempty
      | cons m rest =>
        obtain ⟨rfl, rfl⟩ := List.cons.inj heq'
        exact h.place before rest rfl

variable {line : LogMessage}

/-- A match line alone. -/
theorem line_alone (hline : line.isMatchOf r = true) (hadmitted : q.admitted [line] = [line])
    (hnotices : q.notices 1 = 0) : Metered r q [line] [line] := by
  have hnone : LogMessage.budgetSpent r ∉ [line] := fun hmem => by
    rw [← List.mem_singleton.mp hmem] at hline
    cases hline
  refine ⟨?_, ?_, fun before after heq => ?_⟩
  · rw [hadmitted, List.filter_cons_of_pos hline, List.filter_nil]
  · rw [List.length_singleton, hnotices]
    exact List.count_eq_zero.mpr hnone
  · exact absurd (heq ▸ List.mem_append_right before List.mem_cons_self) hnone

/-- The last match line, and the notice behind it. -/
theorem line_noticed (hline : line.isMatchOf r = true) :
    Metered r (some 1) [line] [line, .budgetSpent r] := by
  have hnotice : LogMessage.isMatchOf r (.budgetSpent r) = false := rfl
  have hne : line ≠ .budgetSpent r := fun heq => by
    rw [heq] at hline
    cases hline
  refine ⟨?_, ?_, fun before after heq => ?_⟩
  · simp [hline, hnotice, Quota.admitted]
  · simp [hne, Quota.notices]
  · cases before with
    | nil => exact absurd (List.cons.inj heq).1 hne
    | cons m before =>
      obtain ⟨rfl, heq⟩ := List.cons.inj heq
      cases before with
      | nil => exact ⟨by simp [hline], [], line, rfl, hline⟩
      | cons m' before => simp at heq

/-- **What is written with a permit** for the next line. -/
theorem permitted (hline : line.isMatchOf r = true) (q : Quota) :
    Metered r q [line] (q.permit.messages r line) := by
  match q with
  | none => exact line_alone hline rfl rfl
  | some 0 =>
    exact ⟨rfl, rfl, fun before after heq => by simp [Quota.permit, LogPermit.messages] at heq⟩
  | some 1 => exact line_noticed hline
  | some (k + 2) => exact line_alone hline rfl (by simp [Quota.notices])

end Metered

/-! ## Engines -/

/-- **What an engine does that has nothing to do with log instructions**: it writes no message about
them, and the log budget of a rule stays. -/
structure Engine.Silent (r : Rule) (e e' : Engine) : Prop where
  nextId : e.roster.nextId ≤ e'.roster.nextId
  left : (e'.roster.status r.id).logLeft = (e.roster.status r.id).logLeft
  logs : e.Logs (·.subject? = none) e'

namespace Engine.Silent

variable {r : Rule} {e e' e'' : Engine}

theorem of_eq (hroster : e'.roster = e.roster) (hlog : e'.log = e.log) : e.Silent r e' :=
  ⟨by rw [hroster], by rw [hroster], .of_eq hlog⟩

theorem refl (e : Engine) : e.Silent r e := of_eq rfl rfl

theorem trans (h : e.Silent r e') (h' : e'.Silent r e'') : e.Silent r e'' :=
  ⟨Nat.le_trans h.nextId h'.nextId, h'.left.trans h.left, h.logs.trans h'.logs⟩

/-- Writing a message about something else. -/
theorem write (e : Engine) {m : LogMessage} (hm : m.subject? = none) : e.Silent r (e.write m) :=
  ⟨Nat.le_refl _, rfl, .write hm⟩

/-- Accounting for a packet. -/
theorem count (e : Engine) (rule : Rule) (pkt : Packet) (now : Moment) :
    e.Silent r (e.count rule pkt now) := by
  refine ⟨Nat.le_of_eq (Roster.nextId_update _ _ _).symm, ?_, .of_eq rfl⟩
  have hstatus := e.roster.status_update rule.id r.id (·.count pkt.length now)
  unfold Engine.count
  rcases hstatus with h | ⟨-, h⟩ <;> rw [h]
  rfl

end Engine.Silent

/-- How many match lines of a rule of this budget may still be written. -/
def RuleStatus.quota (s : RuleStatus) (budget : UInt32) : Quota :=
  if budget = 0 then none else some s.logLeft.toNat

/-- How many match lines of a rule may still be written. -/
def Engine.quota (r : Rule) (e : Engine) : Quota := (e.roster.status r.id).quota r.logBudget

/-- **What an engine writes is metered** by the match lines of a rule that are asked for. -/
structure Engine.Meters (r : Rule) (asked : List LogMessage) (e e' : Engine) : Prop where
  nextId : e.roster.nextId ≤ e'.roster.nextId
  quota : e'.quota r = (e.quota r).after asked.length
  log : ∃ ms, e'.log = e.log ++ ms ∧ Metered r (e.quota r) asked ms

namespace Engine.Meters

variable {r : Rule} {asked asked' : List LogMessage} {e e' e'' : Engine}

theorem trans (h : e.Meters r asked e') (h' : e'.Meters r asked' e'') :
    e.Meters r (asked ++ asked') e'' where
  nextId := Nat.le_trans h.nextId h'.nextId
  quota := by rw [h'.quota, h.quota, List.length_append, Quota.after_add]
  log := by
    obtain ⟨ms, hlog, hms⟩ := h.log
    obtain ⟨ms', hlog', hms'⟩ := h'.log
    rw [h.quota] at hms'
    exact ⟨ms ++ ms', by rw [hlog', hlog, List.append_assoc], hms.append hms'⟩

/-- What leaves the budget of the rule alone, and writes nothing about it. -/
theorem of_left (hnextId : e.roster.nextId ≤ e'.roster.nextId)
    (hleft : (e'.roster.status r.id).logLeft = (e.roster.status r.id).logLeft)
    (hlogs : e.Logs (·.subject? ≠ some r) e') : e.Meters r [] e' where
  nextId := hnextId
  quota := by
    rw [List.length_nil, Quota.after_zero, Engine.quota, Engine.quota, RuleStatus.quota,
      RuleStatus.quota, hleft]
  log := by
    obtain ⟨ms, hlog, hms⟩ := hlogs
    exact ⟨ms, hlog, .of_others hms⟩

theorem of_silent (h : e.Silent r e') : e.Meters r [] e' :=
  of_left h.nextId h.left (h.logs.mono fun _ hm => LogMessage.subject?_ne hm)

theorem refl (e : Engine) : e.Meters r [] e := of_silent (.refl e)

theorem silent (h : e.Meters r asked e') (h' : e'.Silent r e'') : e.Meters r asked e'' :=
  List.append_nil asked ▸ h.trans (of_silent h')

end Engine.Meters

/-! ## One log instruction -/

/-- **What a permit says and leaves**: that goes by the quota alone. -/
theorem RuleStatus.permitLog_spec (s : RuleStatus) (budget : UInt32) :
    (s.permitLog budget).1 = (s.quota budget).permit ∧
      (s.permitLog budget).2.quota budget = (s.quota budget).after 1 := by
  unfold RuleStatus.permitLog RuleStatus.quota
  split
  · exact ⟨rfl, rfl⟩
  · split
    · rename_i hzero
      simp [hzero, Quota.permit, Quota.after]
    · split
      · rename_i hone
        simp [hone, Quota.permit, Quota.after]
      · rename_i hzero hone
        have hzero : s.logLeft.toNat ≠ 0 := fun h => hzero (UInt32.toNat_inj.mp h)
        have hone : s.logLeft.toNat ≠ 1 := fun h => hone (UInt32.toNat_inj.mp h)
        have hle : 1 ≤ s.logLeft := UInt32.le_iff_toNat_le.mpr (Nat.pos_of_ne_zero hzero)
        obtain ⟨k, hk⟩ : ∃ k, s.logLeft.toNat = k + 2 := ⟨s.logLeft.toNat - 2, by omega⟩
        simp [hk, Quota.permit, Quota.after, UInt32.toNat_sub_of_le _ _ hle]

section

variable {env : Surroundings} {pkt : Packet} {r rule : Rule} {e e' : Engine}

/-- What a log instruction does, with logging on. -/
theorem logMatch_on (hon : env.verbose = true) (pkt : Packet) (rule : Rule) (e : Engine) :
    (logMatch env pkt rule e).roster = e.roster.update rule.id (fun _ =>
        ((e.roster.status rule.id).permitLog rule.logBudget).2) ∧
      (logMatch env pkt rule e).log = e.log ++
        ((e.roster.status rule.id).permitLog rule.logBudget).1.messages rule
          (pkt.matchLine rule) := by
  unfold logMatch
  rw [hon]
  generalize (e.roster.status rule.id).permitLog rule.logBudget = permitted
  obtain ⟨permit, status⟩ := permitted
  cases permit with
  | suppressed => exact ⟨rfl, (List.append_nil _).symm⟩
  | log => exact ⟨rfl, rfl⟩
  | logLast => exact ⟨rfl, List.append_assoc _ _ _⟩

/-- Another rule's log instruction. -/
theorem logMatch_meters_other (hon : env.verbose = true) (hid : rule.id ≠ r.id) (e : Engine) :
    e.Meters r [] (logMatch env pkt rule e) := by
  obtain ⟨hroster, hlog⟩ := logMatch_on hon pkt rule e
  refine .of_left (by rw [hroster, Roster.nextId_update]) ?_ ⟨_, hlog, fun m hm heq => ?_⟩
  · rw [hroster, Roster.status_update_of_ne hid.symm]
  · have hsubject : ∀ permit : LogPermit, m ∈ permit.messages rule (pkt.matchLine rule) →
        m.subject? = some rule := by
      intro permit hm
      cases permit with
      | suppressed => cases hm
      | log => rw [List.mem_singleton.mp hm]; rfl
      | logLast =>
        rcases List.mem_pair.mp hm with rfl | rfl <;> rfl
    have hsame := (hsubject _ hm).symm.trans heq
    exact hid (congrArg Rule.id (Option.some.inj hsame))

/-- **A log instruction of the rule** writes the line that it asks for if the budget allows that,
and the notice behind it if that was the last one. -/
theorem logMatch_meters (hon : env.verbose = true) (hid : r.id < e.roster.nextId) :
    e.Meters r [pkt.matchLine r] (logMatch env pkt r e) := by
  obtain ⟨hroster, hlog⟩ := logMatch_on hon pkt r e
  obtain ⟨hpermit, hquota⟩ := (e.roster.status r.id).permitLog_spec r.logBudget
  rw [hpermit] at hlog
  refine ⟨by rw [hroster, Roster.nextId_update], ?_, _, hlog,
    .permitted (LogMessage.isMatchOf_matchLine pkt r) _⟩
  rw [Engine.quota, hroster, Roster.status_update_self hid]
  exact hquota

end

/-! ## Other instructions -/

section

variable {env : Surroundings} {pkt : Packet} {r rule : Rule} {e : Engine}

theorem createState_silent (request : StateRequest) (e : Engine) :
    e.Silent r (createState env pkt rule request e).2 := by
  have hroster : (createState env pkt rule request e).2.roster = e.roster :=
    (createState_states rule request e).2
  refine ⟨by rw [hroster], by rw [hroster], ?_⟩
  unfold createState
  simp only
  split
  · exact .of_eq rfl
  · split
    · dsimp only
      split
      · exact .trans (.of_eq rfl) (.write rfl)
      · exact .of_eq rfl
    · exact .of_eq rfl

theorem consult_silent (p : Progress) : p.engine.Silent r (consult env pkt p).2.engine := by
  unfold consult
  split
  · exact .refl p.engine
  · exact .of_eq rfl rfl

theorem perform_silent (action : Action) (p : Progress) :
    p.engine.Silent r (perform env pkt rule action p).2.engine := by
  cases action with
  | count | skipTo target => exact .count p.engine rule pkt env.now
  | reject code =>
    simp only [perform]
    split <;> exact .of_eq rfl rfl
  | forward address target =>
    simp only [perform]
    split
    · exact .refl p.engine
    · split <;> exact .refl p.engine
  | _ => exact .refl p.engine

/-- An instruction that is no log instruction. -/
theorem examine_silent {c : Command} (hc : c.isLog = false) (p : Progress) :
    p.engine.Silent r (examine env pkt rule c p).2.engine := by
  unfold examine
  split
  case h_1 | h_2 =>
    have hconsult : p.engine.Silent r (consult env pkt p).2.engine := consult_silent p
    split <;> rename_i heq <;> rw [heq] at hconsult <;> exact hconsult
  case h_3 | h_4 =>
    have hcreate : ∀ {request : StateRequest} {created : Bool} {engine : Engine},
        createState env pkt rule request p.engine = (created, engine) →
          p.engine.Silent r engine := by
      intro request created engine heq
      obtain rfl : _ = engine := congrArg Prod.snd heq
      exact createState_silent request p.engine
    split <;> rename_i heq <;> exact hcreate heq
  case h_5 => cases hc
  case h_6 action _ => exact perform_silent action p
  case h_7 =>
    unfold Engine.afterDraw
    split <;> exact .of_eq rfl rfl

/-- **Running an instruction** is metered by the line that it asks for, if it does. -/
theorem examine_meters (hon : env.verbose = true) (pkt : Packet)
    (hrule : rule.id = r.id → rule = r) (i : Insn) (p : Progress)
    (hid : r.id < p.engine.roster.nextId) :
    p.engine.Meters r (Execution.lines r [⟨rule, i, pkt⟩])
      (examine env pkt rule i.command p).2.engine := by
  cases hlog : i.command.isLog with
  | false =>
    rw [Execution.lines_of_not_logs (by simp [Execution.logs, hlog])]
    exact .of_silent (examine_silent hlog p)
  | true =>
    have hexamine : (examine env pkt rule i.command p).2.engine =
        logMatch env pkt rule p.engine := by
      cases hcommand : i.command with
      | log budget => rfl
      | _ => rw [hcommand] at hlog; cases hlog
    rw [hexamine]
    by_cases hsame : rule.id = r.id
    · obtain rfl := hrule hsame
      rw [Execution.lines_of_logs (by simp [Execution.logs, hlog])]
      exact logMatch_meters hon hid
    · have hother : rule ≠ r := fun heq => hsame (congrArg Rule.id heq)
      rw [Execution.lines_of_not_logs (by simp [Execution.logs, hother])]
      exact logMatch_meters_other hon hsame p.engine

/-- **Running instructions.** -/
theorem runInsns_meters (hon : env.verbose = true) (pkt : Packet)
    (hrule : rule.id = r.id → rule = r) (is : List Insn) (skipping : Bool) (p : Progress)
    (hid : r.id < p.engine.roster.nextId) :
    p.engine.Meters r (Execution.lines r (executedInsns env pkt rule is skipping p))
      (runInsns env pkt rule is skipping p).2.engine := by
  induction is generalizing skipping p with
  | nil => exact .refl p.engine
  | cons i is ih =>
    cases skipping with
    | true => exact ih i.isOr p hid
    | false =>
      have hfirst := examine_meters hon pkt hrule i p hid
      simp only [runInsns, executedInsns]
      rw [Execution.lines_cons]
      generalize examine env pkt rule i.command p = x at hfirst
      obtain ⟨b | result, p'⟩ := x
      · -- The instructions behind this one ask for the rest.
        have hid' := Nat.lt_of_lt_of_le hid hfirst.nextId
        have hrest := fun skipping => hfirst.trans (ih skipping p' hid')
        simp only
        split
        · exact hrest i.isOr
        · split
          · exact hrest false
          · rw [Execution.lines_nil, List.append_nil]
            exact hfirst
      · rw [Execution.lines_nil, List.append_nil]
        exact hfirst

end

/-! ## Walks -/

section

variable {env : Surroundings} {pkt : Packet} {r rule : Rule} {is : List Insn} {e e' : Engine}
  {w w' : Walk} {done : Outcome × Engine}

theorem Walk.executedNext_of_body (pkt : Packet) (h : w.body? env = some (rule, is)) :
    w.executedNext env pkt = executedInsns env pkt rule is false w.progress := by
  rw [Walk.executedNext, h]

theorem Walk.executedNext_of_none (pkt : Packet) (h : w.body? env = none) :
    w.executedNext env pkt = [] := by
  rw [Walk.executedNext, h]

/-- A step that goes on. -/
theorem Walk.next_meters (hon : env.verbose = true)
    (hrule : ∀ rule is, w.body? env = some (rule, is) → rule.id = r.id → rule = r)
    (hid : r.id < w.progress.engine.roster.nextId) (hnext : w.next env pkt = .inl w') :
    w.progress.engine.Meters r (Execution.lines r (w.executedNext env pkt))
      w'.progress.engine := by
  rcases w.next_cases env pkt with ⟨i, -, -, heq⟩ | ⟨i, rule, -, -, -, hbody, heq⟩ |
    ⟨rule, is, hbody, heq⟩
  · rw [heq] at hnext
    cases hnext
  · rw [heq] at hnext
    cases hnext
    rw [Walk.executedNext_of_none pkt hbody]
    exact .refl _
  · rw [heq] at hnext
    rw [Walk.executedNext_of_body pkt hbody, (settle_eq_inl hnext).1]
    exact runInsns_meters hon pkt (hrule rule is hbody) is false w.progress hid

/-- The last step. -/
theorem Walk.last_meters (hon : env.verbose = true)
    (hrule : ∀ rule is, w.body? env = some (rule, is) → rule.id = r.id → rule = r)
    (hid : r.id < w.progress.engine.roster.nextId) (hnext : w.next env pkt = .inr done) :
    w.progress.engine.Meters r (Execution.lines r (w.executedNext env pkt)) done.2 := by
  rcases Walk.last_cases hnext with ⟨i, hcursor, hget, rfl⟩ | ⟨rule, is, verdict, hbody, -, rfl⟩
  · have hbody : w.body? env = none := by simp only [Walk.body?, hcursor, hget]
    rw [Walk.executedNext_of_none pkt hbody]
    exact .of_silent (.write _ rfl)
  · rw [Walk.executedNext_of_body pkt hbody]
    have hrun := runInsns_meters hon pkt (hrule rule is hbody) is false w.progress hid
    exact hrun.silent (.count _ rule pkt env.now)

/-- **A walk.** -/
theorem Walk.run_meters (hon : env.verbose = true)
    (hrules : ∀ rule ∈ env.chain.rules, rule.id = r.id → rule = r)
    (he : e.Within (env.InService e)) (hid : r.id < e.roster.nextId) (hw : w.Underway env pkt e) :
    w.progress.engine.Meters r (Execution.lines r (w.executed env pkt))
      (Walk.run env pkt w).2 := by
  have hrule : ∀ {w : Walk}, w.Underway env pkt e → ∀ rule is, w.body? env = some (rule, is) →
      rule.id = r.id → rule = r :=
    fun hw rule is hbody => hrules rule (hw.inService hbody).1
  have hid : ∀ {w : Walk}, w.Underway env pkt e → r.id < w.progress.engine.roster.nextId :=
    fun hw => (Effects.standing hw.effects).nextId ▸ hid
  fun_induction Walk.run env pkt w with
  | case1 w result hnext =>
    rw [Walk.executed_of_next_inr hnext]
    exact Walk.last_meters hon (hrule hw) (hid hw) hnext
  | case2 w w' hnext ih =>
    rw [Walk.executed_of_next_inl hnext, Execution.lines_append]
    exact (Walk.next_meters hon (hrule hw) (hid hw) hnext).trans (ih (hw.next he hnext))

/-- **What an evaluation writes about a rule is metered** by the log instructions that it executes,
with logging on. -/
theorem evaluate_meters (hon : env.verbose = true)
    (hrules : ∀ rule ∈ env.chain.rules, rule.id = r.id → rule = r)
    (he : e.Within (env.InService e)) (hid : r.id < e.roster.nextId) (pkt : Packet)
    (resume : Option Rule) :
    e.Meters r (Execution.lines r (executed env pkt resume e))
      (evaluate env pkt resume e).2 := by
  unfold evaluate executed
  split
  · exact .refl e
  · cases startOf env pkt resume e.roster with
    | inr outcome => exact .refl e
    | inl i => exact Walk.run_meters hon hrules he hid (.start pkt i)

/-! ## With logging off -/

/-- With logging off no effect has to do with log instructions. -/
theorem Effect.silent {G : Rule → Prop} (hoff : env.verbose = false)
    (h : Effect env pkt G e e') : e.Silent r e' := by
  cases h with
  | create rule request => exact createState_silent request e
  | log rule =>
    have hsame : logMatch env pkt rule e = e := by
      unfold logMatch
      rw [hoff]
      rfl
    rw [hsame]
    exact .refl e
  | count rule => exact .count e rule pkt env.now
  | draw c =>
    unfold Engine.afterDraw
    split <;> exact .of_eq rfl rfl
  | _ => exact .of_eq rfl rfl

/-- **With logging off** an evaluation writes no match line and uses up no budget. -/
theorem evaluate_silent (hoff : env.verbose = false) (he : e.Within (env.InService e))
    (pkt : Packet) (resume : Option Rule) : e.Silent r (evaluate env pkt resume e).2 := by
  obtain ⟨e', heffects, hlast⟩ := evaluate_effects env pkt resume he
  have hsilent : e.Silent r e' := by
    clear hlast
    induction heffects with
    | refl => exact .refl e
    | tail _ hstep ih => exact ih.trans (hstep.silent hoff)
  rcases hlast with heq | heq <;> rw [heq]
  · exact hsilent
  · exact hsilent.trans (.write e' rfl)

end

end PacketFilter
