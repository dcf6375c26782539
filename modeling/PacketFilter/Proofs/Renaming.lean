import PacketFilter.Proofs.Chain
import PacketFilter.Proofs.StateTable.Renaming
import PacketFilter.Proofs.Walks

/-!
# Packets do not see ids

Two firewalls may hold the same rules under different ids, because one of them has a longer history.
Their state tables are salted differently then, have different numbers of buckets, and the counters
of their rules differ. None of this makes a difference to a packet: it is decided in the same way,
by the rule at the same position, if the rules are in the same sets, may create state alike, and the
tables hold the same entries under the different ids.

What is compared at each step is what a packet can see: whether the engines are alike, what a lookup
has found, and where the walk stands. Messages, counters and requests are left out.

Main statements: `Chain.continueAt_rename`, positions are the same; `examine_alike` and
`runInsns_alike`, an instruction and a rule lead to the same; `Walk.next_alike`, so does a step;
**`evaluate_alike`**, an evaluation comes to the same outcome under the other ids.
-/

namespace PacketFilter

variable {σ : Equiv.Perm Nat}

/-! ## Chains -/

namespace Chain

variable {c c' : Chain}

theorem get?_rename (h : c'.rules = c.rules.map (Rule.rename σ)) (i : Nat) :
    c'.get? i = (c.get? i).map (Rule.rename σ) := by
  unfold get?
  rw [h, List.getElem?_map]

theorem lastPosition?_rename (id : Nat) (rules : List Rule) :
    lastPosition? (σ id) (rules.map (Rule.rename σ)) = lastPosition? id rules := by
  induction rules with
  | nil => rfl
  | cons r rules ih =>
    have hid : (r.rename σ).id = σ id ↔ r.id = id := σ.injective.eq_iff
    simp only [List.map_cons, lastPosition?, ih, hid]

/-- Numbers are the same at all positions. -/
theorem firstAfter?_rename (h : c'.rules = c.rules.map (Rule.rename σ)) (n : UInt16) :
    c'.firstAfter? n = c.firstAfter? n := by
  unfold firstAfter?
  rw [h, List.findIdx?_map]
  rfl

theorem next_rename (h : c'.rules = c.rules.map (Rule.rename σ)) (i : Nat) :
    c'.next i = c.next i := by
  unfold next
  rw [get?_rename h, length, length, h, List.length_map]
  cases c.get? i with
  | none => rfl
  | some r =>
    have haction : (r.rename σ).action = r.action := rfl
    simp only [Option.map_some, haction, ← List.map_drop, List.findIdx_map]
    rfl

/-- **A walk goes on at the same position**, behind a rule and behind the same one under its other
id. -/
theorem continueAt_rename (h : c'.rules = c.rules.map (Rule.rename σ)) (r : Rule) :
    c'.continueAt (r.rename σ) = c.continueAt r := by
  have hindex : c'.indexOf? (r.rename σ) = c.indexOf? r := by
    unfold indexOf?
    rw [h]
    exact lastPosition?_rename r.id c.rules
  unfold continueAt
  rw [hindex, firstAfter?_rename h, length, length, h, List.length_map]
  cases c.indexOf? r with
  | some i => exact next_rename h i
  | none => rfl

end Chain

/-! ## What is compared -/

/-- Surroundings that differ in the ids of the rules, and in which every draw gives one value. -/
structure Surroundings.Alike (σ : Equiv.Perm Nat) (env env' : Surroundings) : Prop where
  rules : env'.chain.rules = env.chain.rules.map (Rule.rename σ)
  disabled : env'.disabled = env.disabled
  now : env'.now = env.now
  draw : ∀ m n, env'.draw m = env.draw n

/-- **Engines that are alike to a packet**: the same entries under the other ids, and the rules of
the chain in the same sets and barred alike. -/
structure Engine.Alike (σ : Equiv.Perm Nat) (rules : List Rule) (e e' : Engine) : Prop where
  states : ∃ l, e.states.Refines l ∧ e'.states.Refines (l.rename σ)
  sets : ∀ r ∈ rules, e'.roster.setOf (r.rename σ) = e.roster.setOf r
  enabled : ∀ r ∈ rules, r.createsState = true →
    (e'.roster.status (r.rename σ).id).stateEnabled = (e.roster.status r.id).stateEnabled

/-- The same progress under the other ids. -/
structure Progress.Alike (σ : Equiv.Perm Nat) (rules : List Rule) (p p' : Progress) : Prop where
  engine : p.engine.Alike σ rules p'.engine
  lookup : p'.lookup = p.lookup.map (Option.map (StateHit.rename σ))

/-- The result under the other ids. -/
def RuleResult.rename (σ : Equiv.Perm Nat) : RuleResult → RuleResult
  | .follow rule => .follow (rule.rename σ)
  | result => result

/-- The same of what one instruction leads to. -/
def Examined.rename (σ : Equiv.Perm Nat) : Examined → Examined
  | .ends result => .ends (result.rename σ)
  | examined => examined

/-- The cursor under the other ids. -/
def Cursor.rename (σ : Equiv.Perm Nat) : Cursor → Cursor
  | .standing i => .standing i
  | .following rule i => .following (rule.rename σ) i

/-- The outcome under the other ids. -/
def Outcome.rename (σ : Equiv.Perm Nat) (outcome : Outcome) : Outcome :=
  { outcome with rule := outcome.rule.map (Rule.rename σ) }

section

variable {env env' : Surroundings} {pkt : Packet} {rules : List Rule} {e e' f f' : Engine}
  {p p' : Progress} {rule : Rule}

/-- What leaves the standing of all rules as it is. -/
theorem Engine.Alike.of_standing (h : e.Alike σ rules e')
    (hroster : Roster.SameStanding e.roster f.roster)
    (hroster' : Roster.SameStanding e'.roster f'.roster)
    (hstates : ∃ l, f.states.Refines l ∧ f'.states.Refines (l.rename σ)) : f.Alike σ rules f' := by
  refine ⟨hstates, fun r hr => ?_, fun r hr hcreates => ?_⟩
  · rw [hroster.setOf_eq, hroster'.setOf_eq]
    exact h.sets r hr
  · have hsame := hroster.standing r.id
    have hsame' := hroster'.standing (r.rename σ).id
    simp only [RuleStatus.standing, Prod.mk.injEq] at hsame hsame'
    rw [hsame.2.1, hsame'.2.1]
    exact h.enabled r hr hcreates

/-- Neither a count nor a request is seen by a packet. -/
theorem Engine.Alike.count (h : e.Alike σ rules e') (rule rule' : Rule) (now now' : Moment) :
    (e.count rule pkt now).Alike σ rules (e'.count rule' pkt now') :=
  h.of_standing (Roster.SameStanding.update _ _ rfl) (Roster.SameStanding.update _ _ rfl) h.states

theorem Engine.Alike.afterDraw (h : e.Alike σ rules e') (c : Command) :
    (e.afterDraw c).Alike σ rules (e'.afterDraw c) := by
  unfold Engine.afterDraw
  split
  · exact h.of_standing (.refl _) (.refl _) h.states
  · exact h

theorem Progress.Alike.direction (h : p.Alike σ rules p') : p'.direction = p.direction := by
  unfold Progress.direction
  rw [h.lookup]
  cases p.lookup with
  | none => rfl
  | some hit => cases hit <;> rfl

/-! ## Instructions -/

/-- A lookup finds the same entry. -/
theorem consult_alike (pkt : Packet) (henv : env.Alike σ env') (h : p.Alike σ rules p') :
    (consult env' pkt p').1 = (consult env pkt p).1.map (Rule.rename σ) ∧
      (consult env pkt p).2.Alike σ rules (consult env' pkt p').2 := by
  unfold consult
  rw [h.lookup]
  cases hlookup : p.lookup with
  | some hit =>
    exact ⟨rfl, h⟩
  | none =>
    obtain ⟨l, hl, hl'⟩ := h.engine.states
    obtain ⟨hanswer, hafter⟩ := hl.lookup pkt env.now
    obtain ⟨hanswer', hafter'⟩ := hl'.lookup pkt env.now
    rw [FlatTable.lookup_rename] at hanswer' hafter'
    simp only [Option.map_none, henv.now, hanswer, hanswer']
    refine ⟨?_, ?_, rfl⟩
    · cases (l.lookup pkt env.now).1 <;> rfl
    · exact h.engine.of_standing (.refl _) (.refl _) ⟨_, hafter, hafter'⟩

/-- The flow has state now if the table has not refused it. -/
theorem createState_eq (rule : Rule) (request : StateRequest) (e : Engine) :
    (createState env pkt rule request e).1 = (e.states.install
      (e.roster.status rule.id).stateEnabled rule request pkt env.now).1.isOk := by
  unfold createState
  generalize e.states.install (e.roster.status rule.id).stateEnabled rule request pkt env.now =
    installed
  obtain ⟨answer, states⟩ := installed
  cases answer with
  | ok => rfl
  | error why =>
    simp only
    split <;> rfl

/-- State is created, or refused, alike. -/
theorem createState_alike (pkt : Packet) (henv : env.Alike σ env') (h : e.Alike σ rules e')
    (hrule : rule ∈ rules) (hcreates : rule.createsState = true) (request : StateRequest) :
    (createState env' pkt (rule.rename σ) request e').1 = (createState env pkt rule request e).1 ∧
      (createState env pkt rule request e).2.Alike σ rules
        (createState env' pkt (rule.rename σ) request e').2 := by
  obtain ⟨l, hl, hl'⟩ := h.states
  have henabled := h.enabled rule hrule hcreates
  obtain ⟨hanswer, hafter⟩ :=
    hl.install (e.roster.status rule.id).stateEnabled rule request pkt env.now
  obtain ⟨hanswer', hafter'⟩ :=
    hl'.install (e.roster.status rule.id).stateEnabled (rule.rename σ) request pkt env.now
  rw [FlatTable.install_rename] at hanswer' hafter'
  obtain ⟨hstates, hroster⟩ := @createState_states env pkt rule request e
  obtain ⟨hstates', hroster'⟩ := @createState_states env' pkt (rule.rename σ) request e'
  rw [henabled, henv.now] at hstates'
  constructor
  · rw [createState_eq, createState_eq, henabled, henv.now, hanswer, hanswer']
  · refine h.of_standing ?_ ?_ ⟨_, hstates ▸ hafter, hstates' ▸ hafter'⟩
    · rw [hroster]
      exact .refl _
    · rw [hroster']
      exact .refl _

/-- An action is carried out alike. -/
theorem perform_alike (env env' : Surroundings) (pkt : Packet) (rule : Rule)
    (h : p.Alike σ rules p') (action : Action) :
    (perform env' pkt (rule.rename σ) action p').1 = (perform env pkt rule action p).1.rename σ ∧
      (perform env pkt rule action p).2.Alike σ rules
        (perform env' pkt (rule.rename σ) action p').2 := by
  have hcount : Progress.Alike σ rules { p with engine := p.engine.count rule pkt env.now }
      { p' with engine := p'.engine.count (rule.rename σ) pkt env'.now } :=
    ⟨h.engine.count rule (rule.rename σ) env.now env'.now, h.lookup⟩
  cases action with
  | reject code =>
    simp only [perform]
    split
    · exact ⟨rfl, h.engine.of_standing (.refl _) (.refl _) h.engine.states, h.lookup⟩
    · exact ⟨rfl, h⟩
  | count => exact ⟨rfl, hcount⟩
  | skipTo target => exact ⟨rfl, hcount⟩
  | forward address target =>
    simp only [perform, h.direction]
    split
    · exact ⟨rfl, h⟩
    · split <;> exact ⟨rfl, h⟩
  | _ => exact ⟨rfl, h⟩

/-- **An instruction leads to the same.** One that creates state is of a rule that does. -/
theorem examine_alike (pkt : Packet) (henv : env.Alike σ env') (h : p.Alike σ rules p')
    (hrule : rule ∈ rules) {c : Command} (hc : c.createsState = true → rule.createsState = true) :
    (examine env' pkt (rule.rename σ) c p').1 = (examine env pkt rule c p).1.rename σ ∧
      (examine env pkt rule c p).2.Alike σ rules (examine env' pkt (rule.rename σ) c p').2 := by
  unfold examine
  split
  case h_1 | h_2 =>
    obtain ⟨hfound, hafter⟩ := consult_alike pkt henv h
    generalize consult env' pkt p' = looked' at hfound hafter
    generalize consult env pkt p = looked at hfound hafter
    obtain ⟨found, q⟩ := looked
    obtain ⟨found', q'⟩ := looked'
    obtain rfl : found' = found.map (Rule.rename σ) := hfound
    cases found <;> exact ⟨rfl, hafter⟩
  case h_3 | h_4 =>
    obtain ⟨hanswer, hafter⟩ := createState_alike pkt henv h.engine hrule (hc rfl) _
    generalize createState env' pkt (rule.rename σ) _ p'.engine = created' at hanswer hafter
    generalize createState env pkt rule _ p.engine = created at hanswer hafter
    obtain ⟨done, f⟩ := created
    obtain ⟨done', f'⟩ := created'
    obtain rfl : done' = done := hanswer
    cases done' <;> exact ⟨rfl, hafter, h.lookup⟩
  case h_5 =>
    refine ⟨rfl, h.engine.of_standing (logMatch_roster rule _) (logMatch_roster _ _) ?_, h.lookup⟩
    rw [logMatch_states, logMatch_states]
    exact h.engine.states
  case h_6 action _ =>
    obtain ⟨hresult, hafter⟩ := perform_alike env env' pkt rule h action
    exact ⟨congrArg Examined.ends hresult, hafter⟩
  case h_7 =>
    constructor
    · rw [henv.draw p'.engine.drawn p.engine.drawn]
      rfl
    · refine ⟨h.engine.afterDraw c, h.lookup⟩

/-- **A rule leads to the same**, from any of its instructions on. -/
theorem runInsns_alike (pkt : Packet) (henv : env.Alike σ env') (hrule : rule ∈ rules)
    (is : List Insn) (his : ∀ i ∈ is, i ∈ rule.insns) (skipping : Bool)
    (h : p.Alike σ rules p') :
    (runInsns env' pkt (rule.rename σ) is skipping p').1 =
        (runInsns env pkt rule is skipping p).1.rename σ ∧
      (runInsns env pkt rule is skipping p).2.Alike σ rules
        (runInsns env' pkt (rule.rename σ) is skipping p').2 := by
  induction is generalizing skipping p p' with
  | nil => exact ⟨rfl, h⟩
  | cons i is ih =>
    have his' : ∀ j ∈ is, j ∈ rule.insns := fun j hj => his j (List.mem_cons_of_mem i hj)
    cases skipping with
    | true => exact ih his' i.isOr h
    | false =>
      have hcreates : i.command.createsState = true → rule.createsState = true := fun hi =>
        List.any_eq_true.mpr ⟨i, his i List.mem_cons_self, hi⟩
      obtain ⟨hresult, hafter⟩ := examine_alike pkt henv h hrule hcreates
      simp only [runInsns]
      generalize examine env' pkt (rule.rename σ) i.command p' = examined' at hresult hafter
      generalize examine env pkt rule i.command p = examined at hresult hafter
      obtain ⟨examined, q⟩ := examined
      obtain ⟨examined', q'⟩ := examined'
      obtain rfl : examined' = examined.rename σ := hresult
      cases examined with
      | ends result => exact ⟨rfl, hafter⟩
      | holds b =>
        simp only [Examined.rename]
        split
        · exact ih his' i.isOr hafter
        · split
          · exact ih his' false hafter
          · exact ⟨rfl, hafter⟩

/-! ## Walks -/

/-- Walks that have made the same progress and stand at the same place, under the other ids. -/
structure Walk.Alike (σ : Equiv.Perm Nat) (rules : List Rule) (w w' : Walk) : Prop where
  progress : w.progress.Alike σ rules w'.progress
  cursor : w'.cursor = w.cursor.rename σ

/-- Steps that lead to walks that are alike, or to the same outcome. -/
def StepsAlike (σ : Equiv.Perm Nat) (rules : List Rule) :
    Walk ⊕ (Outcome × Engine) → Walk ⊕ (Outcome × Engine) → Prop
  | .inl w, .inl w' => w.Alike σ rules w'
  | .inr done, .inr done' => done'.1 = done.1.rename σ
  | _, _ => False

variable {w w' : Walk}

theorem settle_alike (henv : env.Alike σ env') (i : Nat) {result result' : RuleResult × Progress}
    (hresult : result'.1 = result.1.rename σ) (hafter : result.2.Alike σ rules result'.2) :
    StepsAlike σ rules (settle env pkt rule i result)
      (settle env' pkt (rule.rename σ) i result') := by
  obtain ⟨kind, p⟩ := result
  obtain ⟨kind', p'⟩ := result'
  obtain rfl : kind' = kind.rename σ := hresult
  cases kind with
  | nextRule => exact ⟨hafter, rfl⟩
  | goOn => exact ⟨hafter, congrArg Cursor.standing (Chain.continueAt_rename henv.rules rule)⟩
  | follow creator => exact ⟨hafter, rfl⟩
  | decided verdict =>
    show (⟨verdict, some (rule.rename σ), p'.direction⟩ : Outcome) = _
    rw [hafter.direction]
    rfl

/-- The walks run the same instructions of the same rule. -/
theorem Walk.Alike.body (henv : env.Alike σ env') (h : w.Alike σ env.chain.rules w') :
    w'.body? env' = (w.body? env).map fun body => (body.1.rename σ, body.2) := by
  unfold Walk.body?
  rw [h.cursor]
  cases w.cursor with
  | following rule i => rfl
  | standing i =>
    simp only [Cursor.rename, Chain.get?_rename henv.rules]
    cases hget : env.chain.get? i with
    | none => rfl
    | some rule =>
      have hset := h.progress.engine.sets rule (List.mem_of_getElem? hget)
      simp only [Option.map_some, henv.disabled, hset]
      split <;> rfl

/-- **A step leads to the same.** -/
theorem Walk.next_alike (henv : env.Alike σ env') (hw : w.Underway env pkt e)
    (h : w.Alike σ env.chain.rules w') :
    StepsAlike σ env.chain.rules (w.next env pkt) (w'.next env' pkt) := by
  rcases w.next_cases env pkt with ⟨i, hcursor, hget, hnext⟩ |
    ⟨i, rule, hcursor, hget, hdisabled, -, hnext⟩ | ⟨rule, is, hbody, hnext⟩
  · have hcursor' : w'.cursor = .standing i := by rw [h.cursor, hcursor]; rfl
    have hget' : env'.chain.get? i = none := by rw [Chain.get?_rename henv.rules, hget]; rfl
    rw [hnext]
    simp only [Walk.next, hcursor', hget']
    rfl
  · have hcursor' : w'.cursor = .standing i := by rw [h.cursor, hcursor]; rfl
    have hget' : env'.chain.get? i = some (rule.rename σ) := by
      rw [Chain.get?_rename henv.rules, hget]; rfl
    have hset := h.progress.engine.sets rule (List.mem_of_getElem? hget)
    have hdisabled' :
        env'.disabled.has (w'.progress.engine.roster.setOf (rule.rename σ)) = true := by
      rw [henv.disabled, hset]
      exact hdisabled
    rw [hnext]
    simp only [Walk.next, hcursor', hget', if_pos hdisabled']
    exact ⟨h.progress, rfl⟩
  · have hrule := (hw.inService hbody).1
    have hbody' : w'.body? env' = some (rule.rename σ, is) := by
      rw [h.body henv, hbody]; rfl
    have hposition : w'.cursor.position = w.cursor.position := by
      rw [h.cursor]
      cases w.cursor <;> rfl
    obtain ⟨hresult, hafter⟩ :=
      runInsns_alike pkt henv hrule is (Walk.mem_of_body hbody) false h.progress
    rw [hnext, Walk.next_of_body pkt hbody', hposition]
    exact settle_alike henv w.cursor.position hresult hafter

/-- **Walks come to the same outcome.** -/
theorem Walk.run_alike (henv : env.Alike σ env') (he : e.Within (env.InService e))
    (hw : w.Underway env pkt e) (h : w.Alike σ env.chain.rules w') :
    (Walk.run env' pkt w').1 = (Walk.run env pkt w).1.rename σ := by
  fun_induction Walk.run env pkt w generalizing w' with
  | case1 w done hnext =>
    have hstep := Walk.next_alike henv hw h
    rw [hnext] at hstep
    cases hnext' : w'.next env' pkt with
    | inl v' => rw [hnext'] at hstep; exact hstep.elim
    | inr done' =>
      rw [hnext'] at hstep
      rw [Walk.run_of_next_inr hnext']
      exact hstep
  | case2 w v hnext ih =>
    have hstep := Walk.next_alike henv hw h
    rw [hnext] at hstep
    cases hnext' : w'.next env' pkt with
    | inl v' =>
      rw [hnext'] at hstep
      rw [Walk.run_of_next_inl hnext']
      exact ih (hw.next he hnext) hstep
    | inr done' => rw [hnext'] at hstep; exact hstep.elim

/-- **An evaluation comes to the same outcome** for a packet that does not come back. -/
theorem evaluate_alike (henv : env.Alike σ env') (he : e.Within (env.InService e))
    (h : e.Alike σ env.chain.rules e') (pkt : Packet) :
    (evaluate env' pkt none e').1 = (evaluate env pkt none e).1.rename σ := by
  have hwalk : ∀ i, (Walk.run env' pkt ⟨.standing i, { engine := e' }⟩).1 =
      (Walk.run env pkt ⟨.standing i, { engine := e }⟩).1.rename σ := fun i =>
    Walk.run_alike henv he (Walk.Underway.start pkt i) ⟨⟨h, rfl⟩, rfl⟩
  unfold evaluate startOf
  by_cases hgenerated : pkt.generated = true
  · rw [if_pos hgenerated, if_pos hgenerated]
    rfl
  · rw [if_neg hgenerated, if_neg hgenerated]
    cases pkt.divertTag with
    | none => exact hwalk 0
    | some tag =>
      by_cases hle : defaultRuleNumber ≤ tag
      · simp only [if_pos hle]
        rfl
      · simp only [if_neg hle, Chain.firstAfter?_rename henv.rules]
        cases env.chain.firstAfter? tag with
        | none => rfl
        | some i => exact hwalk i

end

end PacketFilter
