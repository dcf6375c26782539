import Mathlib.Logic.Relation
import PacketFilter.Evaluation
import PacketFilter.Proofs.StateTable.Entrywise

/-!
# What evaluating a packet may change

`Effect` lists the single things that running a rule does to an engine, each on behalf of a rule
that the packet has come to. What every effect keeps, running a rule keeps, and its instructions
need not be looked at again.

A packet comes to a rule either at a position of the chain or behind a hit in the state table, and
what the table holds was created by rules that packets came to.

Main statements: `Effect.standing`, no effect changes the set of a rule or whether it may create
state; `Effect.logs`, none writes an error; `Effects.states`, what effects do to the state table;
**`runInsns_effects`**, running instructions is a sequence of effects, and what it follows is of a
rule that has entries in the table.
-/

namespace PacketFilter

/-! ## What rules ask for -/

/-- The state that a command asks for. -/
def Command.request? : Command → Option StateRequest
  | .keepState => some .keepState
  | .limit parts connections => some (.limit parts connections)
  | _ => none

/-- The state that the instructions of a rule ask for, in order. -/
def Rule.requests (r : Rule) : List StateRequest := r.insns.filterMap (·.command.request?)

theorem Command.isSome_request? (c : Command) : c.request?.isSome = c.createsState := by
  cases c <;> rfl

theorem Rule.createsState_iff {r : Rule} : r.createsState = true ↔ ∃ q, q ∈ r.requests := by
  simp only [Rule.createsState, List.any_eq_true, Rule.requests, List.mem_filterMap,
    ← Command.isSome_request?, Option.isSome_iff_exists]
  constructor
  · rintro ⟨i, hi, q, hq⟩
    exact ⟨q, i, hi, hq⟩
  · rintro ⟨q, i, hi, hq⟩
    exact ⟨i, hi, q, hq⟩

/-! ## The standing of rules -/

/-- What administration alone decides about a rule: its set, whether it may create state, and
whether it has been removed. -/
def RuleStatus.standing (s : RuleStatus) : UInt8 × Bool × Bool :=
  (s.set, s.stateEnabled, s.invalid)

namespace Roster

/-- Two rosters of the same rules in the same standing. -/
structure SameStanding (r r' : Roster) : Prop where
  nextId : r'.nextId = r.nextId
  standing : ∀ id, (r'.status id).standing = (r.status id).standing

theorem SameStanding.refl (r : Roster) : SameStanding r r := ⟨rfl, fun _ => rfl⟩

theorem SameStanding.trans {r₁ r₂ r₃ : Roster} (h : SameStanding r₁ r₂)
    (h' : SameStanding r₂ r₃) : SameStanding r₁ r₃ :=
  ⟨h'.nextId.trans h.nextId, fun id => (h'.standing id).trans (h.standing id)⟩

/-- The status of a rule after an update of this or another one; a rule that is not on the roster
cannot be updated. -/
theorem status_update (r : Roster) (id id' : Nat) (f : RuleStatus → RuleStatus) :
    (r.update id f).status id' = r.status id' ∨
      id' = id ∧ (r.update id f).status id' = f (r.status id') := by
  by_cases heq : id' = id
  · subst heq
    by_cases hlt : id' < r.nextId
    · exact Or.inr ⟨rfl, status_update_self hlt f⟩
    · left
      have hle : r.statuses.size ≤ id' := Nat.not_lt.mp hlt
      simp [status, update, hle]
  · exact Or.inl (status_update_of_ne heq f)

theorem SameStanding.update (r : Roster) (id : Nat) {f : RuleStatus → RuleStatus}
    (hf : (f (r.status id)).standing = (r.status id).standing) :
    SameStanding r (r.update id f) := by
  refine ⟨nextId_update r id f, fun id' => ?_⟩
  rcases r.status_update id id' f with h | ⟨rfl, h⟩
  · rw [h]
  · rw [h, hf]

end Roster

/-! ## The log -/

/-- The log has grown by messages that satisfy `P`. -/
def Engine.Logs (P : LogMessage → Prop) (e e' : Engine) : Prop :=
  ∃ ms, e'.log = e.log ++ ms ∧ ∀ m ∈ ms, P m

namespace Engine.Logs

variable {P Q : LogMessage → Prop} {e e' e'' : Engine}

theorem of_eq (h : e'.log = e.log) : e.Logs P e' :=
  ⟨[], by rw [h, List.append_nil], fun _ hm => absurd hm List.not_mem_nil⟩

theorem write {m : LogMessage} (hm : P m) : e.Logs P (e.write m) :=
  ⟨[m], rfl, fun _ hmem => List.mem_singleton.mp hmem ▸ hm⟩

theorem trans (h : e.Logs P e') (h' : e'.Logs P e'') : e.Logs P e'' := by
  obtain ⟨ms, hlog, hms⟩ := h
  obtain ⟨ms', hlog', hms'⟩ := h'
  refine ⟨ms ++ ms', by rw [hlog', hlog, List.append_assoc], fun m hm => ?_⟩
  rcases List.mem_append.mp hm with hm | hm
  · exact hms m hm
  · exact hms' m hm

theorem mono (h : e.Logs P e') (hPQ : ∀ m, P m → Q m) : e.Logs Q e' := by
  obtain ⟨ms, hlog, hms⟩ := h
  exact ⟨ms, hlog, fun m hm => hPQ m (hms m hm)⟩

/-- What holds of all messages so far holds of all messages. -/
theorem forall_mem (h : e.Logs P e') (he : ∀ m ∈ e.log, P m) : ∀ m ∈ e'.log, P m := by
  obtain ⟨ms, hlog, hms⟩ := h
  intro m hm
  rw [hlog] at hm
  rcases List.mem_append.mp hm with hm | hm
  · exact he m hm
  · exact hms m hm

end Engine.Logs

/-! ## Effects -/

section

variable (env : Surroundings) (pkt : Packet)

/-- **One thing that an evaluation does to an engine**, on behalf of a rule of `G`. -/
inductive Effect (G : Rule → Prop) : Engine → Engine → Prop
  | lookup (e : Engine) : Effect G e { e with states := (e.states.lookup pkt env.now).2 }
  | create (e : Engine) (rule : Rule) (request : StateRequest) (hrule : G rule)
      (hrequest : request ∈ rule.requests) : Effect G e (createState env pkt rule request e).2
  | log (e : Engine) (rule : Rule) (hrule : G rule) : Effect G e (logMatch env pkt rule e)
  | count (e : Engine) (rule : Rule) (hrule : G rule) : Effect G e (e.count rule pkt env.now)
  | request (e : Engine) (r : PacketRequest) : Effect G e (e.request r)
  | draw (e : Engine) (c : Command) : Effect G e (e.afterDraw c)

variable {env pkt} {G : Rule → Prop} {e e' : Engine}

/-- What creating state does to the table, the roster, and the random draws. -/
theorem createState_states (rule : Rule) (request : StateRequest) (e : Engine) :
    (createState env pkt rule request e).2.states =
        (e.states.install (e.roster.status rule.id).stateEnabled rule request pkt env.now).2 ∧
      (createState env pkt rule request e).2.roster = e.roster := by
  unfold createState
  simp only
  split
  · exact ⟨rfl, rfl⟩
  · split
    · dsimp only
      split <;> exact ⟨rfl, rfl⟩
    · exact ⟨rfl, rfl⟩

theorem logMatch_states (rule : Rule) (e : Engine) :
    (logMatch env pkt rule e).states = e.states := by
  unfold logMatch
  split
  · rfl
  · dsimp only
    split <;> rfl

theorem standing_permitLog (s : RuleStatus) (budget : UInt32) :
    (s.permitLog budget).2.standing = s.standing := by
  unfold RuleStatus.permitLog
  split
  · rfl
  · split
    · rfl
    · split <;> rfl

theorem logMatch_roster (rule : Rule) (e : Engine) :
    Roster.SameStanding e.roster (logMatch env pkt rule e).roster := by
  have hpermit : Roster.SameStanding e.roster (e.roster.update rule.id fun _ =>
      ((e.roster.status rule.id).permitLog rule.logBudget).2) :=
    Roster.SameStanding.update _ _ (standing_permitLog _ _)
  unfold logMatch
  split
  · exact Roster.SameStanding.refl _
  · dsimp only
    split <;> exact hpermit

/-- No effect changes the standing of a rule. -/
theorem Effect.standing (h : Effect env pkt G e e') :
    Roster.SameStanding e.roster e'.roster := by
  cases h with
  | lookup => exact Roster.SameStanding.refl _
  | create rule request =>
    rw [(createState_states rule request e).2]
    exact Roster.SameStanding.refl _
  | log rule => exact logMatch_roster rule e
  | count rule => exact Roster.SameStanding.update _ _ rfl
  | request r => exact Roster.SameStanding.refl _
  | draw c =>
    unfold Engine.afterDraw
    split <;> exact Roster.SameStanding.refl _

/-- What an effect does to the state table: it looks up state, or creates state for a rule of `G`
that asks for it and is not barred from it, or does nothing. -/
theorem Effect.states (h : Effect env pkt G e e') :
    StateTable.Steps (fun rule request => G rule ∧ request ∈ rule.requests ∧
      (e.roster.status rule.id).stateEnabled = true) e.states e'.states := by
  cases h with
  | lookup => exact StateTable.Steps.single _ (.lookup pkt env.now) fun _ _ _ _ h => by cases h
  | create rule request hrule hrequest =>
    rw [(createState_states rule request e).1]
    refine Relation.ReflTransGen.single (StateTable.Step.apply e.states
      (.install (e.roster.status rule.id).stateEnabled rule request pkt env.now) ?_)
    intro rule' request' pkt' now' heq
    simp only [TableOp.install.injEq] at heq
    obtain ⟨henabled, rfl, rfl, -, -⟩ := heq
    exact ⟨hrule, hrequest, henabled⟩
  | log rule =>
    rw [logMatch_states]
  | count rule => exact Relation.ReflTransGen.refl
  | request r => exact Relation.ReflTransGen.refl
  | draw c =>
    unfold Engine.afterDraw
    split <;> exact Relation.ReflTransGen.refl

/-- Creating state writes at most a warning. -/
theorem createState_logs (rule : Rule) (request : StateRequest) (e : Engine) :
    e.Logs (·.level ≠ .error) (createState env pkt rule request e).2 := by
  unfold createState
  simp only
  split
  · exact .of_eq rfl
  · split
    · dsimp only
      split
      · exact .trans (.of_eq rfl) (.write (by simp [LogMessage.level]))
      · exact .of_eq rfl
    · exact .of_eq rfl

theorem logMatch_logs (rule : Rule) (e : Engine) :
    e.Logs (·.level ≠ .error) (logMatch env pkt rule e) := by
  unfold logMatch
  split
  · exact .of_eq rfl
  · dsimp only
    split
    · exact .of_eq rfl
    · exact .trans (.of_eq rfl) (.write (by simp [LogMessage.level]))
    · exact .trans (.trans (.of_eq rfl) (.write (by simp [LogMessage.level])))
        (.write (by simp [LogMessage.level]))

/-- No effect writes an error. -/
theorem Effect.logs (h : Effect env pkt G e e') : e.Logs (·.level ≠ .error) e' := by
  cases h with
  | create rule request => exact createState_logs rule request e
  | log rule => exact logMatch_logs rule e
  | draw c =>
    unfold Engine.afterDraw
    split <;> exact .of_eq rfl
  | _ => exact .of_eq rfl

/-! ## Effects one after another -/

/-- A table in order whose entries are of rules of `G` that create state. -/
def Engine.Within (G : Rule → Prop) (e : Engine) : Prop :=
  (∃ config, e.states.Sound config) ∧
    ∀ x ∈ e.states.entries, G x.rule ∧ x.rule.createsState = true

/-- Being of certain rules is kept by all that happens to entries. -/
theorem Entry.kept_rule (G : Rule → Prop) : Entry.Kept fun x => G x.rule where
  bare hbare hx := by
    rw [(Entry.of_bare_eq hbare).2.2]
    exact hx
  release removed hx := by
    rw [Entry.rule_release]
    exact hx

theorem Entry.admitted_rule {G : Rule → Prop} {rule : Rule} (hrule : G rule)
    (request : StateRequest) : Entry.Admitted (fun x => G x.rule) rule request where
  keepState _ _ _ hx := hx ▸ hrule
  parent _ _ _ hx := hx ▸ hrule
  child _ _ _ hx := hx ▸ hrule
  counted _ _ _ _ _ hp := hp

/-- A sequence of effects. -/
abbrev Effects (env : Surroundings) (pkt : Packet) (G : Rule → Prop) : Engine → Engine → Prop :=
  Relation.ReflTransGen (Effect env pkt G)

theorem Effects.standing (h : Effects env pkt G e e') : Roster.SameStanding e.roster e'.roster := by
  induction h with
  | refl => exact Roster.SameStanding.refl _
  | tail _ hstep ih => exact ih.trans hstep.standing

/-- **What an evaluation does to the state table.** Which rules are barred from creating state does
not change on the way. -/
theorem Effects.states (h : Effects env pkt G e e') :
    StateTable.Steps (fun rule request => G rule ∧ request ∈ rule.requests ∧
      (e.roster.status rule.id).stateEnabled = true) e.states e'.states := by
  induction h with
  | refl => exact Relation.ReflTransGen.refl
  | tail hsteps hstep ih =>
    refine ih.trans (hstep.states.mono fun rule request hgrant => ?_)
    obtain ⟨hrule, hrequest, henabled⟩ := hgrant
    have hsame := (Effects.standing hsteps).standing rule.id
    simp only [RuleStatus.standing, Prod.mk.injEq] at hsame
    exact ⟨hrule, hrequest, hsame.2.1 ▸ henabled⟩

theorem Effects.logs (h : Effects env pkt G e e') : e.Logs (·.level ≠ .error) e' := by
  induction h with
  | refl => exact .of_eq rfl
  | tail _ hstep ih => exact ih.trans hstep.logs

theorem Effects.within (h : Effects env pkt G e e') (he : e.Within G) : e'.Within G := by
  obtain ⟨⟨config, hsound⟩, hentries⟩ := he
  have hsteps := Effects.states h
  refine ⟨⟨config, hsteps.sound hsound⟩, hsteps.forall hsound
    (Entry.kept_rule fun r => G r ∧ r.createsState = true) (fun rule request hgrant => ?_) hentries⟩
  have hrule : G rule ∧ rule.createsState = true :=
    ⟨hgrant.1, Rule.createsState_iff.mpr ⟨request, hgrant.2.1⟩⟩
  exact Entry.admitted_rule (G := fun r => G r ∧ r.createsState = true) hrule request

variable (env pkt)

/-- A lookup is an effect, and what it finds is of a rule of `G` that creates state. -/
theorem consult_effects (p : Progress) (hp : p.engine.Within G) :
    Effects env pkt G p.engine (consult env pkt p).2.engine ∧
      ∀ creator, (consult env pkt p).1 = some creator →
        G creator ∧ creator.createsState = true := by
  unfold consult
  split
  · exact ⟨Relation.ReflTransGen.refl, fun _ hno => by cases hno⟩
  · refine ⟨Relation.ReflTransGen.single (Effect.lookup p.engine), fun creator hcreator => ?_⟩
    obtain ⟨hit, hhit, rfl⟩ := Option.map_eq_some_iff.mp hcreator
    obtain ⟨x, hx, -, hrule⟩ := StateTable.exists_of_lookup hhit
    exact hrule ▸ hp.2 x hx

theorem perform_effects {rule : Rule} (hrule : G rule) (action : Action) (p : Progress) :
    Effects env pkt G p.engine (perform env pkt rule action p).2.engine := by
  cases action with
  | reject code =>
    simp only [perform]
    split
    · exact Relation.ReflTransGen.single (Effect.request p.engine _)
    · exact Relation.ReflTransGen.refl
  | count => exact Relation.ReflTransGen.single (Effect.count p.engine rule hrule)
  | skipTo target => exact Relation.ReflTransGen.single (Effect.count p.engine rule hrule)
  | forward address target =>
    simp only [perform]
    split
    · exact Relation.ReflTransGen.refl
    · split <;> exact Relation.ReflTransGen.refl
  | _ => exact Relation.ReflTransGen.refl

/-- **Running an instruction** of a rule of `G` is a sequence of effects, and follows only rules of
`G` that create state. -/
theorem examine_effects {rule : Rule} (hrule : G rule) {c : Command}
    (hc : ∀ request, c.request? = some request → request ∈ rule.requests) (p : Progress)
    (hp : p.engine.Within G) :
    Effects env pkt G p.engine (examine env pkt rule c p).2.engine ∧
      ∀ creator, (examine env pkt rule c p).1 = .ends (.follow creator) →
        G creator ∧ creator.createsState = true := by
  unfold examine
  split
  case h_1 | h_2 =>
    obtain ⟨heffects, hfollow⟩ := consult_effects env pkt p hp
    split
    · rename_i creator p' heq
      rw [heq] at heffects hfollow
      refine ⟨heffects, fun creator' h => ?_⟩
      cases h
      exact hfollow creator rfl
    · rename_i p' heq
      rw [heq] at heffects
      exact ⟨heffects, fun creator' h => by cases h⟩
  case h_3 | h_4 =>
    have hcreate : ∀ q ∈ rule.requests, Effect env pkt G p.engine
        (createState env pkt rule q p.engine).2 :=
      fun q hq => Effect.create p.engine rule q hrule hq
    have hcreate := hcreate _ (hc _ rfl)
    split
    · rename_i engine heq
      rw [heq] at hcreate
      exact ⟨Relation.ReflTransGen.single hcreate, fun creator h => by cases h⟩
    · rename_i engine heq
      rw [heq] at hcreate
      exact ⟨Relation.ReflTransGen.single hcreate, fun creator h => by cases h⟩
  case h_5 =>
    exact ⟨Relation.ReflTransGen.single (Effect.log p.engine rule hrule),
      fun creator h => by cases h⟩
  case h_6 action _ =>
    refine ⟨perform_effects env pkt hrule action p, fun creator h => ?_⟩
    simp only [Examined.ends.injEq] at h
    exact absurd h (perform_ne_follow env pkt rule action p creator)
  case h_7 =>
    exact ⟨Relation.ReflTransGen.single (Effect.draw p.engine _), fun creator h => by cases h⟩

/-- **Running instructions** of a rule of `G`. -/
theorem runInsns_effects {rule : Rule} (hrule : G rule) (is : List Insn)
    (his : ∀ i ∈ is, i ∈ rule.insns) (skipping : Bool) (p : Progress) (hp : p.engine.Within G) :
    Effects env pkt G p.engine (runInsns env pkt rule is skipping p).2.engine ∧
      ∀ creator, (runInsns env pkt rule is skipping p).1 = .follow creator →
        G creator ∧ creator.createsState = true := by
  induction is generalizing skipping p with
  | nil => exact ⟨Relation.ReflTransGen.refl, fun _ h => by cases h⟩
  | cons i is ih =>
    have ih := ih fun j hj => his j (List.mem_cons_of_mem i hj)
    cases skipping with
    | true => exact ih i.isOr p hp
    | false =>
      have hrequest : ∀ request, i.command.request? = some request → request ∈ rule.requests :=
        fun request h => List.mem_filterMap.mpr ⟨i, his i List.mem_cons_self, h⟩
      obtain ⟨hfirst, hfollow⟩ := examine_effects env pkt hrule hrequest p hp
      simp only [runInsns]
      split
      · rename_i result p' heq
        rw [heq] at hfirst hfollow
        exact ⟨hfirst, fun creator h => hfollow creator (congrArg Examined.ends h)⟩
      · rename_i b p' heq
        rw [heq] at hfirst
        have hp' : p'.engine.Within G := Effects.within hfirst hp
        split
        · obtain ⟨hmore, hfollow'⟩ := ih i.isOr p' hp'
          exact ⟨hfirst.trans hmore, hfollow'⟩
        · split
          · obtain ⟨hmore, hfollow'⟩ := ih false p' hp'
            exact ⟨hfirst.trans hmore, hfollow'⟩
          · exact ⟨hfirst, fun creator h => by cases h⟩

end

end PacketFilter
