import PacketFilter.Proofs.Effects

/-!
# Walks under way

What a step of a walk can do is said once: it runs the instructions of a rule, or it passes over a
rule in a disabled set, or it finds that the chain has come to its end. What holds at the outset and
is kept by each step holds of the walk that the outcome comes from.

The rules that an engine has in service are those of the chain whose sets are enabled. A walk comes
to no other rules: at a position it looks at the set, and behind a hit it comes to a rule that has
an entry in the table.

Main statements: `Walk.next_cases`, what a step can do, with `Walk.step_cases` and `Walk.last_cases`
for a step that goes on and for the last one; `Walk.run_spec`, what is kept by steps;
**`Walk.Underway.run`**, a walk runs rules in service only; **`evaluate_effects`**, an evaluation is
a sequence of effects of rules in service.
-/

namespace PacketFilter

/-! ## Steps -/

/-- The position that a walk has come to, be it that it stands there or that it found state
there. -/
def Cursor.position : Cursor → Nat
  | .standing i => i
  | .following _ i => i

/-- The rule that a walk runs next, and which of its instructions: none past the end of the chain
and at a rule in a disabled set. -/
def Walk.body? (env : Surroundings) (w : Walk) : Option (Rule × List Insn) :=
  match w.cursor with
  | .standing i =>
    match env.chain.get? i with
    | none => none
    | some rule =>
      if env.disabled.has (w.progress.engine.roster.setOf rule) then none
      else some (rule, rule.insns)
  | .following rule _ => some (rule, rule.actionPart)

section

variable {env : Surroundings} {pkt : Packet} {w w' : Walk} {rule : Rule} {is : List Insn}
  {done : Outcome × Engine}

/-- **What a step of a walk can do.** -/
theorem Walk.next_cases (env : Surroundings) (pkt : Packet) (w : Walk) :
    (∃ i, w.cursor = .standing i ∧ env.chain.get? i = none ∧ w.next env pkt =
      .inr ({ verdict := .deny }, w.progress.engine.write (.undecided pkt.flow))) ∨
    (∃ i rule, w.cursor = .standing i ∧ env.chain.get? i = some rule ∧
      env.disabled.has (w.progress.engine.roster.setOf rule) = true ∧ w.body? env = none ∧
      w.next env pkt = .inl ⟨.standing (i + 1), w.progress⟩) ∨
    ∃ rule is, w.body? env = some (rule, is) ∧ w.next env pkt =
      settle env pkt rule w.cursor.position (runInsns env pkt rule is false w.progress) := by
  obtain ⟨cursor, p⟩ := w
  cases cursor with
  | following rule i => exact Or.inr (Or.inr ⟨rule, rule.actionPart, rfl, rfl⟩)
  | standing i =>
    cases hget : env.chain.get? i with
    | none => exact Or.inl ⟨i, rfl, hget, by simp only [Walk.next, hget]⟩
    | some rule =>
      right
      by_cases hdisabled : env.disabled.has (p.engine.roster.setOf rule) = true
      · refine Or.inl ⟨i, rule, rfl, hget, hdisabled, ?_, ?_⟩
        · simp only [Walk.body?, hget, if_pos hdisabled]
        · simp only [Walk.next, hget, if_pos hdisabled]
      · refine Or.inr ⟨rule, rule.insns, ?_, ?_⟩
        · simp only [Walk.body?, hget, if_neg hdisabled]
        · simp only [Walk.next, hget, if_neg hdisabled]
          rfl

/-- Where the rule that a walk runs next comes from. -/
theorem Walk.of_body (h : w.body? env = some (rule, is)) :
    (∃ i, w.cursor = .standing i ∧ env.chain.get? i = some rule ∧
      env.disabled.has (w.progress.engine.roster.setOf rule) = false ∧ is = rule.insns) ∨
    ∃ i, w.cursor = .following rule i ∧ is = rule.actionPart := by
  obtain ⟨cursor, p⟩ := w
  cases cursor with
  | following rule' i =>
    obtain ⟨rfl, rfl⟩ : rule' = rule ∧ rule'.actionPart = is := by simpa [Walk.body?] using h
    exact Or.inr ⟨i, rfl, rfl⟩
  | standing i =>
    unfold Walk.body? at h
    simp only at h
    split at h
    · cases h
    · rename_i rule' hget
      split at h
      · cases h
      · rename_i henabled
        cases h
        exact Or.inl ⟨i, rfl, hget, Bool.eq_false_iff.mpr henabled, rfl⟩

theorem Walk.next_of_body (pkt : Packet) (h : w.body? env = some (rule, is)) :
    w.next env pkt =
      settle env pkt rule w.cursor.position (runInsns env pkt rule is false w.progress) := by
  rcases w.next_cases env pkt with ⟨i, hcursor, hget, -⟩ | ⟨i, rule', -, -, -, hbody, -⟩ |
    ⟨rule', is', hbody, heq⟩
  · rw [Walk.body?, hcursor] at h
    simp [hget] at h
  · rw [hbody] at h
    cases h
  · rw [hbody] at h
    cases h
    exact heq

/-- What a walk runs of a rule are instructions of that rule. -/
theorem Walk.mem_of_body (h : w.body? env = some (rule, is)) : ∀ i ∈ is, i ∈ rule.insns := by
  rcases Walk.of_body h with ⟨_, _, _, _, rfl⟩ | ⟨_, _, rfl⟩
  · exact fun _ hi => hi
  · exact fun _ hi => List.mem_of_mem_drop hi

/-- A rule ends the walk only by deciding, and is accounted the packet then. -/
theorem settle_eq_inr {i : Nat} {result : RuleResult × Progress}
    (h : settle env pkt rule i result = .inr done) :
    ∃ verdict, result.1 = .decided verdict ∧
      done =
        (⟨verdict, some rule, result.2.direction⟩, result.2.engine.count rule pkt env.now) := by
  obtain ⟨kind, p⟩ := result
  cases kind with
  | decided verdict =>
    cases h
    exact ⟨verdict, rfl, rfl⟩
  | _ => cases h

/-- Where a walk goes on after a rule that does not decide. -/
theorem settle_eq_inl {i : Nat} {result : RuleResult × Progress}
    (h : settle env pkt rule i result = .inl w') :
    w'.progress = result.2 ∧
      (result.1 = .nextRule ∧ w'.cursor = .standing (i + 1) ∨
        result.1 = .goOn ∧ w'.cursor = .standing (env.chain.continueAt rule) ∨
        ∃ creator, result.1 = .follow creator ∧ w'.cursor = .following creator i) := by
  obtain ⟨kind, p⟩ := result
  cases kind with
  | nextRule =>
    cases h
    exact ⟨rfl, Or.inl ⟨rfl, rfl⟩⟩
  | goOn =>
    cases h
    exact ⟨rfl, Or.inr (Or.inl ⟨rfl, rfl⟩)⟩
  | follow creator =>
    cases h
    exact ⟨rfl, Or.inr (Or.inr ⟨creator, rfl, rfl⟩)⟩
  | decided verdict => cases h

/-- **The last step of a walk**: the chain has come to its end, or a rule decides. -/
theorem Walk.last_cases (h : w.next env pkt = .inr done) :
    (∃ i, w.cursor = .standing i ∧ env.chain.get? i = none ∧
      done = ({ verdict := .deny }, w.progress.engine.write (.undecided pkt.flow))) ∨
    ∃ rule is verdict, w.body? env = some (rule, is) ∧
      (runInsns env pkt rule is false w.progress).1 = .decided verdict ∧
      done = (⟨verdict, some rule, (runInsns env pkt rule is false w.progress).2.direction⟩,
        (runInsns env pkt rule is false w.progress).2.engine.count rule pkt env.now) := by
  rcases w.next_cases env pkt with ⟨i, hcursor, hget, heq⟩ | ⟨i, rule, -, -, -, -, heq⟩ |
    ⟨rule, is, hbody, heq⟩
  · rw [heq] at h
    cases h
    exact Or.inl ⟨i, hcursor, hget, rfl⟩
  · rw [heq] at h
    cases h
  · rw [heq] at h
    obtain ⟨verdict, hdecided, hdone⟩ := settle_eq_inr h
    exact Or.inr ⟨rule, is, verdict, hbody, hdecided, hdone⟩

/-- **Any other step**: a rule in a disabled set is passed over, or a rule is run that does not
decide. -/
theorem Walk.step_cases (h : w.next env pkt = .inl w') :
    (∃ i rule, w.cursor = .standing i ∧ env.chain.get? i = some rule ∧
      env.disabled.has (w.progress.engine.roster.setOf rule) = true ∧
      w' = ⟨.standing (i + 1), w.progress⟩) ∨
    ∃ rule is, w.body? env = some (rule, is) ∧
      w'.progress = (runInsns env pkt rule is false w.progress).2 ∧
      ((runInsns env pkt rule is false w.progress).1 = .nextRule ∧
          w'.cursor = .standing (w.cursor.position + 1) ∨
        (runInsns env pkt rule is false w.progress).1 = .goOn ∧
          w'.cursor = .standing (env.chain.continueAt rule) ∨
        ∃ creator, (runInsns env pkt rule is false w.progress).1 = .follow creator ∧
          w'.cursor = .following creator w.cursor.position) := by
  rcases w.next_cases env pkt with ⟨i, -, -, heq⟩ | ⟨i, rule, hcursor, hget, hdisabled, -, heq⟩ |
    ⟨rule, is, hbody, heq⟩
  · rw [heq] at h
    cases h
  · rw [heq] at h
    cases h
    exact Or.inl ⟨i, rule, hcursor, hget, hdisabled, rfl⟩
  · rw [heq] at h
    exact Or.inr ⟨rule, is, hbody, settle_eq_inl h⟩

/-- **What steps keep holds of the walk that the outcome comes from.** -/
theorem Walk.run_spec {P : Walk → Prop}
    (hstep : ∀ w w', P w → w.next env pkt = .inl w' → P w') (h : P w) :
    ∃ w', P w' ∧ w'.next env pkt = .inr (Walk.run env pkt w) := by
  fun_induction Walk.run env pkt w with
  | case1 w result hnext => exact ⟨w, h, hnext⟩
  | case2 w w' hnext ih => exact ih (hstep w w' h hnext)

theorem Walk.run_of_next_inr (h : w.next env pkt = .inr done) : Walk.run env pkt w = done := by
  rw [Walk.run, h]

theorem Walk.run_of_next_inl (h : w.next env pkt = .inl w') :
    Walk.run env pkt w = Walk.run env pkt w' := by
  rw [Walk.run, h]

/-- A walk whose first `n` steps are taken one by one. On given inputs this can be computed as far
as it goes, where `Walk.run` hides its steps behind a proof that there is an end. -/
def Walk.runFor (env : Surroundings) (pkt : Packet) : Nat → Walk → Outcome × Engine
  | 0, w => Walk.run env pkt w
  | n + 1, w =>
    match w.next env pkt with
    | .inr result => result
    | .inl w' => Walk.runFor env pkt n w'

theorem Walk.run_eq_runFor (n : Nat) (w : Walk) : Walk.run env pkt w = w.runFor env pkt n := by
  induction n generalizing w with
  | zero => rfl
  | succ n ih =>
    rw [Walk.runFor]
    cases hnext : w.next env pkt with
    | inr result => exact Walk.run_of_next_inr hnext
    | inl w' => exact (Walk.run_of_next_inl hnext).trans (ih w')

end

/-! ## Rules in service -/

/-- Is the rule in the chain, and its set enabled? -/
def Surroundings.InService (env : Surroundings) (e : Engine) (r : Rule) : Prop :=
  r ∈ env.chain.rules ∧ env.disabled.has (e.roster.setOf r) = false

/-- The rule that a cursor follows, if it does, is of `G` and creates state. -/
def Cursor.Within (G : Rule → Prop) : Cursor → Prop
  | .standing _ => True
  | .following rule _ => G rule ∧ rule.createsState = true

/-- **A walk under way** that began with an engine: all that has happened are effects of rules in
service, and it follows no other rule. -/
structure Walk.Underway (env : Surroundings) (pkt : Packet) (e : Engine) (w : Walk) : Prop where
  effects : Effects env pkt (env.InService e) e w.progress.engine
  follows : w.cursor.Within (env.InService e)

section

variable {env : Surroundings} {pkt : Packet} {e : Engine} {w w' : Walk} {rule : Rule}
  {is : List Insn} {done : Outcome × Engine}

theorem Roster.SameStanding.setOf_eq {r r' : Roster} (h : SameStanding r r') (rule : Rule) :
    r'.setOf rule = r.setOf rule := congrArg Prod.fst (h.standing rule.id)

theorem Walk.Underway.start (pkt : Packet) (i : Nat) :
    Walk.Underway env pkt e ⟨.standing i, { engine := e }⟩ :=
  ⟨Relation.ReflTransGen.refl, trivial⟩

/-- **A walk runs rules in service only.** -/
theorem Walk.Underway.inService (h : w.Underway env pkt e) (hbody : w.body? env = some (rule, is)) :
    env.InService e rule := by
  rcases Walk.of_body hbody with ⟨i, -, hget, henabled, -⟩ | ⟨i, hcursor, -⟩
  · rw [(Effects.standing h.effects).setOf_eq] at henabled
    exact ⟨List.mem_of_getElem? hget, henabled⟩
  · have hfollows := h.follows
    rw [hcursor] at hfollows
    exact hfollows.1

/-- Running the rule that a walk comes to. -/
theorem Walk.Underway.runInsns (he : e.Within (env.InService e)) (h : w.Underway env pkt e)
    (hbody : w.body? env = some (rule, is)) :
    Effects env pkt (env.InService e) e (runInsns env pkt rule is false w.progress).2.engine ∧
      ∀ creator, (PacketFilter.runInsns env pkt rule is false w.progress).1 = .follow creator →
        env.InService e creator ∧ creator.createsState = true := by
  obtain ⟨heffects, hfollow⟩ := runInsns_effects env pkt (h.inService hbody) is
    (Walk.mem_of_body hbody) false w.progress (Effects.within h.effects he)
  exact ⟨h.effects.trans heffects, hfollow⟩

/-- A step leaves a walk under way. -/
theorem Walk.Underway.next (he : e.Within (env.InService e)) (h : w.Underway env pkt e)
    (hnext : w.next env pkt = .inl w') : w'.Underway env pkt e := by
  rcases Walk.step_cases hnext with ⟨i, rule, -, -, -, rfl⟩ |
    ⟨rule, is, hbody, hprogress, hcursor⟩
  · exact ⟨h.effects, trivial⟩
  · obtain ⟨heffects, hfollow⟩ := h.runInsns he hbody
    refine ⟨hprogress ▸ heffects, ?_⟩
    rcases hcursor with ⟨-, hcursor⟩ | ⟨-, hcursor⟩ | ⟨creator, hresult, hcursor⟩
    · rw [hcursor]
      trivial
    · rw [hcursor]
      trivial
    · rw [hcursor]
      exact hfollow creator hresult

/-- **The walk that the outcome comes from** was under way. -/
theorem Walk.Underway.run (he : e.Within (env.InService e)) (h : w.Underway env pkt e) :
    ∃ w', Walk.Underway env pkt e w' ∧ w'.next env pkt = .inr (Walk.run env pkt w) :=
  Walk.run_spec (fun _ _ h hnext => h.next he hnext) h

/-- What the last step of a walk does to the engine: effects of a rule that decides, or, at the end
of the chain, a message. -/
theorem Walk.Underway.last (he : e.Within (env.InService e)) (h : w.Underway env pkt e)
    (hnext : w.next env pkt = .inr done) :
    ∃ e', Effects env pkt (env.InService e) e e' ∧
      (done.2 = e' ∨ done.2 = e'.write (.undecided pkt.flow)) := by
  rcases Walk.last_cases hnext with ⟨i, -, -, rfl⟩ | ⟨rule, is, verdict, hbody, -, rfl⟩
  · exact ⟨w.progress.engine, h.effects, Or.inr rfl⟩
  · have heffects := (h.runInsns he hbody).1
    exact ⟨_, heffects.tail (Effect.count _ rule (h.inService hbody)), Or.inl rfl⟩

variable (env pkt)

/-- **An evaluation is a sequence of effects** of rules in service, and a message if the chain has
come to its end. -/
theorem evaluate_effects (resume : Option Rule) (he : e.Within (env.InService e)) :
    ∃ e', Effects env pkt (env.InService e) e e' ∧
      ((evaluate env pkt resume e).2 = e' ∨
        (evaluate env pkt resume e).2 = e'.write (.undecided pkt.flow)) := by
  unfold evaluate
  split
  · exact ⟨e, Relation.ReflTransGen.refl, Or.inl rfl⟩
  · split
    · exact ⟨e, Relation.ReflTransGen.refl, Or.inl rfl⟩
    · obtain ⟨w, hw, hlast⟩ := (Walk.Underway.start pkt _).run he
      exact hw.last he hlast

end

end PacketFilter
