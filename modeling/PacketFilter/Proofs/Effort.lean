import PacketFilter.Proofs.Walks

/-!
# The effort of an evaluation

A walk goes to later positions, except where it follows a hit: the rule that created the state may
stand anywhere, or in no chain any more, and the walk goes on behind it, perhaps over positions that
it has passed before. But state is looked up once. So there are two passes along the chain, of at
most one rule body for each position, and between them the one body that the hit leads to.

`Walk.Takes` counts the bodies that are run, and the hits that are followed, on the way of a walk to
its outcome. Nothing is assumed of the chain, the mask or the state table.

Main statements: `Walk.takes_run`, a walk comes to the outcome of `Walk.run` with no more effort
than it has left; **`evaluate_effort`**, an evaluation runs at most `2 n + 1` bodies with a chain of
`n` rules, and follows at most one hit.
-/

namespace PacketFilter

/-! ## Counting -/

/-- The number of rule bodies that the next step of a walk runs. -/
def Walk.bodies (env : Surroundings) (w : Walk) : Nat := if (w.body? env).isSome then 1 else 0

/-- The number of hits that the next step of a walk follows. -/
def Walk.hits (w : Walk) : Nat :=
  match w.cursor with
  | .standing _ => 0
  | .following _ _ => 1

section

variable (env : Surroundings) (pkt : Packet)

/-- **A walk comes to its outcome**, and runs so many rule bodies and follows so many hits on the
way. -/
inductive Walk.Takes : Walk → Nat → Nat → Outcome × Engine → Prop
  | last {w : Walk} {result : Outcome × Engine} (h : w.next env pkt = .inr result) :
      Takes w (w.bodies env) w.hits result
  | step {w w' : Walk} {bodies hits : Nat} {result : Outcome × Engine}
      (h : w.next env pkt = .inl w') (rest : Takes w' bodies hits result) :
      Takes w (w.bodies env + bodies) (w.hits + hits) result

/-- **An evaluation comes to its outcome**, and runs so many rule bodies and follows so many hits on
the way. A packet that does not walk takes none. -/
inductive EvaluationTakes (resume : Option Rule) (e : Engine) : Nat → Nat → Outcome × Engine → Prop
  | generated (h : pkt.generated = true) :
      EvaluationTakes resume e 0 0 ({ verdict := .accept }, e)
  | turnedAway (h : pkt.generated = false) {outcome : Outcome}
      (hstart : startOf env pkt resume e.roster = .inr outcome) :
      EvaluationTakes resume e 0 0 (outcome, e)
  | walked (h : pkt.generated = false) {i bodies hits : Nat} {result : Outcome × Engine}
      (hstart : startOf env pkt resume e.roster = .inl i)
      (hwalk : Walk.Takes env pkt ⟨.standing i, { engine := e }⟩ bodies hits result) :
      EvaluationTakes resume e bodies hits result

/-! ## What is left to do -/

/-- The number of lookups that a packet may still make. -/
def Progress.lookupsLeft (p : Progress) : Nat := if p.asked then 0 else 1

/-- A bound for the bodies that a walk may still run: one for each position left, one if it follows
a hit, and one with another pass along the chain for a lookup that it may still make. -/
def Walk.bodiesLeft (w : Walk) : Nat :=
  let more := w.progress.lookupsLeft * (env.chain.length + 1)
  match w.cursor with
  | .standing i => (env.chain.length - i) + more
  | .following _ _ => env.chain.length + 1 + more

/-- A bound for the hits that a walk may still follow. -/
def Walk.hitsLeft (w : Walk) : Nat := w.hits + w.progress.lookupsLeft

variable {env pkt} {w w' : Walk}

theorem lookupsLeft_le {p p' : Progress} (h : p.asked = true → p'.asked = true) :
    p'.lookupsLeft ≤ p.lookupsLeft := by
  unfold Progress.lookupsLeft
  by_cases hp : p.asked = true
  · rw [if_pos hp, if_pos (h hp)]
  · rw [if_neg hp]
    split <;> omega

/-- Going on at a later position leaves less to do. -/
theorem bodiesLeft_standing_lt {i j : Nat} {p p' : Progress} (hj : i < j)
    (hi : i < env.chain.length) (hp : p.asked = true → p'.asked = true) :
    Walk.bodiesLeft env ⟨.standing j, p'⟩ < Walk.bodiesLeft env ⟨.standing i, p⟩ := by
  have hmore := Nat.mul_le_mul_right (env.chain.length + 1) (lookupsLeft_le hp)
  simp only [Walk.bodiesLeft]
  omega

/-- Going on behind a rule that was come to by a hit leaves less to do, wherever that is. -/
theorem bodiesLeft_standing_lt_following {rule : Rule} {i j : Nat} {p p' : Progress}
    (hp : p.asked = true → p'.asked = true) :
    Walk.bodiesLeft env ⟨.standing j, p'⟩ < Walk.bodiesLeft env ⟨.following rule i, p⟩ := by
  have hmore := Nat.mul_le_mul_right (env.chain.length + 1) (lookupsLeft_le hp)
  simp only [Walk.bodiesLeft]
  omega

/-- Following a hit takes the lookup, and with it the body and the pass that were set aside. -/
theorem bodiesLeft_following_lt {rule : Rule} {i : Nat} {p p' : Progress} {cursor : Cursor}
    (hcursor : ∀ j, cursor = .standing j → j < env.chain.length) (hp : p.asked = false)
    (hp' : p'.asked = true) :
    Walk.bodiesLeft env ⟨.following rule i, p'⟩ < Walk.bodiesLeft env ⟨cursor, p⟩ := by
  have hleft : p.lookupsLeft = 1 := by simp [Progress.lookupsLeft, hp]
  have hnone : p'.lookupsLeft = 0 := by simp [Progress.lookupsLeft, hp']
  simp only [Walk.bodiesLeft, hleft, hnone]
  cases cursor with
  | standing j =>
    have hj := hcursor j rfl
    simp only
    omega
  | following rule' j =>
    simp only
    omega

/-- The rule that a walk runs next stands in the chain, unless the walk follows a hit. -/
theorem position_lt_of_body {rule : Rule} {is : List Insn} (h : w.body? env = some (rule, is))
    (i : Nat) (hcursor : w.cursor = .standing i) : i < env.chain.length := by
  rcases Walk.of_body h with ⟨j, hj, hget, -, -⟩ | ⟨j, hj, -⟩
  · rw [hcursor] at hj
    cases hj
    exact Chain.get?_lt hget
  · rw [hcursor] at hj
    cases hj

theorem bodies_le (w : Walk) : w.bodies env ≤ 1 := by
  unfold Walk.bodies
  split <;> omega

/-- What the next step does is part of what is left to do. -/
theorem bodies_le_bodiesLeft (w : Walk) : w.bodies env ≤ w.bodiesLeft env := by
  unfold Walk.bodies
  by_cases h : (w.body? env).isSome = true
  · rw [if_pos h]
    obtain ⟨⟨rule, is⟩, hbody⟩ := Option.isSome_iff_exists.mp h
    have hposition := position_lt_of_body hbody
    obtain ⟨cursor, p⟩ := w
    cases cursor with
    | standing i =>
      have hi := hposition i rfl
      simp only [Walk.bodiesLeft]
      omega
    | following rule i =>
      simp only [Walk.bodiesLeft]
      omega
  · rw [if_neg h]
    exact Nat.zero_le _

/-- **A step leaves less to do**: fewer bodies, and fewer hits by those that it follows. -/
theorem left_of_next (h : w.next env pkt = .inl w') :
    w'.bodiesLeft env < w.bodiesLeft env ∧ w.hits + w'.hitsLeft ≤ w.hitsLeft := by
  rcases Walk.step_cases h with ⟨i, rule, hcursor, hget, -, rfl⟩ |
    ⟨rule, is, hbody, hprogress, hwhere⟩
  · obtain ⟨cursor, p⟩ := w
    cases hcursor
    refine ⟨bodiesLeft_standing_lt (Nat.lt_succ_self i) (Chain.get?_lt hget) fun hp => hp, ?_⟩
    simp only [Walk.hitsLeft, Walk.hits]
    omega
  · have hasked := runInsns_asked env pkt rule is false w.progress
    have hposition := position_lt_of_body hbody
    rw [← hprogress] at hasked
    have hlookups := lookupsLeft_le hasked.1
    obtain ⟨cursor, p⟩ := w
    obtain ⟨cursor', p'⟩ := w'
    -- A walk that stands at a position goes on at a later one; behind a hit it may go on anywhere.
    have hstanding : ∀ j, cursor' = .standing j → (∀ i, cursor = .standing i → i < j) →
        Walk.bodiesLeft env ⟨cursor', p'⟩ < Walk.bodiesLeft env ⟨cursor, p⟩ ∧
          Walk.hits ⟨cursor, p⟩ + Walk.hitsLeft ⟨cursor', p'⟩ ≤ Walk.hitsLeft ⟨cursor, p⟩ := by
      rintro j rfl hlater
      refine ⟨?_, Nat.add_le_add_left (Nat.le_trans (Nat.le_of_eq (Nat.zero_add _)) hlookups) _⟩
      cases cursor with
      | standing i => exact bodiesLeft_standing_lt (hlater i rfl) (hposition i rfl) hasked.1
      | following rule' i => exact bodiesLeft_standing_lt_following hasked.1
    rcases hwhere with ⟨-, hcursor⟩ | ⟨-, hcursor⟩ | ⟨creator, hfollow, hcursor⟩
    · refine hstanding _ hcursor fun i hi => ?_
      cases hi
      exact Nat.lt_succ_self i
    · refine hstanding _ hcursor fun i hi => ?_
      rcases Walk.of_body hbody with ⟨j, hj, hget, -, -⟩ | ⟨j, hj, -⟩
      · cases hi
        cases hj
        exact Chain.lt_continueAt hget
      · cases hi
        cases hj
    · obtain ⟨hp, hp'⟩ := hasked.2 creator hfollow
      cases hcursor
      refine ⟨bodiesLeft_following_lt hposition hp hp', ?_⟩
      simp only [Walk.hitsLeft, Walk.hits, Progress.lookupsLeft, hp, hp']
      simp

/-- **A walk comes to its outcome** with no more effort than it has left. -/
theorem Walk.takes_run (env : Surroundings) (pkt : Packet) (w : Walk) :
    ∃ bodies hits, Walk.Takes env pkt w bodies hits (Walk.run env pkt w) ∧
      bodies ≤ w.bodiesLeft env ∧ hits ≤ w.hitsLeft := by
  fun_induction Walk.run env pkt w with
  | case1 w result hnext =>
    exact ⟨_, _, Walk.Takes.last hnext, bodies_le_bodiesLeft w, Nat.le_add_right _ _⟩
  | case2 w w' hnext ih =>
    obtain ⟨bodies, hits, htakes, hbodies, hhits⟩ := ih
    obtain ⟨hfewer, hfewerHits⟩ := left_of_next hnext
    have hone : w.bodies env ≤ 1 := bodies_le w
    exact ⟨_, _, Walk.Takes.step hnext htakes, by omega, by omega⟩

end

/-- **An evaluation ends after a number of steps that is linear in the length of the chain.** With a
chain of `n` rules it runs at most `2 n + 1` rule bodies, and it follows at most one hit, whatever
the chain, the mask, the state table and the rule that the packet comes back with. -/
theorem evaluate_effort (env : Surroundings) (pkt : Packet) (resume : Option Rule) (e : Engine) :
    ∃ bodies hits, EvaluationTakes env pkt resume e bodies hits (evaluate env pkt resume e) ∧
      bodies ≤ 2 * env.chain.length + 1 ∧ hits ≤ 1 := by
  unfold evaluate
  by_cases hgenerated : pkt.generated = true
  · rw [if_pos hgenerated]
    exact ⟨0, 0, EvaluationTakes.generated hgenerated, Nat.zero_le _, Nat.zero_le _⟩
  · rw [if_neg hgenerated]
    have hnot : pkt.generated = false := Bool.eq_false_iff.mpr hgenerated
    cases hstart : startOf env pkt resume e.roster with
    | inr outcome =>
      exact ⟨0, 0, EvaluationTakes.turnedAway hnot hstart, Nat.zero_le _, Nat.zero_le _⟩
    | inl i =>
      obtain ⟨bodies, hits, htakes, hbodies, hhits⟩ :=
        Walk.takes_run env pkt ⟨.standing i, { engine := e }⟩
      refine ⟨bodies, hits, EvaluationTakes.walked hnot hstart htakes, ?_, hhits⟩
      have hleft : Walk.bodiesLeft env ⟨.standing i, { engine := e }⟩ =
          (env.chain.length - i) + 1 * (env.chain.length + 1) := rfl
      omega

end PacketFilter
