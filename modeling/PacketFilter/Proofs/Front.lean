import PacketFilter.Proofs.Footprint
import PacketFilter.Proofs.Jumps

/-!
# How far a walk has come

The front of a walk is the first position that it may still come to, as long as it finds no state:
where it stands, or, behind a hit, where the rule stands that it follows. Each rule that is run
stands at the front or behind it, and one that is charged is left behind by the step that charges
it.

State that is found may lead anywhere in the chain. That is the only way back, and since state is
looked up once, a walk goes back once.

Main statements: **`Walk.front_next`**, what a step does to the front and which rules it charges;
`Walk.front_following`, where the front is when state has been found.
-/

namespace PacketFilter

namespace Chain

variable {c : Chain} {r : Rule} {i : Nat}

/-- Where a rule of the chain stands. -/
theorem exists_indexOf? (hids : (c.rules.map Rule.id).Nodup) (hr : r ∈ c.rules) :
    ∃ i, c.indexOf? r = some i ∧ c.get? i = some r := by
  obtain ⟨i, hi, hget⟩ := List.getElem_of_mem hr
  have hget : c.get? i = some r := List.getElem?_eq_some_iff.mpr ⟨hi, hget⟩
  exact ⟨i, indexOf?_of_get? hids hget, hget⟩

/-- Going on after a rule leads past where it stands. -/
theorem lt_continueAt_of_indexOf? (h : c.indexOf? r = some i) : i < c.continueAt r := by
  rw [continueAt, h]
  exact lt_next (lastPosition?_lt h)

end Chain

/-- **The first position that a walk may still come to**, as long as it finds no state. A rule that
is followed and stands nowhere may lead anywhere. -/
def Walk.front (env : Surroundings) (w : Walk) : Nat :=
  match w.cursor with
  | .standing i => i
  | .following rule i => min ((env.chain.indexOf? rule).getD 0) i

section

variable {env : Surroundings} {pkt : Packet} {w w' : Walk} {rule creator : Rule} {is : List Insn}
  {i j : Nat}

theorem Walk.front_le_position (env : Surroundings) (w : Walk) :
    w.front env ≤ w.cursor.position := by
  obtain ⟨cursor, p⟩ := w
  cases cursor with
  | standing i => exact Nat.le_refl i
  | following rule i => exact Nat.min_le_right _ i

theorem Walk.front_standing (hcursor : w.cursor = .standing i) : w.front env = i := by
  simp only [Walk.front, hcursor]

/-- **State that is found** at a position leads to where its rule stands, if that is before. -/
theorem Walk.front_following (hcursor : w.cursor = .following creator i)
    (hindex : env.chain.indexOf? creator = some j) : w.front env = min j i := by
  simp only [Walk.front, hcursor, hindex, Option.getD_some]

/-- A rule that is run stands at the front or behind it. -/
theorem Walk.front_le_of_body (hids : (env.chain.rules.map Rule.id).Nodup)
    (hbody : w.body? env = some (rule, is)) (hindex : env.chain.indexOf? rule = some i) :
    w.front env ≤ i := by
  rcases Walk.of_body hbody with ⟨j, hcursor, hget, -, -⟩ | ⟨j, hcursor, -⟩
  · obtain rfl : j = i :=
      Option.some.inj ((Chain.indexOf?_of_get? hids hget).symm.trans hindex)
    exact Nat.le_of_eq (Walk.front_standing hcursor)
  · rw [Walk.front_following hcursor hindex]
    exact Nat.min_le_left i j

/-- **What a step does to the front.** It goes back only where state is found, and there the step
charges no rule. A rule that is charged is left behind. -/
theorem Walk.front_next (hids : (env.chain.rules.map Rule.id).Nodup)
    (hmem : ∀ rule is, w.body? env = some (rule, is) → rule ∈ env.chain.rules)
    (hnext : w.next env pkt = .inl w') :
    (w.charged env pkt = [] ∧ w.front env ≤ w'.front env) ∨
    (∃ rule i, w.charged env pkt = [rule] ∧ env.chain.indexOf? rule = some i ∧
      w.front env ≤ i ∧ i < w'.front env) ∨
    ∃ creator, w'.cursor = .following creator w.cursor.position ∧ w.charged env pkt = [] ∧
      w'.progress.lookupsLeft < w.progress.lookupsLeft := by
  have hposition := w.front_le_position env
  rcases w.next_cases env pkt with ⟨i, -, -, heq⟩ | ⟨i, rule, hcursor, -, -, hbody, heq⟩ |
    ⟨rule, is, hbody, heq⟩
  · rw [heq] at hnext
    cases hnext
  · rw [heq] at hnext
    cases hnext
    refine Or.inl ⟨by simp only [Walk.charged, hbody], ?_⟩
    rw [hcursor] at hposition
    exact Nat.le_succ_of_le hposition
  · rw [heq] at hnext
    obtain ⟨hprogress, hcursor⟩ := settle_eq_inl hnext
    rcases hcursor with ⟨hresult, hcursor⟩ | ⟨hresult, hcursor⟩ | ⟨creator, hresult, hcursor⟩
    · refine Or.inl ⟨by simp only [Walk.charged, hbody, hresult], ?_⟩
      rw [Walk.front_standing hcursor]
      exact Nat.le_succ_of_le hposition
    · obtain ⟨i, hindex, -⟩ := Chain.exists_indexOf? hids (hmem rule is hbody)
      refine Or.inr (Or.inl ⟨rule, i, by simp only [Walk.charged, hbody, hresult], hindex,
        Walk.front_le_of_body hids hbody hindex, ?_⟩)
      rw [Walk.front_standing hcursor]
      exact Chain.lt_continueAt_of_indexOf? hindex
    · obtain ⟨hasked, hasked'⟩ :=
        (runInsns_asked env pkt rule is false w.progress).2 creator hresult
      rw [← hprogress] at hasked'
      refine Or.inr (Or.inr ⟨creator, hcursor, by simp only [Walk.charged, hbody, hresult], ?_⟩)
      simp [Progress.lookupsLeft, hasked, hasked']

end

end PacketFilter
