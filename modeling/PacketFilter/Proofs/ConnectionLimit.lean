import PacketFilter.Proofs.Coherence.Run

/-!
# Limits on connections

A limit is enforced by comparing a number that a parent holds. That the number of connections in the
table stays within the limit follows because the two are in step, and because a parent gets one more
connection only while it has fewer than the limit. A parent that was removed had no connections, so
the one made in its place may begin at zero.

Main statements: `WithinLimit.admitted`, what is created for a rule keeps within a limit of that
rule; **`connections_le_limit`**, there are never more connections under a key than the limit
allows.
-/

namespace PacketFilter

/-! ## One entry -/

/-- **The entry keeps to its rule.** A connection is under a key that a limit of the rule is about,
and a parent has no more connections than a limit of the rule allows. -/
def Entry.WithinLimit (e : Entry) : Prop :=
  match e.role with
  | .keepState => True
  | .child key => ∃ parts n, .limit parts n ∈ e.rule.requests ∧ key = e.flow.limitKey parts
  | .parent children => ∃ parts n, .limit parts n ∈ e.rule.requests ∧ children ≤ n.toNat

namespace Entry.WithinLimit

variable {rules : List Rule}

/-- Together with being of a rule of a chain, it is kept by all that happens to entries. -/
theorem kept : Entry.Kept fun e => e.rule ∈ rules ∧ e.WithinLimit where
  bare {e e'} hbare h := by
    obtain ⟨hflow, hrole, hrule⟩ := Entry.of_bare_eq hbare
    unfold WithinLimit at h ⊢
    rw [hrole, hrule, hflow]
    exact h
  release {e} removed h := by
    refine ⟨by rw [Entry.rule_release]; exact h.1, ?_⟩
    cases hparent : e.isParent with
    | false =>
      rw [Entry.release_of_not_isParent hparent]
      exact h.2
    | true =>
      have hrole := Entry.role_of_isParent hparent
      have hwithin := h.2
      unfold WithinLimit at hwithin ⊢
      rw [Entry.role_release hrole, Entry.rule_release]
      rw [hrole] at hwithin
      obtain ⟨parts, n, hrequest, hle⟩ := hwithin
      exact ⟨parts, n, hrequest, Nat.le_trans (Nat.sub_le _ _) hle⟩

/-- **What is created for a rule keeps within a limit of that rule**: a parent that gets one more
connection has fewer than the limit. -/
theorem admitted {rule : Rule} {request : StateRequest} (hrule : rule ∈ rules)
    (hids : ∀ r ∈ rules, r.id = rule.id → r = rule) (hrequest : request ∈ rule.requests) :
    Entry.Admitted (fun e => e.rule ∈ rules ∧ e.WithinLimit) rule request where
  keepState _ e hrole he := by
    refine ⟨he ▸ hrule, ?_⟩
    unfold WithinLimit
    rw [hrole]
    trivial
  parent heq e hrole he := by
    refine ⟨he ▸ hrule, ?_⟩
    unfold WithinLimit
    rw [hrole, he]
    exact ⟨_, _, heq ▸ hrequest, Nat.zero_le _⟩
  child heq e hrole he := by
    refine ⟨he ▸ hrule, ?_⟩
    unfold WithinLimit
    rw [hrole, he]
    exact ⟨_, _, heq ▸ hrequest, rfl⟩
  counted heq p _ hid hbelow hp := by
    refine ⟨hp.1, ?_⟩
    have hsame : p.rule = rule := hids p.rule hp.1 hid
    unfold WithinLimit
    exact ⟨_, _, by rw [hsame]; exact heq ▸ hrequest, hbelow⟩

end Entry.WithinLimit

/-! ## Sessions -/

namespace Firewall

variable {known : List Rule} {fw fw' : Firewall}

/-- An operation keeps all entries within the limits of their rules. -/
theorem Follows.withinLimit (h : Coherent known fw) {known' : List Rule}
    (hfollows : Follows (fun rule request => request ∈ rule.requests) known' fw fw')
    (hall : ∀ e ∈ fw.engine.states.entries, e.WithinLimit) :
    ∀ e ∈ fw'.engine.states.entries, e.WithinLimit := by
  obtain ⟨config, hsound⟩ := h.sound
  have hkept : Entry.Kept fun e => e.rule ∈ fw.chain.rules ∧ e.WithinLimit :=
    Entry.WithinLimit.kept
  intro e he
  refine (hfollows.states.forall hsound hkept (fun rule request hgrant => ?_)
    (fun e he => ⟨(h.entries e he).installed, hall e he⟩) e he).2
  refine Entry.WithinLimit.admitted hgrant.1 (fun r hr hid => ?_) hgrant.2.1
  exact h.lists.eq_of_id (h.members r hr) (h.members rule hgrant.1) hid

end Firewall

namespace Session

variable {s : Session}

/-- Asking for what rules ask for themselves is fair. -/
theorem fair_requests : Firewall.Fair fun rule request => request ∈ rule.requests :=
  ⟨fun _ _ h => h, fun _ request h => Rule.createsState_iff.mpr ⟨request, h⟩⟩

/-- In every session all entries are within the limits of their rules. -/
theorem Reachable.withinLimit (h : Reachable (fun rule request => request ∈ rule.requests) s) :
    ∀ e ∈ s.firewall.engine.states.entries, e.WithinLimit := by
  induction h with
  | start hnew =>
    intro e he
    rw [Firewall.entries_new hnew] at he
    exact absurd he List.not_mem_nil
  | step hs op hop ih =>
    obtain ⟨default, hc⟩ := hs.coherent fair_requests
    exact Firewall.Follows.withinLimit hc (step_follows fair_requests hc op hop) ih

/-- The connections of a rule whose key has these parts. -/
def connections (s : Session) (r : Rule) (parts : LimitParts) (key : Flow) : List Entry :=
  s.firewall.engine.states.entries.filter fun e =>
    e.kind == .limit && e.rule == r && e.flow.limitKey parts == key

theorem mem_connections {r : Rule} {parts : LimitParts} {key : Flow} {e : Entry} :
    e ∈ s.connections r parts key ↔ e ∈ s.firewall.engine.states.entries ∧
      (∃ key', e.role = .child key') ∧ e.rule = r ∧ e.flow.limitKey parts = key := by
  simp only [connections, List.mem_filter, Bool.and_eq_true, beq_iff_eq, and_assoc,
    Entry.kind_eq_limit_iff]

/-- If a rule asks for one limit only, its connections under a key lie under the parent for that
key. -/
theorem Reachable.isChildOf_of_mem_connections
    (h : Reachable (fun rule request => request ∈ rule.requests) s) {r : Rule} {parts : LimitParts}
    {n : UInt16} (honly : r.requests = [.limit parts n]) {key : Flow} {e : Entry}
    (he : e ∈ s.connections r parts key) : e.isChildOf r key = true := by
  obtain ⟨hmem, ⟨key', hrole⟩, hrule, hkey⟩ := mem_connections.mp he
  have hwithin := h.withinLimit e hmem
  unfold Entry.WithinLimit at hwithin
  rw [hrole, hrule, honly] at hwithin
  obtain ⟨parts', n', hrequest, hkey'⟩ := hwithin
  obtain ⟨rfl, rfl⟩ : parts' = parts ∧ n' = n := by simpa using hrequest
  exact Entry.isChildOf_iff.mpr ⟨by rw [hrole, hkey', hkey], by rw [hrule]⟩

/-- **Connections are never more than their limit.** Under no key a rule that asks for one limit
only has more connections than the limit allows, whatever is done in whatever order. -/
theorem connections_le_limit (h : Reachable (fun rule request => request ∈ rule.requests) s)
    {r : Rule} {parts : LimitParts} {n : UInt16} (honly : r.requests = [.limit parts n])
    (key : Flow) : (s.connections r parts key).length ≤ n.toNat := by
  by_cases hnone : s.connections r parts key = []
  · rw [hnone]
    exact Nat.zero_le _
  -- There is a connection, hence a parent, and the parent's number is within the limit.
  obtain ⟨e, he⟩ := List.exists_mem_of_ne_nil _ hnone
  obtain ⟨hmem, -, hrule, -⟩ := mem_connections.mp he
  obtain ⟨default, hc⟩ := h.coherent fair_requests
  obtain ⟨config, hsound⟩ := hc.sound
  have haccounts := hsound.accounted
  have hchild := h.isChildOf_of_mem_connections honly he
  obtain ⟨p, hp, hfor⟩ := haccounts.parented e hmem key (Entry.isChildOf_iff.mp hchild).1
  obtain ⟨hparent, hid, hflow⟩ := Entry.isParentFor_iff.mp hfor
  have hinstalled : ∀ x ∈ s.firewall.engine.states.entries, x.rule ∈ default :: s.accepted :=
    fun x hx => hc.members _ (hc.entries x hx).installed
  have hsame : p.rule = r := hrule ▸ hc.lists.eq_of_id (hinstalled p hp) (hinstalled e hmem) hid
  have hle : p.children ≤ n.toNat := by
    have hwithin := h.withinLimit p hp
    unfold Entry.WithinLimit at hwithin
    rw [Entry.role_of_isParent hparent, hsame, honly] at hwithin
    obtain ⟨parts', n', hrequest, hle⟩ := hwithin
    obtain ⟨rfl, rfl⟩ : parts' = parts ∧ n' = n := by simpa using hrequest
    exact hle
  calc (s.connections r parts key).length
      ≤ s.firewall.engine.states.entries.countP (·.isChildOf p.rule p.flow) := by
        rw [connections, ← List.countP_eq_length_filter, hsame, hflow]
        refine List.countP_mono_left fun x hx hcounts => ?_
        exact h.isChildOf_of_mem_connections honly (List.mem_filter.mpr ⟨hx, hcounts⟩)
    _ = p.children := (haccounts.counted p hp _ (Entry.role_of_isParent hparent)).symm
    _ ≤ n.toNat := hle

/-- Three connections from one address are tried under a limit of two for each address. -/
theorem connections_le_two :
    let key : Flow := ⟨1, 0, 0, 0, Protocol.udp, 0⟩
    let s := opened.run (.add limiter.assemble :: [1, 2, 3].map fun port => .check
      { flow := ⟨1, 2, port, 4, Protocol.udp, 0⟩, direction := .inbound, length := 40 } none)
    s.Reachable (fun rule request => request ∈ rule.requests) ∧ firstLimiter ∈ s.accepted ∧
      firstLimiter.requests = [.limit LimitParts.sourceAddress 2] ∧
        (s.connections firstLimiter LimitParts.sourceAddress key).length ≤ 2 := by
  intro key s
  have hreachable : s.Reachable (fun rule request => request ∈ rule.requests) :=
    opened_reachable.run (by simp [Allows])
  have hadded : firstLimiter ∈ (opened.run [.add limiter.assemble]).accepted := by decide +kernel
  have hrequests : firstLimiter.requests = [.limit LimitParts.sourceAddress 2] := by decide +kernel
  exact ⟨hreachable, mem_accepted_run hadded _, hrequests,
    connections_le_limit hreachable hrequests key⟩

end Session

end PacketFilter
