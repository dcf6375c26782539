import PacketFilter.Proofs.Effort
import PacketFilter.Proofs.Timeline

/-!
# What an evaluation leaves behind

`Footprint` says in full what has happened between two points of an evaluation, as far as the state
table, the lookup and the counters of rules go: which operations the table has carried out, each on
behalf of a rule that the packet has come to, and to which rules the packet was accounted, in this
order. Footprints are put together one behind the other, and a lookup is among the operations only
where the packet had not made its lookup before.

Where a hit is followed, `FindsState` gives the point right before the lookup that led there.

Main statements: **`runInsns_footprint`**, running instructions leaves a footprint, in which the
rule is charged exactly if the walk goes on behind it; `Walk.next_footprint` and
`Walk.last_footprint`, so does each step of a walk; `evaluate_footprint`, an evaluation makes at
most one lookup.
-/

namespace PacketFilter

/-! ## Counters -/

/-- **The counters of a rule have gone up** by so many packets of one length. -/
structure RuleStatus.Adds (length : UInt16) (n : Nat) (s s' : RuleStatus) : Prop where
  packets : s'.packets = s.packets + UInt64.ofNat n
  bytes : s'.bytes = s.bytes + UInt64.ofNat (n * length.toNat)

namespace RuleStatus.Adds

variable {length : UInt16} {m n : Nat} {s s' s'' : RuleStatus}

theorem of_eq (hpackets : s'.packets = s.packets) (hbytes : s'.bytes = s.bytes) :
    Adds length 0 s s' :=
  ⟨by rw [hpackets]; exact (UInt64.add_zero _).symm,
    by rw [hbytes, Nat.zero_mul]; exact (UInt64.add_zero _).symm⟩

theorem refl (s : RuleStatus) : Adds length 0 s s := of_eq rfl rfl

theorem trans (h : Adds length m s s') (h' : Adds length n s' s'') : Adds length (m + n) s s'' where
  packets := by rw [h'.packets, h.packets, UInt64.add_assoc, UInt64.ofNat_add]
  bytes := by rw [h'.bytes, h.bytes, UInt64.add_assoc, Nat.add_mul, UInt64.ofNat_add]

/-- Accounting for a packet. -/
theorem count (s : RuleStatus) (length : UInt16) (now : Moment) :
    Adds length 1 s (s.count length now) where
  packets := rfl
  bytes := by
    rw [Nat.one_mul, UInt64.ofNat_uInt16ToNat]
    rfl

end RuleStatus.Adds

/-- **A packet has been accounted to rules**, in this order, on the way from one roster to
another. -/
structure Roster.Charges (length : UInt16) (charged : List Rule) (r r' : Roster) : Prop where
  nextId : r'.nextId = r.nextId
  adds : ∀ id < r.nextId,
    (r.status id).Adds length ((charged.map Rule.id).count id) (r'.status id)

namespace Roster.Charges

variable {length : UInt16} {charged charged' : List Rule} {r r' r'' : Roster}

theorem refl (r : Roster) : r.Charges length [] r := ⟨rfl, fun _ _ => .refl _⟩

theorem trans (h : r.Charges length charged r') (h' : r'.Charges length charged' r'') :
    r.Charges length (charged ++ charged') r'' := by
  refine ⟨h'.nextId.trans h.nextId, fun id hid => ?_⟩
  rw [List.map_append, List.count_append]
  exact (h.adds id hid).trans (h'.adds id (h.nextId ▸ hid))

/-- Accounting for a packet on a rule. -/
theorem single (r : Roster) (rule : Rule) (length : UInt16) (now : Moment) :
    r.Charges length [rule] (r.update rule.id (·.count length now)) := by
  refine ⟨nextId_update r _ _, fun id hid => ?_⟩
  by_cases hsame : id = rule.id
  · subst hsame
    rw [status_update_self hid, List.map_singleton, List.count_singleton_self]
    exact .count _ _ _
  · rw [status_update_of_ne hsame, List.map_singleton, List.count_singleton,
      if_neg (by simpa using Ne.symm hsame)]
    exact .refl _

/-- Changing what is no counter. -/
theorem update (r : Roster) (id : Nat) {f : RuleStatus → RuleStatus}
    (hf : (f (r.status id)).packets = (r.status id).packets ∧
      (f (r.status id)).bytes = (r.status id).bytes) : r.Charges length [] (r.update id f) := by
  refine ⟨nextId_update r _ _, fun id' _ => ?_⟩
  rcases r.status_update id id' f with h | ⟨rfl, h⟩
  · rw [h]
    exact .refl _
  · rw [h]
    exact .of_eq hf.1 hf.2

end Roster.Charges

/-! ## Footprints -/

section

variable (env : Surroundings) (pkt : Packet) (G : Rule → Prop)

/-- What the evaluation of a packet asks of the state table on behalf of rules of `G`. -/
inductive TableOp.Asked : TableOp → Prop
  | lookup : Asked (.lookup pkt env.now)
  | install (enabled : Bool) {rule : Rule} (hrule : G rule) (request : StateRequest) :
      Asked (.install enabled rule request pkt env.now)

/-- **What has happened between two points of an evaluation.** -/
structure Footprint (p : Progress) (ops : List TableOp) (charged : List Rule) (p' : Progress) :
    Prop where
  states : (p.engine.states.run ops).2 = p'.engine.states
  asked : ∀ op ∈ ops, op.Asked env pkt G
  /-- A lookup is made only by a packet that has made none, and is remembered. -/
  lookups : ops.countP TableOp.isLookup + p'.lookupsLeft = p.lookupsLeft
  kept : ∀ found, p.lookup = some found → p'.lookup = some found
  charges : p.engine.roster.Charges pkt.length charged p'.engine.roster

/-- **State of a rule is found** by the lookup that leads to a point of the evaluation. -/
def FindsState (p : Progress) (creator : Rule) (p' : Progress) : Prop :=
  ∃ ops p₁, Footprint env pkt G p ops [] p₁ ∧ consult env pkt p₁ = (some creator, p')

end

/-- The rule is charged if the walk goes on behind it. -/
def RuleResult.charged (rule : Rule) : RuleResult → List Rule
  | .goOn => [rule]
  | _ => []

/-- An instruction that does not end the rule charges none. -/
def Examined.charged (rule : Rule) : Examined → List Rule
  | .holds _ => []
  | .ends result => result.charged rule

section

variable {env : Surroundings} {pkt : Packet} {G : Rule → Prop} {p p' p'' : Progress}
  {ops ops' : List TableOp} {charged charged' : List Rule} {rule creator : Rule}

namespace Footprint

theorem refl (p : Progress) : Footprint env pkt G p [] [] p :=
  ⟨rfl, by simp, Nat.zero_add _, fun _ h => h, .refl _⟩

theorem trans (h : Footprint env pkt G p ops charged p')
    (h' : Footprint env pkt G p' ops' charged' p'') :
    Footprint env pkt G p (ops ++ ops') (charged ++ charged') p'' where
  states := by rw [StateTable.run_append, h.states, h'.states]
  asked op hop := (List.mem_append.mp hop).elim (h.asked op) (h'.asked op)
  lookups := by rw [List.countP_append, Nat.add_assoc, h'.lookups, h.lookups]
  kept found hfound := h'.kept found (h.kept found hfound)
  charges := h.charges.trans h'.charges

/-- What concerns neither the table nor the lookup. -/
theorem of_charges {e : Engine} (hstates : e.states = p.engine.states)
    (hcharges : p.engine.roster.Charges pkt.length charged e.roster) :
    Footprint env pkt G p [] charged { p with engine := e } :=
  ⟨hstates.symm, by simp, Nat.zero_add _, fun _ h => h, hcharges⟩

/-- What concerns neither the table, nor the lookup, nor any counter. -/
theorem of_eq {e : Engine} (hstates : e.states = p.engine.states)
    (hroster : e.roster = p.engine.roster) :
    Footprint env pkt G p [] [] { p with engine := e } :=
  of_charges hstates (hroster ▸ .refl _)

/-- Asking for state. -/
theorem create (hrule : G rule) (request : StateRequest) (p : Progress) :
    ∃ ops, Footprint env pkt G p ops []
      { p with engine := (createState env pkt rule request p.engine).2 } := by
  have hstates : (createState env pkt rule request p.engine).2.states = _ :=
    (createState_states rule request p.engine).1
  have hroster : (createState env pkt rule request p.engine).2.roster = _ :=
    (createState_states rule request p.engine).2
  refine ⟨[.install (p.engine.roster.status rule.id).stateEnabled rule request pkt env.now],
    hstates.symm, fun op hop => ?_, Nat.zero_add _, fun _ h => h, hroster ▸ .refl _⟩
  rw [List.mem_singleton.mp hop]
  exact .install _ hrule request

/-- Looking up state, or remembering that this was done. -/
theorem consult (p : Progress) :
    ∃ ops, Footprint env pkt G p ops [] (PacketFilter.consult env pkt p).2 := by
  unfold PacketFilter.consult
  cases hlookup : p.lookup with
  | some found => exact ⟨[], refl p⟩
  | none =>
    have hleft : p.lookupsLeft = 1 := by simp [Progress.lookupsLeft, Progress.asked, hlookup]
    refine ⟨[.lookup pkt env.now], rfl, fun op hop => ?_, ?_, fun found h => ?_, .refl _⟩
    · rw [List.mem_singleton.mp hop]
      exact .lookup
    · rw [hleft]
      rfl
    · rw [hlookup] at h
      cases h

end Footprint

theorem FindsState.of_footprint {ops : List TableOp} (h : Footprint env pkt G p ops [] p')
    (hfinds : FindsState env pkt G p' creator p'') : FindsState env pkt G p creator p'' := by
  obtain ⟨ops', p₁, hbefore, hconsult⟩ := hfinds
  exact ⟨ops ++ ops', p₁, h.trans hbefore, hconsult⟩

/-! ## Running a rule -/

theorem counters_permitLog (s : RuleStatus) (budget : UInt32) :
    (s.permitLog budget).2.packets = s.packets ∧ (s.permitLog budget).2.bytes = s.bytes := by
  unfold RuleStatus.permitLog
  split
  · exact ⟨rfl, rfl⟩
  · split
    · exact ⟨rfl, rfl⟩
    · split <;> exact ⟨rfl, rfl⟩

/-- Logging charges no rule. -/
theorem logMatch_charges (rule : Rule) (e : Engine) :
    e.roster.Charges pkt.length [] (logMatch env pkt rule e).roster := by
  have hpermit : e.roster.Charges pkt.length [] (e.roster.update rule.id fun _ =>
      ((e.roster.status rule.id).permitLog rule.logBudget).2) :=
    .update _ _ (counters_permitLog _ _)
  unfold logMatch
  split
  · exact .refl _
  · dsimp only
    split <;> exact hpermit

/-- **Carrying out an action** charges the rule if the walk goes on behind it. -/
theorem perform_footprint (rule : Rule) (action : Action) (p : Progress) :
    Footprint env pkt G p [] ((perform env pkt rule action p).1.charged rule)
      (perform env pkt rule action p).2 := by
  cases action with
  | count | skipTo target => exact .of_charges rfl (.single _ rule _ _)
  | reject code =>
    simp only [perform]
    split <;> exact .of_eq rfl rfl
  | forward address target =>
    simp only [perform]
    split
    · exact .refl p
    · split <;> exact .refl p
  | _ => exact .refl p

/-- **Running an instruction** on behalf of a rule of `G`. -/
theorem examine_footprint (env : Surroundings) (pkt : Packet) (hrule : G rule) (c : Command)
    (p : Progress) :
    (∃ ops, Footprint env pkt G p ops ((examine env pkt rule c p).1.charged rule)
      (examine env pkt rule c p).2) ∧
    ∀ creator, (examine env pkt rule c p).1 = .ends (.follow creator) →
      FindsState env pkt G p creator (examine env pkt rule c p).2 := by
  have hconsult : ∃ ops, Footprint env pkt G p ops [] (consult env pkt p).2 :=
    Footprint.consult p
  have hfinds : ∀ {creator p'}, consult env pkt p = (some creator, p') →
      FindsState env pkt G p creator p' := fun heq => ⟨[], p, .refl p, heq⟩
  have hcreate : ∀ request, ∃ ops, Footprint env pkt G p ops []
      { p with engine := (createState env pkt rule request p.engine).2 } :=
    fun request => Footprint.create hrule request p
  cases c with
  | probeState =>
    simp only [examine]
    generalize consult env pkt p = x at hconsult hfinds
    obtain ⟨_ | found, p'⟩ := x
    · exact ⟨hconsult, fun creator h => by cases h⟩
    · refine ⟨hconsult, fun creator h => ?_⟩
      cases h
      exact hfinds rfl
  | keepState =>
    have hcreate := hcreate .keepState
    simp only [examine]
    generalize createState env pkt rule .keepState p.engine = x at hcreate
    obtain ⟨_ | _, e⟩ := x <;> exact ⟨hcreate, fun creator h => by cases h⟩
  | limit parts connections =>
    have hcreate := hcreate (.limit parts connections)
    simp only [examine]
    generalize createState env pkt rule (.limit parts connections) p.engine = x at hcreate
    obtain ⟨_ | _, e⟩ := x <;> exact ⟨hcreate, fun creator h => by cases h⟩
  | log budget =>
    exact ⟨⟨[], .of_charges (logMatch_states rule p.engine) (logMatch_charges rule p.engine)⟩,
      fun creator h => by cases h⟩
  | act action =>
    cases action with
    | checkState =>
      simp only [examine]
      generalize consult env pkt p = x at hconsult hfinds
      obtain ⟨_ | found, p'⟩ := x
      · exact ⟨hconsult, fun creator h => by cases h⟩
      · refine ⟨hconsult, fun creator h => ?_⟩
        cases h
        exact hfinds rfl
    | _ =>
      simp only [examine, Examined.charged]
      refine ⟨⟨[], perform_footprint rule _ p⟩, fun creator h => ?_⟩
      exact absurd (Examined.ends.inj h) (perform_ne_follow env pkt rule _ p creator)
  | _ =>
    refine ⟨⟨[], .of_eq ?_ ?_⟩, fun creator h => by cases h⟩ <;>
      (unfold Engine.afterDraw; split <;> rfl)

/-- **Running instructions** on behalf of a rule of `G`: what the packet has left behind after them,
and at which point state was found if they have led to a hit. -/
theorem runInsns_footprint (env : Surroundings) (pkt : Packet) (hrule : G rule) (is : List Insn)
    (skipping : Bool) (p : Progress) :
    (∃ ops, Footprint env pkt G p ops ((runInsns env pkt rule is skipping p).1.charged rule)
      (runInsns env pkt rule is skipping p).2) ∧
    ∀ creator, (runInsns env pkt rule is skipping p).1 = .follow creator →
      FindsState env pkt G p creator (runInsns env pkt rule is skipping p).2 := by
  induction is generalizing skipping p with
  | nil => exact ⟨⟨[], .refl p⟩, fun creator h => by cases h⟩
  | cons i is ih =>
    cases skipping with
    | true => exact ih i.isOr p
    | false =>
      obtain ⟨hfirst, hfinds⟩ := examine_footprint env pkt hrule i.command p
      simp only [runInsns]
      generalize examine env pkt rule i.command p = x at hfirst hfinds
      obtain ⟨b | result, p'⟩ := x
      · -- The instructions behind this one have the rest.
        obtain ⟨ops, hfirst⟩ := hfirst
        have hrest : ∀ skipping, (∃ ops, Footprint env pkt G p ops
            ((runInsns env pkt rule is skipping p').1.charged rule)
            (runInsns env pkt rule is skipping p').2) ∧
            ∀ creator, (runInsns env pkt rule is skipping p').1 = .follow creator →
              FindsState env pkt G p creator (runInsns env pkt rule is skipping p').2 := by
          intro skipping
          obtain ⟨⟨ops', hmore⟩, hfinds'⟩ := ih skipping p'
          exact ⟨⟨ops ++ ops', hfirst.trans hmore⟩,
            fun creator h => (hfinds' creator h).of_footprint hfirst⟩
        simp only
        split
        · exact hrest i.isOr
        · split
          · exact hrest false
          · exact ⟨⟨ops, hfirst⟩, fun creator h => by cases h⟩
      · exact ⟨hfirst, fun creator h => hfinds creator (congrArg Examined.ends h)⟩

end

/-! ## Walking -/

/-- The rules that the next step of a walk charges: the rule that is run, if the walk goes on behind
it or ends with it. -/
def Walk.charged (env : Surroundings) (pkt : Packet) (w : Walk) : List Rule :=
  match w.body? env with
  | none => []
  | some (rule, is) =>
    match (runInsns env pkt rule is false w.progress).1 with
    | .goOn | .decided _ => [rule]
    | .nextRule | .follow _ => []

section

variable {env : Surroundings} {pkt : Packet} {G : Rule → Prop} {w w' : Walk}
  {done : Outcome × Engine}

/-- No rule is charged but the one that is run, and that one once. -/
theorem Walk.charged_eq (env : Surroundings) (pkt : Packet) (w : Walk) :
    w.charged env pkt = [] ∨
      ∃ rule is, w.body? env = some (rule, is) ∧ w.charged env pkt = [rule] := by
  unfold Walk.charged
  cases hbody : w.body? env with
  | none => exact Or.inl rfl
  | some body =>
    obtain ⟨rule, is⟩ := body
    simp only
    split
    · exact Or.inr ⟨rule, is, rfl, rfl⟩
    · exact Or.inr ⟨rule, is, rfl, rfl⟩
    · exact Or.inl rfl
    · exact Or.inl rfl

/-- **What a step leaves behind**, if the rule that it runs is of `G`. -/
theorem Walk.next_footprint (hG : ∀ rule is, w.body? env = some (rule, is) → G rule)
    (hnext : w.next env pkt = .inl w') :
    (∃ ops, Footprint env pkt G w.progress ops (w.charged env pkt) w'.progress) ∧
      ∀ creator i, w'.cursor = .following creator i →
        FindsState env pkt G w.progress creator w'.progress := by
  rcases w.next_cases env pkt with ⟨i, -, -, heq⟩ | ⟨i, rule, -, -, -, hbody, heq⟩ |
    ⟨rule, is, hbody, heq⟩
  · rw [heq] at hnext
    cases hnext
  · rw [heq] at hnext
    cases hnext
    refine ⟨⟨[], ?_⟩, fun creator i h => by cases h⟩
    simp only [Walk.charged, hbody]
    exact .refl _
  · rw [heq] at hnext
    obtain ⟨hprogress, hcursor⟩ := settle_eq_inl hnext
    obtain ⟨hleft, hfinds⟩ :=
      runInsns_footprint env pkt (hG rule is hbody) is false w.progress
    simp only [Walk.charged, hbody, hprogress]
    rcases hcursor with ⟨hresult, hcursor⟩ | ⟨hresult, hcursor⟩ | ⟨creator, hresult, hcursor⟩
    · rw [hresult] at hleft ⊢
      exact ⟨hleft, fun creator i h => by rw [hcursor] at h; cases h⟩
    · rw [hresult] at hleft ⊢
      exact ⟨hleft, fun creator i h => by rw [hcursor] at h; cases h⟩
    · have hfound := hfinds creator hresult
      rw [hresult] at hleft ⊢
      refine ⟨hleft, fun creator' i h => ?_⟩
      rw [hcursor] at h
      cases h
      exact hfound

/-- **What the last step leaves behind**, and what the outcome says of the lookup. -/
theorem Walk.last_footprint (hG : ∀ rule is, w.body? env = some (rule, is) → G rule)
    (hnext : w.next env pkt = .inr done) :
    ∃ ops p, Footprint env pkt G w.progress ops (w.charged env pkt) p ∧ p.engine = done.2 ∧
      (done.1.rule.isSome = true → done.1.direction = p.direction) := by
  rcases Walk.last_cases hnext with ⟨i, hcursor, hget, rfl⟩ |
    ⟨rule, is, verdict, hbody, hresult, rfl⟩
  · have hbody : w.body? env = none := by simp only [Walk.body?, hcursor, hget]
    refine ⟨[], { w.progress with engine := w.progress.engine.write (.undecided pkt.flow) }, ?_,
      rfl, fun h => by cases h⟩
    simp only [Walk.charged, hbody]
    exact .of_eq rfl rfl
  · obtain ⟨⟨ops, hleft⟩, -⟩ :=
      runInsns_footprint env pkt (hG rule is hbody) is false w.progress
    simp only [Walk.charged, hbody]
    generalize runInsns env pkt rule is false w.progress = x at hleft hresult
    obtain ⟨result, p⟩ := x
    cases hresult
    have hcount : Footprint env pkt G p [] [rule]
        { p with engine := p.engine.count rule pkt env.now } :=
      .of_charges rfl (.single _ rule _ _)
    have hall := hleft.trans hcount
    rw [List.append_nil] at hall
    exact ⟨ops, _, hall, rfl, fun _ => rfl⟩

/-- **An evaluation asks the state table** for state, and looks it up at most once. -/
theorem evaluate_footprint (env : Surroundings) (pkt : Packet) (resume : Option Rule) (e : Engine) :
    ∃ ops, (e.states.run ops).2 = (evaluate env pkt resume e).2.states ∧
      (∀ op ∈ ops, op.Asked env pkt fun _ => True) ∧ ops.countP TableOp.isLookup ≤ 1 := by
  unfold evaluate
  split
  · exact ⟨[], rfl, by simp, by simp⟩
  split
  · exact ⟨[], rfl, by simp, by simp⟩
  · rename_i i _
    -- The footprint from the outset grows with every step.
    obtain ⟨w, ⟨ops, charged, hleft⟩, hlast⟩ := Walk.run_spec
      (P := fun w => ∃ ops charged,
        Footprint env pkt (fun _ => True) { engine := e } ops charged w.progress)
      (w := ⟨.standing i, { engine := e }⟩) (fun w w' hw hnext => by
        obtain ⟨ops, charged, hleft⟩ := hw
        obtain ⟨⟨ops', hmore⟩, -⟩ := Walk.next_footprint (fun _ _ _ => trivial) hnext
        exact ⟨_, _, hleft.trans hmore⟩) ⟨[], [], .refl _⟩
    obtain ⟨ops', p, hmore, hengine, -⟩ := Walk.last_footprint (fun _ _ _ => trivial) hlast
    have hall := hleft.trans hmore
    refine ⟨ops ++ ops', hengine ▸ hall.states, hall.asked, ?_⟩
    have hlookups : (ops ++ ops').countP TableOp.isLookup + p.lookupsLeft = 1 := hall.lookups
    omega

end

end PacketFilter
