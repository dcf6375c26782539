import PacketFilter.Proofs.Timeline

/-!
# Expired state

An expired entry may lie in the table for long, next to the one that has taken its place. While the
clock is not set back, no packet is matched by it again, none is counted on it, and nothing makes
it live again. A parent is different: it is looked up by its key, not by packets, and whoever asks
for a connection under its key lets it live a short while longer, also if it has expired. It has to:
a parent whose connections are kept alive by packets expires before them.

Main statements: **`expired_stays_expired`**, a flow never has two live entries, and what has
expired is not touched again; `expired_parent_renewed`, except that a connection renews an expired
parent.
-/

namespace PacketFilter

namespace Session

/-- Does the session begin with a new firewall? -/
def Started (s : Session) : Prop :=
  ∃ name config now draw fw, Firewall.new name config now draw = .ok fw ∧ s = { firewall := fw }

theorem Started.reachable {grants : Rule → StateRequest → Prop} {s : Session} (h : s.Started) :
    Reachable grants s := by
  obtain ⟨name, config, now, draw, fw, hnew, rfl⟩ := h
  exact .start hnew

/-- The entries that operations on the table of a new firewall lead to, with numbers. -/
def ledger (s : Session) (ops : List TableOp) : Ledger :=
  (Ledger.run { config := s.firewall.engine.states.config } ops).2

/-- The entries that name a flow in one direction or the other and expire later than at a moment;
parents are not among them. -/
def liveStates (s : Session) (flow : Flow) (now : Moment) : List Entry :=
  s.firewall.engine.states.entries.filter fun e =>
    !e.isParent && decide (now < e.expires) && (e.flow.orientation flow).isSome

variable {s₀ s s' : Session} {ops more : List TableOp}

/-- A new firewall has no entries. -/
theorem Started.refines (h : s₀.Started) :
    s₀.firewall.engine.states.Refines
      (Ledger.flat { config := s₀.firewall.engine.states.config }) := by
  obtain ⟨name, config, now, draw, fw, hnew, rfl⟩ := h
  unfold Firewall.new at hnew
  split at hnew
  · cases hnew
  · rename_i hcheck
    cases hnew
    exact StateTable.new_refines config.stateConfig (draw 0) (config.validBuckets_of_check hcheck)

/-- The numbered entries are those of the table. -/
theorem Trace.perm_ledger (h₀ : s₀.Started) (h : Trace s₀ ops s) :
    s.firewall.engine.states.entries.Perm ((s₀.ledger ops).entries.map Prod.snd) := by
  have hrefines := (h₀.refines.run_refines ops).2
  rw [h.states, ← Ledger.flat_run] at hrefines
  exact hrefines.entries_perm

/-- The operations of a continuation continue the numbered entries. -/
theorem ledger_append (s : Session) (ops more : List TableOp) :
    s.ledger (ops ++ more) = ((s.ledger ops).run more).2 := by
  simp only [ledger, Ledger.run_append]

theorem Trace.append (h : Trace s₀ ops s) (h' : Trace s more s') : Trace s₀ (ops ++ more) s' := by
  induction h' with
  | refl =>
    rw [List.append_nil]
    exact h
  | step _ op hop hforward more' hat hstates ih =>
    rw [← List.append_assoc]
    exact ih.step op hop hforward more' hat hstates

/-- Setting the clock forward leaves the table as it is. -/
theorem Trace.setClock (h : Trace s ops s') {now : Moment} (hle : s'.firewall.now ≤ now) :
    Trace s ops (s'.step (.setClock now)) := by
  have hclock := h.step (.setClock now) trivial hle [] (by simp) rfl
  rw [List.append_nil] at hclock
  exact hclock

/-- The entries that a session has come to are in order. -/
theorem Trace.orderly (h₀ : s₀.Started) (h : Trace s₀ ops s) :
    (s₀.ledger ops).Orderly s.firewall.now :=
  (h.passes h₀.reachable { config := s₀.firewall.engine.states.config }).2.2 (.new _)

/-- **A flow has at most one live entry**, in either direction, at any moment from now on. -/
theorem Trace.length_liveStates (h₀ : s₀.Started) (h : Trace s₀ ops s) {t : Moment}
    (hle : s.firewall.now ≤ t) (flow : Flow) : (s.liveStates flow t).length ≤ 1 := by
  have hsame : (fun e : Entry => !e.isParent && decide (t < e.expires) &&
      (e.flow.orientation flow).isSome) = fun e => (e.direction? flow t).isSome := by
    funext e
    rw [Bool.eq_iff_iff, Entry.isSome_direction_iff]
    simp [Entry.Live]
  have hperm := (h.perm_ledger h₀).filter fun e => (e.direction? flow t).isSome
  unfold liveStates
  rw [hsame, hperm.length_eq]
  exact (h.orderly h₀).length_le_one hle flow

/-! ## Two connections from one address -/

/-- A packet from a port. -/
def fromPort (port : UInt16) : Packet where
  flow := ⟨1, 2, port, 4, Protocol.udp, 0⟩
  direction := .inbound
  length := 40

/-- What the packet asks the table for: whether there is state for it, and then for state. -/
def askFrom (port : UInt16) (now : Moment) : List TableOp :=
  [.lookup (fromPort port) now,
    .install true firstLimiter (.limit LimitParts.sourceAddress 2) (fromPort port) now]

/-- A firewall whose table has one bucket. -/
def oneBucket : Session where
  firewall := (Firewall.new "fw" { buckets := 1 } ⟨0⟩ fun _ => 5).toOption.get (by decide +kernel)

/-- The session after the first connection. -/
def connected : Session := oneBucket.run [.add limiter.assemble, .check (fromPort 1) none]

theorem started_oneBucket : oneBucket.Started :=
  ⟨"fw", { buckets := 1 }, ⟨0⟩, fun _ => 5, oneBucket.firewall, rfl, rfl⟩

theorem at_askFrom (port : UInt16) {now now' : Moment} (h : now = now') :
    ∀ op ∈ askFrom port now, op.At now' := by
  simp [askFrom, h, TableOp.At, TableOp.moment?]

theorem now_connected : connected.firewall.now = ⟨0⟩ := by decide +kernel

theorem trace_connected : Trace oneBucket (askFrom 1 ⟨0⟩) connected := by
  have hadd : Trace oneBucket [] (oneBucket.run [.add limiter.assemble]) :=
    Trace.refl.step (.add limiter.assemble) trivial trivial [] (by simp) (by decide +kernel)
  refine hadd.step (.check (fromPort 1) none) trivial trivial (askFrom 1 ⟨0⟩)
    (at_askFrom 1 (by decide +kernel)) ?_
  simp only [run, List.foldl, step, Firewall.check, evaluate, Walk.run_eq_runFor 2]
  decide +kernel

/-! ## After expiry -/

/-- **While the clock is not set back, a flow has at most one live entry, and what has expired is
not touched again.** Entries are told apart by numbers that they keep. Whatever is done after an
entry has expired, no packet matches it or is counted on it, and if it is still there it is as it
was; only a parent lives on if a connection is asked for under its key, on behalf of its rule. That
no packet matches it is said of the packets that have come, and of any that comes next. -/
theorem expired_stays_expired (h₀ : s₀.Started) (h : Onward s₀ s) :
    (∀ t, s.firewall.now ≤ t → ∀ flow, (s.liveStates flow t).length ≤ 1) ∧
      (∃ ops, Trace s₀ ops s) ∧ (∀ s', Onward s s' → ∃ more, Trace s more s') ∧
        ∀ ops, Trace s₀ ops s → ∀ more s', Trace s more s' →
          s.firewall.engine.states.entries.Perm ((s₀.ledger ops).entries.map Prod.snd) ∧
          s'.firewall.engine.states.entries.Perm ((s₀.ledger (ops ++ more)).entries.map Prod.snd) ∧
          ∀ i e, (i, e) ∈ (s₀.ledger ops).entries → e.expires ≤ s.firewall.now →
            i ∉ ((s₀.ledger ops).run more).1 ∧
            (∀ pkt, ∀ hit ∈ ((s₀.ledger (ops ++ more)).lookup pkt s'.firewall.now).1, hit.1 ≠ i) ∧
            ∀ e', (i, e') ∈ (s₀.ledger (ops ++ more)).entries →
              (e.isParent = false → e' = e) ∧ e'.packets = e.packets ∧ e'.bytes = e.bytes ∧
                (e'.expires = e.expires ∨
                  e.isParent = true ∧ ∃ op ∈ more, op.AsksFor e.rule e.flow) := by
  have hs : Reachable (fun rule _ => rule.createsState = true) s := h₀.reachable.onward h
  obtain ⟨ops, htrace⟩ := h.exists_trace h₀.reachable
  refine ⟨fun t hle flow => htrace.length_liveStates h₀ hle flow, ⟨ops, htrace⟩,
    fun s' h' => h'.exists_trace hs, fun ops htrace more s' hmore => ?_⟩
  refine ⟨htrace.perm_ledger h₀, (htrace.append hmore).perm_ledger h₀, fun i e he hexpired => ?_⟩
  have horder := htrace.orderly h₀
  have hold : i < (s₀.ledger ops).next := horder.below (i, e) he
  -- A number stands for one entry.
  have hsame : ∀ e₁, (i, e₁) ∈ (s₀.ledger ops).entries → e₁ = e := fun e₁ he₁ =>
    congrArg Prod.snd (List.inj_on_of_nodup_map horder.nodup he₁ he rfl)
  have hdead : ¬ ∃ e₁, (i, e₁) ∈ (s₀.ledger ops).entries ∧ e₁.Live s.firewall.now := by
    rintro ⟨e₁, he₁, hlive⟩
    obtain rfl := hsame e₁ he₁
    have hlt := Moment.lt_iff.mp hlive.2
    have hle := Moment.le_iff.mp hexpired
    omega
  rw [ledger_append]
  refine ⟨fun hhit => ?_, fun pkt hit hhit heq => ?_, fun e' he' => ?_⟩
  · exact hdead (hmore.live_of_hit hs hhit hold)
  · obtain ⟨e', he', hlive⟩ := Ledger.live_of_lookup hhit
    rw [heq] at he'
    exact hdead (hmore.live hs he' hold hlive)
  · obtain ⟨e₁, he₁, hendures⟩ := (hmore.passes hs (s₀.ledger ops)).2.1.old (i, e') he' hold
    obtain rfl := hsame e₁ he₁
    cases hparent : e₁.isParent with
    | false =>
      obtain rfl : e' = e₁ := hendures.expired hparent hexpired
      exact ⟨fun _ => rfl, rfl, rfl, Or.inl rfl⟩
    | true =>
      obtain ⟨hpackets, hbytes, hexpires⟩ := hendures.parent hparent
      exact ⟨fun hnot => absurd hnot (by decide), hpackets, hbytes,
        hexpires.imp_right fun hasks => ⟨rfl, hasks⟩⟩

/-- The connection expires, and its flow comes again: it has an entry of its own then, next to the
one that has expired. -/
theorem expired_connection_stays :
    let s := connected.step (.setClock ⟨10000⟩)
    let s' := s.step (.check (fromPort 1) none)
    oneBucket.Started ∧ Onward oneBucket s ∧ Trace s (askFrom 1 ⟨10000⟩) s' ∧
      ∃ e, (1, e) ∈ (oneBucket.ledger (askFrom 1 ⟨0⟩)).entries ∧ e.expires ≤ s.firewall.now ∧
        1 ∉ ((oneBucket.ledger (askFrom 1 ⟨0⟩)).run (askFrom 1 ⟨10000⟩)).1 ∧
        ∃ e', (1, e') ∈ (oneBucket.ledger (askFrom 1 ⟨0⟩ ++ askFrom 1 ⟨10000⟩)).entries ∧
          (e.isParent = false → e' = e) := by
  intro s s'
  have htrace : Trace oneBucket (askFrom 1 ⟨0⟩) s :=
    trace_connected.setClock (now_connected ▸ (by decide : (⟨0⟩ : Moment) ≤ ⟨10000⟩))
  have hagain : Trace s (askFrom 1 ⟨10000⟩) s' := by
    refine Trace.refl.step (.check (fromPort 1) none) trivial trivial (askFrom 1 ⟨10000⟩)
      (at_askFrom 1 (by decide +kernel)) ?_
    simp only [s, connected, run, List.foldl, step, Firewall.check, evaluate, Walk.run_eq_runFor 2]
    decide +kernel
  obtain ⟨-, -, -, hstays⟩ := expired_stays_expired started_oneBucket htrace.onward
  let e : Entry :=
    { flow := (fromPort 1).flow, role := .child ⟨1, 0, 0, 0, Protocol.udp, 0⟩, rule := firstLimiter,
      expires := ⟨10000⟩ }
  have hmem : (1, e) ∈ (oneBucket.ledger (askFrom 1 ⟨0⟩)).entries := by decide +kernel
  have hexpired : e.expires ≤ s.firewall.now := by decide +kernel
  obtain ⟨hunmatched, -, hsame⟩ := (hstays _ htrace _ s' hagain).2.2 1 e hmem hexpired
  have hmem' : (1, e) ∈ (oneBucket.ledger (askFrom 1 ⟨0⟩ ++ askFrom 1 ⟨10000⟩)).entries := by
    decide +kernel
  exact ⟨started_oneBucket, htrace.onward, hagain, e, hmem, hexpired, hunmatched, e, hmem',
    (hsame e hmem').1⟩

/-- **An expired parent is renewed.** The parent of the connection expires, and a second connection
is made under it. -/
theorem expired_parent_renewed :
    let s := connected.step (.setClock ⟨6000⟩)
    let s' := s.step (.check (fromPort 2) none)
    oneBucket.Started ∧ Trace oneBucket (askFrom 1 ⟨0⟩) s ∧ Trace s (askFrom 2 ⟨6000⟩) s' ∧
      ∃ e e', (0, e) ∈ (oneBucket.ledger (askFrom 1 ⟨0⟩)).entries ∧ e.expires ≤ s.firewall.now ∧
        (0, e') ∈ (oneBucket.ledger (askFrom 1 ⟨0⟩ ++ askFrom 2 ⟨6000⟩)).entries ∧
          e.expires < e'.expires ∧ e'.children = e.children + 1 := by
  intro s s'
  have htrace : Trace oneBucket (askFrom 1 ⟨0⟩) s :=
    trace_connected.setClock (now_connected ▸ (by decide : (⟨0⟩ : Moment) ≤ ⟨6000⟩))
  have hsecond : Trace s (askFrom 2 ⟨6000⟩) s' := by
    refine Trace.refl.step (.check (fromPort 2) none) trivial trivial (askFrom 2 ⟨6000⟩)
      (at_askFrom 2 (by decide +kernel)) ?_
    simp only [s, connected, run, List.foldl, step, Firewall.check, evaluate, Walk.run_eq_runFor 2]
    decide +kernel
  let parent (n : Nat) (expires : Moment) : Entry :=
    { flow := ⟨1, 0, 0, 0, Protocol.udp, 0⟩, role := .parent n, rule := firstLimiter, expires }
  have hmem : (0, parent 1 ⟨5000⟩) ∈ (oneBucket.ledger (askFrom 1 ⟨0⟩)).entries := by decide +kernel
  have hmem' : (0, parent 2 ⟨11000⟩) ∈
      (oneBucket.ledger (askFrom 1 ⟨0⟩ ++ askFrom 2 ⟨6000⟩)).entries := by decide +kernel
  exact ⟨started_oneBucket, htrace, hsecond, parent 1 ⟨5000⟩, parent 2 ⟨11000⟩, hmem,
    by decide +kernel, hmem', by decide, rfl⟩

end Session

end PacketFilter
