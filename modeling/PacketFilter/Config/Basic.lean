import PacketFilter.StateTable.Basic

/-!
# Configuration

What a filter is set up with. Lifetimes are in seconds here. `Config.check` refuses settings that
could not work, each for its own cause, in a fixed order of checks.
-/

namespace PacketFilter

/-- The settings of a filter (`FwConfig`). -/
structure Config where
  /-- Does the default rule accept? -/
  acceptByDefault : Bool := false
  /-- Accept packets that come back from the shaper or a divert socket. -/
  onePass : Bool := false
  /-- Heed log instructions. -/
  verbose : Bool := false
  /-- The log budget of a log instruction without its own. -/
  verboseLimit : UInt32 := 0
  /-- The gap left between rules that are numbered automatically. -/
  autoincStep : UInt16 := 100
  buckets : UInt32 := 256
  /-- The most entries of the state table. -/
  maxStates : UInt32 := 4096
  ackLifetime : UInt32 := 300
  synLifetime : UInt32 := 20
  finLifetime : UInt32 := 1
  rstLifetime : UInt32 := 1
  udpLifetime : UInt32 := 10
  shortLifetime : UInt32 := 5
  keepalive : Bool := true
  keepaliveInterval : UInt32 := 20
  keepalivePeriod : UInt32 := 5
  deriving DecidableEq, Repr, Inhabited

/-- A setting that is a length of time. -/
inductive TimeSetting where
  | ackLifetime | synLifetime | finLifetime | rstLifetime | udpLifetime | shortLifetime
  | keepaliveInterval | keepalivePeriod
  deriving DecidableEq, Repr

namespace TimeSetting

/-- The key under which the setting is written. -/
def key : TimeSetting → String
  | .ackLifetime => "dyn_ack_lifetime"
  | .synLifetime => "dyn_syn_lifetime"
  | .finLifetime => "dyn_fin_lifetime"
  | .rstLifetime => "dyn_rst_lifetime"
  | .udpLifetime => "dyn_udp_lifetime"
  | .shortLifetime => "dyn_short_lifetime"
  | .keepaliveInterval => "dyn_keepalive_interval"
  | .keepalivePeriod => "dyn_keepalive_period"

/-- The value of the setting, in seconds. -/
def get (c : Config) : TimeSetting → UInt32
  | .ackLifetime => c.ackLifetime
  | .synLifetime => c.synLifetime
  | .finLifetime => c.finLifetime
  | .rstLifetime => c.rstLifetime
  | .udpLifetime => c.udpLifetime
  | .shortLifetime => c.shortLifetime
  | .keepaliveInterval => c.keepaliveInterval
  | .keepalivePeriod => c.keepalivePeriod

/-- All of them, in the order in which they are checked. -/
def all : List TimeSetting :=
  [.ackLifetime, .synLifetime, .finLifetime, .rstLifetime, .udpLifetime, .shortLifetime,
    .keepaliveInterval, .keepalivePeriod]

end TimeSetting

/-- One time must be shorter than another, or at most as long. -/
structure TimeOrder where
  shorter : TimeSetting
  strict : Bool
  longer : TimeSetting
  deriving DecidableEq, Repr

namespace TimeOrder

/-- Does the configuration keep the order? -/
def holds (o : TimeOrder) (c : Config) : Bool :=
  if o.strict then decide (o.shorter.get c < o.longer.get c)
  else decide (o.shorter.get c ≤ o.longer.get c)

/-- The orders that a configuration must keep. An entry must live longer once its connection is
established than while it is opened or closed, and a closed one must not live to be probed. -/
def required : List TimeOrder :=
  [⟨.synLifetime, true, .ackLifetime⟩, ⟨.finLifetime, false, .ackLifetime⟩,
    ⟨.rstLifetime, false, .finLifetime⟩, ⟨.finLifetime, true, .keepalivePeriod⟩,
    ⟨.rstLifetime, true, .keepalivePeriod⟩, ⟨.finLifetime, true, .keepaliveInterval⟩,
    ⟨.rstLifetime, true, .keepaliveInterval⟩]

end TimeOrder

/-- Why a configuration is refused. -/
inductive ConfigError where
  /-- The document is not a configuration. -/
  | unreadable
  | autoincStep (n : UInt16)
  | buckets (n : UInt32)
  | maxStates
  | zeroTime (what : TimeSetting)
  | timeOrder (broken : TimeOrder) (shorter longer : UInt32)
  deriving DecidableEq, Repr

/-- What is said about a refused configuration. -/
def ConfigError.message : ConfigError → String
  | .unreadable => "failed to parse configuration"
  | .autoincStep n => "autoinc_step must be between 1 and 1000, got " ++ toString n.toNat
  | .buckets n =>
    "dyn_buckets must be a power of two no larger than " ++ toString maxBuckets ++ ", got " ++
      toString n.toNat
  | .maxStates => "dyn_max must be non-zero"
  | .zeroTime what => what.key ++ " must be non-zero"
  | .timeOrder broken shorter longer =>
    broken.shorter.key ++ " (" ++ toString shorter.toNat ++ "s) must be " ++
      (if broken.strict then "less than" else "at most") ++ " " ++ broken.longer.key ++ " (" ++
      toString longer.toNat ++ "s)"

namespace Config

/-- The largest gap between rules that are numbered automatically (`AUTOINC_STEP_MAX`). -/
def maxAutoincStep : UInt16 := 1000

/-- The first reason to refuse the configuration, in the order of `validate`. -/
def fault? (c : Config) : Option ConfigError :=
  if c.autoincStep = 0 ∨ maxAutoincStep < c.autoincStep then some (.autoincStep c.autoincStep)
  else if !validBuckets c.buckets.toNat then some (.buckets c.buckets)
  else if c.maxStates = 0 then some .maxStates
  else
    match TimeSetting.all.find? fun s => s.get c == 0 with
    | some s => some (.zeroTime s)
    | none =>
      match TimeOrder.required.find? fun o => !o.holds c with
      | some o => some (.timeOrder o (o.shorter.get c) (o.longer.get c))
      | none => none

/-- Refuse a configuration that has a fault (`validate`). -/
def check (c : Config) : Except ConfigError Unit :=
  match c.fault? with
  | some e => .error e
  | none => .ok ()

/-- The lifetimes of entries. -/
def lifetimes (c : Config) : Lifetimes where
  ack := .ofSeconds c.ackLifetime
  syn := .ofSeconds c.synLifetime
  fin := .ofSeconds c.finLifetime
  rst := .ofSeconds c.rstLifetime
  udp := .ofSeconds c.udpLifetime
  short := .ofSeconds c.shortLifetime

/-- What the state table is given to work with (`dyn_config`). -/
def stateConfig (c : Config) : StateConfig where
  buckets := c.buckets.toNat
  capacity := c.maxStates.toNat
  lifetimes := c.lifetimes
  keepalive := c.keepalive
  keepaliveInterval := .ofSeconds c.keepaliveInterval
  keepalivePeriod := .ofSeconds c.keepalivePeriod

/-- **What is asked of settings**: each field is a cause to refuse those that do not meet it. -/
structure Acceptable (c : Config) : Prop where
  step_ne : c.autoincStep ≠ 0
  step_le : c.autoincStep ≤ maxAutoincStep
  buckets : validBuckets c.buckets.toNat = true
  maxStates : c.maxStates ≠ 0
  times : ∀ s ∈ TimeSetting.all, s.get c ≠ 0
  orders : ∀ o ∈ TimeOrder.required, o.holds c = true

theorem fault?_eq_none_iff (c : Config) : c.fault? = none ↔ c.Acceptable := by
  unfold fault?
  constructor
  · intro h
    split at h
    · cases h
    rename_i hstep
    split at h
    · cases h
    rename_i hbuckets
    split at h
    · cases h
    rename_i hstates
    split at h
    · cases h
    rename_i htimes
    split at h
    · cases h
    rename_i horders
    obtain ⟨hne, hle⟩ := not_or.mp hstep
    exact
      { step_ne := hne
        step_le := UInt16.not_lt.mp hle
        buckets := by simpa using hbuckets
        maxStates := hstates
        times := fun s hs hzero => List.find?_eq_none.mp htimes s hs (beq_iff_eq.mpr hzero)
        orders := fun o ho => by simpa using List.find?_eq_none.mp horders o ho }
  · intro h
    have htimes : (TimeSetting.all.find? fun s => s.get c == 0) = none :=
      List.find?_eq_none.mpr fun s hs => by simpa using h.times s hs
    have horders : (TimeOrder.required.find? fun o => !o.holds c) = none :=
      List.find?_eq_none.mpr fun o ho => by simpa using h.orders o ho
    rw [if_neg (not_or.mpr ⟨h.step_ne, UInt16.not_lt.mpr h.step_le⟩),
      if_neg (by simpa using h.buckets), if_neg h.maxStates, htimes, horders]

/-- **The check passes the settings that are acceptable**, and no others. -/
theorem check_eq_ok_iff (c : Config) : c.check = .ok () ↔ c.Acceptable := by
  rw [← fault?_eq_none_iff]
  unfold check
  cases c.fault? <;> simp

/-- Settings that pass the check ask for a number of buckets that a table may have. -/
theorem validBuckets_of_check (c : Config) (h : c.check = .ok ()) :
    validBuckets c.stateConfig.buckets = true := (c.check_eq_ok_iff.mp h).buckets

/-- Settings that pass the check have no time that is nothing. -/
theorem time_pos (c : Config) (h : c.check = .ok ()) :
    ∀ s ∈ TimeSetting.all, 0 < (Lifetime.ofSeconds (s.get c)).ms.toNat := by
  intro s hs
  have hne : s.get c ≠ 0 := (c.check_eq_ok_iff.mp h).times s hs
  have hpos : 0 < (s.get c).toNat :=
    Nat.pos_of_ne_zero fun hzero => hne (UInt32.toNat_inj.mp hzero)
  rw [Lifetime.toNat_ofSeconds]
  omega

end Config

end PacketFilter
