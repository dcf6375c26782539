import PacketFilter.Config.Basic

/-!
# Settings by key

A configuration as keys and values, one for each field of `FwConfig`. Numbers that do not fit a
setting, values of the wrong kind and unknown keys are refused.
-/

namespace PacketFilter

/-- The value of a setting. -/
inductive Setting where
  | number (n : Int)
  | switch (on : Bool)
  | word (s : String)
  /-- A word that is the only key of a table. -/
  | choice (name : String)
  deriving DecidableEq, Repr

namespace Setting

/-- A number of at most 16 bits. -/
def half? : Setting → Option UInt16
  | .number n => if 0 ≤ n ∧ n < 65536 then some (UInt16.ofNat n.toNat) else none
  | _ => none

/-- A number of at most 32 bits. -/
def long? : Setting → Option UInt32
  | .number n => if 0 ≤ n ∧ n < 4294967296 then some (UInt32.ofNat n.toNat) else none
  | _ => none

/-- On or off. -/
def switch? : Setting → Option Bool
  | .switch on => some on
  | _ => none

/-- Accept or deny. -/
def verdict? : Setting → Option Bool
  | .word s | .choice s =>
    if s = "accept" then some true else if s = "deny" then some false else none
  | _ => none

/-- A number that may be any natural. -/
def ofNat (n : Nat) : Setting := .number (Int.ofNat n)

end Setting

namespace Config

/-- Change one setting. -/
def set? (c : Config) (key : String) (v : Setting) : Option Config :=
  match key with
  | "default_action" => v.verdict?.map fun b => { c with acceptByDefault := b }
  | "one_pass" => v.switch?.map fun b => { c with onePass := b }
  | "verbose" => v.switch?.map fun b => { c with verbose := b }
  | "verbose_limit" => v.long?.map fun n => { c with verboseLimit := n }
  | "autoinc_step" => v.half?.map fun n => { c with autoincStep := n }
  | "dyn_buckets" => v.long?.map fun n => { c with buckets := n }
  | "dyn_max" => v.long?.map fun n => { c with maxStates := n }
  | "dyn_ack_lifetime" => v.long?.map fun n => { c with ackLifetime := n }
  | "dyn_syn_lifetime" => v.long?.map fun n => { c with synLifetime := n }
  | "dyn_fin_lifetime" => v.long?.map fun n => { c with finLifetime := n }
  | "dyn_rst_lifetime" => v.long?.map fun n => { c with rstLifetime := n }
  | "dyn_udp_lifetime" => v.long?.map fun n => { c with udpLifetime := n }
  | "dyn_short_lifetime" => v.long?.map fun n => { c with shortLifetime := n }
  | "dyn_keepalive" => v.switch?.map fun b => { c with keepalive := b }
  | "dyn_keepalive_interval" => v.long?.map fun n => { c with keepaliveInterval := n }
  | "dyn_keepalive_period" => v.long?.map fun n => { c with keepalivePeriod := n }
  | _ => none

/-- All settings, in the order in which they are written. -/
def settings (c : Config) : List (String × Setting) :=
  [("default_action", .word (if c.acceptByDefault then "accept" else "deny")),
    ("one_pass", .switch c.onePass),
    ("verbose", .switch c.verbose),
    ("verbose_limit", .ofNat c.verboseLimit.toNat),
    ("autoinc_step", .ofNat c.autoincStep.toNat),
    ("dyn_buckets", .ofNat c.buckets.toNat),
    ("dyn_max", .ofNat c.maxStates.toNat),
    ("dyn_ack_lifetime", .ofNat c.ackLifetime.toNat),
    ("dyn_syn_lifetime", .ofNat c.synLifetime.toNat),
    ("dyn_fin_lifetime", .ofNat c.finLifetime.toNat),
    ("dyn_rst_lifetime", .ofNat c.rstLifetime.toNat),
    ("dyn_udp_lifetime", .ofNat c.udpLifetime.toNat),
    ("dyn_short_lifetime", .ofNat c.shortLifetime.toNat),
    ("dyn_keepalive", .switch c.keepalive),
    ("dyn_keepalive_interval", .ofNat c.keepaliveInterval.toNat),
    ("dyn_keepalive_period", .ofNat c.keepalivePeriod.toNat)]

/-- Make settings one after another. -/
def withSettings? (c : Config) : List (String × Setting) → Option Config
  | [] => some c
  | (key, v) :: rest =>
    match c.set? key v with
    | some c => c.withSettings? rest
    | none => none

/-- The configuration with these settings, and the defaults for all others. No key may be given
twice. -/
def ofSettings? (settings : List (String × Setting)) : Option Config :=
  if (settings.map Prod.fst).Nodup then ({} : Config).withSettings? settings else none

/-- The value of a setting as it is shown. -/
def renderSetting : Setting → String
  | .number n => toString n
  | .switch on => if on then "true" else "false"
  | .word s | .choice s => s

/-- The line of a setting. -/
def settingLine (entry : String × Setting) : String :=
  "    " ++ entry.1 ++ ": " ++ renderSetting entry.2 ++ ",\n"

/-- All settings in parentheses, one to a line. -/
def render (c : Config) : String := "(\n" ++ String.join (c.settings.map settingLine) ++ ")"

end Config

end PacketFilter
