import PacketFilter.Numeral

/-!
# Moments and lifetimes

Time is counted in milliseconds since the origin of the clock, in 64 bits. Adding to a moment
stops at the largest one, and looking back from before a moment gives zero: expiry decisions
never wrap. Only the clock itself wraps, when it is advanced past its end.

Main statements: `Moment.toNat_plus` and `Moment.toNat_since` give both operations on naturals.
-/

namespace PacketFilter

/-- A point in time. -/
structure Moment where
  /-- Milliseconds since the clock's origin. -/
  ms : UInt64
  deriving DecidableEq, Repr, Inhabited

/-- A length of time, such as how long an idle entry is kept (`Ttl`). -/
structure Lifetime where
  /-- Milliseconds. -/
  ms : UInt64
  deriving DecidableEq, Repr, Inhabited

/-- The lifetime of so many seconds (`Ttl::new_seconds`). -/
def Lifetime.ofSeconds (s : UInt32) : Lifetime := ⟨UInt64.ofNat (s.toNat * 1000)⟩

/-- Whole seconds. -/
def Lifetime.seconds (l : Lifetime) : UInt64 := l.ms / 1000

theorem Lifetime.toNat_ofSeconds (s : UInt32) :
    (Lifetime.ofSeconds s).ms.toNat = s.toNat * 1000 := by
  have := s.toNat_lt
  simp only [Lifetime.ofSeconds, UInt64.toNat_ofNat']
  omega

namespace Moment

instance : LT Moment := ⟨fun a b => a.ms < b.ms⟩
instance : LE Moment := ⟨fun a b => a.ms ≤ b.ms⟩
instance (a b : Moment) : Decidable (a < b) := inferInstanceAs (Decidable (a.ms < b.ms))
instance (a b : Moment) : Decidable (a ≤ b) := inferInstanceAs (Decidable (a.ms ≤ b.ms))

theorem lt_iff {a b : Moment} : a < b ↔ a.ms.toNat < b.ms.toNat := UInt64.lt_iff_toNat_lt

theorem le_iff {a b : Moment} : a ≤ b ↔ a.ms.toNat ≤ b.ms.toNat := UInt64.le_iff_toNat_le

/-- The largest number of milliseconds. -/
def limit : Nat := 0xffffffffffffffff

/-- The moment so many milliseconds later, or the last moment there is. -/
def plusMillis (t : Moment) (ms : UInt64) : Moment :=
  ⟨UInt64.ofNat (min (t.ms.toNat + ms.toNat) limit)⟩

/-- The moment a lifetime later, or the last moment there is. -/
def plus (t : Moment) (l : Lifetime) : Moment := t.plusMillis l.ms

/-- Milliseconds from `earlier` to `t`, zero if `earlier` is the later of the two
(`delta_as_millis`). -/
def since (t earlier : Moment) : UInt64 := UInt64.ofNat (t.ms.toNat - earlier.ms.toNat)

/-- Whole seconds since the clock's origin (`as_secs`). -/
def seconds (t : Moment) : UInt64 := t.ms / 1000

/-- A clock moved forward, starting again from zero past its end (`SimClock::advance`). -/
def advance (t : Moment) (ms : UInt64) : Moment := ⟨t.ms + ms⟩

/-- Seconds, a point and three digits of milliseconds. -/
def render (t : Moment) : String :=
  toString (t.ms.toNat / 1000) ++ "." ++ zeroPadded 3 (toString (t.ms.toNat % 1000))

theorem toNat_plusMillis (t : Moment) (ms : UInt64) :
    (t.plusMillis ms).ms.toNat = min (t.ms.toNat + ms.toNat) limit := by
  simp only [plusMillis, UInt64.toNat_ofNat']
  unfold limit
  omega

theorem toNat_plus (t : Moment) (l : Lifetime) :
    (t.plus l).ms.toNat = min (t.ms.toNat + l.ms.toNat) limit := toNat_plusMillis t l.ms

theorem toNat_since (t earlier : Moment) :
    (t.since earlier).toNat = t.ms.toNat - earlier.ms.toNat := by
  have := t.ms.toNat_lt
  simp only [since, UInt64.toNat_ofNat']
  omega

/-- Adding a lifetime never goes back in time. -/
theorem le_plus (t : Moment) (l : Lifetime) : t ≤ t.plus l := by
  have := t.ms.toNat_lt
  rw [le_iff, toNat_plus]
  unfold limit
  omega

end Moment

/-- Has something last refreshed at `since` outlived this lifetime at `now` (`Ttl::is_expired`)? -/
def Lifetime.isOver (l : Lifetime) (since now : Moment) : Bool := l.ms ≤ now.since since

theorem Lifetime.isOver_iff {l : Lifetime} {since now : Moment} :
    l.isOver since now = true ↔ l.ms.toNat ≤ now.ms.toNat - since.ms.toNat := by
  simp [Lifetime.isOver, UInt64.le_iff_toNat_le, Moment.toNat_since]

/-! ## Once per second -/

/-- Lets a message through at most once per second (`LogRate`). -/
structure SecondGate where
  /-- The second of the last message let through. -/
  last : Option UInt64 := none
  deriving DecidableEq, Repr, Inhabited

/-- May a message pass now? If so the gate is closed for the rest of the second. -/
def SecondGate.allow (g : SecondGate) (now : Moment) : Bool × SecondGate :=
  if g.last = some now.seconds then (false, g) else (true, ⟨some now.seconds⟩)

/-- The gate is shut for the second in which it was last asked. -/
theorem SecondGate.allow_again (g : SecondGate) (now : Moment) :
    ((g.allow now).2.allow now).1 = false := by
  unfold SecondGate.allow
  split <;> simp_all

end PacketFilter
