/-!
# Clocks and deadlines

A clock is asked for two things, for a reading and for the time of day, again and again; what it
shows depends on how often it was asked for the same before.  Only differences of readings mean
anything; they are in nanoseconds.  A deadline is a budget that starts at one reading and is over
when a later reading lies more than the budget after it.
-/

set_option autoImplicit false

namespace CoinLedger

/-- A clock. -/
structure Clock where
  /-- What the clock reads after the given number of earlier readings. -/
  reading : Nat → Nat
  /-- The time of day in seconds since the start of 1970, after it was asked for the given number of
  times. -/
  unixTime : Nat → Int64

namespace Clock

/-- The nanoseconds of a microsecond. -/
def nanosPerMicro : Nat := 1000

/-- The nanoseconds of a millisecond. -/
def nanosPerMilli : Nat := 1000000

/-- The time of day of a stepping clock when none is given. -/
def defaultUnixTime : Int64 := 1600000000

/-- The clock that reads zero first and moves on by a fixed number of microseconds at every reading,
in 64-bit words.  Its time of day stands still. -/
def stepping (step : UInt64) (unixTime : Int64 := defaultUnixTime) : Clock where
  reading earlier := (UInt64.ofNat earlier * step).toNat * nanosPerMicro
  unixTime _ := unixTime

/-- The clock that never moves. -/
def frozen (unixTime : Int64 := defaultUnixTime) : Clock :=
  stepping 0 unixTime

end Clock

/-- A time budget with the reading at which it started. -/
structure Deadline where
  started : Nat
  budget : Nat
  deriving DecidableEq, Repr

namespace Deadline

/-- The time between the start and a reading; none when the reading lies before the start. -/
def elapsed (deadline : Deadline) (now : Nat) : Nat :=
  now - deadline.started

/-- Whether a reading lies more than the budget after the start. -/
def expired (deadline : Deadline) (now : Nat) : Bool :=
  deadline.budget < deadline.elapsed now

end Deadline

end CoinLedger
