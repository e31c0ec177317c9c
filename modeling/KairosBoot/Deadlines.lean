import Mathlib.Data.Int.Notation

/-! # Deadlines of the network transports

The `Deadline` class that `tcp_fastboot.cpp` and `udp_fastboot.cpp` share.  Time points are
nanoseconds of a steady clock and durations are milliseconds; both are 64-bit numbers of the
source, of which only the two maximal values matter. -/

namespace KairosBoot

/-- `Clock::time_point::max()`. -/
def timePointMax : ℤ := 9223372036854775807

/-- `std::chrono::milliseconds::max()`. -/
def millisecondsMax : ℤ := 9223372036854775807

def nanosecondsPerMillisecond : ℤ := 1000000

/-- `deadline_from`. -/
def deadlineFrom (started timeout : ℤ) : ℤ :=
  if timeout ≤ 0 then started
  else if (timePointMax - started) / nanosecondsPerMillisecond ≤ timeout then timePointMax
  else started + timeout * nanosecondsPerMillisecond

/-- `deadline_expired_at`. -/
def deadlineExpiredAt (deadline observed : ℤ) : Bool :=
  deadline ≠ timePointMax ∧ deadline ≤ observed

/-- `Deadline::remaining` at a time: the milliseconds left, rounded up. -/
def deadlineRemaining (deadline now : ℤ) : ℤ :=
  if deadline = timePointMax then millisecondsMax
  else if deadline ≤ now then 0
  else (deadline - now + nanosecondsPerMillisecond - 1) / nanosecondsPerMillisecond

/-- `bounded_wait` at a time. -/
def boundedWait (deadline interval now : ℤ) : ℤ :=
  if deadlineRemaining deadline now = millisecondsMax then interval
  else min (deadlineRemaining deadline now) interval

end KairosBoot
