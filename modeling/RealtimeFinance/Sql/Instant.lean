import RealtimeFinance.Sql.Decimal
/-!
# Instant — timestamps and dates, session zone UTC

`current_timestamp` is a `timestamp(3)`, its instant in milliseconds since the epoch; a `TIMESTAMP(6)` is in
microseconds, a date in days.  A text date `%Y-%m-%d` compares as its day does, and stands here as that day.
-/
namespace Sql

def millisPerDay : Int := 86400000
def millisPerMinute : Int := 60000
def microsPerDay : Int := 86400000000
def microsPerMinute : Int := 60000000

def currentDate (now : Int) : Int := now / millisPerDay

/-- `from_unixtime` of a decimal number of seconds, rounded to the millisecond. -/
def fromUnixtime (seconds : Int) (scale : Nat) : Int := divHalfUp (seconds * 1000) (10 ^ scale)

/-- `CAST(to_unixtime(t) * 1000000 AS BIGINT)`: the double product is within 0.25 of a whole number of microseconds
from 2004 to 2038, and the cast rounds it there. -/
def toUnixMicros (t : Int) : Int := t * 1000

def toTimestamp6 (t : Int) : Int := t * 1000

/-- `CAST(t AS DATE)` of a `timestamp(3)`. -/
def millisDate (t : Int) : Int := t / millisPerDay

def microsDate (t : Int) : Int := t / microsPerDay

def truncMinute (t : Int) : Int := t / microsPerMinute * microsPerMinute

theorem fromUnixtime_tenths (tenths : Int) : fromUnixtime tenths 1 = tenths * 100 := by
  unfold fromUnixtime
  have h := divHalfUp_mul_self (tenths * 100) (show 0 < 10 by decide)
  rw [← h]
  congr 1
  push_cast
  omega

theorem microsDate_truncMinute (t : Int) : microsDate (truncMinute t) = microsDate t := by
  unfold microsDate truncMinute microsPerDay microsPerMinute
  omega

end Sql
