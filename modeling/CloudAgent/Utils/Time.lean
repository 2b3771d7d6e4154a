import Mathlib.Algebra.Group.Int.Defs

/-! Time points and durations: signed nanosecond counts, with the two sentinels of `utils::time`. -/
namespace CloudAgent

/-- `cloud::time`, nanoseconds since the epoch. -/
abbrev Time := ℤ

/-- `cloud::duration`, in nanoseconds. -/
abbrev Duration := ℤ

namespace Utils.Time

/-- `utils::time::null()`, the epoch itself. -/
def null : Time := 0

/-- `utils::time::max()`, the largest 64-bit count. -/
def max : Time := 9223372036854775807

end Utils.Time

def seconds (n : ℤ) : Duration := n * 1000000000

def minutes (n : ℤ) : Duration := n * 60000000000

namespace Duration

/-- `duration_cast<milliseconds>(d).count()`. -/
def toMilliseconds (d : Duration) : ℤ := Int.tdiv d 1000000

/-- `duration_cast<microseconds>(d)`. -/
def toMicroseconds (d : Duration) : ℤ := Int.tdiv d 1000

/-- A millisecond count passed where the callee takes a `size_t`. -/
def toTimeout (d : Duration) : ℕ := (d.toMilliseconds % 2 ^ 64).toNat

end Duration
end CloudAgent
