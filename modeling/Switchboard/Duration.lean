/-!
# Durations

A span of time in whole seconds and nanoseconds, its length in milliseconds, and its text with
the largest fitting unit.
-/
namespace Switchboard

/-- Seconds and the nanoseconds beyond them. -/
structure Duration where
  secs : UInt64
  nanos : UInt32
deriving DecidableEq

namespace Duration

/-- The span of so many milliseconds. -/
def ofMillis (ms : UInt64) : Duration :=
  ⟨ms / 1000, (ms % 1000).toUInt32 * 1000000⟩

/-- The whole milliseconds of a span. -/
def millis (d : Duration) : Nat := d.secs.toNat * 1000 + d.nanos.toNat / 1000000

/-- The decimals of `part` out of `10 ^ places`, with a point before them and no zero at their
end; nothing when there are none. -/
def fraction (part places : Nat) : String :=
  let digits := (Nat.toDigits 10 (Nat.pow 10 places + part)).drop 1
  let kept := (digits.reverse.dropWhile (· = '0')).reverse
  if kept = [] then "" else "." ++ String.ofList kept

/-- The span in seconds, milliseconds, microseconds or nanoseconds: the largest unit of which it
holds at least one. -/
def text (d : Duration) : String :=
  let nanos := d.nanos.toNat
  if d.secs ≠ 0 then toString d.secs.toNat ++ fraction nanos 9 ++ "s"
  else if 1000000 ≤ nanos then toString (nanos / 1000000) ++ fraction (nanos % 1000000) 6 ++ "ms"
  else if 1000 ≤ nanos then toString (nanos / 1000) ++ fraction (nanos % 1000) 3 ++ "µs"
  else toString nanos ++ "ns"

end Duration
end Switchboard
