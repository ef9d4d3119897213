/-!
# Spans of time as text

A span is written in the largest of the units `s`, `ms`, `µs`, `ns` of which it holds at least
one, with as many decimal places as it needs and no more: `1.5ms`, `999.999µs`, `5s`, `0ns`.
-/

namespace DebugBridge.Text.Elapsed

/-- The digits of a fraction `part / 10 ^ places`, without trailing zeros. -/
def fraction (places part : Nat) : List Char :=
  let digits := (toString part).toList
  let padded := List.replicate (places - digits.length) '0' ++ digits
  (padded.reverse.dropWhile (· == '0')).reverse

/-- `nanos` in a unit of `10 ^ places` nanoseconds. -/
def inUnit (places : Nat) (unit : String) (nanos : Nat) : String :=
  let size := Nat.pow 10 places
  let whole := toString (nanos / size)
  match fraction places (nanos % size) with
  | [] => whole ++ unit
  | digits => whole ++ "." ++ String.ofList digits ++ unit

/-- The text of a span of so many nanoseconds. -/
def render (nanos : Nat) : String :=
  if nanos ≥ Nat.pow 10 9 then inUnit 9 "s" nanos
  else if nanos ≥ Nat.pow 10 6 then inUnit 6 "ms" nanos
  else if nanos ≥ Nat.pow 10 3 then inUnit 3 "µs" nanos
  else inUnit 0 "ns" nanos

/-- The nanoseconds of so many milliseconds. -/
def ofMillis (millis : Nat) : Nat :=
  millis * Nat.pow 10 6

end DebugBridge.Text.Elapsed
