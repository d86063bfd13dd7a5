/-!
# Durations

A duration counts nanoseconds. It is displayed in the largest of the units s, ms, µs and ns that
it fills at least once, with a decimal fraction that has no trailing zeros: `5s`, `1.5s`, `250ms`,
`1.5µs`, `0ns`.
-/

namespace TableCapture

/-- A span of time. -/
structure Duration where
  nanos : Nat
deriving DecidableEq, Repr, Inhabited

namespace Duration

/-- Whole seconds and nanoseconds together. -/
def ofSeconds (secs nanos : Nat) : Duration :=
  ⟨secs * 1000000000 + nanos⟩

/-- The least whole number of milliseconds that is not shorter. -/
def ceilMillis (d : Duration) : Nat :=
  (d.nanos + 999999) / 1000000

/-- The last `width` decimal digits of a number, its trailing zeros left out. -/
def fractionDigits : Nat → Nat → List Char
  | 0, _ => []
  | width + 1, n =>
    if n % 10 = 0 then fractionDigits width (n / 10)
    else fractionDigitsAll width (n / 10) ++ [Nat.digitChar (n % 10)]
where
  /-- The last `width` decimal digits of a number. -/
  fractionDigitsAll : Nat → Nat → List Char
    | 0, _ => []
    | width + 1, n => fractionDigitsAll width (n / 10) ++ [Nat.digitChar (n % 10)]

/-- `n` divided by ten to the power `places`, followed by a unit. -/
def decimal (n places : Nat) (unit : String) : String :=
  let whole := toString (n / Nat.pow 10 places)
  match fractionDigits places (n % Nat.pow 10 places) with
  | [] => whole ++ unit
  | ds => whole ++ "." ++ String.ofList ds ++ unit

/-- The displayed form of a duration. -/
def display (d : Duration) : String :=
  if 1000000000 ≤ d.nanos then decimal d.nanos 9 "s"
  else if 1000000 ≤ d.nanos then decimal d.nanos 6 "ms"
  else if 1000 ≤ d.nanos then decimal d.nanos 3 "µs"
  else decimal d.nanos 0 "ns"

end Duration

end TableCapture
