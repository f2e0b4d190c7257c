import BoxTree.Decimal.Fixed

/-!
# Durations

Spans of time, written in the largest unit that they fill.
-/

namespace BoxTree

structure Duration where
  nanoseconds : Nat

namespace Duration

def unit (d : Duration) : Nat × String :=
  if 1000000000 ≤ d.nanoseconds then (1000000000, "s")
  else if 1000000 ≤ d.nanoseconds then (1000000, "ms")
  else if 1000 ≤ d.nanoseconds then (1000, "µs")
  else (1, "ns")

def text (places : Nat) (d : Duration) : String :=
  let (length, symbol) := d.unit
  Decimal.fixed places d.nanoseconds length ++ symbol

end Duration

end BoxTree
