namespace BearerAuth

/-- A span of time, in nanoseconds. -/
abbrev Duration := Nat

namespace Duration

def ofSeconds (n : Nat) : Duration := n * 1000000000

def ofMinutes (n : Nat) : Duration := ofSeconds (n * 60)

def seconds (d : Duration) : Nat := d / 1000000000

/-- The digits of a fraction of `width` decimals, without zeros at the end. -/
def fractionDigits (width fraction : Nat) : List Char :=
  let digits := (List.replicate width '0' ++ Nat.toDigits 10 fraction).reverse.take width
  (digits.dropWhile (· == '0')).reverse

/-- A number of units of `10 ^ width` nanoseconds. -/
def inUnits (width : Nat) (d : Duration) (unit : String) : String :=
  let whole := d / Nat.pow 10 width
  let fraction := fractionDigits width (d % Nat.pow 10 width)
  let point := if fraction.isEmpty then "" else "." ++ String.ofList fraction
  s!"{whole}{point}{unit}"

def text (d : Duration) : String :=
  if 1000000000 ≤ d then inUnits 9 d "s"
  else if 1000000 ≤ d then inUnits 6 d "ms"
  else if 1000 ≤ d then inUnits 3 d "µs"
  else inUnits 0 d "ns"

end Duration

end BearerAuth
