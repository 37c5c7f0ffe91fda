import FieldGateway.Text.Digits

namespace FieldGateway

structure Duration where
  nanoseconds : Nat
deriving DecidableEq

namespace Duration

def ofMilliseconds (n : Nat) : Duration := ⟨n * 1000000⟩

def inUnit (nanoseconds unit digits : Nat) (name : Text) : Text :=
  let rest := nanoseconds % unit
  let padded := List.replicate (digits - (Digit.ofNat rest).length) Digit.zero ++ Digit.ofNat rest
  let fraction := (padded.reverse.dropWhile (· == Digit.zero)).reverse
  Text.ofNat (nanoseconds / unit) ++
    (if fraction.isEmpty then [] else '.' :: Digit.texts fraction) ++ name

def text (d : Duration) : Text :=
  if 1000000000 ≤ d.nanoseconds then inUnit d.nanoseconds 1000000000 9 "s"
  else if 1000000 ≤ d.nanoseconds then inUnit d.nanoseconds 1000000 6 "ms"
  else if 1000 ≤ d.nanoseconds then inUnit d.nanoseconds 1000 3 "µs"
  else Text.ofNat d.nanoseconds ++ "ns"

def milliseconds (d : Duration) : Nat := (d.nanoseconds + 999999) / 1000000

end Duration
end FieldGateway
