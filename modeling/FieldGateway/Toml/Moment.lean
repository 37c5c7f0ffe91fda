import FieldGateway.Text.Digits

-- Dates and times of day, alone or together, and together perhaps with an offset from
-- universal time.
namespace FieldGateway.Toml

structure Date where
  year : Nat
  month : Nat
  day : Nat

structure Clock where
  hour : Nat
  minute : Nat
  second : Nat
  fraction : List Digit

inductive Offset where
  | universal
  | shifted (ahead : Bool) (hours minutes : Nat)

structure Moment where
  date : Option Date
  clock : Option Clock
  offset : Option Offset

namespace Moment

def number? (width least greatest : Nat) (t : Text) : Option (Nat × Text) :=
  match Text.natural? 10 (t.take width) with
  | some n => if width ≤ t.length && least ≤ n && n ≤ greatest then some (n, t.drop width) else none
  | none => none

def date? (t : Text) : Option (Date × Text) := do
  let (year, t) ← number? 4 0 9999 t
  let (month, t) ← number? 2 1 12 (← Text.after? ['-'] t)
  let (day, t) ← number? 2 1 31 (← Text.after? ['-'] t)
  some (⟨year, month, day⟩, t)

def fraction? (t : Text) : Option (List Digit × Text) :=
  match Text.after? ['.'] t with
  | none => some ([], t)
  | some t => match Digit.run t with
    | ([], _) => none
    | (digits, left) => some (digits.take 9, left)

def clock? (t : Text) : Option (Clock × Text) := do
  let (hour, t) ← number? 2 0 24 t
  let (minute, t) ← number? 2 0 59 (← Text.after? [':'] t)
  let (second, t) ← number? 2 0 59 (← Text.after? [':'] t)
  let (fraction, t) ← fraction? t
  some (⟨hour, minute, second, fraction⟩, t)

def offset? (t : Text) : Option (Option Offset) :=
  match t with
  | [] => some none
  | ['Z'] | ['z'] => some (some .universal)
  | sign :: t =>
    if sign = '+' || sign = '-' then do
      let (hours, t) ← number? 2 0 99 t
      let (minutes, t) ← number? 2 0 99 (← Text.after? [':'] t)
      if t.isEmpty then some (some (.shifted (sign = '+') hours minutes)) else none
    else none

def read? (t : Text) : Option Moment :=
  match date? t with
  | none => do
    let (clock, t) ← clock? t
    if t.isEmpty then some ⟨none, some clock, none⟩ else none
  | some (date, []) => some ⟨some date, none, none⟩
  | some (date, separator :: t) =>
    if separator = 'T' || separator = 't' || separator = ' ' then do
      let (clock, t) ← clock? t
      (offset? t).map fun offset => ⟨some date, some clock, offset⟩
    else none

def padded (width n : Nat) : Text :=
  let digits := Text.ofNat n
  List.replicate (width - digits.length) '0' ++ digits

def Date.text (d : Date) : Text :=
  padded 4 d.year ++ '-' :: padded 2 d.month ++ '-' :: padded 2 d.day

def Clock.text (c : Clock) : Text :=
  let fraction := Text.dropTrailing (· = '0') (Digit.texts c.fraction)
  padded 2 c.hour ++ ':' :: padded 2 c.minute ++ ':' :: padded 2 c.second ++
    (if fraction.isEmpty then [] else '.' :: fraction)

def Offset.text : Offset → Text
  | .universal => ['Z']
  | .shifted ahead hours minutes => (if ahead then '+' else '-') :: padded 2 hours ++ ':' :: padded 2 minutes

def text (m : Moment) : Text :=
  (match m.date with | some date => Date.text date | none => []) ++
    (if m.date.isSome && m.clock.isSome then ['T'] else []) ++
    (match m.clock with | some clock => Clock.text clock | none => []) ++
    (match m.offset with | some offset => Offset.text offset | none => [])

end Moment
end FieldGateway.Toml
