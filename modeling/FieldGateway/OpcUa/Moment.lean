import FieldGateway.Text.Digits

-- Points in time, counted in steps of 100 nanoseconds from the first day of 1601.
namespace FieldGateway.OpcUa

structure Moment where
  ticks : Int
deriving DecidableEq

structure Date where
  year : Int
  month : Nat
  day : Nat
deriving DecidableEq

-- The Gregorian date so many days after 1 March of the year 0. Years are counted from March
-- here, so that a leap day is the last of its year.
def Date.ofDays (days : Int) : Date :=
  let era := days.fdiv 146097
  let dayOfEra := (days.fmod 146097).toNat
  let yearOfEra := (dayOfEra - dayOfEra / 1460 + dayOfEra / 36524 - dayOfEra / 146096) / 365
  let dayOfYear := dayOfEra - (365 * yearOfEra + yearOfEra / 4 - yearOfEra / 100)
  let shifted := (5 * dayOfYear + 2) / 153
  let day := dayOfYear - (153 * shifted + 2) / 5 + 1
  let month := if shifted < 10 then shifted + 3 else shifted - 9
  let year := era * 400 + yearOfEra
  ⟨if month ≤ 2 then year + 1 else year, month, day⟩

namespace Moment

def epochDay : Int := 584694

def ticksPerSecond : Int := 10000000

-- The largest count stands for the last second of the year 9999.
def endOfTime : Int := 9223372036854775807

def lastSecond : Moment := ⟨2650467743990000000⟩

def padded (width n : Nat) : Text :=
  let digits := Text.ofNat n
  List.replicate (width - digits.length) '0' ++ digits

def yearText (year : Int) : Text :=
  if 0 ≤ year ∧ year ≤ 9999 then padded 4 year.toNat
  else (if year < 0 then '-' else '+') :: padded 4 year.natAbs

def fractionText (nanoseconds : Nat) : Text :=
  if nanoseconds = 0 then []
  else if nanoseconds % 1000000 = 0 then '.' :: padded 3 (nanoseconds / 1000000)
  else if nanoseconds % 1000 = 0 then '.' :: padded 6 (nanoseconds / 1000)
  else '.' :: padded 9 nanoseconds

def text (m : Moment) : Text :=
  let ticks := if m.ticks = endOfTime then lastSecond.ticks else m.ticks
  let seconds := ticks.fdiv ticksPerSecond
  let nanoseconds := (ticks.fmod ticksPerSecond).toNat * 100
  let date := Date.ofDays (epochDay + seconds.fdiv 86400)
  let second := (seconds.fmod 86400).toNat
  yearText date.year ++ "-" ++ padded 2 date.month ++ "-" ++ padded 2 date.day ++ "T" ++
    padded 2 (second / 3600) ++ ":" ++ padded 2 (second / 60 % 60) ++ ":" ++ padded 2 (second % 60) ++
    fractionText nanoseconds ++ "+00:00"

end Moment
end FieldGateway.OpcUa
