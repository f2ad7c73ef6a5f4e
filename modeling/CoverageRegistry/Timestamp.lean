import CoverageRegistry.Calendar
import CoverageRegistry.Decimal
import CoverageRegistry.Text.Blank

/-!
# Timestamps

Points in time to the nanosecond, written in universal time after RFC 3339. Reading is relaxed: the
numbers may have fewer digits and blanks around them, a space may stand for the `T`, and the
distance from universal time may be written as `Z`, as `UTC`, or in hours and minutes.
-/
namespace CoverageRegistry

/-- A point in time. A leap second is held as the second before it with more than `10 ^ 9`
nanoseconds. -/
structure Timestamp where
  /-- Seconds since the first moment of the year 1970. -/
  seconds : Int
  /-- Nanoseconds within the second. -/
  nanos : Nat
  deriving DecidableEq, Repr

namespace Timestamp

open Calendar

/-- The least and the greatest year of a timestamp. -/
def yearRange : Int × Int := (-262143, 262142)

/-- Whether a year is within the range. -/
def isYear (year : Int) : Bool :=
  yearRange.1 ≤ year && year ≤ yearRange.2

/-! ## Writing -/

/-- A year in four digits; one that does not fit has a sign. -/
def renderYear (year : Int) : List Char :=
  if 0 ≤ year ∧ year ≤ 9999 then padded 4 year.toNat
  else if year < 0 then '-' :: padded 4 (-year).toNat
  else '+' :: padded 4 year.toNat

/-- The fraction of a second, in the fewest groups of three digits that are exact. -/
def renderNanos (nanos : Nat) : List Char :=
  if nanos = 0 then []
  else if nanos % 1000000 = 0 then '.' :: padded 3 (nanos / 1000000)
  else if nanos % 1000 = 0 then '.' :: padded 6 (nanos / 1000)
  else '.' :: padded 9 nanos

/-- The text of a timestamp. -/
def render (t : Timestamp) : String :=
  let days := t.seconds.fdiv 86400
  let secondOfDay := (t.seconds - days * 86400).toNat
  let (year, month, day) := dateOfDays days
  let leap := t.nanos / 1000000000
  String.ofList (renderYear year ++ '-' :: padded 2 month ++ '-' :: padded 2 day ++
    'T' :: padded 2 (secondOfDay / 3600) ++ ':' :: padded 2 (secondOfDay / 60 % 60) ++
    ':' :: padded 2 (secondOfDay % 60 + leap) ++ renderNanos (t.nanos % 1000000000) ++ ['Z'])

/-! ## Reading -/

/-- The number that the digits at the front spell, at most so many and at least one; blanks before
it are skipped. -/
def number? (width : Nat) (cs : List Char) : Option (Nat × List Char) :=
  let cs := Text.trimStart cs
  let digits := (cs.take width).takeWhile Char.isDigit
  if digits.isEmpty then none else some (Decimal.ofDigits digits, cs.drop digits.length)

/-- A year: four digits at most, or any number of digits after a sign. -/
def year? (cs : List Char) : Option (Int × List Char) :=
  match Text.trimStart cs with
  | '-' :: rest => signed (-1) rest
  | '+' :: rest => signed 1 rest
  | rest => (number? 4 rest).map fun read => ((read.1 : Int), read.2)
where
  /-- A year after its sign. -/
  signed (sign : Int) (rest : List Char) : Option (Int × List Char) :=
    let digits := rest.takeWhile Char.isDigit
    if digits.isEmpty then none
    else some (sign * Decimal.ofDigits digits, rest.dropWhile Char.isDigit)

/-- What follows a character, with blanks before it skipped. -/
def mark? (c : Char) (cs : List Char) : Option (List Char) :=
  match Text.trimStart cs with
  | d :: rest => if c = d then some rest else none
  | [] => none

/-- The nanoseconds of a fraction; digits beyond the ninth are dropped. -/
def fraction? (cs : List Char) : Option (Nat × List Char) :=
  match cs with
  | '.' :: rest =>
    let digits := rest.takeWhile Char.isDigit
    if digits.isEmpty then none
    else
      let kept := digits.take 9
      some (Decimal.ofDigits (kept ++ List.replicate (9 - kept.length) '0'),
        rest.dropWhile Char.isDigit)
  | _ => some (0, cs)

/-- The distance from universal time in seconds, and what follows it. -/
def offset? (cs : List Char) : Option (Int × List Char) :=
  match cs with
  | [] => none
  | sign :: rest =>
    if (cs.take 3).map Char.toUpper = ['U', 'T', 'C'] then some (0, cs.drop 3)
    else if sign = 'Z' ∨ sign = 'z' then some (0, rest)
    else if sign = '+' then distance 1 rest
    else if sign = '-' ∨ sign = '\u2212' then distance (-1) rest
    else none
where
  /-- Hours and minutes in two digits each, with colons and blanks between them. -/
  distance (sign : Int) (cs : List Char) : Option (Int × List Char) :=
    match cs with
    | h1 :: h2 :: rest =>
      match rest.dropWhile fun c => c == ':' || Text.isBlank c with
      | m1 :: m2 :: rest =>
        if [h1, h2, m1, m2].all Char.isDigit && m1.toNat < '6'.toNat then
          some (sign * (Decimal.ofDigits [h1, h2] * 3600 + Decimal.ofDigits [m1, m2] * 60), rest)
        else none
      | _ => none
    | _ => none

/-- The point in time of a date, a time of day and a distance from universal time. A sixtieth second
is a leap second. -/
def ofParts? (year : Int) (month day hour minute second nanos : Nat) (offset : Int) :
    Option Timestamp :=
  let leap : Nat := if second = 60 then 1 else 0
  let secondOfDay : Nat := hour * 3600 + minute * 60 + (second - leap)
  let seconds : Int := daysOfDate year month day * 86400 + secondOfDay - offset
  if isYear year && 1 ≤ month && month ≤ 12 && 1 ≤ day && day ≤ daysInMonth year month &&
      hour ≤ 23 && minute ≤ 59 && second ≤ 60 && -86400 < offset && offset < 86400 &&
      isYear (dateOfDays (seconds.fdiv 86400)).1 then
    some ⟨seconds, nanos + leap * 1000000000⟩
  else none

/-- Reads a timestamp. -/
def parse? (text : String) : Option Timestamp := do
  let (year, rest) ← year? text.toList
  let (month, rest) ← number? 2 (← mark? '-' rest)
  let (day, rest) ← number? 2 (← mark? '-' rest)
  match rest with
  | c :: rest =>
    if c = 'T' ∨ c = 't' ∨ c = ' ' then
      let (hour, rest) ← number? 2 rest
      let (minute, rest) ← number? 2 (← mark? ':' rest)
      let (second, rest) ← number? 2 (← mark? ':' rest)
      let (nanos, rest) ← fraction? rest
      let (offset, rest) ← offset? (Text.trimStart rest)
      if (Text.trimStart rest).isEmpty then
        ofParts? year month day hour minute second nanos offset
      else none
    else none
  | [] => none

end Timestamp

end CoverageRegistry
