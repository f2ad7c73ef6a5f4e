import CoverageRegistry.Calendar
import CoverageRegistry.Decimal
import CoverageRegistry.Toml.Value

/-!
# Bare scalars of TOML

Numbers, booleans and date-times, which are written without quotes. A scalar is recognized from the
whole of its text.
-/
namespace CoverageRegistry.Toml.Scalar

/-- Digits in which single underscores may stand between two digits, without the underscores. -/
def digitRun? (isDigit : Char → Bool) (cs : List Char) : Option (List Char) :=
  let parts := cs.splitOn '_'
  if parts.all fun part => !part.isEmpty && part.all isDigit then some parts.flatten else none

/-- The digits of a whole number, which has no zero in front. -/
def wholeDigits? (cs : List Char) : Option (List Char) :=
  match digitRun? Char.isDigit cs with
  | some ('0' :: _ :: _) => none
  | digits? => digits?

/-- Splits off a sign; `true` is the minus. -/
def splitSign : List Char → Bool × List Char
  | '-' :: cs => (true, cs)
  | '+' :: cs => (false, cs)
  | cs => (false, cs)

/-- An integer of 64 bits with a sign. -/
def inRange? (value : Int) : Option Value :=
  if Int64.minValue.toInt ≤ value ∧ value ≤ Int64.maxValue.toInt then some (.integer value)
  else none

/-- A number in base two, eight or sixteen, after its mark. -/
def inBase? (base : Nat) (isDigit : Char → Bool) (cs : List Char) : Option Value := do
  let digits ← digitRun? isDigit cs
  let value ← digits.foldlM (fun n c => (Decimal.hexValue? c).map (base * n + ·)) 0
  inRange? value

/-- A whole number. -/
def integer? (cs : List Char) : Option Value :=
  match cs with
  | '0' :: 'x' :: digits => inBase? 16 (fun c => (Decimal.hexValue? c).isSome) digits
  | '0' :: 'o' :: digits => inBase? 8 (fun c => '0' ≤ c && c ≤ '7') digits
  | '0' :: 'b' :: digits => inBase? 2 (fun c => c == '0' || c == '1') digits
  | _ => do
    let (negative, digits) := splitSign cs
    let value : Int := Decimal.ofDigits (← wholeDigits? digits)
    inRange? (if negative then -value else value)

/-- The exponent of a floating-point number. -/
def exponent? (cs : List Char) : Option Int := do
  let (negative, digits) := splitSign cs
  let value : Int := Decimal.ofDigits (← digitRun? Char.isDigit digits)
  return if negative then -value else value

/-- A floating-point number with a fraction, an exponent or both. One that is too large is refused
unless it is negative. -/
def decimal? (cs : List Char) : Option Value := do
  let (negative, unsigned) := splitSign cs
  let isMark (c : Char) : Bool := c == 'e' || c == 'E'
  let mantissa := unsigned.takeWhile (!isMark ·)
  let exponent ←
    match unsigned.dropWhile (!isMark ·) with
    | [] => if mantissa.contains '.' then some 0 else none
    | _ :: digits => exponent? digits
  let whole ← wholeDigits? (mantissa.takeWhile (· != '.'))
  let fraction ←
    match mantissa.dropWhile (· != '.') with
    | [] => some []
    | _ :: digits => digitRun? Char.isDigit digits
  let tooLarge :=
    Decimal.exceedsDouble (Decimal.ofDigits (whole ++ fraction)) (exponent - fraction.length)
  if tooLarge && !negative then none else some (.float (String.ofList cs))

/-- A floating-point number. -/
def float? (cs : List Char) : Option Value :=
  let unsigned := (splitSign cs).2
  if unsigned = ['i', 'n', 'f'] ∨ unsigned = ['n', 'a', 'n'] then
    some (.float (String.ofList cs))
  else decimal? cs

/-- A boolean. -/
def boolean? (cs : List Char) : Option Value :=
  if cs = ['t', 'r', 'u', 'e'] then some (.boolean true)
  else if cs = ['f', 'a', 'l', 's', 'e'] then some (.boolean false)
  else none

/-- The number that exactly so many digits at the front spell, and what follows them. -/
def fixedDigits? (count : Nat) (cs : List Char) : Option (Nat × List Char) :=
  let digits := cs.take count
  if digits.length = count && digits.all Char.isDigit then
    some (Decimal.ofDigits digits, cs.drop count)
  else none

/-- The number that two digits at the front spell, where it is within bounds. -/
def twoDigits? (low high : Nat) (cs : List Char) : Option (Nat × List Char) := do
  let (n, rest) ← fixedDigits? 2 cs
  if low ≤ n ∧ n ≤ high then some (n, rest) else none

/-- What follows a character that must come next. -/
def expect? (c : Char) : List Char → Option (List Char)
  | d :: rest => if c = d then some rest else none
  | [] => none

/-- A number in at least so many digits. -/
def padded (width n : Nat) : String :=
  String.ofList (Calendar.padded width n)

/-- A date in its normal text, and what follows it. -/
def date? (cs : List Char) : Option (String × List Char) := do
  let (year, rest) ← fixedDigits? 4 cs
  let rest ← expect? '-' rest
  let (month, rest) ← twoDigits? 1 12 rest
  let rest ← expect? '-' rest
  let (day, rest) ← twoDigits? 1 (Calendar.daysInMonth year month) rest
  return (padded 4 year ++ "-" ++ padded 2 month ++ "-" ++ padded 2 day, rest)

/-- The fraction of a second in its normal text: nine digits at most, without zeros at the end. -/
def fractionText (digits : List Char) : String :=
  match ((digits.take 9).reverse.dropWhile (· == '0')).reverse with
  | [] => ""
  | kept => String.ofList ('.' :: kept)

/-- A time of day in its normal text, and what follows it. -/
def time? (cs : List Char) : Option (String × List Char) := do
  let (hour, rest) ← twoDigits? 0 23 cs
  let rest ← expect? ':' rest
  let (minute, rest) ← twoDigits? 0 59 rest
  let rest ← expect? ':' rest
  let (second, rest) ← twoDigits? 0 60 rest
  let text := padded 2 hour ++ ":" ++ padded 2 minute ++ ":" ++ padded 2 second
  match rest with
  | '.' :: more =>
    let digits := more.takeWhile Char.isDigit
    if digits.isEmpty then none
    else return (text ++ fractionText digits, more.dropWhile Char.isDigit)
  | _ => return (text, rest)

/-- The distance from universal time in its normal text. -/
def offset? (cs : List Char) : Option String :=
  match cs with
  | [] => some ""
  | ['Z'] => some "Z"
  | ['z'] => some "Z"
  | sign :: digits => do
    let mark ← if sign = '+' then some "+" else if sign = '-' then some "-" else none
    let (hour, rest) ← twoDigits? 0 23 digits
    let (minute, rest) ← twoDigits? 0 59 (← expect? ':' rest)
    let mark := if hour = 0 ∧ minute = 0 then "+" else mark
    if rest.isEmpty then return mark ++ padded 2 hour ++ ":" ++ padded 2 minute else none

/-- A date, a time, or both, with or without a distance from universal time. -/
def dateTime? (cs : List Char) : Option Value :=
  match date? cs with
  | some (date, []) => some (.dateTime date)
  | some (date, mark :: rest) =>
    if mark = 'T' ∨ mark = 't' ∨ mark = ' ' then do
      let (time, rest) ← time? rest
      return .dateTime (date ++ "T" ++ time ++ (← offset? rest))
    else none
  | none =>
    match time? cs with
    | some (time, []) => some (.dateTime time)
    | _ => none

/-- Whether a character may stand in a bare scalar. -/
def isScalarChar (c : Char) : Bool :=
  c.isAlphanum || c == '+' || c == '-' || c == '_' || c == '.' || c == ':'

/-- The text of the bare scalar at the front, and what follows it. A date and a time may be
separated by one space. -/
def lexeme (cs : List Char) : List Char × List Char :=
  let word := cs.takeWhile isScalarChar
  match cs.dropWhile isScalarChar with
  | ' ' :: rest =>
    match date? word, rest with
    | some (_, []), c :: _ =>
      if c.isDigit then (word ++ ' ' :: rest.takeWhile isScalarChar, rest.dropWhile isScalarChar)
      else (word, ' ' :: rest)
    | _, _ => (word, ' ' :: rest)
  | rest => (word, rest)

/-- The value that the text of a bare scalar stands for. -/
def ofLexeme? (word : List Char) : Option Value :=
  boolean? word <|> dateTime? word <|> integer? word <|> float? word

end CoverageRegistry.Toml.Scalar
