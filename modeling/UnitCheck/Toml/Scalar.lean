import UnitCheck.Toml.Text

/-!
# Scalars of TOML

Numbers, dates and times are checked but not kept: integers must fit 64 bits with a sign, a float
may not be too large, and a date must exist.
-/

set_option autoImplicit false

namespace UnitCheck

namespace Toml

namespace Scalar

/-! ## Integers -/

/-- Digits of a class with single underscores between them, without the underscores. -/
def digits (isDigit : Char → Bool) : Reader (List Char) := do
  let first ← Reader.satisfy isDigit
  let more ← Reader.many do
    let _ ← Reader.optional (Reader.char '_')
    Reader.satisfy isDigit
  return first :: more

/-- A sign: whether the number is negative. -/
def sign : Reader Bool :=
  (do Reader.char '-'; return true) <|> (do Reader.char '+'; return false) <|> pure false

/-- Digits of a decimal integer, which begin with `0` only if there is no other. -/
def decimal : Reader (List Char) := do
  let ds ← (do Reader.char '0'; return ['0']) <|> digits Char.isDigit
  return ds

/-- The number that hexadecimal digits denote. -/
def hexNumber (ds : List Char) : Nat :=
  ds.foldl (fun n c => 16 * n + (Text.hexValue c).getD 0) 0

/-- Whether a character is a binary digit. -/
def isBinary (c : Char) : Bool := c == '0' || c == '1'

/-- Whether a character is an octal digit. -/
def isOctal (c : Char) : Bool := '0' ≤ c && c ≤ '7'

/-- Whether a character is a hexadecimal digit. -/
def isHex (c : Char) : Bool := (Text.hexValue c).isSome

/-- An integer with a prefix that gives its base. -/
def based : Reader Unit := do
  Reader.char '0'
  let n ←
    (do Reader.char 'x'; return hexNumber (← digits isHex)) <|>
    (do Reader.char 'o'; return Nat.ofDigitChars 8 (← digits isOctal) 0) <|>
    (do Reader.char 'b'; return Nat.ofDigitChars 2 (← digits isBinary) 0)
  if n < Nat.pow 2 63 then return else failure

/-- Read a decimal integer of 64 bits, one of them for the sign. -/
def plainInteger : Reader Unit := do
  let negative ← sign
  let n := Nat.ofDigitChars 10 (← decimal) 0
  if n < Nat.pow 2 63 ∨ (negative = true ∧ n = Nat.pow 2 63) then return else failure

/-- Read an integer. -/
def integer : Reader Unit := based <|> plainInteger

/-! ## Floats -/

/-- Numbers from here on are nearer to infinity than to the largest double. -/
def infinityBound : Nat := Nat.pow 2 1024 - Nat.pow 2 970

/-- Whether a number with these digits and this power of ten counts as infinite.  Above `10 ^ 309`
and below `10 ^ 308` the number of digits tells. -/
def isInfinite (digits : Nat) (exponent : Int) : Bool :=
  let places : Int := (Nat.toDigits 10 digits).length + exponent
  if digits = 0 then false
  else if places < 309 then false
  else if 309 < places then true
  else
    decide (infinityBound * Nat.pow 10 (-exponent).toNat ≤ digits * Nat.pow 10 exponent.toNat)

/-- Read the digits behind a decimal point. -/
def fraction : Reader (List Char) := do
  Reader.char '.'
  digits Char.isDigit

/-- Read the exponent of a float. -/
def exponent : Reader Int := do
  let _ ← Reader.char 'e' <|> Reader.char 'E'
  let negative ← sign
  let n : Int := Nat.ofDigitChars 10 (← digits Char.isDigit) 0
  return if negative then -n else n

/-- A float in digits.  Only a positive one can be too large: a negative one is then taken for minus
infinity. -/
def plainFloat : Reader Unit := do
  let negative ← sign
  let whole ← decimal
  let part ← Reader.optional fraction
  let scale ← Reader.optional exponent
  if part.isNone && scale.isNone then failure
  let ds := Nat.ofDigitChars 10 (whole ++ part.getD []) 0
  if !negative && isInfinite ds (scale.getD 0 - (part.getD []).length) then failure

/-- Read an infinity or something that is not a number. -/
def specialFloat : Reader Unit := do
  let _ ← sign
  Reader.word ['i', 'n', 'f'] <|> Reader.word ['n', 'a', 'n']

/-- Read a float. -/
def float : Reader Unit := plainFloat <|> specialFloat

/-! ## Dates and times -/

/-- A number of exactly so many digits within bounds. -/
def fixed (width low high : Nat) : Reader Nat := do
  let ds ← (List.replicate width ()).mapM fun _ => Reader.satisfy Char.isDigit
  let n := Nat.ofDigitChars 10 ds 0
  if low ≤ n ∧ n ≤ high then return n else failure

/-- Whether a year has a 29th of February. -/
def isLeapYear (year : Nat) : Bool :=
  year % 4 == 0 && (year % 100 != 0 || year % 400 == 0)

/-- How many days a month has. -/
def daysInMonth (year month : Nat) : Nat :=
  if month = 2 then (if isLeapYear year then 29 else 28)
  else if month = 4 ∨ month = 6 ∨ month = 9 ∨ month = 11 then 30
  else 31

/-- Read a date that the calendar has. -/
def date : Reader Unit := do
  let year ← fixed 4 0 9999
  Reader.char '-'
  let month ← fixed 2 1 12
  Reader.char '-'
  let _ ← fixed 2 1 (daysInMonth year month)

/-- A time of day; a minute may have a leap second. -/
def time : Reader Unit := do
  let _ ← fixed 2 0 23
  Reader.char ':'
  let _ ← fixed 2 0 59
  Reader.char ':'
  let _ ← fixed 2 0 60
  let _ ← Reader.optional do
    Reader.char '.'
    let _ ← Reader.satisfy Char.isDigit
    Reader.run Char.isDigit

/-- Read the offset of a time from UTC. -/
def offset : Reader Unit :=
  (do let _ ← Reader.satisfy fun c => c == 'Z' || c == 'z') <|> (do
    let _ ← Reader.satisfy fun c => c == '+' || c == '-'
    let _ ← fixed 2 0 23
    Reader.char ':'
    let _ ← fixed 2 0 59)

/-- Read a date, a time, or a date with a time and perhaps an offset. -/
def dateTime : Reader Unit :=
  (do
    date
    let _ ← Reader.optional do
      let _ ← Reader.satisfy fun c => c == 'T' || c == 't' || c == ' '
      time
      Reader.optional offset) <|> time

/-! ## All scalars -/

/-- A value that is not a container. -/
def read : Reader Scalar :=
  (do return .string (← Text.string)) <|>
  (do Reader.word ['t', 'r', 'u', 'e']; return .boolean true) <|>
  (do Reader.word ['f', 'a', 'l', 's', 'e']; return .boolean false) <|>
  (do dateTime; return .moment) <|>
  (do float; return .number) <|>
  (do integer; return .number)

end Scalar

end Toml

end UnitCheck
