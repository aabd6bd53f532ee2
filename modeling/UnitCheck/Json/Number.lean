import UnitCheck.Json.Basic

/-!
# JSON numbers

A number literal is a sign, an integer part, and perhaps a fraction and an exponent.  The natural
ones that fit 64 bits are kept; of any other only its size matters, because a number too large for
a double denotes nothing.

The size is judged the way a fast reader does: the leading digits that fit 64 bits are the
significand, later digits of the integer part only raise the exponent, later digits of the fraction
are dropped, and the product of significand and power of ten is formed in double precision.
-/

set_option autoImplicit false

namespace UnitCheck

namespace Json

namespace Number

/-- The natural numbers of 64 bits are those below this. -/
def wordBound : Nat := UInt64.size

/-- The value of a decimal digit. -/
def digit (c : Char) : Nat := c.toNat - '0'.toNat

/-! ## Double precision -/

/-- The nearest number with a significand of 53 bits, a tie going to the even one. -/
def roundToDouble (n : Nat) : Nat :=
  if n < Nat.pow 2 53 then n
  else
    let unit := Nat.pow 2 (n.log2 - 52)
    let quotient := n / unit
    let twice := 2 * (n % unit)
    let up := unit < twice || (twice == unit && quotient % 2 == 1)
    (if up then quotient + 1 else quotient) * unit

/-- Numbers from here on round to infinity: half a unit above the largest double. -/
def infinityBound : Nat := Nat.pow 2 1024 - Nat.pow 2 970

/-- Whether `significand * 10 ^ exponent` overflows.  A power of ten above `10 ^ 308` is infinite
by itself. -/
def overflows (significand : Nat) (exponent : Int) : Bool :=
  if significand = 0 then false
  else if exponent < 0 then false
  else if 308 < exponent then true
  else
    decide (infinityBound ≤ roundToDouble significand * roundToDouble (Nat.pow 10 exponent.toNat))

/-! ## Significand and exponent of a literal -/

/-- Read on into the integer part: digits join the significand until one does not fit, and from
there on each only raises the exponent. -/
def readInteger : List Char → Nat → Nat × Nat
  | [], significand => (significand, 0)
  | c :: rest, significand =>
    let more := 10 * significand + digit c
    if more < wordBound then readInteger rest more else (significand, rest.length + 1)

/-- Read on into the fraction: digits join the significand until one does not fit, each lowering
the exponent. -/
def readFraction : List Char → Nat → Nat × Nat
  | [], significand => (significand, 0)
  | c :: rest, significand =>
    let more := 10 * significand + digit c
    if more < wordBound then
      let (total, places) := readFraction rest more
      (total, places + 1)
    else (significand, 0)

/-- Whether a literal with these digits is too large for a double. -/
def isHuge (integer fraction : List Char) (exponent : Int) : Bool :=
  let (leading, skipped) := readInteger integer 0
  let (significand, places) := readFraction fraction leading
  overflows significand (exponent + skipped - places)

/-! ## Literals -/

/-- The exponent of a literal from what follows its digits: nothing, or a mark, sign and digits. -/
def readExponent : List Char → Option Int
  | [] => some 0
  | mark :: rest =>
    if mark = 'e' ∨ mark = 'E' then
      match rest with
      | '-' :: ds =>
        if ds ≠ [] ∧ ds.all Char.isDigit then some (-(Nat.ofDigitChars 10 ds 0 : Int)) else none
      | '+' :: ds => if ds ≠ [] ∧ ds.all Char.isDigit then some (Nat.ofDigitChars 10 ds 0) else none
      | ds => if ds ≠ [] ∧ ds.all Char.isDigit then some (Nat.ofDigitChars 10 ds 0) else none
    else none

/-- A finite number that is not natural, or nothing if it is too large. -/
def sized (huge : Bool) : Json := if huge then .invalid else .real

/-- The value of a literal without its sign, `none` if it is not well-formed. -/
def ofUnsigned (cs : List Char) : Option Json :=
  let integer := cs.takeWhile Char.isDigit
  if integer = [] ∨ (integer.head? = some '0' ∧ integer ≠ ['0']) then none
  else
    match cs.dropWhile Char.isDigit with
    | [] =>
      let n := Nat.ofDigitChars 10 integer 0
      some (if n < wordBound then .nat n else sized (isHuge integer [] 0))
    | '.' :: rest =>
      let fraction := rest.takeWhile Char.isDigit
      if fraction = [] then none
      else
        (readExponent (rest.dropWhile Char.isDigit)).map fun e => sized (isHuge integer fraction e)
    | rest => (readExponent rest).map fun e => sized (isHuge integer [] e)

/-- The value of a number literal, `none` if it is not well-formed.  No negative number is natural,
`-0` included. -/
def ofLiteral : List Char → Option Json
  | '-' :: cs =>
    (ofUnsigned cs).map fun j =>
      match j with
      | .nat _ => .real
      | other => other
  | cs => ofUnsigned cs

end Number

end Json

end UnitCheck
