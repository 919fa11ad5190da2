/-!
# Numbers

Integers are decimal, or hexadecimal, octal or binary after `0x`, `0o` or `0b`. Underscores may
stand between and after their digits. Other numbers have a point or an exponent.

## Main definitions

- `integer` — reads an integer without a sign, up to a bound
- `skipNumber` — reads any number and forgets it
-/

namespace CapFixture.Record

/-- The value of a hexadecimal digit. -/
def digitValue? (c : Char) : Option Nat :=
  if '0' ≤ c ∧ c ≤ '9' then some (c.toNat - '0'.toNat)
  else if 'a' ≤ c ∧ c ≤ 'f' then some (c.toNat - 'a'.toNat + 10)
  else if 'A' ≤ c ∧ c ≤ 'F' then some (c.toNat - 'A'.toNat + 10)
  else none

/-- What the digits of an integer are taken from, in every base. -/
def isIntegerChar (c : Char) : Bool := (digitValue? c).isSome || c == '_'

/-- What a number with a point or an exponent is taken from. -/
def isDecimalChar (c : Char) : Bool :=
  c.isDigit || c == 'e' || c == 'E' || c == '.' || c == '+' || c == '-' || c == '_'

/-- The base that an integer is written in, and its text from the first digit on. -/
def baseOf : List Char → Nat × List Char
  | '0' :: 'x' :: cs => (16, cs)
  | '0' :: 'b' :: cs => (2, cs)
  | '0' :: 'o' :: cs => (8, cs)
  | cs => (10, cs)

/-- The number so far with one more digit. -/
def addDigit (base : Nat) (sum : Nat) (c : Char) : Option Nat :=
  if c = '_' then some sum
  else
    match digitValue? c with
    | some digit => if digit < base then some (sum * base + digit) else none
    | none => none

/-- The value of the digits. -/
def valueOf? (base : Nat) : List Char → Option Nat
  | [] => none
  | c :: cs => if c = '_' then none else (c :: cs).foldlM (addDigit base) 0

/-- Reads an integer without a sign that is at most `bound`. -/
def integer (bound : Nat) (cs : List Char) : Option (Nat × List Char) :=
  let (base, cs) := baseOf cs
  match valueOf? base (cs.takeWhile isIntegerChar) with
  | some n => if n ≤ bound then some (n, cs.dropWhile isIntegerChar) else none
  | none => none

/-- The largest number that a field can hold. -/
def maxNumber : Nat := UInt64.size - 1

/-- Reads an integer that a field can hold. -/
def number (cs : List Char) : Option (Nat × List Char) := integer maxNumber cs

def dropSign : List Char → List Char
  | '+' :: cs => cs
  | '-' :: cs => cs
  | cs => cs

/-- Reads an integer with or without a sign and forgets it. A signed one has half the range. -/
def skipInteger (cs : List Char) : Option (List Char) :=
  Prod.snd <$> match cs with
    | '+' :: cs => integer (UInt64.size / 2 - 1) cs
    | '-' :: cs => integer (UInt64.size / 2) cs
    | cs => integer maxNumber cs

/-- Whether the exponent of a decimal number is empty or well-formed. -/
def isExponent : List Char → Bool
  | [] => true
  | c :: cs =>
    let digits := dropSign cs
    (c == 'e' || c == 'E') && !digits.isEmpty && digits.all Char.isDigit

/-- Whether this is a decimal number: a sign, digits with a point among them, and an exponent, of
which only some digits before or after the point are required. -/
def isDecimal (cs : List Char) : Bool :=
  let cs := dropSign cs
  let whole := cs.takeWhile Char.isDigit
  match cs.dropWhile Char.isDigit with
  | '.' :: cs =>
    let fraction := cs.takeWhile Char.isDigit
    !(whole.isEmpty && fraction.isEmpty) && isExponent (cs.dropWhile Char.isDigit)
  | cs => !whole.isEmpty && isExponent cs

/-- Reads a decimal number and forgets it. -/
def skipDecimal (cs : List Char) : Option (List Char) :=
  if isDecimal (cs.takeWhile isDecimalChar) then some (cs.dropWhile isDecimalChar) else none

/-- Reads a number and forgets it. What is no integer may still be a decimal number. -/
def skipNumber (cs : List Char) : Option (List Char) :=
  let digits := dropSign cs
  if (digits.takeWhile isIntegerChar).length < (digits.takeWhile isDecimalChar).length then
    skipDecimal cs
  else (skipInteger cs).or (skipDecimal cs)

end CapFixture.Record
