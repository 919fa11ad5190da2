import CapFixture.Text.GraphemeExtend
import CapFixture.Text.Unprintable

/-!
# Escapes for debugging

In a text for debugging the quotes, the backslash and some controls are escapes of one letter. What
would not show by itself is an escape with its code point.

## Main definitions

- `isHidden` — characters that do not show by themselves
- `escapeDebug` — a character as it is written for debugging
-/

namespace CapFixture.Text

/-- Whether a character extends the one before it or does not print. -/
def isHidden (c : Char) : Bool := isGraphemeExtend c || isUnprintable c

/-- The code point in hexadecimal, between braces. -/
def codeEscape (c : Char) : List Char :=
  ['\\', 'u', '\x7b'] ++ Nat.toDigits 16 c.toNat ++ ['\x7d']

/-- A character as it is written for debugging, where `hidden` tells which ones do not show. -/
def escapeDebug (hidden : Char → Bool) (c : Char) : List Char :=
  match c with
  | '\x00' => ['\\', '0']
  | '\t' => ['\\', 't']
  | '\r' => ['\\', 'r']
  | '\n' => ['\\', 'n']
  | '\'' => ['\\', '\'']
  | '"' => ['\\', '"']
  | '\\' => ['\\', '\\']
  | c => if hidden c then codeEscape c else [c]

end CapFixture.Text
