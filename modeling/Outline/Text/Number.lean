/-
Module: Outline.Text.Number
Purpose: Reading a 64-bit unsigned count and a boolean from text, with the reason a text is
  refused.
Main exports: wordMax, NumberError, readWord, readBool, boolRefusal
Open obligations: none
-/

namespace Outline

namespace Text

/-- The largest 64-bit unsigned value. -/
def wordMax : Nat := Nat.pow 2 64 - 1

/-- Why a text is no 64-bit unsigned number. -/
inductive NumberError where
  /-- The text is empty. -/
  | empty
  /-- A character is not a decimal digit (a sign alone counts as one). -/
  | invalidDigit
  /-- The value exceeds the 64-bit range. -/
  | tooLarge
deriving DecidableEq, Repr

/-- The message for a refused number. -/
def NumberError.message : NumberError → String
  | .empty => "cannot parse integer from empty string"
  | .invalidDigit => "invalid digit found in string"
  | .tooLarge => "number too large to fit in target type"

/-- The value of the digits read so far, `acc`, extended by the rest. The digits are read from
    the left; the first character that is no digit, or the first digit that takes the value past
    the range, decides the refusal. -/
def digitsFrom (acc : Nat) : List Char → Except NumberError Nat
  | [] => .ok acc
  | c :: cs =>
    if c.isDigit then
      let v := acc * 10 + (c.toNat - '0'.toNat)
      if v > wordMax then .error .tooLarge else digitsFrom v cs
    else .error .invalidDigit

/-- A decimal 64-bit unsigned number with an optional leading `+`. -/
def readWord (cs : List Char) : Except NumberError Nat :=
  match cs with
  | [] => .error .empty
  | ['+'] => .error .invalidDigit
  | ['-'] => .error .invalidDigit
  | '+' :: rest => digitsFrom 0 rest
  | rest => digitsFrom 0 rest

/-- The refusal of a text that is no boolean. -/
def boolRefusal : String := "provided string was not `true` or `false`"

/-- A boolean: exactly `true` or `false`. -/
def readBool (s : String) : Option Bool :=
  if s = "true" then some true else if s = "false" then some false else none

example : readWord "+18446744073709551615".toList = .ok wordMax := rfl
example : readWord "18446744073709551616".toList = .error .tooLarge := rfl

end Text

end Outline
