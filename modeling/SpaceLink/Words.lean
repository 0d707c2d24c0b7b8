import SpaceLink.Bytes
import SpaceLink.Error

/-!
# Lengths as machine words

Lengths and offsets are held in words of 64 bits. What becomes of a sum or a difference that is out
of their range depends on how the program is built (`Arithmetic`). A `Program` gives a result or an
error unless it stops, as it also does where it would read or write beyond the end of a byte string.
A `Change` does so in place.
-/

namespace SpaceLink

/-- The number of values of a word, `2 ^ 64`. -/
def wordSize : Nat := 18446744073709551616

/-- No byte string is longer: `2 ^ 63 - 1`. -/
def maxBytes : Nat := 9223372036854775807

/-- What becomes of values that are no words. -/
inductive Arithmetic
  /-- The program stops. -/
  | checked
  /-- They are reduced modulo `wordSize`. -/
  | wrapping
deriving DecidableEq, Repr

namespace Arithmetic

def reduce (a : Arithmetic) (n : Nat) : Option Nat :=
  if n < wordSize then some n
  else match a with
    | checked => none
    | wrapping => some (n % wordSize)

def add (a : Arithmetic) (m n : Nat) : Option Nat := a.reduce (m + n)

def mul (a : Arithmetic) (m n : Nat) : Option Nat := a.reduce (m * n)

/-- The difference of two words. -/
def sub (a : Arithmetic) (m n : Nat) : Option Nat :=
  if n ≤ m then some (m - n)
  else match a with
    | checked => none
    | wrapping => some (m + wordSize - n)

end Arithmetic

/-- Gives a result or an error, unless it stops. -/
abbrev Program := ExceptT Error Option

/-- Changes something in place. What has been changed before an error stays changed. -/
abbrev Change (S : Type) := ExceptT Error (StateT S Option)

namespace Change

variable {S T α : Type}

/-- Makes the change: the result or error, and what is left. -/
def on (c : Change S α) (s : S) : Option (Except Error α × S) := c.run.run s

/-- Makes a change that cannot fail after a check, and has no answer. -/
def guarded (check : Except Error Unit) (change : S → S) : Change S (Option α) := do
  check
  modify change
  return none

/-- Changes a part of something larger. -/
def within (part : T → S) (replace : T → S → T) (c : Change S α) : Change T α :=
  ExceptT.mk fun t => do
    let (r, s) ← c.on (part t)
    return (r, replace t s)

end Change

end SpaceLink
