import SpaceLink.Bytes
import SpaceLink.BitField

/-!
# The frame header error control field

An AOS frame may protect its identifiers and signalling field by a Reed-Solomon code of ten
symbols, six of them information, over the field of sixteen elements (`Nibble`, with x^4 + x + 1).
The generator of the code has the roots a^6, a^7, a^8 and a^9, where a is the element x; it is
x^4 + a^3 x^3 + a x^2 + a^3 x + 1. The check is the remainder of the information polynomial,
shifted by four symbols, on division by the generator. The frame count is not protected.

The check is also computed with tables and a shift register (`fhecByTables?`), which is the same.
-/

namespace SpaceLink

/-- An element of the field of sixteen elements; bit `i` is the coefficient of x^i. -/
abbrev Nibble := BitVec 4

namespace Nibble

def double (a : Nibble) : Nibble :=
  let shifted := a <<< 1
  if a.msb then shifted ^^^ 0b0011#4 else shifted

/-- The product in the field. -/
def mul (a b : Nibble) : Nibble :=
  [3, 2, 1, 0].foldl (fun acc i => double acc ^^^ (if b.getLsbD i then a else 0#4)) 0#4

/-- The two halves of a byte, the high one first. -/
def ofByte (b : UInt8) : List Nibble :=
  [BitVec.ofNat 4 (bits b.toNat 4 4), BitVec.ofNat 4 (bits b.toNat 0 4)]

def toByte (high low : Nibble) : UInt8 := (pack [(4, high.toNat), (4, low.toNat)]).toUInt8

end Nibble

/-- A remainder of the division by the generator, highest coefficient first. -/
structure Remainder where
  c3 : Nibble
  c2 : Nibble
  c1 : Nibble
  c0 : Nibble
deriving DecidableEq, Repr

namespace Remainder

def zero : Remainder := ⟨0#4, 0#4, 0#4, 0#4⟩

/-- Takes one more information symbol into the division. -/
def step (r : Remainder) (symbol : Nibble) : Remainder :=
  let feedback := symbol ^^^ r.c3
  { c3 := r.c2 ^^^ Nibble.mul feedback 8#4
    c2 := r.c1 ^^^ Nibble.mul feedback 2#4
    c1 := r.c0 ^^^ Nibble.mul feedback 8#4
    c0 := Nibble.mul feedback 1#4 }

def toBytes (r : Remainder) : Bytes := [Nibble.toByte r.c3 r.c2, Nibble.toByte r.c1 r.c0]

end Remainder

def fhecLength : Nat := 2

/-- The six protected symbols of a header: those of its bytes 0, 1 and 5. -/
def protectedSymbols? : Bytes → Option (List Nibble)
  | b0 :: b1 :: _ :: _ :: _ :: b5 :: _ => some ([b0, b1, b5].flatMap Nibble.ofByte)
  | _ => none

/-- The check of a header, or `none` if it is shorter than the six bytes of a primary header. -/
def fhec? (header : Bytes) : Option Bytes :=
  (protectedSymbols? header).map fun symbols => (symbols.foldl Remainder.step .zero).toBytes

/-- Compares the check of a header with a received one. A received check of the wrong length is
refused before the header is looked at, so only then may the header be too short. -/
def fhecValid? (header check : Bytes) : Option Bool :=
  if check.length = fhecLength then (fhec? header).map (· == check) else some false

def fhecValid (header check : Bytes) : Bool := (fhecValid? header check).getD false

/-! ## With tables -/

namespace Nibble

/-- The powers of the element x, which are all elements but zero. -/
def exp : List Nibble := [1, 2, 4, 8, 3, 6, 12, 11, 5, 10, 7, 14, 15, 13, 9]

/-- Which power an element is; zero is none. -/
def log : List Nat := [0, 0, 1, 4, 2, 8, 5, 10, 3, 14, 9, 7, 6, 13, 11, 12]

/-- The product in the field, looked up. -/
def mulByTables (a b : Nibble) : Nibble :=
  if a = 0 ∨ b = 0 then 0
  else exp.getD ((log.getD a.toNat 0 + log.getD b.toNat 0) % 15) 0

end Nibble

/-- The coefficients of the generator below the leading one, highest first. -/
def fhecGenerator : List Nibble := [8#4, 2#4, 8#4, 1#4]

/-- Takes one more symbol into a register of the coefficients, highest first. -/
def shiftIn (register : List Nibble) (symbol : Nibble) : List Nibble :=
  let feedback := symbol ^^^ register.headD 0#4
  (register.tail ++ [0#4]).zipWith (fun c g => c ^^^ Nibble.mulByTables feedback g) fhecGenerator

def fhecByTables? (header : Bytes) : Option Bytes := do
  match (← protectedSymbols? header).foldl shiftIn [0#4, 0#4, 0#4, 0#4] with
  | [c3, c2, c1, c0] => return [Nibble.toByte c3 c2, Nibble.toByte c1 c0]
  | _ => none

end SpaceLink
