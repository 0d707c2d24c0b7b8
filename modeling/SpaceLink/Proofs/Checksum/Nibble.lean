import Mathlib.Algebra.Ring.Basic
import SpaceLink.Checksum.HeaderCheck

/-!
# The field of sixteen elements

Doubling is linear, and `Nibble.mul` is made of doublings and additions. So whatever is linear and
commutes with doubling commutes with multiplication (`Nibble.map_mul`), in particular multiplication
by another factor. Bit vectors already have the operations of numbers modulo 16; a `Symbol` is a
nibble with those of the field.

The tables of powers and logarithms give the same products, so that the check that is computed with
them is the same (`fhecByTables?_eq`).
-/

namespace SpaceLink

namespace Nibble

variable (a b c : Nibble)

theorem double_xor : ∀ a b : Nibble, double (a ^^^ b) = double a ^^^ double b := by
  decide

theorem mul_comm : ∀ a b : Nibble, mul a b = mul b a := by
  decide

theorem mul_double : ∀ a b : Nibble, mul a (double b) = double (mul a b) := by
  decide

theorem one_mul : ∀ a : Nibble, mul 1#4 a = a := by
  decide

theorem eq_zero_or_eq_zero : ∀ a b : Nibble, mul a b = 0#4 → a = 0#4 ∨ b = 0#4 := by
  decide

/-- What is linear and commutes with doubling commutes with multiplication. -/
theorem map_mul {g : Nibble → Nibble} (hzero : g 0#4 = 0#4)
    (hxor : ∀ a b, g (a ^^^ b) = g a ^^^ g b) (hdouble : ∀ a, g (double a) = double (g a)) :
    g (mul a b) = mul (g a) b := by
  have hrun (positions : List Nat) (acc : Nibble) :
      g (positions.foldl (fun acc i => double acc ^^^ if b.getLsbD i then a else 0#4) acc) =
        positions.foldl (fun acc i => double acc ^^^ if b.getLsbD i then g a else 0#4) (g acc) := by
    induction positions generalizing acc with
    | nil => rfl
    | cons i positions ih =>
      rw [List.foldl_cons, List.foldl_cons, ih, hxor, hdouble, apply_ite g, hzero]
  rw [mul, hrun, hzero, mul]

theorem xor_mul : mul (a ^^^ b) c = mul a c ^^^ mul b c := by
  have hrun (positions : List Nat) (x y : Nibble) :
      positions.foldl (fun acc i => double acc ^^^ if c.getLsbD i then a ^^^ b else 0#4) (x ^^^ y) =
        positions.foldl (fun acc i => double acc ^^^ if c.getLsbD i then a else 0#4) x ^^^
          positions.foldl (fun acc i => double acc ^^^ if c.getLsbD i then b else 0#4) y := by
    induction positions generalizing x y with
    | nil => rfl
    | cons i positions ih =>
      rw [List.foldl_cons, List.foldl_cons, List.foldl_cons, ← ih, double_xor]
      congr 1
      split
      · ac_rfl
      · rw [BitVec.xor_zero, BitVec.xor_zero, BitVec.xor_zero]
  exact hrun [3, 2, 1, 0] 0#4 0#4

theorem mul_xor : mul a (b ^^^ c) = mul a b ^^^ mul a c := by
  rw [mul_comm, xor_mul, mul_comm b, mul_comm c]

theorem zero_mul : mul 0#4 a = 0#4 := by
  rw [← BitVec.xor_self (x := a), xor_mul, BitVec.xor_self, BitVec.xor_self]

theorem mul_zero : mul a 0#4 = 0#4 := by
  rw [mul_comm, zero_mul]

theorem mul_assoc : mul (mul a b) c = mul a (mul b c) :=
  (map_mul b c (mul_zero a) (mul_xor a) (mul_double a)).symm

/-- The tables have the products of the field. -/
theorem mulByTables_eq : ∀ a b : Nibble, mulByTables a b = mul a b := by
  decide

end Nibble

/-! ## The check with tables -/

namespace Remainder

/-- The coefficients, highest first. -/
def toList (r : Remainder) : List Nibble := [r.c3, r.c2, r.c1, r.c0]

/-- The register holds the remainder. -/
theorem shiftIn_toList (r : Remainder) (symbol : Nibble) :
    shiftIn r.toList symbol = (r.step symbol).toList := by
  simp only [shiftIn, toList, step, fhecGenerator, Nibble.mulByTables_eq, List.headD_cons,
    List.tail_cons, List.cons_append, List.nil_append, List.zipWith_cons_cons, List.zipWith_nil_left,
    BitVec.zero_xor]

theorem foldl_shiftIn (r : Remainder) (symbols : List Nibble) :
    symbols.foldl shiftIn r.toList = (symbols.foldl step r).toList := by
  induction symbols generalizing r with
  | nil => rfl
  | cons symbol symbols ih => rw [List.foldl_cons, shiftIn_toList, ih, List.foldl_cons]

end Remainder

/-- The check with tables is the check. -/
theorem fhecByTables?_eq (header : Bytes) : fhecByTables? header = fhec? header := by
  rw [fhecByTables?, fhec?]
  cases protectedSymbols? header with
  | none => rfl
  | some symbols =>
    simp only [Option.bind_eq_bind, Option.bind_some, Option.map_some]
    rw [show [0#4, 0#4, 0#4, 0#4] = Remainder.zero.toList from rfl, Remainder.foldl_shiftIn]
    rfl

/-- A nibble with the arithmetic of the field. -/
@[ext] structure Symbol where
  nibble : Nibble
deriving DecidableEq

namespace Symbol

instance : Zero Symbol := ⟨⟨0#4⟩⟩
instance : One Symbol := ⟨⟨1#4⟩⟩
instance : Add Symbol := ⟨fun a b => ⟨a.nibble ^^^ b.nibble⟩⟩
instance : Neg Symbol := ⟨id⟩
instance : Mul Symbol := ⟨fun a b => ⟨Nibble.mul a.nibble b.nibble⟩⟩

instance : CommRing Symbol where
  add_assoc a b c := congrArg mk (BitVec.xor_assoc a.nibble b.nibble c.nibble)
  zero_add a := congrArg mk (BitVec.zero_xor (x := a.nibble))
  add_zero a := congrArg mk (BitVec.xor_zero (x := a.nibble))
  add_comm a b := congrArg mk (BitVec.xor_comm a.nibble b.nibble)
  neg_add_cancel a := congrArg mk (BitVec.xor_self (x := a.nibble))
  mul_assoc a b c := congrArg mk (Nibble.mul_assoc a.nibble b.nibble c.nibble)
  one_mul a := congrArg mk (Nibble.one_mul a.nibble)
  mul_one a := congrArg mk ((Nibble.mul_comm _ _).trans (Nibble.one_mul a.nibble))
  left_distrib a b c := congrArg mk (Nibble.mul_xor a.nibble b.nibble c.nibble)
  right_distrib a b c := congrArg mk (Nibble.xor_mul a.nibble b.nibble c.nibble)
  zero_mul a := congrArg mk (Nibble.zero_mul a.nibble)
  mul_zero a := congrArg mk (Nibble.mul_zero a.nibble)
  mul_comm a b := congrArg mk (Nibble.mul_comm a.nibble b.nibble)
  nsmul := nsmulRec
  zsmul := zsmulRec

@[simp] theorem mk_zero : mk 0#4 = 0 := rfl

@[simp] theorem mk_one : mk 1#4 = 1 := rfl

@[simp] theorem mk_xor (a b : Nibble) : mk (a ^^^ b) = mk a + mk b := rfl

@[simp] theorem mk_mul (a b : Nibble) : mk (Nibble.mul a b) = mk a * mk b := rfl

theorem add_self (a : Symbol) : a + a = 0 := neg_add_cancel a

instance : Nontrivial Symbol := ⟨0, 1, by decide⟩

instance : NoZeroDivisors Symbol where
  eq_zero_or_eq_zero_of_mul_eq_zero {a b} h := by
    obtain ha | hb := Nibble.eq_zero_or_eq_zero a.nibble b.nibble (congrArg nibble h)
    · exact .inl (Symbol.ext ha)
    · exact .inr (Symbol.ext hb)

instance : IsDomain Symbol := NoZeroDivisors.to_isDomain Symbol

end Symbol

end SpaceLink
