import Mathlib.Algebra.Group.Int.Defs
import Mathlib.Algebra.Group.Nat.Defs
import Mathlib.Data.Rat.Defs
import Mathlib.Logic.Function.Iterate
/-!
# Elementary functions on rationals

Sine, cosine, tangent and their inverses to about nine decimals, computed with
integers scaled by `10 ^ 15`. They let a program over an ordered field be run
on `ℚ`, in the kernel too.
-/

namespace Elementary

/-- The scale of the fixed-point numbers. -/
def one : ℤ := 10 ^ 15

def ofRat (x : ℚ) : ℤ := x.num * one / x.den

def toRat (n : ℤ) : ℚ := mkRat n (10 ^ 15)

def mul (a b : ℤ) : ℤ := a * b / one

def div (a b : ℤ) : ℤ := a * one / b

def pi : ℤ := 3141592653589793

/-- Sine and cosine of a small angle, by their series. -/
def sinCosSmall (y : ℤ) : ℤ × ℤ :=
  let y2 := mul y y
  (y - mul y2 y / 6, one - y2 / 2 + mul y2 y2 / 24)

/-- Sine and cosine of the doubled angle. -/
def double (p : ℤ × ℤ) : ℤ × ℤ := (2 * mul p.1 p.2, mul p.2 p.2 - mul p.1 p.1)

/-- Sine and cosine: halve the angle ten times, then double back. -/
def sinCos (x : ℤ) : ℤ × ℤ := double^[10] (sinCosSmall (x / 1024))

/-- Newton's square root of a non-negative number. -/
def sqrt (x : ℤ) : ℤ :=
  let n := (x * one).toNat
  (fun r => (r + n / r) / 2)^[8] (2 ^ (n.log2 / 2 + 1))

/-- The tangent of half the angle whose tangent is `t`. -/
def halfTan (t : ℤ) : ℤ := div t (one + sqrt (one + mul t t))

/-- Inverse tangent: halve the angle four times, then the series. -/
def atan (t : ℤ) : ℤ :=
  let h := halfTan^[4] t
  let h2 := mul h h
  16 * mul h (one - mul h2 (one / 3 - mul h2 (one / 5 - h2 / 7)))

def atan2 (y x : ℤ) : ℤ :=
  if 0 < x then atan (div y x)
  else if x < 0 then
    if 0 ≤ y then atan (div y x) + pi else atan (div y x) - pi
  else if 0 < y then pi / 2 else if y < 0 then -pi / 2 else 0

def asin (x : ℤ) : ℤ := atan2 x (sqrt (one - mul x x))

end Elementary
