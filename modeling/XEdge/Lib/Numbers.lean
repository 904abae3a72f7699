import XEdge.Lib.Floats

/-!
# Python's numbers

An `int` has any size and a `float` is a binary64 number.  An operation on two integers is exact;
when one of its operands is a `float`, the other is made one first, and that raises an
`OverflowError` for an integer beyond the range.
-/

namespace XEdge.Lib

namespace Binary64

/-- `x + y`. -/
def add : Binary64 → Binary64 → Binary64
  | finite x, finite y => ofRat (x + y)
  | finite _, infinity negative => infinity negative
  | infinity negative, finite _ => infinity negative
  | infinity negative, infinity negative' =>
      if negative = negative' then infinity negative else nan
  | nan, _ | _, nan => nan

/-- `x * y`. -/
def mul : Binary64 → Binary64 → Binary64
  | finite x, finite y => ofRat (x * y)
  | finite x, infinity negative => if x = 0 then nan else infinity (negative != decide (x < 0))
  | infinity negative, finite y => if y = 0 then nan else infinity (negative != decide (y < 0))
  | infinity negative, infinity negative' => infinity (negative != negative')
  | nan, _ | _, nan => nan

def rat? : Binary64 → Option ℚ
  | finite x => some x
  | infinity _ | nan => none

end Binary64

/-- An `int` or a `float`. -/
inductive Number where
  | int (i : Int)
  | float (x : Binary64)
  deriving DecidableEq

namespace Number

def rat? : Number → Option ℚ
  | int i => some i
  | float x => x.rat?

/-- `float(n)`; `none` is an `OverflowError`. -/
def toFloat : Number → Option Binary64
  | int i => if |(i : ℚ)| < Binary64.OVERFLOW then some (.ofRat i) else none
  | float x => some x

def arith (onInts : Int → Int → Int) (onFloats : Binary64 → Binary64 → Binary64) :
    Number → Number → Option Number
  | int i, int j => some (int (onInts i j))
  | a, b => a.toFloat.bind fun x => b.toFloat.map fun y => float (onFloats x y)

/-- `a * b`. -/
def mul : Number → Number → Option Number := arith (· * ·) Binary64.mul

/-- `a + b`. -/
def add : Number → Number → Option Number := arith (· + ·) Binary64.add

def Clash : Number → Number → Prop
  | int i, float _ => Binary64.OVERFLOW ≤ |(i : ℚ)|
  | float _, int i => Binary64.OVERFLOW ≤ |(i : ℚ)|
  | int _, int _ => False
  | float _, float _ => False

theorem toFloat_int_eq_none_iff {i : Int} :
    (int i).toFloat = none ↔ Binary64.OVERFLOW ≤ |(i : ℚ)| := by
  rw [toFloat]
  split
  · next h => simpa using h
  · next h => simpa using h

variable {a b : Number}

theorem arith_eq_none_iff {onInts : Int → Int → Int} {onFloats : Binary64 → Binary64 → Binary64} :
    arith onInts onFloats a b = none ↔ a.Clash b := by
  cases a with
  | int i =>
    cases b with
    | int j => simp [arith, Clash]
    | float y =>
      rw [Clash, ← toFloat_int_eq_none_iff]
      show ((int i).toFloat.bind fun x => some (float (onFloats x y))) = none ↔ _
      cases (int i).toFloat <;> simp
  | float x =>
    cases b with
    | int j =>
      rw [Clash, ← toFloat_int_eq_none_iff]
      exact Option.map_eq_none_iff
    | float y => simp [arith, Clash, toFloat]

theorem mul_eq_none_iff : a.mul b = none ↔ a.Clash b := arith_eq_none_iff

theorem add_eq_none_iff : a.add b = none ↔ a.Clash b := arith_eq_none_iff

end Number

end XEdge.Lib
