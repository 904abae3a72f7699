import Mathlib.Data.Int.Log
import Mathlib.Data.Rat.Floor
import Mathlib.Tactic.Linarith
import Mathlib.Tactic.FieldSimp
import Mathlib.Tactic.Ring

/-!
# Floating-point arithmetic, and exact arithmetic in its place

A program that computes with floating-point numbers is modelled over any type `φ` of numbers with
the operations it uses.  A result about the program in exact arithmetic is one about the rational
numbers in the place of `φ`; a result about what the program raises is one about the binary64
numbers of IEEE 754 with their infinities and their not-a-number.
-/

namespace XEdge.Lib

inductive ArithError where
  /-- `OverflowError`. -/
  | overflow
  /-- `ZeroDivisionError`. -/
  | zeroDivision
  /-- `ValueError`. -/
  | value
  deriving DecidableEq, Repr

structure FloatBytes (φ : Type) where
  /-- The bytes in single precision. -/
  bytes32 : φ → List UInt8
  /-- The bytes in double precision. -/
  bytes64 : φ → List UInt8
  length32 : ∀ x, (bytes32 x).length = 4
  length64 : ∀ x, (bytes64 x).length = 8
  /-- The number that four bytes are in single precision. -/
  ofBytes32 : List UInt8 → φ
  /-- The number that eight bytes are in double precision. -/
  ofBytes64 : List UInt8 → φ

structure FloatOps (φ : Type) extends FloatBytes φ where
  /-- `0.0`. -/
  zero : φ
  /-- `1.0`. -/
  one : φ
  /-- `float(i)`. -/
  ofInt : Int → Except ArithError φ
  sub : φ → φ → φ
  div : φ → φ → Except ArithError φ
  /-- `round(x)`. -/
  round : φ → Except ArithError Int
  /-- `int(x)`. -/
  trunc : φ → Except ArithError Int
  /-- The number is beyond single precision. -/
  overflows32 : φ → Bool
  /-- `bool(x)`. -/
  truthy : φ → Bool

/-! ## Rounding to an integer -/

def roundHalfEven (x : ℚ) : Int :=
  let n := ⌊x⌋
  if x - n < 1 / 2 then n
  else if 1 / 2 < x - n then n + 1
  else if n % 2 = 0 then n
  else n + 1

theorem abs_roundHalfEven_sub_le (x : ℚ) : |(roundHalfEven x : ℚ) - x| ≤ 1 / 2 := by
  have hle : (⌊x⌋ : ℚ) ≤ x := Int.floor_le x
  have hlt : x < ⌊x⌋ + 1 := Int.lt_floor_add_one x
  rw [roundHalfEven]
  split
  · rw [abs_le]
    constructor <;> linarith
  · split
    · push_cast
      rw [abs_le]
      constructor <;> linarith
    · split
      · rw [abs_le]
        constructor <;> linarith
      · push_cast
        rw [abs_le]
        constructor <;> linarith

def truncate (x : ℚ) : Int := if 0 ≤ x then ⌊x⌋ else ⌈x⌉

/-! ## Exact arithmetic -/

def FloatOps.exact (bytes : FloatBytes ℚ) : FloatOps ℚ where
  toFloatBytes := bytes
  zero := 0
  one := 1
  ofInt i := .ok i
  sub x y := x - y
  div x y := if y = 0 then .error .zeroDivision else .ok (x / y)
  round x := .ok (roundHalfEven x)
  trunc x := .ok (truncate x)
  overflows32 _ := false
  truthy x := x ≠ 0

/-! ## Binary64 -/

inductive Binary64 where
  | finite (x : ℚ)
  | infinity (negative : Bool)
  | nan
  deriving DecidableEq

namespace Binary64

/-- Half a unit beyond the largest finite number: from here on, a number is rounded to an
infinity. -/
def OVERFLOW : ℚ := 2 ^ 1024 - 2 ^ 970

def OVERFLOW32 : ℚ := 2 ^ 128 - 2 ^ 103

/-- The exponent of the unit that a number other than zero is rounded to: 53 binary digits, and no
fewer than the least exponent allows. -/
def unitExponent (x : ℚ) : Int := max (Int.log 2 |x| - 52) (-1074)

/-- The number nearest to `x`. -/
def ofRat (x : ℚ) : Binary64 :=
  if x = 0 then finite 0
  else if |x| < OVERFLOW then
    finite (roundHalfEven (x / 2 ^ unitExponent x) * 2 ^ unitExponent x)
  else infinity (x < 0)

/-- `x - y`. -/
def sub : Binary64 → Binary64 → Binary64
  | finite x, finite y => ofRat (x - y)
  | finite _, infinity negative => infinity (!negative)
  | infinity negative, finite _ => infinity negative
  | infinity negative, infinity negative' =>
      if negative = negative' then nan else infinity negative
  | nan, _ | _, nan => nan

def quot : Binary64 → Binary64 → Binary64
  | finite x, finite y => ofRat (x / y)
  | infinity negative, finite y => infinity (negative != decide (y < 0))
  | finite _, infinity _ => finite 0
  | _, _ => nan

/-- `x / y`. -/
def div (x y : Binary64) : Except ArithError Binary64 :=
  if y = finite 0 then .error .zeroDivision else .ok (quot x y)

/-- `round(x)` and `int(x)`, with the way a finite number becomes an integer. -/
def toInt (f : ℚ → Int) : Binary64 → Except ArithError Int
  | finite x => .ok (f x)
  | infinity _ => .error .overflow
  | nan => .error .value

def overflows32 : Binary64 → Bool
  | finite x => OVERFLOW32 ≤ |x|
  | _ => false

end Binary64

def FloatOps.binary64 (bytes : FloatBytes Binary64) : FloatOps Binary64 where
  toFloatBytes := bytes
  zero := .finite 0
  one := .finite 1
  ofInt i :=
    match Binary64.ofRat i with
    | .finite x => .ok (.finite x)
    | _ => .error .overflow
  sub := Binary64.sub
  div := Binary64.div
  round := Binary64.toInt roundHalfEven
  trunc := Binary64.toInt truncate
  overflows32 := Binary64.overflows32
  truthy x := x ≠ .finite 0

namespace Binary64

theorem ofRat_intCast_ne_zero {i : Int} (h : i ≠ 0) : ofRat i ≠ finite 0 := by
  have hne : (i : ℚ) ≠ 0 := Int.cast_ne_zero.2 h
  have hone : (1 : ℚ) ≤ |(i : ℚ)| := by
    exact_mod_cast Int.one_le_abs h
  have hpos : (0 : ℚ) < |(i : ℚ)| := by linarith
  rw [ofRat, if_neg hne]
  split
  · have hlog : 0 ≤ Int.log 2 |(i : ℚ)| := by
      rw [Int.log_of_one_le_right 2 hone]
      exact Int.natCast_nonneg _
    have hunit : unitExponent i = Int.log 2 |(i : ℚ)| - 52 := max_eq_left (by omega)
    have hscale : (1 : ℚ) ≤ |(i : ℚ) / 2 ^ unitExponent i| := by
      have hpow : (2 : ℚ) ^ Int.log 2 |(i : ℚ)| ≤ |(i : ℚ)| :=
        Int.zpow_log_le_self (by decide) hpos
      have hmono : (2 : ℚ) ^ unitExponent i ≤ 2 ^ Int.log 2 |(i : ℚ)| :=
        zpow_le_zpow_right₀ (by norm_num) (by omega)
      have hunitpos : (0 : ℚ) < 2 ^ unitExponent i := zpow_pos (by norm_num) _
      rw [abs_div, abs_of_pos hunitpos, le_div_iff₀ hunitpos, one_mul]
      exact hmono.trans hpow
    intro heq
    injection heq with hzero
    have hround : (roundHalfEven ((i : ℚ) / 2 ^ unitExponent i) : ℚ) = 0 := by
      rcases mul_eq_zero.1 hzero with h0 | h0
      · exact h0
      · exact absurd h0 (zpow_ne_zero _ (by norm_num))
    have hclose := abs_roundHalfEven_sub_le ((i : ℚ) / 2 ^ unitExponent i)
    rw [hround, zero_sub, abs_neg] at hclose
    linarith
  · exact Binary64.noConfusion

theorem ofInt_eq (bytes : FloatBytes Binary64) (i : Int) :
    (FloatOps.binary64 bytes).ofInt i =
      if |(i : ℚ)| < OVERFLOW then .ok (ofRat i) else .error .overflow := by
  show (match ofRat i with
    | finite x => Except.ok (finite x)
    | _ => Except.error ArithError.overflow) = _
  by_cases hzero : (i : ℚ) = 0
  · have hpos : (0 : ℚ) < OVERFLOW :=
      sub_pos.2 (pow_lt_pow_right₀ (by norm_num) (by norm_num))
    have hrat : ofRat i = finite 0 := if_pos hzero
    rw [hrat, hzero, abs_zero, if_pos hpos]
  · by_cases hrange : |(i : ℚ)| < OVERFLOW
    · rw [ofRat, if_neg hzero, if_pos hrange, if_pos hrange]
    · rw [ofRat, if_neg hzero, if_neg hrange, if_neg hrange]

theorem overflow_le_pow : OVERFLOW ≤ 10 ^ 309 := by
  have hnat : (2 ^ 1024 : ℕ) ≤ 10 ^ 309 := by decide +kernel
  have hrat : (2 : ℚ) ^ 1024 ≤ 10 ^ 309 := by exact_mod_cast hnat
  have hpos : (0 : ℚ) ≤ 2 ^ 970 := by positivity
  exact (sub_le_self _ hpos).trans hrat

end Binary64

end XEdge.Lib
