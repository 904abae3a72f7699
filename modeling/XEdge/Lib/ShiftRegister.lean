import Mathlib.Data.Nat.Bitwise
import Mathlib.Logic.Function.Iterate

/-!
# Shift registers with feedback

A cyclic redundancy check drops the low bit of a register and, if that bit was set, adds a
polynomial to what remains.  On numbers without a bound the same step also moves down whatever
stands above the register, so a register together with everything that is still to be read is one
number, and reading it is a number of shifts.  Nothing here is about a particular polynomial.
-/

namespace XEdge.Lib.ShiftRegister

/-- One step: drop the low bit, and add `p` if it was set. -/
def shift (p s : Nat) : Nat := if s &&& 1 ≠ 0 then (s >>> 1) ^^^ p else s >>> 1

variable {p w : Nat}

theorem shift_eq (p s : Nat) :
    shift p s = if s.testBit 0 then (s >>> 1) ^^^ p else s >>> 1 := by
  have hbit : (s &&& 1 ≠ 0) = (s.testBit 0 = true) := by
    simp [Nat.and_one_is_mod, Nat.testBit_zero]
  simp only [shift, hbit]

theorem shift_xor (p a b : Nat) : shift p (a ^^^ b) = shift p a ^^^ shift p b := by
  simp only [shift_eq, Nat.testBit_xor, Nat.shiftRight_xor_distrib]
  cases a.testBit 0 <;> cases b.testBit 0
  · simp
  · simp [Nat.xor_assoc]
  · simp only [Bool.xor_false, if_true, Bool.false_eq_true, if_false]
    rw [Nat.xor_assoc, Nat.xor_assoc, Nat.xor_comm p]
  · simp only [Bool.xor_self, Bool.false_eq_true, if_false, if_true]
    rw [Nat.xor_comm (b >>> 1) p, Nat.xor_assoc, ← Nat.xor_assoc p p, Nat.xor_self, Nat.zero_xor]

theorem iterate_shift_xor (p n a b : Nat) :
    (shift p)^[n] (a ^^^ b) = (shift p)^[n] a ^^^ (shift p)^[n] b := by
  induction n generalizing a b with
  | zero => rfl
  | succ n ih => rw [Function.iterate_succ_apply, shift_xor, ih]; rfl

theorem shift_two_mul (p a : Nat) : shift p (2 * a) = a := by
  rw [shift_eq, Nat.testBit_zero]
  simp [Nat.shiftRight_one]

theorem iterate_shift_mul (p n a : Nat) : (shift p)^[n] (2 ^ n * a) = a := by
  induction n with
  | zero => simp
  | succ n ih => rw [Function.iterate_succ_apply, pow_succ', mul_assoc, shift_two_mul, ih]

theorem iterate_shift_shiftLeft (p n a : Nat) : (shift p)^[n] (a <<< n) = a := by
  rw [Nat.shiftLeft_eq, Nat.mul_comm, iterate_shift_mul]

variable {s : Nat}

theorem shift_lt (hp : p < 2 ^ w) (hs : s < 2 ^ w) : shift p s < 2 ^ w := by
  have hhalf : s >>> 1 < 2 ^ w := by
    omega
  rw [shift_eq]
  split
  · exact Nat.xor_lt_two_pow hhalf hp
  · exact hhalf

/-- A polynomial of `w + 1` bits whose top bit is set takes only zero to zero: that bit tells
whether the low bit was set. -/
theorem shift_ne_zero (hp : p.testBit w = true) (hs : s < 2 ^ (w + 1)) (h0 : s ≠ 0) :
    shift p s ≠ 0 := by
  rw [shift_eq]
  split
  · intro hzero
    have htop : ((s >>> 1) ^^^ p).testBit w = false := by rw [hzero, Nat.zero_testBit]
    have hhalf : (s >>> 1).testBit w = false := by
      rw [Nat.testBit_shiftRight]
      exact Nat.testBit_lt_two_pow (by rwa [Nat.add_comm])
    rw [Nat.testBit_xor, hhalf, hp] at htop
    cases htop
  · next heven =>
    rw [Nat.testBit_zero, decide_eq_true_eq] at heven
    omega

theorem iterate_shift_ne_zero (hp : p.testBit w = true) (hlt : p < 2 ^ (w + 1))
    (hs : s < 2 ^ (w + 1)) (h0 : s ≠ 0) (n : Nat) : (shift p)^[n] s ≠ 0 := by
  induction n generalizing s with
  | zero => exact h0
  | succ n ih =>
    exact ih (shift_lt hlt hs) (shift_ne_zero hp hs h0)

theorem iterate_shift_lt (hp : p < 2 ^ w) (hs : s < 2 ^ w) (n : Nat) :
    (shift p)^[n] s < 2 ^ w := by
  induction n generalizing s with
  | zero => exact hs
  | succ n ih =>
    exact ih (shift_lt hp hs)

/-! ## Bytes -/

def wire : List UInt8 → Nat
  | [] => 0
  | b :: bs => b.toNat ^^^ (wire bs <<< 8)

variable {i : Nat}

theorem testBit_toNat_of_le (b : UInt8) (hi : 8 ≤ i) : b.toNat.testBit i = false := by
  apply Nat.testBit_lt_two_pow
  calc b.toNat < 2 ^ 8 := b.toNat_lt
    _ ≤ 2 ^ i := Nat.pow_le_pow_right (by omega) hi

theorem testBit_wire_cons_of_lt (b : UInt8) (bs : List UInt8) (hi : i < 8) :
    (wire (b :: bs)).testBit i = b.toNat.testBit i := by
  have habove : ¬ 8 ≤ i := by omega
  simp [wire, Nat.testBit_xor, Nat.testBit_shiftLeft, habove]

theorem testBit_wire_cons_add (b : UInt8) (bs : List UInt8) (i : Nat) :
    (wire (b :: bs)).testBit (i + 8) = (wire bs).testBit i := by
  simp [wire, Nat.testBit_xor, Nat.testBit_shiftLeft, testBit_toNat_of_le b]

theorem testBit_wire (bs : List UInt8) (i : Nat) :
    (wire bs).testBit i = ((bs[i / 8]?).map fun b => b.toNat.testBit (i % 8)).getD false := by
  induction bs generalizing i with
  | nil => simp [wire]
  | cons b bs ih =>
    by_cases hi : i < 8
    · have hdiv : i / 8 = 0 := by omega
      have hmod : i % 8 = i := by omega
      rw [testBit_wire_cons_of_lt b bs hi, hdiv, hmod]
      rfl
    · obtain ⟨j, rfl⟩ : ∃ j, i = j + 8 := ⟨i - 8, by omega⟩
      have hdiv : (j + 8) / 8 = j / 8 + 1 := by omega
      have hmod : (j + 8) % 8 = j % 8 := by omega
      rw [testBit_wire_cons_add, ih, hdiv, hmod, List.getElem?_cons_succ]

theorem wire_append (as bs : List UInt8) :
    wire (as ++ bs) = wire as ^^^ (wire bs <<< (8 * as.length)) := by
  induction as with
  | nil => simp [wire]
  | cons a as ih =>
    rw [List.cons_append, wire, ih, wire, Nat.shiftLeft_xor_distrib, ← Nat.shiftLeft_add,
      ← Nat.xor_assoc, List.length_cons, Nat.mul_succ]

theorem wire_inj {as bs : List UInt8} (hlen : as.length = bs.length) (h : wire as = wire bs) :
    as = bs := by
  induction as generalizing bs with
  | nil => exact (List.length_eq_zero_iff.1 hlen.symm).symm
  | cons a as ih =>
    obtain ⟨b, bs, rfl⟩ := List.exists_cons_of_length_eq_add_one hlen.symm
    have hbits : ∀ i, (wire (a :: as)).testBit i = (wire (b :: bs)).testBit i := by
      intro i
      rw [h]
    have hhead : a = b := by
      apply UInt8.toNat_inj.1
      apply Nat.eq_of_testBit_eq
      intro i
      by_cases hi : i < 8
      · rw [← testBit_wire_cons_of_lt a as hi, hbits, testBit_wire_cons_of_lt b bs hi]
      · rw [testBit_toNat_of_le a (by omega), testBit_toNat_of_le b (by omega)]
    have htail : wire as = wire bs := by
      apply Nat.eq_of_testBit_eq
      intro i
      rw [← testBit_wire_cons_add a as, hbits, testBit_wire_cons_add]
    rw [hhead, ih (Nat.succ.inj hlen) htail]

theorem foldl_shift (p s : Nat) (bs : List UInt8) :
    bs.foldl (fun r b => (shift p)^[8] (r ^^^ b.toNat)) s =
      (shift p)^[8 * bs.length] (s ^^^ wire bs) := by
  induction bs generalizing s with
  | nil => simp [wire]
  | cons b bs ih =>
    -- the bytes that are still to be read stand above the one that is read now
    have habove : (shift p)^[8] (s ^^^ wire (b :: bs)) =
        (shift p)^[8] (s ^^^ b.toNat) ^^^ wire bs := by
      rw [wire, ← Nat.xor_assoc, iterate_shift_xor, iterate_shift_shiftLeft]
    rw [List.foldl_cons, ih, List.length_cons, Nat.mul_succ, Function.iterate_add_apply, habove]

/-! ## Bursts -/

/-- **A burst is not lost.**  A number whose bits all lie in a window as wide as the register is
not shifted to zero. -/
theorem iterate_shift_burst (hp : p.testBit w = true) (hlt : p < 2 ^ (w + 1)) {e first : Nat}
    (h0 : e ≠ 0) (hwindow : ∀ i, e.testBit i = true → first ≤ i ∧ i < first + (w + 1)) (n : Nat) :
    (shift p)^[n] e ≠ 0 := by
  obtain ⟨b, hb, rfl⟩ : ∃ b, b < 2 ^ (w + 1) ∧ e = 2 ^ first * b := by
    refine ⟨e >>> first, ?_, ?_⟩
    · refine Nat.lt_pow_two_of_testBit _ fun i hi => ?_
      by_contra hset
      have := hwindow _ (by simpa using hset)
      omega
    · rw [Nat.mul_comm, ← Nat.shiftLeft_eq]
      apply Nat.eq_of_testBit_eq
      intro i
      by_cases hi : first ≤ i
      · simp [hi, Nat.add_sub_cancel' hi]
      · have hclear : e.testBit i = false := by
          by_contra hset
          exact hi (hwindow i (by simpa using hset)).1
        simp [hi, hclear]
  have hb0 : b ≠ 0 := by
    rintro rfl
    exact h0 (Nat.mul_zero _)
  by_cases hn : first ≤ n
  · -- the zeros below the burst are gone, and what is left fits the register
    obtain ⟨m, rfl⟩ := Nat.exists_eq_add_of_le' hn
    rw [Function.iterate_add_apply, iterate_shift_mul]
    exact iterate_shift_ne_zero hp hlt hb hb0 m
  · obtain ⟨m, rfl⟩ := Nat.exists_eq_add_of_le (Nat.le_of_not_le hn)
    rw [pow_add, mul_assoc, iterate_shift_mul]
    exact Nat.mul_ne_zero (Nat.two_pow_pos m).ne' hb0

end XEdge.Lib.ShiftRegister
