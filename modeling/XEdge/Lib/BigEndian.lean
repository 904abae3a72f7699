import Mathlib.Data.Nat.Basic
import Mathlib.Tactic.Positivity
import Mathlib.Tactic.Ring

/-!
# Numbers as bytes

A number in a fixed number of bytes, most significant byte first, and integers in two's
complement on top of it.
-/

namespace XEdge.Lib.BigEndian

def ofBytes : List UInt8 → Nat
  | [] => 0
  | b :: bs => b.toNat * 256 ^ bs.length + ofBytes bs

/-- The last `k` bytes of a number, most significant first. -/
def toBytes : Nat → Nat → List UInt8
  | 0, _ => []
  | k + 1, n => UInt8.ofNat (n / 256 ^ k) :: toBytes k n

@[simp] theorem length_toBytes (k n : Nat) : (toBytes k n).length = k := by
  induction k with
  | zero => rfl
  | succ k ih => simp [toBytes, ih]

theorem ofBytes_lt (bs : List UInt8) : ofBytes bs < 256 ^ bs.length := by
  induction bs with
  | nil => simp [ofBytes]
  | cons b bs ih =>
    have hb : b.toNat + 1 ≤ 256 := b.toNat_lt
    calc b.toNat * 256 ^ bs.length + ofBytes bs
        < b.toNat * 256 ^ bs.length + 256 ^ bs.length := Nat.add_lt_add_left ih _
      _ = (b.toNat + 1) * 256 ^ bs.length := by ring
      _ ≤ 256 * 256 ^ bs.length := Nat.mul_le_mul_right _ hb
      _ = 256 ^ (bs.length + 1) := by ring

theorem toBytes_mul_add (k m n : Nat) : toBytes k (m * 256 ^ k + n) = toBytes k n := by
  induction k generalizing m with
  | zero => rfl
  | succ k ih =>
    have hsplit : m * 256 ^ (k + 1) + n = (m * 256) * 256 ^ k + n := by ring
    have hhead : UInt8.ofNat ((m * 256 * 256 ^ k + n) / 256 ^ k) = UInt8.ofNat (n / 256 ^ k) := by
      apply UInt8.toNat_inj.1
      rw [Nat.add_comm, Nat.add_mul_div_right _ _ (by positivity), UInt8.toNat_ofNat',
        UInt8.toNat_ofNat']
      omega
    rw [hsplit, toBytes, toBytes, hhead, ih]

variable {k n : Nat}

theorem ofBytes_toBytes (h : n < 256 ^ k) : ofBytes (toBytes k n) = n := by
  induction k generalizing n with
  | zero =>
    rw [toBytes, ofBytes]
    omega
  | succ k ih =>
    have hdigit : n / 256 ^ k < 256 := by
      rw [Nat.div_lt_iff_lt_mul (by positivity)]
      calc n < 256 ^ (k + 1) := h
        _ = 256 * 256 ^ k := by ring
    have hrest : toBytes k n = toBytes k (n % 256 ^ k) := by
      conv_lhs => rw [← Nat.div_add_mod' n (256 ^ k)]
      rw [toBytes_mul_add]
    rw [toBytes, ofBytes, length_toBytes, UInt8.toNat_ofNat', Nat.mod_eq_of_lt hdigit, hrest,
      ih (Nat.mod_lt _ (by positivity)), Nat.div_add_mod']

theorem toBytes_ofBytes (bs : List UInt8) : toBytes bs.length (ofBytes bs) = bs := by
  induction bs with
  | nil => rfl
  | cons b bs ih =>
    have hhead : (b.toNat * 256 ^ bs.length + ofBytes bs) / 256 ^ bs.length = b.toNat := by
      rw [Nat.add_comm, Nat.add_mul_div_right _ _ (by positivity),
        Nat.div_eq_of_lt (ofBytes_lt bs), Nat.zero_add]
    rw [List.length_cons, toBytes, ofBytes, hhead, UInt8.ofNat_toNat, toBytes_mul_add, ih]

/-! ## Two's complement -/

/-- The integer lies in the range of a width of `k` bytes. -/
def fits (signed : Bool) (k : Nat) (v : Int) : Prop :=
  if signed then -(256 ^ k / 2) ≤ v ∧ v < 256 ^ k / 2 else 0 ≤ v ∧ v < 256 ^ k

instance (k : Nat) (v : Int) : (signed : Bool) → Decidable (fits signed k v)
  | true => inferInstanceAs (Decidable (-(256 ^ k / 2) ≤ v ∧ v < 256 ^ k / 2))
  | false => inferInstanceAs (Decidable (0 ≤ v ∧ v < 256 ^ k))

def toUnsigned (k : Nat) (v : Int) : Nat := (v % 256 ^ k).toNat

/-- The integer that a number of `k` bytes stands for. -/
def ofUnsigned (signed : Bool) (k n : Nat) : Int :=
  if signed ∧ (256 ^ k / 2 : Int) ≤ n then n - 256 ^ k else n

theorem toUnsigned_lt (k : Nat) (v : Int) : toUnsigned k v < 256 ^ k := by
  have hpos : (0 : Int) < 256 ^ k := by positivity
  have hcast : ((256 ^ k : Nat) : Int) = 256 ^ k := by push_cast; rfl
  rw [toUnsigned]
  omega

theorem half_add_half (hk : k ≠ 0) : (256 ^ k / 2 + 256 ^ k / 2 : Int) = 256 ^ k := by
  obtain ⟨j, rfl⟩ := Nat.exists_eq_succ_of_ne_zero hk
  have heven : (256 : Int) ^ (j + 1) = 2 * (128 * 256 ^ j) := by ring
  omega

theorem ofUnsigned_toUnsigned {signed : Bool} {v : Int}
    (h : fits signed k v) : ofUnsigned signed k (toUnsigned k v) = v := by
  have hpos : (0 : Int) < 256 ^ k := by positivity
  have hnonneg := Int.emod_nonneg v hpos.ne'
  have hcast : ((toUnsigned k v : Nat) : Int) = v % 256 ^ k := Int.toNat_of_nonneg hnonneg
  rw [ofUnsigned, hcast]
  cases signed with
  | false =>
    obtain ⟨hlow, hhigh⟩ : 0 ≤ v ∧ v < 256 ^ k := h
    simp [Int.emod_eq_of_lt hlow hhigh]
  | true =>
    obtain ⟨hlow, hhigh⟩ : -(256 ^ k / 2) ≤ v ∧ v < 256 ^ k / 2 := h
    by_cases hneg : v < 0
    · -- a negative number is written as the one that is `256 ^ k` above it
      have hmod : v % 256 ^ k = v + 256 ^ k := by
        rw [← Int.add_emod_right, Int.emod_eq_of_lt (by omega) (by omega)]
      rw [hmod, if_pos ⟨rfl, by omega⟩]
      omega
    · have hmod : v % 256 ^ k = v := Int.emod_eq_of_lt (by omega) (by omega)
      rw [hmod, if_neg]
      omega

theorem toUnsigned_ofUnsigned (signed : Bool) (hn : n < 256 ^ k) :
    toUnsigned k (ofUnsigned signed k n) = n := by
  have hlt : (n : Int) < 256 ^ k := by exact_mod_cast hn
  have hmod : ofUnsigned signed k n % 256 ^ k = n := by
    rw [ofUnsigned]
    split
    · rw [Int.sub_emod_right, Int.emod_eq_of_lt (by omega) hlt]
    · exact Int.emod_eq_of_lt (by omega) hlt
  rw [toUnsigned, hmod, Int.toNat_natCast]

theorem fits_ofUnsigned (signed : Bool) (hk : k ≠ 0) (hn : n < 256 ^ k) :
    fits signed k (ofUnsigned signed k n) := by
  have hlt : (n : Int) < 256 ^ k := by exact_mod_cast hn
  have hhalf := half_add_half hk
  rw [ofUnsigned]
  cases signed with
  | false => exact ⟨by simp, by simpa using hlt⟩
  | true =>
    by_cases hge : (256 ^ k / 2 : Int) ≤ n
    · rw [if_pos ⟨rfl, hge⟩]
      exact ⟨by omega, by omega⟩
    · exact ⟨by omega, by omega⟩

end XEdge.Lib.BigEndian
