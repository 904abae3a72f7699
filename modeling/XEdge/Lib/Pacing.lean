import Mathlib.Algebra.Order.Floor.Ring
import Mathlib.Data.Set.Card
import Mathlib.Tactic.Linarith
import Mathlib.Tactic.Ring

/-!
# Work at a fixed rate

A piece of work is due one interval after the piece before it was due, or when that piece has
ended, if this is later; it starts when it is due, or after that.  Nothing is known of how long a
piece takes or how late it starts.
-/

namespace XEdge.Lib

/-- Pieces of work, numbered from zero: when each was due, started and ended. -/
structure Paced {K : Type*} [Field K] [LinearOrder K] (interval : K) (due start finish : ℕ → K) :
    Prop where
  due_succ : ∀ n, due (n + 1) = max (due n + interval) (finish n)
  due_le_start : ∀ n, due n ≤ start n

namespace Paced

variable {K : Type*} [Field K] [LinearOrder K] [IsStrictOrderedRing K] {interval : K}
  {due start finish : ℕ → K}

theorem due_add_le (h : Paced interval due start finish) (k n : ℕ) :
    due k + n * interval ≤ due (k + n) := by
  induction n with
  | zero => simp
  | succ n ih =>
    have hstep : due (k + n) + interval ≤ due (k + (n + 1)) := by
      rw [← add_assoc, h.due_succ]
      exact le_max_left _ _
    push_cast
    linarith

omit [IsStrictOrderedRing K] in
/-- **No drift**: work that fits into its interval does not move the due times. -/
theorem due_eq (h : Paced interval due start finish) {n : ℕ}
    (hfits : ∀ k < n, due k = due 0 + k * interval → finish k < due k + interval) :
    due n = due 0 + n * interval := by
  induction n with
  | zero => simp
  | succ n ih =>
    have hdue := ih fun k hk => hfits k (hk.trans n.lt_succ_self)
    have hend := hfits n n.lt_succ_self hdue
    rw [h.due_succ, max_eq_left hend.le, hdue]
    push_cast
    ring

variable [FloorRing K]

theorem lt_of_start_le (hinterval : 0 < interval) (h : Paced interval due start finish)
    {k n : ℕ} {t : K} (ht : start (k + n) ≤ t) :
    n < (⌊(t - due k) / interval⌋ + 1).toNat := by
  have hle : due k + n * interval ≤ t :=
    ((h.due_add_le k n).trans (h.due_le_start _)).trans ht
  have hfloor : (n : ℤ) ≤ ⌊(t - due k) / interval⌋ := by
    rw [Int.le_floor, le_div_iff₀ hinterval]
    push_cast
    linarith
  omega

/-- **No burst**: how many pieces from the `k`-th on have started by a time. -/
theorem encard_started_le (hinterval : 0 < interval) (h : Paced interval due start finish)
    (k : ℕ) (t : K) :
    {n | k ≤ n ∧ start n ≤ t}.encard ≤ (⌊(t - due k) / interval⌋ + 1).toNat := by
  set bound := (⌊(t - due k) / interval⌋ + 1).toNat with hbound
  have hsub : {n | k ≤ n ∧ start n ≤ t} ⊆
      (Finset.image (k + ·) (Finset.range bound) : Finset ℕ) := by
    rintro n ⟨hk, hn⟩
    obtain ⟨m, rfl⟩ := Nat.exists_eq_add_of_le hk
    have hm : m < bound := h.lt_of_start_le hinterval hn
    exact Finset.mem_coe.2 (Finset.mem_image.2 ⟨m, Finset.mem_range.2 hm, rfl⟩)
  calc {n | k ≤ n ∧ start n ≤ t}.encard
      ≤ ((Finset.image (k + ·) (Finset.range bound) : Finset ℕ) : Set ℕ).encard :=
        Set.encard_le_encard hsub
    _ = ((Finset.image (k + ·) (Finset.range bound)).card : ℕ∞) :=
        Set.encard_coe_eq_coe_finsetCard _
    _ ≤ bound := by
        exact_mod_cast Finset.card_image_le.trans (Finset.card_range bound).le

end Paced

end XEdge.Lib
