import Mathlib

/-!
# Trying again

An attempt that fails may be followed by another, up to a bound.  Which failures are followed by
another attempt is a policy; the outcomes of the attempts are given.
-/

namespace XEdge.Lib

variable {ε α : Type*} (again : Nat → ε → Bool) (outcome : Nat → Except ε α)

/-- Attempt number `attempt`, with at most `left` more after it: what the loop ends in, and how
many attempts there were. -/
def retryLoop : Nat → Nat → Except ε α × Nat
  | 0, attempt => (outcome attempt, attempt + 1)
  | left + 1, attempt =>
      match outcome attempt with
      | .ok value => (.ok value, attempt + 1)
      | .error e =>
          if again attempt e then retryLoop left (attempt + 1) else (.error e, attempt + 1)

variable {again outcome} {left attempt : Nat} {value : α}

theorem retryLoop_of_ok (h : outcome attempt = .ok value) :
    retryLoop again outcome left attempt = (.ok value, attempt + 1) := by
  cases left <;> simp [retryLoop, h]

theorem retryLoop_of_error {e : ε} (h : outcome attempt = .error e) :
    retryLoop again outcome (left + 1) attempt =
      if again attempt e then retryLoop again outcome left (attempt + 1)
      else (.error e, attempt + 1) := by
  simp [retryLoop, h]

/-- **The retry law.**  If `k` attempts fail and the next one succeeds, its value is returned after
`k + 1` attempts exactly if the policy tries again after each failure. -/
theorem retryLoop_eq_ok_iff {k : Nat} (hk : k ≤ left)
    (hfail : ∀ i < k, ∃ e, outcome (attempt + i) = .error e)
    (hok : outcome (attempt + k) = .ok value) :
    retryLoop again outcome left attempt = (.ok value, attempt + k + 1) ↔
      ∀ i < k, ∀ e, outcome (attempt + i) = .error e → again (attempt + i) e = true := by
  induction k generalizing left attempt with
  | zero =>
    refine iff_of_true (retryLoop_of_ok hok) ?_
    intro i hi
    exact absurd hi (Nat.not_lt_zero _)
  | succ k ih =>
    obtain ⟨left, rfl⟩ : ∃ m, left = m + 1 := ⟨left - 1, by omega⟩
    obtain ⟨e, he⟩ := hfail 0 (Nat.succ_pos k)
    have hshift : ∀ i, attempt + (i + 1) = attempt + 1 + i := fun i => by omega
    rw [Nat.add_zero] at he
    rw [hshift] at hok
    have hrest :
        retryLoop again outcome left (attempt + 1) = (.ok value, attempt + 1 + k + 1) ↔
          ∀ i < k, ∀ e', outcome (attempt + (i + 1)) = .error e' →
            again (attempt + (i + 1)) e' = true := by
      refine (ih (by omega) (fun i hi => hshift i ▸ hfail (i + 1) (by omega)) hok).trans ?_
      exact forall₂_congr fun i _ => by rw [hshift i]
    -- the first failure, and then the others
    have hfirst : (∀ e', outcome (attempt + 0) = .error e' → again (attempt + 0) e' = true) ↔
        again attempt e = true := by
      simp only [Nat.add_zero, he, Except.error.injEq, forall_eq']
    rw [retryLoop_of_error he, Nat.forall_lt_succ_left, hfirst, ← hrest]
    by_cases hagain : again attempt e = true
    · rw [if_pos hagain, show attempt + (k + 1) + 1 = attempt + 1 + k + 1 by omega]
      simp [hagain]
    · simp [hagain]

end XEdge.Lib
