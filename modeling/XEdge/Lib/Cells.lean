import Mathlib.Data.List.Basic
import Mathlib.Tactic.Linarith

/-!
# Partial memories

A memory gives some of the addresses a value.  Consecutive addresses are read together, and the
read fails if one of them has none.
-/

namespace XEdge.Lib.Cells

variable {α : Type*}

/-- The values of `n` addresses from `a` on, if all of them have one. -/
def fetch (m : Nat → Option α) (a : Nat) : Nat → Option (List α)
  | 0 => some []
  | n + 1 =>
      match m a, fetch m (a + 1) n with
      | some x, some xs => some (x :: xs)
      | _, _ => none

/-- The memory with `xs` from `a` on. -/
def store (m : Nat → Option α) (a : Nat) (xs : List α) : Nat → Option α :=
  fun z => if a ≤ z ∧ z < a + xs.length then xs[z - a]? else m z

variable {m : Nat → Option α}

variable {a n : Nat}

theorem fetch_succ_eq_some {ys : List α} :
    fetch m a (n + 1) = some ys ↔
      ∃ x xs, m a = some x ∧ fetch m (a + 1) n = some xs ∧ ys = x :: xs := by
  rw [fetch]
  cases hx : m a with
  | none => simp
  | some x =>
    cases hxs : fetch m (a + 1) n with
    | none => simp
    | some xs => simp [eq_comm]

variable {xs : List α}

theorem length_of_fetch (h : fetch m a n = some xs) : xs.length = n := by
  induction n generalizing a xs with
  | zero =>
    cases h
    rfl
  | succ n ih =>
    obtain ⟨x, xs, -, hxs, rfl⟩ := fetch_succ_eq_some.1 h
    rw [List.length_cons, ih hxs]

theorem fetch_eq_none_iff :
    fetch m a n = none ↔ ∃ z, a ≤ z ∧ z < a + n ∧ m z = none := by
  induction n generalizing a with
  | zero =>
    refine ⟨fun h => absurd h (Option.some_ne_none _), ?_⟩
    omega
  | succ n ih =>
    have hsplit : fetch m a (n + 1) = none ↔ m a = none ∨ fetch m (a + 1) n = none := by
      rw [fetch]
      cases m a <;> cases fetch m (a + 1) n <;> simp
    rw [hsplit, ih]
    constructor
    · rintro (hnone | ⟨z, hle, hlt, hnone⟩)
      · exact ⟨a, le_rfl, by omega, hnone⟩
      · exact ⟨z, by omega, by omega, hnone⟩
    · rintro ⟨z, hle, hlt, hnone⟩
      obtain rfl | hlt' := hle.eq_or_lt
      · exact .inl hnone
      · exact .inr ⟨z, hlt', by omega, hnone⟩

variable {k : Nat}

theorem fetch_take (h : fetch m a n = some xs) (hk : k ≤ n) :
    fetch m a k = some (xs.take k) := by
  induction k generalizing a n xs with
  | zero => rfl
  | succ k ih =>
    obtain ⟨n, rfl⟩ := Nat.exists_eq_add_of_lt hk
    obtain ⟨x, xs, hx, hxs, rfl⟩ := fetch_succ_eq_some.1 h
    exact fetch_succ_eq_some.2 ⟨x, _, hx, ih hxs (by omega), rfl⟩

theorem fetch_drop (h : fetch m a n = some xs) (hk : k ≤ n) :
    fetch m (a + k) (n - k) = some (xs.drop k) := by
  induction k generalizing a n xs with
  | zero => exact h
  | succ k ih =>
    obtain ⟨n, rfl⟩ := Nat.exists_eq_add_of_lt hk
    obtain ⟨x, xs, -, hxs, rfl⟩ := fetch_succ_eq_some.1 h
    have hrest := ih hxs (by omega)
    rwa [show a + 1 + k = a + (k + 1) by omega, show k + n - k = k + n + 1 - (k + 1) by omega]
      at hrest

theorem fetch_slice {s : Nat} (h : fetch m a n = some xs) (hks : k + s ≤ n) :
    fetch m (a + k) s = some ((xs.drop k).take s) :=
  fetch_take (fetch_drop h (by omega)) (by omega)

theorem store_cons (a : Nat) (x : α) (xs : List α) :
    store m a (x :: xs) = store (store m a [x]) (a + 1) xs := by
  funext z
  simp only [store, List.length_cons, List.length_nil]
  by_cases hz : z = a
  · subst hz
    simp
  · by_cases hin : a + 1 ≤ z ∧ z < a + 1 + xs.length
    · rw [if_pos (by omega), if_pos hin]
      obtain ⟨k, rfl⟩ := Nat.exists_eq_add_of_le hin.1
      rw [show a + 1 + k - a = k + 1 by omega, show a + 1 + k - (a + 1) = k by omega]
      rfl
    · rw [if_neg (by omega), if_neg hin, if_neg (by omega)]

theorem fetch_store (a : Nat) (xs : List α) : fetch (store m a xs) a xs.length = some xs := by
  induction xs generalizing m a with
  | nil => rfl
  | cons x xs ih =>
    refine fetch_succ_eq_some.2 ⟨x, xs, ?_, ?_, rfl⟩
    · simp [store]
    · rw [store_cons]
      exact ih _

end XEdge.Lib.Cells
