import Mathlib

/-!
# State that is kept for each key

A component that serves many keys often keeps what it knows about each of them apart: a call for
one key looks at that key only, and changes nothing else.  A sequence of calls for any keys is
then, for each key, the sequence of its own calls.
-/

namespace XEdge.Lib

/-- A component with states `σ` whose calls `ι` are answered by `ο`.  A call is for a key, and
`view s k` is what the state says of the key `k`. -/
structure Keyed (σ κ υ ι ο : Type*) where
  step : σ → ι → ο × σ
  key : ι → κ
  view : σ → κ → υ
  view_step_of_ne : ∀ s i k, k ≠ key i → view (step s i).2 k = view s k
  step_congr : ∀ s t i, view s (key i) = view t (key i) →
    (step s i).1 = (step t i).1 ∧ view (step s i).2 (key i) = view (step t i).2 (key i)

namespace Keyed

variable {σ κ υ ι ο : Type*} (K : Keyed σ κ υ ι ο)

def outputs (s : σ) : List ι → List (ι × ο)
  | [] => []
  | i :: is => (i, (K.step s i).1) :: outputs (K.step s i).2 is

def final (s : σ) (is : List ι) : σ := is.foldl (fun s i => (K.step s i).2) s

@[simp] theorem final_nil (s : σ) : K.final s [] = s := rfl

@[simp] theorem final_cons (s : σ) (i : ι) (is : List ι) :
    K.final s (i :: is) = K.final (K.step s i).2 is := rfl

@[simp] theorem final_append (s : σ) (is js : List ι) :
    K.final s (is ++ js) = K.final (K.final s is) js := by
  simp [final, List.foldl_append]

theorem outputs_append (s : σ) (is js : List ι) :
    K.outputs s (is ++ js) = K.outputs s is ++ K.outputs (K.final s is) js := by
  induction is generalizing s with
  | nil => rfl
  | cons i is ih => simp [outputs, ih]

theorem outputs_concat (s : σ) (is : List ι) (i : ι) :
    K.outputs s (is ++ [i]) = K.outputs s is ++ [(i, (K.step (K.final s is) i).1)] :=
  K.outputs_append s is [i]

variable {s : σ} {k : κ}

theorem view_final_of_ne {is : List ι} (h : ∀ i ∈ is, K.key i ≠ k) :
    K.view (K.final s is) k = K.view s k := by
  induction is generalizing s with
  | nil => rfl
  | cons i is ih =>
    rw [final_cons, ih fun j hj => h j (List.mem_cons_of_mem _ hj)]
    exact K.view_step_of_ne s i k (h i List.mem_cons_self).symm

variable [DecidableEq κ]

variable {t : σ}

/-- **Independence of the answers**: those to the calls for a key are the same as if only the
calls for the key had been made. -/
theorem filter_outputs (h : K.view s k = K.view t k) (is : List ι) :
    (K.outputs s is).filter (fun o => K.key o.1 = k) =
      K.outputs t (is.filter fun i => K.key i = k) := by
  induction is generalizing s t with
  | nil => rfl
  | cons i is ih =>
    by_cases hk : K.key i = k
    · subst hk
      obtain ⟨hanswer, hview⟩ := K.step_congr s t i h
      simp [outputs, hanswer, ih hview]
    · have hview := (K.view_step_of_ne s i k (Ne.symm hk)).trans h
      simp [outputs, hk, ih hview]

end Keyed

end XEdge.Lib
