import Mathlib

/-!
# Machines that take one event at a time

Every stateful part of the gateway is modelled in the same way: a state, a list
of events that may happen to it, and a function that says what one event does.
An event that cannot happen in a state has no result.  This file is the small
theory those models share; it knows nothing about the gateway.
-/

namespace XEdge.Lib

/-- A machine over states `σ` and events `ε`: `step s a` is the state after the
event `a`, or `none` when `a` cannot happen in `s`. -/
structure Machine (σ : Type*) (ε : Type*) where
  step : σ → ε → Option σ

namespace Machine

variable {σ ε : Type*} (M : Machine σ ε)

def run (s : σ) : List ε → Option σ
  | [] => some s
  | a :: as =>
      match M.step s a with
      | none => none
      | some s' => run s' as

@[simp] theorem run_nil (s : σ) : M.run s [] = some s := rfl

theorem run_cons (s : σ) (a : ε) (as : List ε) :
    M.run s (a :: as) = (M.step s a).bind fun s' => M.run s' as := by
  rw [run]
  cases M.step s a <;> rfl

theorem run_singleton (s : σ) (a : ε) : M.run s [a] = M.step s a := by
  rw [run_cons]
  cases M.step s a <;> rfl

theorem run_append (s : σ) (as bs : List ε) :
    M.run s (as ++ bs) = (M.run s as).bind fun t => M.run t bs := by
  induction as generalizing s with
  | nil => rfl
  | cons a as ih =>
    rw [List.cons_append, run_cons, run_cons]
    cases M.step s a with
    | none => rfl
    | some s' => exact ih s'

variable {s t : σ} {as bs : List ε}

theorem run_append_isSome (h : M.run s (as ++ bs) = some t) :
    ∃ u, M.run s as = some u ∧ M.run u bs = some t := by
  rw [run_append] at h
  exact Option.bind_eq_some_iff.1 h

variable {a : ε}

theorem run_eq_some_cons (h : M.run s (a :: as) = some t) :
    ∃ s', M.step s a = some s' ∧ M.run s' as = some t := by
  rw [run_cons] at h
  exact Option.bind_eq_some_iff.1 h

theorem exists_run (htotal : ∀ s a, ∃ s', M.step s a = some s') (s : σ) (as : List ε) :
    ∃ t, M.run s as = some t := by
  induction as generalizing s with
  | nil => exact ⟨s, rfl⟩
  | cons a as ih =>
    obtain ⟨s', hs'⟩ := htotal s a
    obtain ⟨t, ht⟩ := ih s'
    exact ⟨t, by rw [run_cons, hs', Option.bind_some, ht]⟩

/-- Every event of the run is taken in a state that meets the guard `G`. -/
def Meets (G : σ → ε → Prop) (s : σ) : List ε → Prop
  | [] => True
  | a :: as =>
      G s a ∧
        match M.step s a with
        | none => True
        | some s' => Meets G s' as

instance decidableMeets (G : σ → ε → Prop) [∀ s a, Decidable (G s a)] (s : σ) :
    (as : List ε) → Decidable (M.Meets G s as)
  | [] => isTrue trivial
  | a :: as =>
      have : Decidable (match M.step s a with
          | none => True
          | some s' => M.Meets G s' as) :=
        match M.step s a with
        | none => isTrue trivial
        | some s' => decidableMeets G s' as
      inferInstanceAs (Decidable (G s a ∧ _))

variable {G : σ → ε → Prop}

theorem Meets.head (h : M.Meets G s (a :: as)) : G s a := h.1

variable {s' : σ}

theorem Meets.tail (h : M.Meets G s (a :: as)) (hs : M.step s a = some s') : M.Meets G s' as := by
  have h2 := h.2
  rw [hs] at h2
  exact h2

theorem meets_of_forall {G : ε → Prop} (h : ∀ a ∈ as, G a) (s : σ) :
    M.Meets (fun _ a => G a) s as := by
  induction as generalizing s with
  | nil => trivial
  | cons a as ih =>
    refine ⟨h a (List.mem_cons_self ..), ?_⟩
    split
    · trivial
    · exact ih (fun b hb => h b (List.mem_cons_of_mem _ hb)) _

variable {I : σ → Prop}

theorem meets_of_inv
    (hstep : ∀ s a s', I s → M.step s a = some s' → I s') (hguard : ∀ s a, I s → G s a) :
    ∀ {as : List ε} {s : σ}, I s → M.Meets G s as := by
  intro as
  induction as with
  | nil => exact fun _ => trivial
  | cons a as ih =>
    intro s hs
    refine ⟨hguard s a hs, ?_⟩
    cases hnext : M.step s a with
    | none => trivial
    | some s' => exact ih (hstep s a s' hs hnext)

theorem meets_append (hrun : M.run s as = some t) (h : M.Meets G s (as ++ bs)) :
    M.Meets G s as ∧ M.Meets G t bs := by
  induction as generalizing s with
  | nil =>
    cases hrun
    exact ⟨trivial, h⟩
  | cons a as ih =>
    obtain ⟨s', hstep, hrun'⟩ := M.run_eq_some_cons hrun
    obtain ⟨has, hbs⟩ := ih hrun' (Meets.tail M h hstep)
    refine ⟨⟨h.head, ?_⟩, hbs⟩
    rw [hstep]
    exact has

/-- **The invariant rule under a guard.**  If every step the guard allows keeps
`I`, then `I` holds at the end of every run whose steps the guard allows. -/
theorem inv_run_of_meets (hstep : ∀ s a s', I s → G s a → M.step s a = some s' → I s') :
    ∀ {as : List ε} {s t : σ}, I s → M.Meets G s as → M.run s as = some t → I t := by
  intro as
  induction as with
  | nil =>
    intro s t hs _ hrun
    cases hrun
    exact hs
  | cons a as ih =>
    intro s t hs hG hrun
    obtain ⟨s', hs', hrun'⟩ := M.run_eq_some_cons hrun
    exact ih (hstep s a s' hs hG.head hs') (Meets.tail M hG hs') hrun'

/-- **The invariant rule.**  What every step keeps holds at the end of every run. -/
theorem inv_run (hstep : ∀ s a s', I s → M.step s a = some s' → I s')
    (hs : I s) (hrun : M.run s as = some t) : I t := by
  induction as generalizing s with
  | nil =>
    cases hrun
    exact hs
  | cons a as ih =>
    obtain ⟨s', hs', hrun'⟩ := M.run_eq_some_cons hrun
    exact ih (hstep s a s' hs hs') hrun'

/-- Two guards that agree on the states of an invariant, when the invariant is kept by the steps
that they allow. -/
theorem meets_congr {H : σ → ε → Prop} (hiff : ∀ s a, I s → (G s a ↔ H s a))
    (hstep : ∀ s a s', I s → H s a → M.step s a = some s' → I s') :
    ∀ {as : List ε} {s : σ}, I s → (M.Meets G s as ↔ M.Meets H s as) := by
  intro as
  induction as with
  | nil =>
    intro s _
    exact Iff.rfl
  | cons a as ih =>
    intro s hs
    rw [Meets, Meets, hiff s a hs]
    refine and_congr_right fun hH => ?_
    cases hnext : M.step s a with
    | none => exact Iff.rfl
    | some s' => exact ih (hstep s a s' hs hH hnext)

variable {P : σ → Prop}

/-- **The exactness rule.**  When every step keeps `P` just in case the guard allows
the step, `P` holds at the end of a run just in case the guard allows all of it. -/
theorem iff_meets (hinv : ∀ s a s', I s → M.step s a = some s' → I s')
    (hstep : ∀ s a s', I s → M.step s a = some s' → (P s' ↔ P s ∧ G s a)) :
    ∀ {as : List ε} {s t : σ}, I s → M.run s as = some t → (P t ↔ P s ∧ M.Meets G s as) := by
  intro as
  induction as with
  | nil =>
    intro s t _ hrun
    cases hrun
    simp [Meets]
  | cons a as ih =>
    intro s t hs hrun
    obtain ⟨s', hs', hrun'⟩ := M.run_eq_some_cons hrun
    rw [ih (hinv s a s' hs hs') hrun', hstep s a s' hs hs', Meets, hs']
    exact and_assoc

/-- `P` holds in every state a run passes through. -/
def Always (P : σ → Prop) (s : σ) (as : List ε) : Prop :=
  ∀ front back u, as = front ++ back → M.run s front = some u → P u

theorem always_nil : M.Always P s [] ↔ P s := by
  constructor
  · intro h
    exact h [] [] s rfl rfl
  · intro h front back u hsplit hrun
    obtain ⟨rfl, -⟩ := List.append_eq_nil_iff.1 hsplit.symm
    cases hrun
    exact h

theorem always_cons (hstep : M.step s a = some s') :
    M.Always P s (a :: as) ↔ P s ∧ M.Always P s' as := by
  constructor
  · intro h
    refine ⟨h [] (a :: as) s rfl rfl, fun front back u hsplit hrun => ?_⟩
    refine h (a :: front) back u (by rw [hsplit]; rfl) ?_
    rw [run_cons, hstep]
    exact hrun
  · rintro ⟨hs, h⟩ front back u hsplit hrun
    cases front with
    | nil =>
      cases hrun
      exact hs
    | cons b front =>
      obtain ⟨rfl, hsplit'⟩ := List.cons.inj hsplit
      rw [run_cons, hstep] at hrun
      exact h front back u hsplit' hrun

/-- **The exactness rule for every moment.**  When a step from a state with `P`
leads to one with `P` just in case the guard allows it, `P` holds all along a run
just in case the guard allows all of it. -/
theorem always_iff_meets (hinv : ∀ s a s', I s → M.step s a = some s' → I s')
    (hstep : ∀ s a s', I s → P s → M.step s a = some s' → (P s' ↔ G s a)) :
    ∀ {as : List ε} {s t : σ}, I s → P s → M.run s as = some t →
      (M.Always P s as ↔ M.Meets G s as) := by
  intro as
  induction as with
  | nil =>
    intro s t _ hP _
    rw [always_nil]
    simp [Meets, hP]
  | cons a as ih =>
    intro s t hs hP hrun
    obtain ⟨s', hs', hrun'⟩ := M.run_eq_some_cons hrun
    rw [always_cons M hs', Meets, hs', ← hstep s a s' hs hP hs']
    constructor
    · rintro ⟨-, halways⟩
      have hP' : P s' := halways [] as s' rfl rfl
      exact ⟨hP', (ih (hinv s a s' hs hs') hP' hrun').1 halways⟩
    · rintro ⟨hP', hmeets⟩
      exact ⟨hP, (ih (hinv s a s' hs hs') hP' hrun').2 hmeets⟩

/-! ## Machines side by side -/

section Family

variable {ι : Type*} [DecidableEq ι]

/-- One machine for each index; an event is one of them. -/
def family (N : ι → Machine σ ε) : Machine (ι → σ) (ι × ε) where
  step s a := ((N a.1).step (s a.1) a.2).map (Function.update s a.1)

variable {N : ι → Machine σ ε}

theorem family_step {s s' : ι → σ} {i : ι} {a : ε} (h : (family N).step s (i, a) = some s') :
    ∃ u, (N i).step (s i) a = some u ∧ s' = Function.update s i u := by
  obtain ⟨u, hu, heq⟩ := Option.map_eq_some_iff.1 h
  exact ⟨u, hu, heq.symm⟩

theorem forall_update {P : ι → σ → Prop} {s : ι → σ} (h : ∀ j, P j (s j)) {i : ι} {u : σ} :
    (∀ j, P j (Function.update s i u j)) ↔ P i u := by
  constructor
  · intro hall
    have hi := hall i
    rwa [Function.update_self] at hi
  · intro hi j
    by_cases hj : j = i
    · subst hj
      rwa [Function.update_self]
    · rw [Function.update_of_ne hj]
      exact h j

theorem family_always_iff_meets {I P : ι → σ → Prop} {G : ι → σ → ε → Prop}
    (hinv : ∀ i s a s', I i s → (N i).step s a = some s' → I i s')
    (hstep : ∀ i s a s', I i s → P i s → (N i).step s a = some s' → (P i s' ↔ G i s a))
    {as : List (ι × ε)} {s t : ι → σ} (hI : ∀ i, I i (s i)) (hP : ∀ i, P i (s i))
    (hrun : (family N).run s as = some t) :
    (family N).Always (fun s => ∀ i, P i (s i)) s as ↔
      (family N).Meets (fun s a => G a.1 (s a.1) a.2) s as := by
  refine (family N).always_iff_meets (I := fun s => ∀ i, I i (s i)) ?_ ?_ hI hP hrun
  · rintro s ⟨i, a⟩ s' hs h
    obtain ⟨u, hu, rfl⟩ := family_step h
    exact (forall_update hs).2 (hinv i (s i) a u (hs i) hu)
  · rintro s ⟨i, a⟩ s' hs hPs h
    obtain ⟨u, hu, rfl⟩ := family_step h
    rw [forall_update hPs]
    exact hstep i (s i) a u (hs i) (hPs i) hu

end Family

end Machine

end XEdge.Lib
