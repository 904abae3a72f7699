import Mathlib

/-!
# Computations that may raise

Python code that raises is modelled in `Except`.  The lemmas below take a computation
apart, so that no proof has to unfold `do` notation: `bind_eq_ok` and `map_eq_ok` for its
result, `bind_eq_error` and `map_eq_error` for what it raises, `isOk_map`, `isOk_bind_ok` and
`isOk_bind_bind` for whether it raises.  `concat` puts an output together from parts that may
raise; it raises if one of them does (`isOk_concat`).  `exists_mapM_ok`, `mapM_eq_ok_map`,
`mapM_eq_ok` and `mapM_eq_error` are about a computation for each of a list.
-/

namespace XEdge.Lib

variable {ε α β : Type}

variable {x : Except ε α} {f : α → Except ε β} {b : β}

theorem bind_eq_ok :
    (x >>= f) = .ok b ↔ ∃ a, x = .ok a ∧ f a = .ok b := by
  constructor
  · intro h
    cases x with
    | error e => cases h
    | ok a => exact ⟨a, rfl, h⟩
  · rintro ⟨a, rfl, h⟩
    exact h

variable {e : ε}

theorem bind_eq_error :
    (x >>= f) = .error e ↔ x = .error e ∨ ∃ a, x = .ok a ∧ f a = .error e := by
  cases x with
  | error | ok => simp [bind, Except.bind]

theorem map_eq_ok {f : α → β} :
    f <$> x = .ok b ↔ ∃ a, x = .ok a ∧ f a = b := by
  constructor
  · intro h
    cases x with
    | error e => cases h
    | ok a => exact ⟨a, rfl, Except.ok.inj h⟩
  · rintro ⟨a, rfl, rfl⟩
    rfl

theorem map_eq_error {f : α → β} :
    f <$> x = .error e ↔ x = .error e := by
  cases x <;> simp [Functor.map, Except.map]

theorem exists_ok_of_isOk (h : x.isOk = true) : ∃ a, x = .ok a := by
  cases x with
  | error e => cases h
  | ok a => exact ⟨a, rfl⟩

theorem isOk_map (f : α → β) (x : Except ε α) : (x.map f).isOk = x.isOk := by
  cases x <;> rfl

theorem isOk_bind_ok (x : Except ε α) (g : α → β) :
    (x >>= fun a => Except.ok (g a)).isOk = x.isOk := by
  cases x <;> rfl

theorem isOk_bind_bind {γ : Type} (x : Except ε α) (y : Except ε β) (g : α → β → γ) :
    (x >>= fun a => y >>= fun b => Except.ok (g a b)).isOk = true ↔
      x.isOk = true ∧ y.isOk = true := by
  cases x <;> cases y <;> simp [bind, Except.bind, Except.isOk, Except.toBool]

variable {l : List α}

theorem exists_mapM_ok {R : α → β → Prop} (h : ∀ x ∈ l, ∃ y, f x = .ok y ∧ R x y) :
    ∃ ys, l.mapM f = .ok ys ∧ List.Forall₂ R l ys := by
  induction l with
  | nil => exact ⟨[], rfl, List.Forall₂.nil⟩
  | cons x l ih =>
    obtain ⟨⟨y, hy, hxy⟩, hl⟩ := List.forall_mem_cons.1 h
    obtain ⟨ys, hys, hforall⟩ := ih hl
    refine ⟨y :: ys, ?_, List.Forall₂.cons hxy hforall⟩
    rw [List.mapM_cons, hy, hys]
    rfl

theorem mapM_eq_ok_map {g : α → β} (h : ∀ x ∈ l, f x = .ok (g x)) : l.mapM f = .ok (l.map g) := by
  induction l with
  | nil => rfl
  | cons x l ih =>
    obtain ⟨hx, hl⟩ := List.forall_mem_cons.1 h
    rw [List.mapM_cons, hx, ih hl]
    rfl

theorem mapM_eq_ok {ys : List β} (h : l.mapM f = .ok ys) :
    List.Forall₂ (fun x y => f x = .ok y) l ys := by
  induction l generalizing ys with
  | nil =>
    cases h
    exact .nil
  | cons x l ih =>
    rw [List.mapM_cons] at h
    obtain ⟨y, hy, h⟩ := bind_eq_ok.1 h
    obtain ⟨rest, hrest, h⟩ := bind_eq_ok.1 h
    cases h
    exact .cons hy (ih hrest)

theorem mapM_eq_error (h : l.mapM f = .error e) :
    ∃ x ∈ l, f x = .error e := by
  induction l with
  | nil => cases h
  | cons x l ih =>
    rw [List.mapM_cons] at h
    rcases bind_eq_error.1 h with hx | ⟨y, -, h⟩
    · exact ⟨x, List.mem_cons_self .., hx⟩
    · rcases bind_eq_error.1 h with hrest | ⟨_, -, h⟩
      · obtain ⟨x', hmem, hx'⟩ := ih hrest
        exact ⟨x', List.mem_cons_of_mem _ hmem, hx'⟩
      · cases h

def concat : List (Except ε (List β)) → Except ε (List β)
  | [] => .ok []
  | p :: ps => p >>= fun b => concat ps >>= fun bs => .ok (b ++ bs)

theorem isOk_concat {ps : List (Except ε (List β))} :
    (concat ps).isOk = true ↔ ∀ p ∈ ps, p.isOk = true := by
  induction ps with
  | nil => simp [concat, Except.isOk, Except.toBool]
  | cons p ps ih => rw [concat, isOk_bind_bind, ih, List.forall_mem_cons]

end XEdge.Lib
