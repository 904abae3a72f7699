import Mathlib

/-!
# Latches and runs over a history

A latch is set by so many `x` in a row and reset by so many `y` in a row.  Code keeps it with two
counters; what it stands for is a fact about the whole history.  So is the run that goes on at the
end of a history, between whose elements others may stand that do not count.
-/

namespace XEdge.Lib

variable {α : Type*}

/-! ## The run at the end of a history -/

theorem replicate_suffix_concat {x y : α} {n : Nat} {l : List α} :
    List.replicate (n + 1) x <:+ l ++ [y] ↔ x = y ∧ List.replicate n x <:+ l := by
  rw [List.suffix_concat_iff, List.replicate_succ']
  constructor
  · rintro (h | ⟨t, h, ht⟩)
    · exact absurd h (by simp)
    · obtain ⟨hinit, hlast⟩ := List.append_inj' h rfl
      exact ⟨List.singleton_inj.1 hlast, hinit ▸ ht⟩
  · rintro ⟨rfl, h⟩
    exact .inr ⟨_, rfl, h⟩

section Trailing

variable [DecidableEq α]

/-- How many `x` the history ends with. -/
def trailing (x : α) (l : List α) : Nat :=
  (l.rtakeWhile (· = x)).length

@[simp] theorem trailing_nil (x : α) : trailing x [] = 0 := rfl

@[simp] theorem trailing_concat_self (x : α) (l : List α) :
    trailing x (l ++ [x]) = trailing x l + 1 := by
  simp [trailing]

@[simp] theorem trailing_concat_of_ne {x y : α} (h : y ≠ x) (l : List α) :
    trailing x (l ++ [y]) = 0 := by
  simp [trailing, h]

theorem replicate_suffix_iff (x : α) (n : Nat) (l : List α) :
    List.replicate n x <:+ l ↔ n ≤ trailing x l := by
  induction l using List.reverseRecOn generalizing n with
  | nil => simp
  | append_singleton l y ih =>
    cases n with
    | zero => simp
    | succ n =>
      rw [replicate_suffix_concat, ih]
      by_cases hxy : y = x
      · subst hxy
        simp
      · have hne : x ≠ y := fun h => hxy h.symm
        simp [trailing_concat_of_ne hxy, hne]

end Trailing

/-! ## The latch -/

/-- Somewhere `x` came `m` times in a row, and after that `y` came nowhere `n` times in a row. -/
def Latched (x y : α) (m n : Nat) (l : List α) : Prop :=
  ∃ before after, l = before ++ List.replicate m x ++ after ∧ ¬ List.replicate n y <:+: after

variable {x y : α} {m n : Nat} {l : List α}

theorem not_latched_nil (hm : 0 < m) : ¬ Latched x y m n [] := by
  rintro ⟨before, after, hl, -⟩
  have hlength := congrArg List.length hl
  simp at hlength
  omega

theorem not_replicate_suffix_concat (hn : 0 < n) (hxy : x ≠ y) :
    ¬ List.replicate n x <:+ l ++ [y] := by
  obtain ⟨k, rfl⟩ := Nat.exists_eq_add_of_lt hn
  rw [Nat.zero_add, replicate_suffix_concat]
  exact fun h => hxy h.1

/-- The latch after one more element: the run that sets it is at the very end, or it was there
before and the rest has grown. -/
theorem latched_concat {z : α} (hn : 0 < n) :
    Latched x y m n (l ++ [z]) ↔
      List.replicate m x <:+ l ++ [z] ∨
        ∃ before after, l = before ++ List.replicate m x ++ after ∧
          ¬ List.replicate n y <:+: after ++ [z] := by
  constructor
  · rintro ⟨before, after, hl, hafter⟩
    rcases List.eq_nil_or_concat' after with rfl | ⟨init, last, rfl⟩
    · exact .inl ⟨before, by simpa using hl.symm⟩
    · rw [← List.append_assoc] at hl
      obtain ⟨hinit, hlast⟩ := List.append_inj' hl rfl
      rw [List.singleton_inj.1 hlast]
      exact .inr ⟨before, init, hinit, hafter⟩
  · rintro (⟨before, hl⟩ | ⟨before, after, rfl, hafter⟩)
    · refine ⟨before, [], by simpa using hl.symm, ?_⟩
      simp [Nat.ne_of_gt hn]
    · exact ⟨before, after ++ [z], by simp, hafter⟩

theorem latched_concat_set (hn : 0 < n) (hxy : x ≠ y) :
    Latched x y m n (l ++ [x]) ↔ Latched x y m n l ∨ List.replicate m x <:+ l ++ [x] := by
  have hgrow : ∀ after : List α,
      List.replicate n y <:+: after ++ [x] ↔ List.replicate n y <:+: after := by
    intro after
    rw [List.infix_concat_iff]
    exact or_iff_right (not_replicate_suffix_concat hn hxy.symm)
  rw [latched_concat hn, or_comm]
  simp only [hgrow]
  rfl

theorem replicate_suffix_after (hm : 0 < m) (hxy : x ≠ y) (before after : List α) :
    List.replicate n y <:+ before ++ List.replicate m x ++ after ↔
      List.replicate n y <:+ after := by
  constructor
  · intro h
    obtain ⟨k, rfl⟩ := Nat.exists_eq_add_of_lt hm
    have hafter : x :: after <:+ before ++ List.replicate (0 + k + 1) x ++ after :=
      ⟨before ++ List.replicate k x, by simp [List.replicate_succ']⟩
    -- of two ends one is an end of the other, and no run of `y` has an `x` in it
    rcases List.suffix_or_suffix_of_suffix h hafter with h | h
    · rcases List.suffix_cons_iff.1 h with h | h
      · have hmem : x ∈ List.replicate n y := h ▸ List.mem_cons_self
        exact absurd (List.eq_of_mem_replicate hmem) hxy
      · exact h
    · exact absurd (List.eq_of_mem_replicate (h.subset List.mem_cons_self)) hxy
  · intro h
    exact h.trans (List.suffix_append _ _)

theorem latched_concat_reset (hm : 0 < m) (hn : 0 < n) (hxy : x ≠ y) :
    Latched x y m n (l ++ [y]) ↔ Latched x y m n l ∧ ¬ List.replicate n y <:+ l ++ [y] := by
  rw [latched_concat hn, or_iff_right (not_replicate_suffix_concat hm hxy)]
  constructor
  · rintro ⟨before, after, rfl, hafter⟩
    rw [List.infix_concat_iff, not_or] at hafter
    refine ⟨⟨before, after, rfl, hafter.2⟩, ?_⟩
    rw [List.append_assoc _ after, replicate_suffix_after hm hxy]
    exact hafter.1
  · rintro ⟨⟨before, after, rfl, hafter⟩, hend⟩
    rw [List.append_assoc _ after, replicate_suffix_after hm hxy] at hend
    exact ⟨before, after, rfl, by rw [List.infix_concat_iff, not_or]; exact ⟨hend, hafter⟩⟩

/-! ## The run that goes on -/

section CurrentRun

variable (verdict : α → Option Bool)

/-- Of the elements that are judged at all, the last one is judged `true`. -/
def Raised (l : List α) : Prop := (l.filterMap verdict).getLast? = some true

/-- The elements judged `true` at the end of the history, with no `false` between them: `first` is
the first one, and `rest` all that came after it. -/
def CurrentRun (l : List α) (first : α) (rest : List α) : Prop :=
  ∃ before, l = before ++ first :: rest ∧ ¬ Raised verdict before ∧ verdict first = some true ∧
    ∀ a ∈ rest, verdict a ≠ some false

variable {verdict} {a first : α} {rest : List α}

theorem raised_concat_of_some {b : Bool} (h : verdict a = some b) :
    Raised verdict (l ++ [a]) ↔ b = true := by
  simp [Raised, h]

theorem raised_concat_of_none (h : verdict a = none) :
    Raised verdict (l ++ [a]) ↔ Raised verdict l := by
  simp [Raised, h]

theorem currentRun_start (hl : ¬ Raised verdict l) (ha : verdict a = some true) :
    CurrentRun verdict (l ++ [a]) a [] :=
  ⟨l, rfl, hl, ha, by simp⟩

theorem CurrentRun.concat (h : CurrentRun verdict l first rest) (ha : verdict a ≠ some false) :
    CurrentRun verdict (l ++ [a]) first (rest ++ [a]) := by
  obtain ⟨before, rfl, hbefore, hfirst, hrest⟩ := h
  refine ⟨before, by simp, hbefore, hfirst, fun b hb => ?_⟩
  rcases List.mem_append.1 hb with hb | hb
  · exact hrest b hb
  · rwa [List.mem_singleton.1 hb]

theorem CurrentRun.raised (h : CurrentRun verdict l first rest) : Raised verdict l := by
  obtain ⟨before, rfl, -, hfirst, hrest⟩ := h
  induction rest using List.reverseRecOn with
  | nil => exact (raised_concat_of_some hfirst).2 rfl
  | append_singleton rest a ih =>
    have hraised := ih fun b hb => hrest b (List.mem_append_left _ hb)
    have hlist : before ++ first :: (rest ++ [a]) = (before ++ first :: rest) ++ [a] := by simp
    rw [hlist]
    cases ha : verdict a with
    | none => exact (raised_concat_of_none ha).2 hraised
    | some b =>
      cases b with
      | true => exact (raised_concat_of_some ha).2 rfl
      | false => exact absurd ha (hrest a (by simp))

theorem CurrentRun.unique {first' : α} {rest' : List α} (h : CurrentRun verdict l first rest)
    (h' : CurrentRun verdict l first' rest') : first = first' ∧ rest = rest' := by
  -- of two beginnings the later one would be preceded by a run that goes on
  have hlater : ∀ {before before' rest rest' first first'},
      before ++ first :: rest = before' ++ first' :: rest' → ¬ Raised verdict before' →
      verdict first = some true → (∀ a ∈ rest, verdict a ≠ some false) →
      ∀ as, before' = before ++ as → ¬ Raised verdict before → as = [] := by
    intro before before' rest rest' first first' heq hbefore' hfirst hrest as has hbefore
    cases as with
    | nil => rfl
    | cons b as =>
      subst has
      rw [List.append_assoc, List.append_cancel_left_eq, List.cons_append, List.cons.injEq] at heq
      obtain ⟨rfl, rfl⟩ := heq
      have hrun : CurrentRun verdict (before ++ first :: as) first as :=
        ⟨before, rfl, hbefore, hfirst, fun c hc => hrest c (List.mem_append_left _ hc)⟩
      exact absurd hrun.raised hbefore'
  obtain ⟨before, rfl, hbefore, hfirst, hrest⟩ := h
  obtain ⟨before', heq, hbefore', hfirst', hrest'⟩ := h'
  rcases List.append_eq_append_iff.1 heq with ⟨as, has, htail⟩ | ⟨as, has, htail⟩
  · have hnil := hlater heq hbefore' hfirst hrest as has hbefore
    subst hnil
    simpa using htail
  · have hnil := hlater heq.symm hbefore hfirst' hrest' as has hbefore'
    subst hnil
    have htail' : first' = first ∧ rest' = rest := by simpa using htail
    exact ⟨htail'.1.symm, htail'.2.symm⟩

end CurrentRun

end XEdge.Lib
