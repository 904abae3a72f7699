import Mathlib.Data.List.Sort
import Mathlib.Order.Interval.Set.Basic
import Mathlib.Tactic.Linarith

/-!
# Grouping spans

Things that each take up a span of the integers are put into groups, so that a group is not wider
than a limit and leaves no hole in it that is wider than a tolerance.  The greedy way is to take
the things in the order of their starts and to open a new group whenever the next one does not fit
the last group.
-/

namespace XEdge.Lib

/-- Things that take up the integers from `start` to `stop`, without `stop`. -/
structure Spans (α : Type*) where
  start : α → ℤ
  stop : α → ℤ
  start_lt_stop : ∀ x, start x < stop x

namespace Spans

variable {α : Type*} (S : Spans α) (limit gap : ℤ)

/-- The integer lies in the span of `x`. -/
def Covers (x : α) (z : ℤ) : Prop := S.start x ≤ z ∧ z < S.stop x

/-- None of the integers from `a` to `b`, without `b`, is covered. -/
def Hole (items : List α) (a b : ℤ) : Prop :=
  ∀ z, a ≤ z → z < b → ∀ x ∈ items, ¬ S.Covers x z

structure Group (α : Type*) where
  lower : ℤ
  upper : ℤ
  items : List α

def Group.single (x : α) : Group α := ⟨S.start x, S.stop x, [x]⟩

def Group.push (g : Group α) (x : α) : Group α :=
  ⟨g.lower, max g.upper (S.stop x), g.items ++ [x]⟩

/-- `x` fits the group. -/
def Group.Takes (g : Group α) (x : α) : Prop :=
  max g.upper (S.stop x) - g.lower ≤ limit ∧ S.start x - g.upper ≤ gap

instance (g : Group α) (x : α) : Decidable (g.Takes S limit gap x) :=
  inferInstanceAs (Decidable (_ ∧ _))

def greedyFrom (g : Group α) : List α → List (Group α)
  | [] => [g]
  | x :: xs =>
      if g.Takes S limit gap x then greedyFrom (g.push S x) xs
      else g :: greedyFrom (.single S x) xs

def greedy : List α → List (Group α)
  | [] => []
  | x :: xs => greedyFrom S limit gap (.single S x) xs

/-! ## What the groups are -/

/-- A group reaches from its first start to its last stop; one of more than one thing meets the
limit, and none has a hole that is too wide. -/
structure Group.Sound (g : Group α) : Prop where
  first : ∃ x ∈ g.items, S.start x = g.lower
  last : ∃ x ∈ g.items, S.stop x = g.upper
  within : ∀ x ∈ g.items, g.lower ≤ S.start x ∧ S.stop x ≤ g.upper
  limited : 1 < g.items.length → g.upper - g.lower ≤ limit
  bridged : ∀ a b, a < b → g.lower ≤ a → b ≤ g.upper → S.Hole g.items a b → b - a ≤ gap

variable {S limit gap}

theorem Group.sound_single (x : α) : (Group.single S x).Sound S limit gap := by
  refine ⟨⟨x, by simp [single], rfl⟩, ⟨x, by simp [single], rfl⟩, ?_, by simp [single], ?_⟩
  · simp [single]
  · intro a b hab ha hb hhole
    exact absurd ⟨ha, lt_of_lt_of_le hab hb⟩ (hhole a le_rfl hab x (by simp [single]))

/-- A hole of the larger group is one of the smaller, or lies between its end and the start of
the thing that was added. -/
theorem Group.Sound.push {g : Group α} (h : g.Sound S limit gap) {x : α}
    (hfit : g.Takes S limit gap x) (hx : g.lower ≤ S.start x) :
    (g.push S x).Sound S limit gap := by
  obtain ⟨hlimit, hgap⟩ := hfit
  obtain ⟨y, hy, hlast⟩ := h.last
  have hmem : ∀ z ∈ g.items, z ∈ (g.push S x).items := fun z hz => List.mem_append_left _ hz
  have hself : x ∈ (g.push S x).items := List.mem_append_right _ (List.mem_singleton_self x)
  refine ⟨?_, ?_, ?_, fun _ => hlimit, ?_⟩
  · obtain ⟨z, hz, hfirst⟩ := h.first
    exact ⟨z, hmem z hz, hfirst⟩
  · obtain hle | hle := le_total g.upper (S.stop x)
    · exact ⟨x, hself, (max_eq_right hle).symm⟩
    · exact ⟨y, hmem y hy, hlast.trans (max_eq_left hle).symm⟩
  · intro z hz
    obtain hz | hz := List.mem_append.1 hz
    · have hzg := h.within z hz
      exact ⟨hzg.1, hzg.2.trans (le_max_left _ _)⟩
    · rw [List.mem_singleton.1 hz]
      exact ⟨hx, le_max_right _ _⟩
  · intro a b hab ha hb hhole
    have hold : S.Hole g.items a b := fun z hza hzb w hw => hhole z hza hzb w (hmem w hw)
    by_cases hupper : b ≤ g.upper
    · exact h.bridged a b hab ha hupper hold
    · have hbx : b ≤ S.stop x := by
        obtain hle | hle := le_max_iff.1 hb
        · exact absurd hle hupper
        · exact hle
      -- the last thing of the group covers everything up to its end
      have hafter : g.upper ≤ a := by
        by_contra hlt
        refine hold (g.upper - 1) (by omega) (by omega) y hy ⟨?_, by omega⟩
        have := S.start_lt_stop y
        omega
      have hbefore : b ≤ S.start x := by
        by_contra hlt
        exact hhole (b - 1) (by omega) (by omega) x hself ⟨by omega, by omega⟩
      omega

theorem flatMap_greedyFrom (g : Group α) (xs : List α) :
    (greedyFrom S limit gap g xs).flatMap Group.items = g.items ++ xs := by
  induction xs generalizing g with
  | nil => simp [greedyFrom]
  | cons x xs ih =>
    rw [greedyFrom]
    split
    · rw [ih, Group.push, List.append_assoc]
      rfl
    · rw [List.flatMap_cons, ih]
      rfl

theorem flatMap_greedy (xs : List α) : (greedy S limit gap xs).flatMap Group.items = xs := by
  cases xs with
  | nil => rfl
  | cons x xs => exact flatMap_greedyFrom _ xs

section Sorted

def Sorted (S : Spans α) (xs : List α) : Prop := xs.Pairwise fun x y => S.start x ≤ S.start y

variable {g : Group α} {xs : List α}

theorem sound_greedyFrom (hg : g.Sound S limit gap)
    (hsorted : S.Sorted xs) (hfrom : ∀ x ∈ xs, g.lower ≤ S.start x) :
    ∀ g' ∈ greedyFrom S limit gap g xs, g'.Sound S limit gap ∧ g.lower ≤ g'.lower := by
  induction xs generalizing g with
  | nil =>
    intro g' hg'
    rw [List.mem_singleton.1 hg']
    exact ⟨hg, le_rfl⟩
  | cons x xs ih =>
    obtain ⟨hx, hxs⟩ := List.pairwise_cons.1 hsorted
    obtain ⟨hgx, hgxs⟩ := List.forall_mem_cons.1 hfrom
    rw [greedyFrom]
    split
    · next hfit => exact ih (hg.push hfit hgx) hxs hgxs
    · intro g' hg'
      obtain rfl | hg' := List.mem_cons.1 hg'
      · exact ⟨hg, le_rfl⟩
      · obtain ⟨hsound, hle⟩ := ih (Group.sound_single x) hxs hx g' hg'
        exact ⟨hsound, hgx.trans hle⟩

theorem sound_greedy (hsorted : S.Sorted xs) :
    ∀ g ∈ greedy S limit gap xs, g.Sound S limit gap := by
  cases xs with
  | nil => simp [greedy]
  | cons x xs =>
    obtain ⟨hx, hxs⟩ := List.pairwise_cons.1 hsorted
    intro g hg
    exact (sound_greedyFrom (Group.sound_single x) hxs hx g hg).1

theorem pairwise_greedyFrom (hg : g.Sound S limit gap)
    (hsorted : S.Sorted xs) (hfrom : ∀ x ∈ xs, g.lower ≤ S.start x) :
    (greedyFrom S limit gap g xs).Pairwise fun g₁ g₂ => g₁.lower ≤ g₂.lower := by
  induction xs generalizing g with
  | nil => exact List.pairwise_singleton _ _
  | cons x xs ih =>
    obtain ⟨hx, hxs⟩ := List.pairwise_cons.1 hsorted
    obtain ⟨hgx, hgxs⟩ := List.forall_mem_cons.1 hfrom
    rw [greedyFrom]
    split
    · next hfit => exact ih (hg.push hfit hgx) hxs hgxs
    · refine List.pairwise_cons.2 ⟨fun g' hg' => ?_, ih (Group.sound_single x) hxs hx⟩
      exact hgx.trans (sound_greedyFrom (Group.sound_single x) hxs hx g' hg').2

theorem pairwise_greedy (hsorted : S.Sorted xs) :
    (greedy S limit gap xs).Pairwise fun g₁ g₂ => g₁.lower ≤ g₂.lower := by
  cases xs with
  | nil => exact List.Pairwise.nil
  | cons x xs =>
    obtain ⟨hx, hxs⟩ := List.pairwise_cons.1 hsorted
    exact pairwise_greedyFrom (Group.sound_single x) hxs hx

end Sorted

/-! ## No grouping is smaller -/

section Apart

/-- A group cannot have both `x` and, after it, `y`: they are too far apart, or `y` starts too far
behind everything that comes before it. -/
def Apart (S : Spans α) (before : α → α → Prop) (limit gap : ℤ) (all : List α) (x y : α) : Prop :=
  limit < S.stop y - S.start x ∨ ∀ z ∈ all, before z y → gap < S.start y - S.stop z

variable {before : α → α → Prop} {all done rest openers : List α} {g : Group α} {x : α}

theorem mem_of_before (hasymm : ∀ x y, before x y → ¬ before y x) (hall : all = done ++ x :: rest)
    (horder : all.Pairwise before) {z : α} (hz : z ∈ all) (hzx : before z x) : z ∈ done := by
  rw [hall] at hz horder
  obtain hz | hz := List.mem_append.1 hz
  · exact hz
  · obtain rfl | hz := List.mem_cons.1 hz
    · exact absurd hzx (hasymm _ _ hzx)
    · have hafter := (List.pairwise_cons.1 (List.pairwise_append.1 horder).2.1).1 z hz
      exact absurd hzx (hasymm _ _ hafter)

/-- The invariant of the scan: `openers` are the things that opened a group, the open group `g`
included, and no two of them can share one.

What was done ends by the end of the open group, or so far before its start that no group can
bridge it: a group that was closed can reach beyond the one that follows it only in the second
way. -/
structure Opened (S : Spans α) (before : α → α → Prop) (limit gap : ℤ)
    (all done openers : List α) (g : Group α) : Prop where
  reach : ∀ z ∈ done, S.stop z ≤ g.upper ∨ gap < g.lower - S.stop z
  width : g.upper - g.lower ≤ limit
  sublist : openers.Sublist done
  starts : ∀ y ∈ openers, S.start y ≤ g.lower
  apart : openers.Pairwise (S.Apart before limit gap all)

theorem Opened.single (hwide : S.stop x - S.start x ≤ limit) :
    S.Opened before limit gap all [x] [x] (.single S x) where
  reach := by simp [Group.single]
  width := hwide
  sublist := List.Sublist.refl _
  starts := by simp [Group.single]
  apart := List.pairwise_singleton _ _

theorem Opened.push (h : S.Opened before limit gap all done openers g)
    (hfit : g.Takes S limit gap x) :
    S.Opened before limit gap all (done ++ [x]) openers (g.push S x) where
  reach := by
    intro z hz
    obtain hz | hz := List.mem_append.1 hz
    · exact (h.reach z hz).imp_left fun hle => hle.trans (le_max_left _ _)
    · rw [List.mem_singleton.1 hz]
      exact .inl (le_max_right _ _)
  width := hfit.1
  sublist := h.sublist.trans (List.sublist_append_left ..)
  starts := h.starts
  apart := h.apart

theorem Opened.apart_of_not_takes (hasymm : ∀ x y, before x y → ¬ before y x)
    (hall : all = done ++ x :: rest) (horder : all.Pairwise before)
    (h : S.Opened before limit gap all done openers g) (hgx : g.lower ≤ S.start x)
    (hfit : ¬ g.Takes S limit gap x) {y : α} (hy : y ∈ openers) :
    S.Apart before limit gap all y x := by
  have hystart := h.starts y hy
  have hwidth := h.width
  by_cases hgap : S.start x - g.upper ≤ gap
  · refine .inl ?_
    by_contra hnot
    exact hfit ⟨by omega, hgap⟩
  · refine .inr fun z hz hzx => ?_
    obtain hle | hlt := h.reach z (mem_of_before hasymm hall horder hz hzx)
    · omega
    · omega

theorem Opened.open (hasymm : ∀ x y, before x y → ¬ before y x)
    (hall : all = done ++ x :: rest) (horder : all.Pairwise before)
    (h : S.Opened before limit gap all done openers g) (hgx : g.lower ≤ S.start x)
    (hwide : S.stop x - S.start x ≤ limit) (hfit : ¬ g.Takes S limit gap x) :
    S.Opened before limit gap all (done ++ [x]) (openers ++ [x]) (.single S x) where
  reach := by
    have hwidth := h.width
    intro z hz
    obtain hz | hz := List.mem_append.1 hz
    · show S.stop z ≤ S.stop x ∨ gap < S.start x - S.stop z
      obtain hle | hlt := h.reach z hz
      · by_contra hnot
        refine hfit ⟨?_, by omega⟩
        rwa [max_eq_left (by omega)]
      · exact .inr (by omega)
    · rw [List.mem_singleton.1 hz]
      exact .inl le_rfl
  width := hwide
  sublist := h.sublist.append_right [x]
  starts := by
    intro y hy
    obtain hy | hy := List.mem_append.1 hy
    · exact (h.starts y hy).trans hgx
    · rw [List.mem_singleton.1 hy]
      exact le_rfl
  apart := by
    refine List.pairwise_append.2 ⟨h.apart, List.pairwise_singleton _ _, ?_⟩
    intro y hy z hz
    rw [List.mem_singleton.1 hz]
    exact h.apart_of_not_takes hasymm hall horder hgx hfit hy

theorem exists_apart_from (hasymm : ∀ x y, before x y → ¬ before y x) (hall : all = done ++ rest)
    (horder : all.Pairwise before) (hsorted : S.Sorted rest)
    (hwide : ∀ y ∈ rest, S.stop y - S.start y ≤ limit) (hfrom : ∀ y ∈ rest, g.lower ≤ S.start y)
    (hopened : S.Opened before limit gap all done openers g) :
    ∃ ys : List α, ys.length + 1 = openers.length + (greedyFrom S limit gap g rest).length ∧
      ys.Sublist all ∧ ys.Pairwise (S.Apart before limit gap all) := by
  induction rest generalizing done g openers with
  | nil =>
    exact ⟨openers, rfl, hall ▸ hopened.sublist.trans (List.sublist_append_left ..), hopened.apart⟩
  | cons x rest ih =>
    obtain ⟨hx, hrest⟩ := List.pairwise_cons.1 hsorted
    obtain ⟨hgx, hgrest⟩ := List.forall_mem_cons.1 hfrom
    obtain ⟨hxwide, hrestwide⟩ := List.forall_mem_cons.1 hwide
    have hall' : all = (done ++ [x]) ++ rest := by simp [hall]
    rw [greedyFrom]
    split
    · next hfit => exact ih hall' hrest hrestwide hgrest (hopened.push hfit)
    · next hfit =>
      obtain ⟨ys, hlength, hys⟩ := ih (g := .single S x) hall' hrest hrestwide hx
        (hopened.open hasymm hall horder hgx hxwide hfit)
      refine ⟨ys, ?_, hys⟩
      simp only [List.length_append, List.length_cons, List.length_nil] at hlength ⊢
      omega

theorem exists_apart (gap : ℤ) (hasymm : ∀ x y, before x y → ¬ before y x)
    (horder : all.Pairwise before) (hsorted : S.Sorted all)
    (hwide : ∀ y ∈ all, S.stop y - S.start y ≤ limit) :
    ∃ ys : List α, ys.length = (greedy S limit gap all).length ∧ ys.Sublist all ∧
      ys.Pairwise (S.Apart before limit gap all) := by
  cases all with
  | nil => exact ⟨[], rfl, List.Sublist.refl _, List.Pairwise.nil⟩
  | cons x rest =>
    obtain ⟨hx, hrest⟩ := List.pairwise_cons.1 hsorted
    obtain ⟨hxwide, hrestwide⟩ := List.forall_mem_cons.1 hwide
    have hall : x :: rest = [x] ++ rest := rfl
    obtain ⟨ys, hlength, hys⟩ := exists_apart_from (g := .single S x) hasymm hall horder hrest
      hrestwide hx (.single hxwide)
    refine ⟨ys, ?_, hys⟩
    rw [List.length_singleton] at hlength
    rw [greedy]
    omega

end Apart

/-! ## Things that are looked at through a map -/

section Comap

variable {β : Type*} (f : β → α)

def comap (S : Spans α) : Spans β where
  start x := S.start (f x)
  stop x := S.stop (f x)
  start_lt_stop x := S.start_lt_stop (f x)

theorem length_greedyFrom_map {g : Group α} {g' : Group β} (hlower : g'.lower = g.lower)
    (hupper : g'.upper = g.upper) (l : List β) :
    (greedyFrom S limit gap g (l.map f)).length =
      (greedyFrom (S.comap f) limit gap g' l).length := by
  induction l generalizing g g' with
  | nil => rfl
  | cons x l ih =>
    have htakes : g'.Takes (S.comap f) limit gap x ↔ g.Takes S limit gap (f x) := by
      rw [Group.Takes, Group.Takes, hlower, hupper]
      rfl
    rw [List.map_cons, greedyFrom, greedyFrom]
    by_cases hfit : g.Takes S limit gap (f x)
    · rw [if_pos hfit, if_pos (htakes.2 hfit)]
      exact ih hlower (congrArg (max · (S.stop (f x))) hupper)
    · rw [if_neg hfit, if_neg (htakes.not.2 hfit), List.length_cons, List.length_cons]
      exact congrArg (· + 1) (ih rfl rfl)

theorem length_greedy_map (l : List β) :
    (greedy S limit gap (l.map f)).length = (greedy (S.comap f) limit gap l).length := by
  cases l with
  | nil => rfl
  | cons x l => exact length_greedyFrom_map f rfl rfl l

end Comap

end Spans

/-! ## Sorting is stable -/

section Stable

variable {α : Type*} {r lt : α → α → Prop} [DecidableRel r]

variable {l : List α}

theorem pairwise_orderedInsert_stable {a : α}
    (hl : l.Pairwise fun x y => r y x → lt x y) (ha : ∀ x ∈ l, lt a x) :
    (l.orderedInsert r a).Pairwise fun x y => r y x → lt x y := by
  induction l with
  | nil => exact List.pairwise_singleton _ _
  | cons b l ih =>
    obtain ⟨hb, hl'⟩ := List.pairwise_cons.1 hl
    by_cases hab : r a b
    · rw [List.orderedInsert_cons_of_le r l hab]
      exact List.pairwise_cons.2 ⟨fun x hx _ => ha x hx, hl⟩
    · rw [List.orderedInsert_of_not_le r l hab]
      refine List.pairwise_cons.2
        ⟨fun x hx => ?_, ih hl' fun x hx => ha x (List.mem_cons_of_mem b hx)⟩
      obtain rfl | hx := (List.mem_orderedInsert r).1 hx
      · exact fun h => absurd h hab
      · exact hb x hx

/-- **Sorting is stable**: what is equal for the order stays as it was. -/
theorem pairwise_insertionSort_stable (hl : l.Pairwise lt) :
    (l.insertionSort r).Pairwise fun x y => r y x → lt x y := by
  induction l with
  | nil => exact List.Pairwise.nil
  | cons a l ih =>
    obtain ⟨ha, hl⟩ := List.pairwise_cons.1 hl
    exact pairwise_orderedInsert_stable (ih hl) fun x hx => ha x ((List.mem_insertionSort r).1 hx)

end Stable

end XEdge.Lib
