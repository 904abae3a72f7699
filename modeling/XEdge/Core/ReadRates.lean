import XEdge.Lib.Machine

/-!
# Published read rates (`xedge/core/system_tags.py`)

Each driver object counts the tags it has read, from zero.  The publish loop samples the count of
each instance's current driver object, keeps an hour of samples, and publishes the differences
over a second, a minute and an hour.  The supervisor replaces the driver object at every restart.
-/

namespace XEdge.Core.ReadRates

open Lib

/-- A sample of an instance's `tag_read_count`. -/
structure Sample where
  time : ℚ
  count : Nat
  /-- Ghost: which of the instance's driver objects was asked, from the first on. -/
  driver : Nat
  deriving DecidableEq, Repr

/-- The `popleft` loop of `sample`. -/
def trim (cutoff : ℚ) : List Sample → List Sample
  | first :: second :: rest =>
      if first.time < cutoff then trim cutoff (second :: rest) else first :: second :: rest
  | history => history

/-- The loop of `_rate_over`. -/
def referenceFrom (cutoff : ℚ) (reference : Sample) : List Sample → Sample
  | [] => reference
  | s :: rest => if s.time ≤ cutoff then referenceFrom cutoff s rest else reference

/-- `_rate_over`; a history is never empty. -/
def rateOver (history : List Sample) (now windowSeconds : ℚ) : ℚ :=
  match history with
  | [] => 0
  | first :: rest =>
      let reference := referenceFrom (now - windowSeconds) first (first :: rest)
      let elapsed := now - reference.time
      if elapsed ≤ 0 then 0
      else (((first :: rest).getLast (List.cons_ne_nil _ _)).count - reference.count) / elapsed

def rateWindows : List (String × ℚ) := [("second", 1), ("minute", 60), ("hour", 3600)]

structure State where
  /-- The `tag_read_count` of each instance's driver object. -/
  count : String → Nat
  /-- Ghost: how often the object was replaced. -/
  driver : String → Nat
  history : String → List Sample
  clock : ℚ
  /-- The rates published so far: instance, unit and value. -/
  published : List (String × String × ℚ)

def State.start (clock : ℚ) : State := ⟨fun _ => 0, fun _ => 0, fun _ => [], clock, []⟩

inductive Event where
  | read (instanceId : String) (tags : Nat)
  | restart (instanceId : String)
  | sample (instanceId : String) (now : ℚ)

def State.newest (s : State) (instanceId : String) (now : ℚ) : Sample :=
  ⟨now, s.count instanceId, s.driver instanceId⟩

def State.sampled (s : State) (instanceId : String) (now : ℚ) : List Sample :=
  trim (now - 3600) (s.history instanceId ++ [s.newest instanceId now])

def State.rates (s : State) (instanceId : String) (now : ℚ) : List (String × String × ℚ) :=
  rateWindows.map fun (unit, windowSeconds) =>
    (instanceId, unit, rateOver (s.sampled instanceId now) now windowSeconds)

/-- What an event does; the clock does not go back. -/
def rateMachine : Machine State Event where
  step s
    | .read i tags => some { s with count := Function.update s.count i (s.count i + tags) }
    | .restart i => some { s with
        count := Function.update s.count i 0
        driver := Function.update s.driver i (s.driver i + 1) }
    | .sample i now =>
        if now < s.clock then none
        else some { s with
          history := Function.update s.history i (s.sampled i now)
          clock := now
          published := s.published ++ s.rates i now }

/-! ## One sample -/

variable {cutoff now : ℚ} {reference newest a : Sample} {history : List Sample}

theorem mem_of_mem_trim (h : a ∈ trim cutoff history) : a ∈ history := by
  induction history with
  | nil => exact h
  | cons first rest ih =>
    cases rest with
    | nil => exact h
    | cons second rest =>
      rw [trim] at h
      split at h
      · exact List.mem_cons_of_mem _ (ih h)
      · exact h

theorem getLast?_trim : (trim cutoff history).getLast? = history.getLast? := by
  induction history with
  | nil => rfl
  | cons first rest ih =>
    cases rest with
    | nil => rfl
    | cons second rest =>
      rw [trim]
      split
      · rw [ih, List.getLast?_cons_cons]
      · rfl

theorem referenceFrom_mem : referenceFrom cutoff reference history ∈ reference :: history := by
  induction history generalizing reference with
  | nil => exact List.mem_singleton_self _
  | cons s rest ih =>
    rw [referenceFrom]
    split
    · exact List.mem_cons_of_mem _ ih
    · exact List.mem_cons_self

/-- The reference of a rate is older than `now`, was taken of an earlier driver object, and that
had counted further. -/
def Lags (history : List Sample) (newest : Sample) (now windowSeconds : ℚ) : Prop :=
  let reference := referenceFrom (now - windowSeconds) (history.headD newest) history
  reference.time < now ∧ reference.driver < newest.driver ∧ newest.count < reference.count

instance (history : List Sample) (newest : Sample) (now windowSeconds : ℚ) :
    Decidable (Lags history newest now windowSeconds) :=
  inferInstanceAs (Decidable (_ ∧ _))

/-- A sample before the current count `newest`: of the same object, it has not counted
further. -/
def Before (newest a : Sample) : Prop :=
  a.driver ≤ newest.driver ∧ (a.driver = newest.driver → a.count ≤ newest.count)

theorem rateOver_nonneg_iff (hlast : history.getLast? = some newest)
    (h : ∀ a ∈ history, Before newest a) (windowSeconds : ℚ) :
    0 ≤ rateOver history now windowSeconds ↔ ¬ Lags history newest now windowSeconds := by
  obtain ⟨first, rest, rfl⟩ : ∃ first rest, history = first :: rest :=
    List.exists_cons_of_ne_nil fun hnil => by simp [hnil] at hlast
  rw [List.getLast?_eq_getLast_of_ne_nil (List.cons_ne_nil _ _), Option.some_inj] at hlast
  have hmem : referenceFrom (now - windowSeconds) first (first :: rest) ∈ first :: rest := by
    have hreference : referenceFrom (now - windowSeconds) first (first :: rest) ∈
        first :: first :: rest := referenceFrom_mem
    rcases List.mem_cons.1 hreference with heq | hmem
    · rw [heq]
      exact List.mem_cons_self
    · exact hmem
  rw [rateOver, Lags, List.headD_cons, hlast]
  generalize referenceFrom (now - windowSeconds) first (first :: rest) = r at hmem
  obtain ⟨hdriver, hcount⟩ := h r hmem
  by_cases htime : r.time < now
  · have hpos : 0 < now - r.time := sub_pos.2 htime
    rw [if_neg (not_le.2 hpos), le_div_iff₀ hpos, zero_mul, sub_nonneg, Nat.cast_le]
    constructor
    · omega
    · intro hlag
      by_contra hlt
      refine hlag ⟨htime, lt_of_le_of_ne hdriver fun heq => ?_, not_le.1 hlt⟩
      exact hlt (hcount heq)
  · rw [if_pos (by linarith)]
    exact ⟨fun _ hlag => htime hlag.1, fun _ => le_rfl⟩

/-! ## Runs -/

def Counted (s : State) : Prop := ∀ i now, ∀ a ∈ s.history i, Before (s.newest i now) a

def publishesNoLag (s : State) : Event → Prop
  | .sample i now => ∀ w ∈ rateWindows, ¬ Lags (s.sampled i now) (s.newest i now) now w.2
  | _ => True

instance (s : State) (e : Event) : Decidable (publishesNoLag s e) := by
  cases e <;> unfold publishesNoLag <;> infer_instance

theorem before_sampled {s : State} {i : String} (hs : Counted s)
    (ha : a ∈ s.sampled i now) : Before (s.newest i now) a := by
  rcases List.mem_append.1 (mem_of_mem_trim ha) with ha | ha
  · exact hs i now a ha
  · rw [List.mem_singleton.1 ha]
    exact ⟨le_rfl, fun _ => le_rfl⟩

theorem counted_step (s : State) (e : Event) (s' : State) (hs : Counted s)
    (hstep : rateMachine.step s e = some s') : Counted s' := by
  cases e with
  | read i tags =>
    cases hstep
    intro j now a ha
    obtain ⟨hdriver, hcount⟩ := hs j now a ha
    refine ⟨hdriver, fun heq => (hcount heq).trans ?_⟩
    by_cases hj : j = i
    · simp [State.newest, hj]
    · simp [State.newest, hj]
  | restart i =>
    cases hstep
    intro j now a ha
    obtain ⟨hdriver, hcount⟩ := hs j now a ha
    by_cases hj : j = i
    · subst hj
      simp only [Before, State.newest, Function.update_self] at hdriver ⊢
      exact ⟨by omega, fun heq => by omega⟩
    · simpa [Before, State.newest, hj] using ⟨hdriver, hcount⟩
  | sample i now =>
    simp only [rateMachine] at hstep
    split at hstep
    · cases hstep
    · cases hstep
      intro j now' a ha
      by_cases hj : j = i
      · subst hj
        have hmem : a ∈ s.sampled j now := by simpa using ha
        have hbefore : Before (s.newest j now) a := before_sampled hs hmem
        exact hbefore
      · have hmem : a ∈ s.history j := by simpa [hj] using ha
        exact hs j now' a hmem

def Nonneg (s : State) : Prop := ∀ r ∈ s.published, 0 ≤ r.2.2

theorem nonneg_step (s : State) (e : Event) (s' : State) (hs : Counted s)
    (hstep : rateMachine.step s e = some s') : Nonneg s' ↔ Nonneg s ∧ publishesNoLag s e := by
  cases e with
  | read | restart =>
    cases hstep
    exact (and_true _).symm ▸ Iff.rfl
  | sample i now =>
    simp only [rateMachine] at hstep
    split at hstep
    · cases hstep
    · cases hstep
      have hlast : (s.sampled i now).getLast? = some (s.newest i now) := by
        simp [State.sampled, getLast?_trim]
      simp only [Nonneg, List.forall_mem_append, State.rates, List.forall_mem_map, publishesNoLag,
        rateOver_nonneg_iff hlast fun a ha => before_sampled hs ha]

/-- **The published rates of a run are all at least zero exactly if no sample was taken while a
window reached back to an earlier driver object that had counted further.** -/
theorem rates_nonneg_iff (clock : ℚ) (es : List Event) (s : State)
    (hrun : rateMachine.run (State.start clock) es = some s) :
    Nonneg s ↔ rateMachine.Meets publishesNoLag (State.start clock) es := by
  have hstart : Counted (State.start clock) := fun i now a ha => absurd ha List.not_mem_nil
  have hiff := rateMachine.iff_meets counted_step nonneg_step hstart hrun
  have hnone : Nonneg (State.start clock) := fun r hr => absurd hr List.not_mem_nil
  exact hiff.trans (and_iff_right hnone)

def steadyReads : List Event := [.read "a" 5, .sample "a" 1, .read "a" 5, .sample "a" 2]

theorem rates_nonneg_steadyReads :
    ∃ s, rateMachine.run (.start 0) steadyReads = some s ∧ Nonneg s := by
  obtain ⟨s, hs⟩ := Option.isSome_iff_exists.1
    (show (rateMachine.run (.start 0) steadyReads).isSome = true by decide +kernel)
  exact ⟨s, hs, (rates_nonneg_iff _ _ s hs).2 (by decide +kernel)⟩

/-- A restart between two samples. -/
theorem restart_negative_rate :
    (rateMachine.run (.start 0) [.read "a" 100, .sample "a" 1, .restart "a", .sample "a" 2]).map
      (fun s => s.published.getLast?) = some (some ("a", "hour", -100)) := by
  decide +kernel

end XEdge.Core.ReadRates
