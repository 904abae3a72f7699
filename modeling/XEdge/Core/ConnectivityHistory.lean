import XEdge.Core.Connectivity
import XEdge.Lib.Latch

/-!
# Connectivity as a fact about the history

The tracker keeps two counters and a state.  What they stand for is said here of the whole
sequence of outcomes that were recorded, and the tracker is shown to agree with it.
-/

namespace XEdge.Core

open Lib

/-- A call of `record_success` or `record_failure`, with the time it takes for now. -/
inductive Outcome where
  | success (now : Int)
  | failure (now : Int) (reason : Option String)
  deriving DecidableEq, Repr

namespace Outcome

def succeeded : Outcome → Bool
  | .success _ => true
  | .failure _ _ => false

def now : Outcome → Int
  | .success now => now
  | .failure now _ => now

end Outcome

namespace ConnectivityTracker

def record (t : ConnectivityTracker) : Outcome → ConnectivityTracker
  | .success now => t.recordSuccess now
  | .failure now reason => t.recordFailure now reason

def recordAll (t : ConnectivityTracker) (outcomes : List Outcome) : ConnectivityTracker :=
  outcomes.foldl record t

def changeTimes (t : ConnectivityTracker) : List Outcome → List Int
  | [] => []
  | outcome :: outcomes =>
      let rest := (t.record outcome).changeTimes outcomes
      if (t.record outcome).state = t.state then rest else outcome.now :: rest

/-! ## When the state changed -/

theorem changedAt_record (t : ConnectivityTracker) (outcome : Outcome) :
    (t.record outcome).changedAt =
      if (t.record outcome).state = t.state then t.changedAt else outcome.now := by
  cases outcome with
  | success now => simp only [record, recordSuccess_eq, Outcome.now]
  | failure now reason => simp only [record, recordFailure_eq, Outcome.now]

theorem changedAt_recordAll (t : ConnectivityTracker) (outcomes : List Outcome) :
    (t.recordAll outcomes).changedAt = (t.changeTimes outcomes).getLastD t.changedAt := by
  induction outcomes generalizing t with
  | nil => rfl
  | cons outcome outcomes ih =>
    have hrec : t.recordAll (outcome :: outcomes) = (t.record outcome).recordAll outcomes := rfl
    rw [hrec, ih, changedAt_record, changeTimes]
    split
    · rfl
    · rw [List.getLastD_cons]

/-! ## The tracker and the history -/

/-- The tracker agrees with a history, in which `true` stands for a success. -/
structure Follows (F R : Nat) (history : List Bool) (t : ConnectivityTracker) : Prop where
  failureThreshold : t.failureThreshold = F
  recoveryThreshold : t.recoveryThreshold = R
  consecutiveFailures : t.consecutiveFailures = trailing false history
  consecutiveSuccesses : t.consecutiveSuccesses = trailing true history
  unknown : t.state = .unknown ↔ history = []
  notConnected : t.state = .notConnected ↔ Latched false true F R history
  connected : t.state = .connected → history.getLast? = some true
  degraded : t.state = .degraded → history.getLast? = some false

variable {F R : Nat} {history : List Bool} {t : ConnectivityTracker}

theorem follows_new (hF : 1 ≤ F) (hR : 1 ≤ R) (created : Int) :
    ∃ t, new F R created = .ok t ∧ t.changedAt = created ∧ Follows F R [] t := by
  have hfailure : ¬ (F : Int) < 1 := by omega
  have hrecovery : ¬ (R : Int) < 1 := by omega
  refine ⟨⟨F, R, .unknown, 0, 0, none, created, Int.not_lt.1 hfailure, Int.not_lt.1 hrecovery⟩,
    ?_, rfl, ?_⟩
  · simp only [new, dif_neg hfailure, dif_neg hrecovery]
  · exact
      { failureThreshold := rfl
        recoveryThreshold := rfl
        consecutiveFailures := rfl
        consecutiveSuccesses := rfl
        unknown := by simp
        notConnected := by simpa using not_latched_nil hF
        connected := by simp
        degraded := by simp }

theorem successState_eq_notConnected_iff (h : Follows F R history t) (hF : 1 ≤ F) (hR : 1 ≤ R) :
    t.successState = .notConnected ↔ Latched false true F R (history ++ [true]) := by
  rw [latched_concat_reset hF hR Bool.false_ne_true, replicate_suffix_iff, trailing_concat_self,
    ← h.consecutiveSuccesses, ← h.notConnected, successState, h.recoveryThreshold]
  simp only [Nat.cast_le, ite_eq_left_iff, reduceCtorEq, imp_false, not_not]

theorem failureState_eq_notConnected_iff (h : Follows F R history t) (hR : 1 ≤ R) :
    t.failureState = .notConnected ↔ Latched false true F R (history ++ [false]) := by
  rw [latched_concat_set hR Bool.false_ne_true, replicate_suffix_iff, trailing_concat_self,
    ← h.consecutiveFailures, ← h.notConnected, failureState, h.failureThreshold]
  simp only [Nat.cast_le, ite_eq_left_iff, reduceCtorEq, imp_false, not_not]

theorem follows_record (h : Follows F R history t) (hF : 1 ≤ F) (hR : 1 ≤ R)
    (outcome : Outcome) : Follows F R (history ++ [outcome.succeeded]) (t.record outcome) := by
  cases outcome with
  | success now =>
    have hstate : t.successState = .notConnected ∨ t.successState = .connected := by
      unfold successState
      split <;> simp
    rw [record, recordSuccess_eq]
    exact
      { failureThreshold := h.failureThreshold
        recoveryThreshold := h.recoveryThreshold
        consecutiveFailures := by simp [Outcome.succeeded]
        consecutiveSuccesses := by simp [Outcome.succeeded, h.consecutiveSuccesses]
        unknown := by obtain hs | hs := hstate <;> simp [hs]
        notConnected := successState_eq_notConnected_iff h hF hR
        connected := by simp [Outcome.succeeded]
        degraded := by obtain hs | hs := hstate <;> simp [hs] }
  | failure now reason =>
    have hstate : t.failureState = .notConnected ∨ t.failureState = .degraded := by
      unfold failureState
      split <;> simp
    rw [record, recordFailure_eq]
    exact
      { failureThreshold := h.failureThreshold
        recoveryThreshold := h.recoveryThreshold
        consecutiveFailures := by simp [Outcome.succeeded, h.consecutiveFailures]
        consecutiveSuccesses := by simp [Outcome.succeeded]
        unknown := by obtain hs | hs := hstate <;> simp [hs]
        notConnected := failureState_eq_notConnected_iff h hR
        connected := by obtain hs | hs := hstate <;> simp [hs]
        degraded := by simp [Outcome.succeeded] }

theorem follows_recordAll (h : Follows F R history t) (hF : 1 ≤ F) (hR : 1 ≤ R)
    (outcomes : List Outcome) :
    Follows F R (history ++ outcomes.map Outcome.succeeded) (t.recordAll outcomes) := by
  induction outcomes generalizing history t with
  | nil => simpa [recordAll] using h
  | cons outcome outcomes ih => simpa [recordAll] using ih (follows_record h hF hR outcome)

theorem Follows.state_of_not_latched (h : Follows F R history t)
    (hlatch : ¬ Latched false true F R history) {last : Bool}
    (hlast : history.getLast? = some last) : t.state = if last then .connected else .degraded := by
  have hunknown := h.unknown
  have hnotConnected := h.notConnected
  have hconnected := h.connected
  have hdegraded := h.degraded
  cases hstate : t.state with
  | unknown => simp [hunknown.1 hstate] at hlast
  | notConnected => exact absurd (hnotConnected.1 hstate) hlatch
  | connected =>
    rw [Option.some.inj ((hconnected hstate).symm.trans hlast).symm]
    rfl
  | degraded =>
    rw [Option.some.inj ((hdegraded hstate).symm.trans hlast).symm]
    rfl

theorem changeTimes_ne_nil (hunknown : t.state = .unknown) (outcome : Outcome)
    (outcomes : List Outcome) : t.changeTimes (outcome :: outcomes) ≠ [] := by
  have hne : (t.record outcome).state ≠ t.state := by
    rw [hunknown]
    cases outcome with
    | success now =>
      rw [record, recordSuccess_eq]
      unfold successState
      split <;> simp
    | failure now reason =>
      rw [record, recordFailure_eq]
      unfold failureState
      split <;> simp
  rw [changeTimes, if_neg hne]
  exact List.cons_ne_nil _ _

end ConnectivityTracker

open ConnectivityTracker

/-- **Hysteresis.**  The state is the one that the outcomes recorded so far define, and
`changed_at` is the time of the last of them that changed it. -/
theorem connectivity_eq_history (F R : Nat) (hF : 1 ≤ F) (hR : 1 ≤ R) (created : Int) :
    ∃ t, ConnectivityTracker.new F R created = .ok t ∧ t.changedAt = created ∧
      ∀ outcomes : List Outcome,
        let history := outcomes.map Outcome.succeeded
        let s := t.recordAll outcomes
        (s.state = .unknown ↔ history = []) ∧
        (s.state = .notConnected ↔ Latched false true F R history) ∧
        (∀ last, history.getLast? = some last → ¬ Latched false true F R history →
          s.state = if last then .connected else .degraded) ∧
        (outcomes ≠ [] → (t.changeTimes outcomes).getLast? = some s.changedAt) := by
  obtain ⟨t, hnew, hcreated, hfollows⟩ := follows_new hF hR created
  refine ⟨t, hnew, hcreated, fun outcomes => ?_⟩
  have h := follows_recordAll hfollows hF hR outcomes
  rw [List.nil_append] at h
  refine ⟨h.unknown, h.notConnected, fun last hlast hlatch => h.state_of_not_latched hlatch hlast,
    fun hne => ?_⟩
  obtain ⟨outcome, outcomes, rfl⟩ := List.exists_cons_of_ne_nil hne
  have hchanges := changeTimes_ne_nil (hfollows.unknown.2 rfl) outcome outcomes
  rw [changedAt_recordAll, List.getLastD_eq_getLast?, List.getLast?_eq_some_getLast hchanges]
  rfl

/-- Two failures, a success and a failure, with both thresholds at two: not connected, since the
second failure. -/
theorem connectivity_eq_history_twoOfFour :
    ∃ t, ConnectivityTracker.new 2 2 0 = .ok t ∧
      (t.recordAll [.failure 1 none, .failure 2 none, .success 3, .failure 4 none]).state =
        .notConnected ∧
      (t.changeTimes [.failure 1 none, .failure 2 none, .success 3, .failure 4 none]).getLast? =
        some 2 := by
  obtain ⟨t, hnew, -, h⟩ := connectivity_eq_history 2 2 (by decide) (by decide) 0
  have hfour := h [.failure 1 none, .failure 2 none, .success 3, .failure 4 none]
  refine ⟨t, hnew, hfour.2.1.2 ⟨[], [true, false], rfl, by decide⟩, ?_⟩
  cases hnew
  decide

end XEdge.Core
