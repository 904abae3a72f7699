import Mathlib

/-!
# Connectivity of a device (`xedge/core/connectivity.py`)

A driver records the outcome of its requests one by one, and the tracker says from them whether
the device is connected.  So many failures in a row make it not connected, and then so many
successes in a row are needed to make it connected again.
-/

namespace XEdge.Core

inductive ConnectivityState where
  | unknown
  | connected
  | degraded
  | notConnected
  deriving DecidableEq, Repr

def DEFAULT_FAILURE_THRESHOLD : Int := 3

def DEFAULT_RECOVERY_THRESHOLD : Int := 3

/-- `ConnectivityTracker`.  The constructor refuses thresholds below one. -/
structure ConnectivityTracker where
  failureThreshold : Int
  recoveryThreshold : Int
  state : ConnectivityState
  consecutiveFailures : Nat
  consecutiveSuccesses : Nat
  lastFailureReason : Option String
  changedAt : Int
  failureThreshold_pos : 1 ≤ failureThreshold
  recoveryThreshold_pos : 1 ≤ recoveryThreshold
  deriving DecidableEq

namespace ConnectivityTracker

/-- `ConnectivityTracker(failure_threshold, recovery_threshold)`; the error is the message of
the `ValueError`. -/
def new (failureThreshold recoveryThreshold now : Int) : Except String ConnectivityTracker :=
  if hfailure : failureThreshold < 1 then
    .error ("failure_threshold must be >= 1, got " ++ toString failureThreshold)
  else if hrecovery : recoveryThreshold < 1 then
    .error ("recovery_threshold must be >= 1, got " ++ toString recoveryThreshold)
  else
    .ok ⟨failureThreshold, recoveryThreshold, .unknown, 0, 0, none, now, Int.not_lt.1 hfailure,
      Int.not_lt.1 hrecovery⟩

/-- `ConnectivityTracker()`. -/
def default (now : Int) : ConnectivityTracker :=
  ⟨DEFAULT_FAILURE_THRESHOLD, DEFAULT_RECOVERY_THRESHOLD, .unknown, 0, 0, none, now, by decide,
    by decide⟩

def transition (t : ConnectivityTracker) (newState : ConnectivityState) (now : Int) :
    ConnectivityTracker :=
  if newState = t.state then t else { t with state := newState, changedAt := now }

def recordSuccess (t : ConnectivityTracker) (now : Int) : ConnectivityTracker :=
  let t := { t with
    consecutiveFailures := 0, consecutiveSuccesses := t.consecutiveSuccesses + 1 }
  match t.state with
  | .unknown | .degraded => t.transition .connected now
  | .notConnected =>
      if t.recoveryThreshold ≤ t.consecutiveSuccesses then t.transition .connected now else t
  | .connected => t

def recordFailure (t : ConnectivityTracker) (now : Int) (reason : Option String) :
    ConnectivityTracker :=
  let t := { t with
    consecutiveSuccesses := 0
    consecutiveFailures := t.consecutiveFailures + 1
    lastFailureReason := reason }
  if t.state = .notConnected then t
  else if t.failureThreshold ≤ t.consecutiveFailures then t.transition .notConnected now
  else t.transition .degraded now

/-! ## What a record leaves -/

variable (t : ConnectivityTracker) (now : Int)

theorem transition_eq (newState : ConnectivityState) :
    t.transition newState now = { t with
      state := newState
      changedAt := if newState = t.state then t.changedAt else now } := by
  unfold transition
  split
  · next h => rw [h]
  · rfl

/-- The state a success leads to: only a device that is not connected, and has not had successes
enough, stays as it is. -/
def successState : ConnectivityState :=
  if t.state = .notConnected ∧ ¬ t.recoveryThreshold ≤ ((t.consecutiveSuccesses + 1 : Nat) : Int)
  then .notConnected else .connected

def failureState : ConnectivityState :=
  if t.state = .notConnected ∨ t.failureThreshold ≤ ((t.consecutiveFailures + 1 : Nat) : Int)
  then .notConnected else .degraded

theorem recordSuccess_eq :
    t.recordSuccess now = { t with
      consecutiveFailures := 0
      consecutiveSuccesses := t.consecutiveSuccesses + 1
      state := t.successState
      changedAt := if t.successState = t.state then t.changedAt else now } := by
  unfold recordSuccess
  cases hstate : t.state with
  | unknown | degraded =>
    have hnew : t.successState = .connected := if_neg fun h => by simp [hstate] at h
    simp [transition_eq, hnew]
  | connected =>
    have hnew : t.successState = .connected := if_neg fun h => by simp [hstate] at h
    simp [hnew]
  | notConnected =>
    dsimp only
    split
    · next hle =>
      have hnew : t.successState = .connected := if_neg fun h => h.2 hle
      simp [transition_eq, hnew]
    · next hlt =>
      have hnew : t.successState = .notConnected := if_pos ⟨hstate, hlt⟩
      simp [hnew]
variable (reason : Option String)


theorem recordFailure_eq :
    t.recordFailure now reason = { t with
      consecutiveSuccesses := 0
      consecutiveFailures := t.consecutiveFailures + 1
      lastFailureReason := reason
      state := t.failureState
      changedAt := if t.failureState = t.state then t.changedAt else now } := by
  unfold recordFailure
  dsimp only
  split
  · next h =>
    have hnew : t.failureState = .notConnected := if_pos (.inl h)
    simp [hnew, h]
  · next h =>
    split
    · next hle =>
      have hnew : t.failureState = .notConnected := if_pos (.inr hle)
      simp [transition_eq, hnew]
    · next hlt =>
      have hnew : t.failureState = .degraded := if_neg fun hc => hc.elim h hlt
      simp [transition_eq, hnew]

theorem consecutiveFailures_recordSuccess : (t.recordSuccess now).consecutiveFailures = 0 := by
  rw [recordSuccess_eq]

theorem failureThreshold_recordSuccess :
    (t.recordSuccess now).failureThreshold = t.failureThreshold := by
  rw [recordSuccess_eq]

theorem consecutiveFailures_recordFailure :
    (t.recordFailure now reason).consecutiveFailures = t.consecutiveFailures + 1 := by
  rw [recordFailure_eq]

theorem failureThreshold_recordFailure :
    (t.recordFailure now reason).failureThreshold = t.failureThreshold := by
  rw [recordFailure_eq]

variable {t : ConnectivityTracker}

theorem state_recordFailure_of_notConnected (now : Int)
    (h : t.state = .notConnected) (reason : Option String) :
    (t.recordFailure now reason).state = .notConnected := by
  rw [recordFailure_eq]
  exact if_pos (.inl h)

def Counted (t : ConnectivityTracker) : Prop :=
  t.failureThreshold ≤ t.consecutiveFailures → t.state = .notConnected

theorem counted_recordSuccess : (t.recordSuccess now).Counted := by
  intro h
  rw [consecutiveFailures_recordSuccess, failureThreshold_recordSuccess] at h
  have hpos := t.failureThreshold_pos
  omega

theorem counted_recordFailure : (t.recordFailure now reason).Counted := by
  intro h
  rw [consecutiveFailures_recordFailure, failureThreshold_recordFailure] at h
  rw [recordFailure_eq]
  exact if_pos (.inr h)

theorem new_eq_ok {failureThreshold recoveryThreshold now : Int}
    (h : new failureThreshold recoveryThreshold now = .ok t) :
    t.failureThreshold = failureThreshold ∧ t.Counted := by
  unfold new at h
  split at h
  · cases h
  · next hfailure =>
    split at h
    · cases h
    · cases h
      refine ⟨rfl, fun hle => ?_⟩
      have hzero : failureThreshold ≤ ((0 : Nat) : Int) := hle
      omega

end ConnectivityTracker

end XEdge.Core
