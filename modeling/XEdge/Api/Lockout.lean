import XEdge.Lib.Dict

/-!
# Login lockout (`xedge/api/auth.py`, `xedge/fleet/auth.py`)

The device counts failed logins for all users together (`LoginAttemptTracker`), the fleet manager
for each tenant (`LoginLockout`), in a dictionary from which a tenant without recent failures is
removed.
-/

namespace XEdge.Api

open Lib

structure LockoutLimits where
  threshold : Int
  windowSeconds : ℚ

inductive Login where
  | failure
  | success
  | check
  deriving DecidableEq, Repr

variable (p : LockoutLimits)

/-- `_prune`. -/
def pruneTimes (now : ℚ) (failureTimes : List ℚ) : List ℚ :=
  let cutoff := now - p.windowSeconds
  failureTimes.filter fun t => t > cutoff

namespace LoginAttemptTracker

/-- The failure times after `record_failure`, `record_success` or `is_locked_out`. -/
def step (failureTimes : List ℚ) (now : ℚ) : Login → List ℚ
  | .failure => pruneTimes p now failureTimes ++ [now]
  | .success => []
  | .check => pruneTimes p now failureTimes

def isLockedOut (failureTimes : List ℚ) (now : ℚ) : Bool :=
  p.threshold ≤ (step p failureTimes now .check).length

end LoginAttemptTracker

namespace LoginLockout

def prune (failureTimes : Dict String (List ℚ)) (tenantId : String) (now : ℚ) :
    Dict String (List ℚ) :=
  let pruned := pruneTimes p now ((failureTimes.get? tenantId).getD [])
  if pruned ≠ [] then failureTimes.set tenantId pruned else failureTimes.erase tenantId

/-- The failure times after `record_failure`, `record_success` or `is_locked_out`. -/
def step (failureTimes : Dict String (List ℚ)) (tenantId : String) (now : ℚ) :
    Login → Dict String (List ℚ)
  | .failure =>
      let pruned := prune p failureTimes tenantId now
      pruned.set tenantId ((pruned.get? tenantId).getD [] ++ [now])
  | .success => failureTimes.erase tenantId
  | .check => prune p failureTimes tenantId now

def isLockedOut (failureTimes : Dict String (List ℚ)) (tenantId : String) (now : ℚ) : Bool :=
  p.threshold ≤ (((step p failureTimes tenantId now .check).get? tenantId).getD []).length

end LoginLockout

structure LoginEvent where
  tenantId : String
  time : ℚ
  login : Login
  deriving DecidableEq, Repr

def lockoutAfter (es : List LoginEvent) : Dict String (List ℚ) :=
  es.foldl (fun d e => LoginLockout.step p d e.tenantId e.time e.login) .empty

def trackerAfter (es : List LoginEvent) : List ℚ :=
  es.foldl (fun ts e => LoginAttemptTracker.step p ts e.time e.login) []

def recentFailures (es : List LoginEvent) (cutoff : ℚ) : Nat :=
  (es.reverse.takeWhile (·.login ≠ .success)).countP fun e => e.login = .failure ∧ cutoff < e.time

/-! ## One tenant -/

variable {p} {d : Dict String (List ℚ)} {k tenantId : String} {now cutoff : ℚ} {login : Login}

theorem getD_prune :
    ((LoginLockout.prune p d tenantId now).get? k).getD [] =
      if k = tenantId then pruneTimes p now ((d.get? k).getD []) else (d.get? k).getD [] := by
  by_cases hempty : pruneTimes p now ((d.get? tenantId).getD []) = []
  · simp only [LoginLockout.prune, hempty, ne_eq, not_true, if_false, Dict.get?_erase]
    split
    · next hk => rw [hk, hempty, Option.getD_none]
    · rfl
  · simp only [LoginLockout.prune, ne_eq, hempty, not_false_iff, if_true, Dict.get?_set]
    split
    · next hk => rw [hk, Option.getD_some]
    · rfl

theorem getD_step :
    ((LoginLockout.step p d tenantId now login).get? k).getD [] =
      if k = tenantId then LoginAttemptTracker.step p ((d.get? k).getD []) now login
      else (d.get? k).getD [] := by
  cases login with
  | failure =>
    rw [LoginLockout.step, Dict.get?_set]
    split
    · next hk =>
      subst hk
      simp [getD_prune, LoginAttemptTracker.step]
    · next hk => simp [getD_prune, hk]
  | success =>
    rw [LoginLockout.step, Dict.get?_erase]
    split <;> rfl
  | check => exact getD_prune

theorem getD_lockoutAfter (es : List LoginEvent) :
    ((lockoutAfter p es).get? k).getD [] = trackerAfter p (es.filter (·.tenantId = k)) := by
  induction es using List.reverseRecOn with
  | nil => rfl
  | append_singleton es e ih =>
    simp only [lockoutAfter, trackerAfter, List.foldl_append, List.foldl_cons, List.foldl_nil,
      List.filter_append] at ih ⊢
    rw [getD_step, ih]
    by_cases hk : e.tenantId = k
    · simp [hk]
    · simp [hk, Ne.symm hk]

/-! ## The window -/

theorem countP_pruneTimes (h : now - p.windowSeconds ≤ cutoff) (ts : List ℚ) :
    (pruneTimes p now ts).countP (cutoff < ·) = ts.countP (cutoff < ·) := by
  rw [pruneTimes, List.countP_filter]
  refine List.countP_congr fun t _ => ?_
  simp only [Bool.and_eq_true, decide_eq_true_eq]
  exact ⟨And.left, fun ht => ⟨ht, h.trans_lt ht⟩⟩

/-- What a tracker has kept counts as the whole trace does, after any cutoff that is not before
those used so far. -/
theorem countP_trackerAfter {es : List LoginEvent}
    (hclock : ∀ e ∈ es, e.time - p.windowSeconds ≤ cutoff) :
    (trackerAfter p es).countP (cutoff < ·) = recentFailures es cutoff := by
  induction es using List.reverseRecOn with
  | nil => rfl
  | append_singleton es e ih =>
    have hrest := ih fun e' he' => hclock e' (List.mem_append_left _ he')
    have he := hclock e (by simp)
    have hstep : trackerAfter p (es ++ [e]) =
        LoginAttemptTracker.step p (trackerAfter p es) e.time e.login := by
      simp [trackerAfter]
    rw [hstep]
    cases hlogin : e.login with
    | failure =>
      simp [LoginAttemptTracker.step, List.countP_append, countP_pruneTimes he, hrest,
        recentFailures, hlogin, List.countP_cons]
    | success => simp [LoginAttemptTracker.step, recentFailures, hlogin]
    | check =>
      simp [LoginAttemptTracker.step, countP_pruneTimes he, hrest, recentFailures, hlogin]

theorem isLockedOut_eq (ts : List ℚ) :
    LoginAttemptTracker.isLockedOut p ts now =
      decide (p.threshold ≤ ts.countP (now - p.windowSeconds < ·)) := by
  rw [LoginAttemptTracker.isLockedOut, LoginAttemptTracker.step, pruneTimes,
    List.countP_eq_length_filter]

/-- **A tenant is locked out exactly if a tracker fed with its events alone says so, and that is
when there were enough failures within the window since its last success**, at any time after
any trace of any tenants with a clock that does not go back. -/
theorem lockout_equivalence (p : LockoutLimits) (es : List LoginEvent) (tenantId : String)
    (now : ℚ) (hclock : (es.map (·.time) ++ [now]).Pairwise (· ≤ ·)) :
    LoginLockout.isLockedOut p (lockoutAfter p es) tenantId now =
        LoginAttemptTracker.isLockedOut p (trackerAfter p (es.filter (·.tenantId = tenantId)))
          now ∧
      LoginAttemptTracker.isLockedOut p (trackerAfter p (es.filter (·.tenantId = tenantId))) now =
        decide (p.threshold ≤
          recentFailures (es.filter (·.tenantId = tenantId)) (now - p.windowSeconds)) := by
  constructor
  · rw [LoginLockout.isLockedOut, getD_step, if_pos rfl, getD_lockoutAfter]
    rfl
  · rw [isLockedOut_eq, countP_trackerAfter]
    intro e he
    have hle : e.time ≤ now := (List.pairwise_append.1 hclock).2.2 _
      (List.mem_map_of_mem (List.mem_of_mem_filter he)) _ (List.mem_singleton_self _)
    linarith

theorem lockout_equivalence_twoTenants :
    LoginLockout.isLockedOut ⟨1, 900⟩
      (lockoutAfter ⟨1, 900⟩ [⟨"a", 0, .failure⟩, ⟨"b", 5, .success⟩]) "a" 899 = true := by
  obtain ⟨hsame, hcount⟩ := lockout_equivalence ⟨1, 900⟩
    [⟨"a", 0, .failure⟩, ⟨"b", 5, .success⟩] "a" 899 (by simp; norm_num)
  rw [hsame, hcount]
  decide +kernel

end XEdge.Api
