import XEdge.Lib.Dict
import XEdge.Lib.Machine

/-!
# Requests per minute (`xedge/api/rate_limit.py`)

For each client address the middleware keeps the times of the accepted requests of the last
minute, and refuses a request when there are as many as the limit.  When more than 10,000
addresses are tracked it forgets them all.

Times are rational seconds, and `now - 60.0` is exact.
-/

namespace XEdge.Api

open Lib

/-! ## The middleware -/

def windowSeconds : ℚ := 60

def maxTrackedIps : Nat := 10000

structure RateLimitConfig where
  requestsPerMinute : Nat
  exemptPaths : List String

structure ApiRequest where
  client : Option String
  path : String
  now : ℚ

def ApiRequest.clientIp (r : ApiRequest) : String := r.client.getD "unknown"

inductive RateVerdict where
  /-- `call_next`. -/
  | passed
  /-- Status 429, and the record `rate_limit.exceeded` of the audit log. -/
  | tooManyRequests (actor path : String)
  deriving DecidableEq, Repr

abbrev Hits := Dict String (List ℚ)

def Hits.of (hits : Hits) (ip : String) : List ℚ := (hits.get? ip).getD []

def live (now : ℚ) (times : List ℚ) : List ℚ := times.filter fun t => now - windowSeconds < t

def Hits.pruned (hits : Hits) : Hits :=
  if maxTrackedIps < hits.keys.length then .empty else hits

def dispatch (cfg : RateLimitConfig) (hits : Hits) (r : ApiRequest) : Hits × RateVerdict :=
  if r.path ∈ cfg.exemptPaths then (hits, .passed)
  else
    let hits := hits.pruned
    let times := live r.now (hits.of r.clientIp)
    if cfg.requestsPerMinute ≤ times.length then (hits, .tooManyRequests r.clientIp r.path)
    else (hits.set r.clientIp (times ++ [r.now]), .passed)

structure RateLimiter where
  hits : Hits
  clock : ℚ
  accepted : List (String × ℚ)

namespace RateLimiter

def start (clock : ℚ) : RateLimiter := ⟨.empty, clock, []⟩

def times (s : RateLimiter) (ip : String) : List ℚ :=
  (s.accepted.filter fun p => p.1 = ip).map Prod.snd

def after (cfg : RateLimitConfig) (s : RateLimiter) (r : ApiRequest) : RateLimiter where
  hits := (dispatch cfg s.hits r).1
  clock := r.now
  accepted :=
    if r.path ∉ cfg.exemptPaths ∧ (dispatch cfg s.hits r).2 = .passed then
      s.accepted ++ [(r.clientIp, r.now)]
    else s.accepted

end RateLimiter

/-- One request after the other; the clock does not go back. -/
def rateMachine (cfg : RateLimitConfig) : Machine RateLimiter ApiRequest where
  step s r := if s.clock ≤ r.now then some (s.after cfg r) else none

/-- What is forgotten no longer counts: there are not too many addresses, or every time that is
kept is over a minute old. -/
def ForgetsOld (cfg : RateLimitConfig) (s : RateLimiter) (r : ApiRequest) : Prop :=
  r.path ∈ cfg.exemptPaths ∨ s.hits.keys.length ≤ maxTrackedIps ∨
    ∀ times ∈ s.hits.values, ∀ t ∈ times, t ≤ r.now - windowSeconds

/-! ## What a request does -/

section Step

variable {cfg : RateLimitConfig} {s s' : RateLimiter} {r : ApiRequest}

/-- **What a request does**: nothing if it is exempt; else it prunes, and is refused or
accepted by what is left. -/
theorem step_cases (h : (rateMachine cfg).step s r = some s') :
    s.clock ≤ r.now ∧
      (r.path ∈ cfg.exemptPaths ∧ s' = ⟨s.hits, r.now, s.accepted⟩ ∨
      r.path ∉ cfg.exemptPaths ∧
        cfg.requestsPerMinute ≤ (live r.now (s.hits.pruned.of r.clientIp)).length ∧
        s' = ⟨s.hits.pruned, r.now, s.accepted⟩ ∨
      r.path ∉ cfg.exemptPaths ∧
        (live r.now (s.hits.pruned.of r.clientIp)).length < cfg.requestsPerMinute ∧
        s' = ⟨s.hits.pruned.set r.clientIp (live r.now (s.hits.pruned.of r.clientIp) ++ [r.now]),
          r.now, s.accepted ++ [(r.clientIp, r.now)]⟩) := by
  simp only [rateMachine] at h
  split at h
  · next hclock =>
    refine ⟨hclock, ?_⟩
    obtain rfl := Option.some.inj h
    by_cases hexempt : r.path ∈ cfg.exemptPaths
    · exact .inl ⟨hexempt, by simp [RateLimiter.after, dispatch, hexempt]⟩
    by_cases hfull : cfg.requestsPerMinute ≤ (live r.now (s.hits.pruned.of r.clientIp)).length
    · exact .inr (.inl ⟨hexempt, hfull, by simp [RateLimiter.after, dispatch, hexempt, hfull]⟩)
    · refine .inr (.inr ⟨hexempt, not_le.1 hfull, ?_⟩)
      simp [RateLimiter.after, dispatch, hexempt, hfull]
  · cases h

end Step

/-! ## Times that count -/

theorem live_append (now : ℚ) (l l' : List ℚ) : live now (l ++ l') = live now l ++ live now l' :=
  List.filter_append ..

variable {now : ℚ}

theorem live_live {later : ℚ} (h : now ≤ later) (l : List ℚ) :
    live later (live now l) = live later l := by
  rw [live, live, live, List.filter_filter]
  refine List.filter_congr fun t _ => ?_
  by_cases ht : later - windowSeconds < t
  · have : now - windowSeconds < t := by linarith
    simp [ht, this]
  · simp [ht]

theorem live_eq_nil {l : List ℚ} (h : ∀ t ∈ l, t ≤ now - windowSeconds) :
    live now l = [] := by
  refine List.filter_eq_nil_iff.2 fun t ht => ?_
  simpa using h t ht

theorem of_set_self (hits : Hits) (ip : String) (times : List ℚ) :
    Hits.of (hits.set ip times) ip = times := by
  rw [Hits.of, Dict.get?_set_self, Option.getD_some]

variable {ip ip' : String}

theorem of_set_of_ne (hits : Hits) (times : List ℚ) (h : ip' ≠ ip) :
    Hits.of (hits.set ip times) ip' = hits.of ip' := by
  rw [Hits.of, Dict.get?_set_of_ne _ _ h, Hits.of]

theorem times_append_self (s : RateLimiter) (hits : Hits) (clock : ℚ) (ip : String) (t : ℚ) :
    RateLimiter.times ⟨hits, clock, s.accepted ++ [(ip, t)]⟩ ip = s.times ip ++ [t] := by
  simp [RateLimiter.times, List.filter_append]

theorem times_append_of_ne (s : RateLimiter) (hits : Hits) (clock : ℚ) (t : ℚ) (h : ip' ≠ ip) :
    RateLimiter.times ⟨hits, clock, s.accepted ++ [(ip, t)]⟩ ip' = s.times ip' := by
  simp [RateLimiter.times, List.filter_append, Ne.symm h]

/-! ## The invariant -/

def Tracks (s : RateLimiter) : Prop :=
  ∀ ip now, s.clock ≤ now → live now (s.hits.of ip) = live now (s.times ip)

theorem tracks_start (clock : ℚ) : Tracks (.start clock) := fun _ _ _ => rfl

variable {cfg : RateLimitConfig} {s : RateLimiter} {r : ApiRequest}

theorem live_pruned (hguard : ForgetsOld cfg s r) (hpath : r.path ∉ cfg.exemptPaths) (ip : String)
    (hnow : r.now ≤ now) : live now (s.hits.pruned.of ip) = live now (s.hits.of ip) := by
  unfold Hits.pruned
  split
  · next hmany =>
    obtain hexempt | hfew | hold := hguard
    · exact absurd hexempt hpath
    · exact absurd hmany (not_lt.2 hfew)
    -- everything that is forgotten is too old
    refine (live_eq_nil fun t ht => ?_).symm
    unfold Hits.of at ht
    cases hget : s.hits.get? ip with
    | none =>
      rw [hget] at ht
      exact absurd ht List.not_mem_nil
    | some times =>
      rw [hget] at ht
      have := hold times ((Dict.mem_values _).2 ⟨ip, hget⟩) t ht
      linarith
  · rfl

variable {s' : RateLimiter}

theorem tracks_step (h : Tracks s)
    (hguard : ForgetsOld cfg s r) (hstep : (rateMachine cfg).step s r = some s') : Tracks s' := by
  obtain ⟨hclock, ⟨_, rfl⟩ | ⟨hpath, _, rfl⟩ | ⟨hpath, _, rfl⟩⟩ := step_cases hstep
  · intro ip now hnow
    exact h ip now (hclock.trans hnow)
  · intro ip now hnow
    rw [live_pruned hguard hpath ip hnow]
    exact h ip now (hclock.trans hnow)
  · intro ip now hnow
    have hbefore := h ip now (hclock.trans hnow)
    by_cases hip : ip = r.clientIp
    · subst hip
      rw [of_set_self, times_append_self, live_append, live_append, live_live hnow,
        live_pruned hguard hpath _ hnow, hbefore]
    · rw [of_set_of_ne _ _ hip, times_append_of_ne s _ _ _ hip,
        live_pruned hguard hpath ip hnow, hbefore]

/-! ## The limit -/

def Short (W : ℚ → Bool) : Prop :=
  ∀ t t', W t = true → W t' = true → t' - windowSeconds < t

/-- Every address had at most `n` requests accepted in such a span. -/
def RateLimiter.Bounded (n : Nat) (s : RateLimiter) : Prop :=
  ∀ ip W, Short W → ((s.times ip).filter W).length ≤ n

theorem length_filter_le_live {W : ℚ → Bool} (hW : Short W) (hnow : W now = true)
    (l : List ℚ) : (l.filter W).length ≤ (live now l).length := by
  refine (List.monotone_filter_right l fun t ht => ?_).length_le
  simpa using hW t now ht hnow

theorem bounded_step (h : Tracks s)
    (hb : s.Bounded cfg.requestsPerMinute) (hguard : ForgetsOld cfg s r)
    (hstep : (rateMachine cfg).step s r = some s') : s'.Bounded cfg.requestsPerMinute := by
  obtain ⟨hclock, ⟨_, rfl⟩ | ⟨_, _, rfl⟩ | ⟨hpath, hfree, rfl⟩⟩ := step_cases hstep
  · exact hb
  · exact hb
  · intro ip W hW
    by_cases hip : ip = r.clientIp
    · subst hip
      rw [times_append_self, List.filter_append, List.length_append]
      rw [live_pruned hguard hpath _ le_rfl, h _ _ hclock] at hfree
      by_cases hnow : W r.now = true
      · -- the request itself is in the span, and it was accepted by those before it
        have hbefore := length_filter_le_live hW hnow (s.times r.clientIp)
        have hone : ([r.now].filter W).length = 1 := by simp [hnow]
        omega
      · have hzero : ([r.now].filter W).length = 0 := by simp [hnow]
        have := hb r.clientIp W hW
        omega
    · rw [times_append_of_ne s _ _ _ hip]
      exact hb ip W hW

theorem short_Ico (a : ℚ) : Short fun t => a ≤ t && t < a + windowSeconds := by
  intro t t' ht ht'
  simp only [Bool.and_eq_true, decide_eq_true_eq] at ht ht'
  linarith [ht.1, ht'.2]

theorem short_Ioc (a : ℚ) : Short fun t => a < t && t ≤ a + windowSeconds := by
  intro t t' ht ht'
  simp only [Bool.and_eq_true, decide_eq_true_eq] at ht ht'
  linarith [ht.1, ht'.2]

/-- **The limit holds.**  In every run that forgets only what no longer counts, every address
has at most the limit accepted in any half-open minute, closed on either side. -/
theorem rate_bounded_run (cfg : RateLimitConfig) {clock : ℚ} {rs : List ApiRequest}
    {s : RateLimiter} (hmeets : (rateMachine cfg).Meets (ForgetsOld cfg) (.start clock) rs)
    (hrun : (rateMachine cfg).run (.start clock) rs = some s) (ip : String) (a : ℚ) :
    ((s.times ip).filter fun t => a ≤ t && t < a + windowSeconds).length ≤
        cfg.requestsPerMinute ∧
      ((s.times ip).filter fun t => a < t && t ≤ a + windowSeconds).length ≤
        cfg.requestsPerMinute := by
  have hstart : Tracks (.start clock) ∧ (RateLimiter.start clock).Bounded cfg.requestsPerMinute :=
    ⟨tracks_start clock, fun _ _ _ => Nat.zero_le _⟩
  have hend : Tracks s ∧ s.Bounded cfg.requestsPerMinute := by
    refine (rateMachine cfg).inv_run_of_meets
      (I := fun s => Tracks s ∧ s.Bounded cfg.requestsPerMinute) ?_ hstart hmeets hrun
    rintro s r s' ⟨htracks, hbounded⟩ hguard hstep
    exact ⟨tracks_step htracks hguard hstep, bounded_step htracks hbounded hguard hstep⟩
  exact ⟨hend.2 ip _ (short_Ico a), hend.2 ip _ (short_Ioc a)⟩

/-! ## Too many addresses -/

def strict : RateLimitConfig := ⟨1, ["/health"]⟩

def address (i : Nat) : String := String.ofList (List.replicate i 'a')

def getTags (i : Nat) (now : ℚ) : ApiRequest := ⟨some (address i), "/api/v1/tags", now⟩

/-- A request of each of the first `n` addresses. -/
def flood (n : Nat) : List ApiRequest := (List.range n).map fun i => getTags i 0

theorem address_injective : Function.Injective address := by
  intro i j h
  have hlength := congrArg (fun s => s.toList.length) h
  simpa [address] using hlength

theorem step_fresh (i : Nat) (hclock : s.clock ≤ now)
    (hfresh : s.hits.pruned.get? (address i) = none) :
    (rateMachine strict).step s (getTags i now) =
      some ⟨s.hits.pruned.set (address i) [now], now, s.accepted ++ [(address i, now)]⟩ := by
  have hpath : (getTags i now).path ∉ strict.exemptPaths := by
    show "/api/v1/tags" ∉ ["/health"]
    decide
  have hnone : live now (s.hits.pruned.of (getTags i now).clientIp) = [] := by
    show live now ((s.hits.pruned.get? (address i)).getD []) = []
    rw [hfresh]
    rfl
  have hstep : (rateMachine strict).step s (getTags i now) =
      some (s.after strict (getTags i now)) :=
    if_pos hclock
  obtain ⟨_, ⟨hexempt, _⟩ | ⟨_, hfull, _⟩ | ⟨_, _, heq⟩⟩ := step_cases hstep
  · exact absurd hexempt hpath
  · rw [show (getTags i now).now = now from rfl, hnone] at hfull
    exact absurd hfull (by decide)
  · rw [show (getTags i now).now = now from rfl, hnone] at heq
    rw [hstep, heq]
    rfl

theorem keys_set_of_none {hits : Hits} (h : hits.get? ip = none)
    (times : List ℚ) : (hits.set ip times).keys = hits.keys ++ [ip] := by
  show (upsert ip times hits.entries).map Prod.fst = _
  rw [upsert_of_notMem (lookup_eq_none_iff.1 h), List.map_append]
  rfl

theorem run_flood {n : Nat} (hn : n ≤ maxTrackedIps + 1) : ∃ s,
    (rateMachine strict).run (.start 0) (flood n) = some s ∧ s.clock = 0 ∧
      s.hits.keys = (List.range n).map address ∧
      s.accepted = (List.range n).map fun i => (address i, 0) := by
  induction n with
  | zero => exact ⟨_, rfl, rfl, rfl, rfl⟩
  | succ n ih =>
    obtain ⟨s, hrun, hclock, hkeys, haccepted⟩ := ih (by omega)
    have hfew : s.hits.pruned = s.hits := by
      rw [Hits.pruned, if_neg]
      rw [hkeys, List.length_map, List.length_range]
      omega
    have hfresh : s.hits.pruned.get? (address n) = none := by
      rw [hfew, Dict.get?_eq_none_iff, hkeys]
      intro hmem
      obtain ⟨i, hi, heq⟩ := List.mem_map.1 hmem
      rw [address_injective heq, List.mem_range] at hi
      exact absurd hi (lt_irrefl n)
    have hstep := step_fresh n (le_of_eq hclock) hfresh
    refine ⟨⟨s.hits.pruned.set (address n) [0], 0, s.accepted ++ [(address n, 0)]⟩, ?_, rfl, ?_, ?_⟩
    · rw [flood, List.range_succ, List.map_append, Machine.run_append]
      rw [show (List.range n).map (fun i => getTags i 0) = flood n from rfl, hrun,
        Option.bind_some, List.map_singleton, Machine.run_cons, hstep]
      rfl
    · rw [keys_set_of_none hfresh, hfew, hkeys, List.range_succ, List.map_append]
      rfl
    · rw [haccepted, List.range_succ, List.map_append]
      rfl

theorem rate_bounded_minuteApart : ∃ s,
    (rateMachine strict).run (.start 0) [getTags 0 0, getTags 1 30, getTags 0 60] = some s ∧
      s.times (address 0) = [0, 60] ∧
      ((s.times (address 0)).filter fun t => 0 ≤ t && t < 0 + windowSeconds).length ≤ 1 := by
  obtain ⟨s, hs, hv⟩ := Option.map_eq_some_iff.1
    (show ((rateMachine strict).run (.start 0) [getTags 0 0, getTags 1 30, getTags 0 60]).map
      (fun s => s.times (address 0)) = some [0, 60] by decide +kernel)
  refine ⟨s, hs, hv, (rate_bounded_run strict ?_ hs (address 0) 0).1⟩
  refine ⟨.inr (.inl (by decide +kernel)), ?_⟩
  refine ⟨.inr (.inl (by decide +kernel)), ?_⟩
  exact ⟨.inr (.inl (by decide +kernel)), trivial⟩

/-- **A second request within a second**: with a limit of 1, after the requests of 10,000 other
addresses. -/
theorem flooded_limiter_exceeds : ∃ s,
    (rateMachine strict).run (.start 0) (flood (maxTrackedIps + 1) ++ [getTags 0 1]) = some s ∧
      1 < ((s.times (address 0)).filter fun t => 0 ≤ t && t < 0 + windowSeconds).length := by
  obtain ⟨s, hrun, hclock, hkeys, haccepted⟩ := run_flood (le_refl (maxTrackedIps + 1))
  have hcleared : s.hits.pruned = .empty := by
    rw [Hits.pruned, if_pos]
    rw [hkeys, List.length_map, List.length_range]
    exact Nat.lt_succ_self _
  have hlater : s.clock ≤ 1 := by
    rw [hclock]
    norm_num
  have hstep := step_fresh 0 hlater (by rw [hcleared]; rfl)
  refine ⟨⟨s.hits.pruned.set (address 0) [1], 1, s.accepted ++ [(address 0, 1)]⟩, ?_, ?_⟩
  · rw [Machine.run_append, hrun, Option.bind_some, Machine.run_cons, hstep]
    rfl
  · have hfirst : (0 : ℚ) ∈ s.times (address 0) := by
      refine List.mem_map.2 ⟨(address 0, 0), List.mem_filter.2 ⟨?_, by simp⟩, rfl⟩
      rw [haccepted]
      exact List.mem_map.2 ⟨0, List.mem_range.2 (Nat.succ_pos _), rfl⟩
    rw [times_append_self, List.filter_append, List.length_append]
    have hcounted : 0 < ((s.times (address 0)).filter fun t =>
        0 ≤ t && t < 0 + windowSeconds).length :=
      List.length_pos_of_mem (List.mem_filter.2 ⟨hfirst, by decide +kernel⟩)
    have hnew : (([1] : List ℚ).filter fun t => 0 ≤ t && t < 0 + windowSeconds).length = 1 := by
      decide +kernel
    omega

end XEdge.Api
