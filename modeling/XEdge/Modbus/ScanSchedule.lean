import XEdge.Lib.Pacing
import XEdge.Modbus.TagGroups

/-!
# Continuous polling (`BaseModbusPollingDriver._poll_continuously`)

A group in the continuous mode is read in cycles.  The loop keeps the time at which the next cycle
is due and moves it on by the scan interval after every read; a read that ends later than that is
an overrun, and then the next cycle is due at once.

Time is a number of any ordered field here, and arithmetic is exact.  How long each read takes and
how late the event loop resumes the task after each pause are given.
-/

namespace XEdge.Modbus

open Lib

variable {K : Type*} [Field K] [LinearOrder K]

def OVERRUN_LOG_INTERVAL_SECONDS : K := 10

def TagGroup.intervalSeconds {φ : Type} (group : TagGroup φ) : K := group.scanRateMs / 1000

theorem TagGroup.Accepted.intervalSeconds_pos [IsStrictOrderedRing K] {φ : Type}
    {group : TagGroup φ} (h : group.Accepted) : (0 : K) < group.intervalSeconds := by
  have hrate : (0 : K) < group.scanRateMs := by exact_mod_cast h.scanRateMs.1
  exact div_pos hrate (by norm_num)

structure PollLoop (K : Type*) where
  nextDue : K
  overrunning : Bool
  lastOverrunLog : K

inductive ScanLog (K : Type*) where
  /-- `modbus.scan_overrun`, with the lateness that is logged in tenths of a millisecond. -/
  | overrun (overrunSeconds : K)
  /-- `modbus.scan_overrun_recovered`. -/
  | overrunRecovered

/-- `await asyncio.sleep(...)`. -/
inductive Pause (K : Type*) where
  /-- `sleep(0)`, which lets other tasks run. -/
  | yield
  | sleep (seconds : K)

def Pause.seconds : Pause K → K
  | .yield => 0
  | .sleep seconds => seconds

structure CycleEnd (K : Type*) where
  loop : PollLoop K
  pause : Pause K
  log : Option (ScanLog K)

namespace PollLoop

def new (t₀ : K) : PollLoop K := ⟨t₀, false, 0⟩

/-- The body of the loop after `_read_and_publish`, which has returned at the time `now`. -/
def endCycle (interval : K) (l : PollLoop K) (now : K) : CycleEnd K :=
  let nextDue := l.nextDue + interval
  if nextDue ≤ now then
    -- on entering the overrun, and then every ten seconds
    if l.overrunning = false ∨ OVERRUN_LOG_INTERVAL_SECONDS ≤ now - l.lastOverrunLog then
      ⟨⟨now, true, now⟩, .yield, some (.overrun (now - nextDue))⟩
    else ⟨⟨now, true, l.lastOverrunLog⟩, .yield, none⟩
  else
    ⟨⟨nextDue, false, l.lastOverrunLog⟩, .sleep (nextDue - now),
      if l.overrunning then some .overrunRecovered else none⟩

theorem nextDue_endCycle (interval : K) (l : PollLoop K) (now : K) :
    (l.endCycle interval now).loop.nextDue = max (l.nextDue + interval) now := by
  unfold endCycle
  by_cases hover : l.nextDue + interval ≤ now
  · simp only [if_pos hover, max_eq_right hover]
    split <;> rfl
  · simp only [if_neg hover, max_eq_left (le_of_not_ge hover)]

theorem add_pause_endCycle (interval : K) (l : PollLoop K) (now : K) :
    now + (l.endCycle interval now).pause.seconds = (l.endCycle interval now).loop.nextDue := by
  unfold endCycle
  by_cases hover : l.nextDue + interval ≤ now
  · simp only [if_pos hover]
    split <;> exact add_zero now
  · simp only [if_neg hover, Pause.seconds, add_sub_cancel]

end PollLoop

/-- How a run of the loop goes: the time at which it began, how long each read takes, and how late
the loop goes on after each pause; `overshoot 0` is the delay before the first read. -/
structure Timeline (K : Type*) where
  t₀ : K
  duration : ℕ → K
  overshoot : ℕ → K

namespace Timeline

variable (interval : K) (T : Timeline K)

/-- The variables at the start of the `n`-th cycle, and the time of that start. -/
def cycle : ℕ → PollLoop K × K
  | 0 => (.new T.t₀, T.t₀ + T.overshoot 0)
  | n + 1 =>
      let (l, start) := cycle n
      let now := start + T.duration n
      let next := l.endCycle interval now
      (next.loop, now + next.pause.seconds + T.overshoot (n + 1))

/-- The time at which the `n`-th cycle was due. -/
def due (n : ℕ) : K := (T.cycle interval n).1.nextDue

/-- The time at which the `n`-th cycle starts. -/
def start (n : ℕ) : K := (T.cycle interval n).2

/-- The time at which the `n`-th read has ended. -/
def finish (n : ℕ) : K := T.start interval n + T.duration n

/-- The `n`-th read ends when the next cycle is due, or later. -/
def Overruns (n : ℕ) : Prop := T.due interval n + interval ≤ T.finish interval n

variable {interval T}

theorem due_zero : T.due interval 0 = T.t₀ := rfl

theorem due_succ (n : ℕ) :
    T.due interval (n + 1) = max (T.due interval n + interval) (T.finish interval n) :=
  PollLoop.nextDue_endCycle interval _ _

theorem start_eq (n : ℕ) : T.start interval n = T.due interval n + T.overshoot n := by
  cases n with
  | zero => rfl
  | succ n =>
    show _ + _ + T.overshoot (n + 1) = _
    rw [PollLoop.add_pause_endCycle]
    rfl

theorem due_succ_of_overruns {n : ℕ} (h : T.Overruns interval n) :
    T.due interval (n + 1) = T.finish interval n := by
  rw [due_succ, max_eq_right h]

variable [IsStrictOrderedRing K]

theorem paced_timeline (he : ∀ k, 0 ≤ T.overshoot k) :
    Paced interval (T.due interval) (T.start interval) (T.finish interval) where
  due_succ := due_succ
  due_le_start n := by
    rw [start_eq]
    exact le_add_of_nonneg_right (he n)

end Timeline

variable [IsStrictOrderedRing K] [FloorRing K]

/-- **No drift and no burst.**  Whatever the reads take and however late the loop goes on: as long
as each read ends within its interval, the next cycle starts on a multiple of the interval, late
only by the delay of its own wake-up; by any time the cycles that have started are at most one more
than the intervals that have passed; and the same holds of the cycles after an overrun, counted
from its end. -/
theorem polling_drift_free (interval : K) (hinterval : 0 < interval) (T : Timeline K)
    (he : ∀ k, 0 ≤ T.overshoot k) :
    (∀ n, (∀ k < n, T.overshoot k + T.duration k < interval) →
      T.start interval n = T.t₀ + n * interval + T.overshoot n) ∧
    (∀ t, {n | T.start interval n ≤ t}.encard ≤ (⌊(t - T.t₀) / interval⌋ + 1).toNat) ∧
    ∀ k, T.Overruns interval k → ∀ t, {n | k < n ∧ T.start interval n ≤ t}.encard ≤
      (⌊(t - T.finish interval k) / interval⌋ + 1).toNat := by
  have hpaced : Paced interval (T.due interval) (T.start interval) (T.finish interval) :=
    Timeline.paced_timeline he
  refine ⟨fun n hfits => ?_, fun t => ?_, fun k hover t => ?_⟩
  · have hdue : T.due interval n = T.t₀ + n * interval := by
      refine hpaced.due_eq fun k hk _ => ?_
      rw [Timeline.finish, Timeline.start_eq, add_assoc]
      exact add_lt_add_right (hfits k hk) _
    rw [Timeline.start_eq, hdue]
  · have hcount := hpaced.encard_started_le hinterval 0 t
    rw [Timeline.due_zero] at hcount
    simpa using hcount
  · have hcount := hpaced.encard_started_le hinterval (k + 1) t
    rw [Timeline.due_succ_of_overruns hover] at hcount
    exact hcount

/-- A group that is read every second: the second read takes two and a half. -/
def slowSecondRead : Timeline ℚ where
  t₀ := 100
  duration n := if n = 1 then 5 / 2 else 1 / 4
  overshoot n := if n = 3 then 1 / 8 else 0

theorem polling_drift_free_slowSecondRead :
    slowSecondRead.start 1 1 = 101 ∧ slowSecondRead.Overruns 1 1 ∧
    slowSecondRead.start 1 2 = 207 / 2 ∧ slowSecondRead.start 1 3 = 104 + 5 / 8 ∧
    {n | 1 < n ∧ slowSecondRead.start 1 n ≤ 105}.encard ≤ 2 := by
  have he : ∀ k, 0 ≤ slowSecondRead.overshoot k := by
    intro k
    unfold slowSecondRead
    dsimp only
    split <;> norm_num
  have hover : slowSecondRead.Overruns 1 1 := by
    rw [Timeline.Overruns]
    decide +kernel
  obtain ⟨hstart, -, hburst⟩ := polling_drift_free (1 : ℚ) one_pos slowSecondRead he
  have hone := hstart 1 fun k hk => by
    obtain rfl : k = 0 := by omega
    decide +kernel
  refine ⟨hone.trans (by decide +kernel), hover, by decide +kernel, by decide +kernel, ?_⟩
  have hcount := hburst 1 hover 105
  have hbound : (⌊((105 : ℚ) - slowSecondRead.finish 1 1) / 1⌋ + 1).toNat = 2 := by decide +kernel
  rw [hbound] at hcount
  exact_mod_cast hcount

end XEdge.Modbus
